import GuardedCall.Proofs.Json.Nesting
import GuardedCall.Proofs.Json.Reads
import GuardedCall.Tagged.Basic

/-!
# Reading tagged data that is written

The readers of scalars, lists, variants and records on the text of data. Whether a value is read
back is decided by a condition on it and by whether its depth is within the levels that may still
be opened: each array and each object takes one level.

Main definition: `ReadsData`.
Main statements: `readsData_listOf`, `readsData_variant`, `readsData_record`.
-/

namespace GuardedCall.Tagged

open Json

variable {α β σ τ : Type} {P Q ok ok' : Prop} {x : α} {y : β} {j k : Json} {text : List Char}

/-- Given some levels, a reader takes the text of data for a value if a condition holds and the
data is no deeper than that, and fails otherwise. -/
def ReadsData (reader : Nat → Reader α) (j : Json) (P : Prop) (x : α) : Prop :=
  ∀ n, Reads (reader n) (print j) (P ∧ depth j ≤ n) x

/-- The condition under which data is read back may be put in other words. -/
theorem ReadsData.congr {reader : Nat → Reader α} (h : ReadsData reader j P x) (hP : P ↔ Q) :
    ReadsData reader j Q x :=
  fun n => (h n).congr (and_congr_left fun _ => hP)

/-- A text that is read on every level is that of data without depth. -/
theorem readsData_flat {reader : Nat → Reader α} (hj : depth j = 0)
    (h : ∀ n, Reads (reader n) (print j) P x) : ReadsData reader j P x := by
  intro n
  rw [hj]
  exact (h n).congr (and_iff_left (Nat.zero_le n)).symm

theorem reads_mapResult {item : Reader α} (f : α → β) (h : Reads item text ok x) :
    Reads (mapResult f item) text ok (f x) :=
  fun rest hr => (h rest hr).map rfl

theorem ReadsData.map {reader : Nat → Reader α} (f : α → β) (h : ReadsData reader j P x) :
    ReadsData (fun n => mapResult f (reader n)) j P (f x) :=
  fun n => reads_mapResult f (h n)

/-- An array or object takes a level. -/
theorem reads_nested {inside : Nat → Reader α} {d : Nat}
    (h : ∀ m, Reads (inside m) text (P ∧ d ≤ m) x) (n : Nat) :
    Reads (nested n inside) text (P ∧ d + 1 ≤ n) x := by
  cases n with
  | zero => exact fun rest _ => decided_error _ fun hok => absurd hok.2 (Nat.not_succ_le_zero d)
  | succ m => exact (h m).congr (and_congr_right fun _ => Nat.succ_le_succ_iff.symm)

/-! ## Scalars -/

theorem readsData_str (s : String) : ReadsData (fun _ => str) (.str s) True s :=
  readsData_flat rfl fun _ => reads_scalarOf (readsScalar_string s) (decided_ok s)

theorem readsData_bool (b : Bool) : ReadsData (fun _ => bool) (.bool b) True b :=
  readsData_flat rfl fun _ => reads_scalarOf (readsScalar_bool b) (decided_ok b)

theorem fitsSigned_toInt (n : Int64) : Word64.fitsSigned n.toInt = true := by
  have hlow := n.le_toInt
  have hhigh := n.toInt_lt
  simp only [Word64.fitsSigned, Bool.and_eq_true, decide_eq_true_eq]
  omega

theorem readsData_int64 (n : Int64) : ReadsData (fun _ => int64) (.int n.toInt) True n := by
  have hn := fitsSigned_toInt n
  refine readsData_flat rfl fun _ => reads_scalarOf (readsScalar_int hn) ?_
  dsimp only
  rw [if_pos hn, Int64.ofInt_toInt]
  exact decided_ok n

theorem fitsSigned_byte (b : UInt8) : Word64.fitsSigned b.toNat = true := by
  have hb := b.toNat_lt
  simp only [Word64.fitsSigned, Bool.and_eq_true, decide_eq_true_eq]
  omega

theorem readsData_byte (b : UInt8) : ReadsData (fun _ => byte) (.int b.toNat) True b := by
  have hb : (0 : Int) ≤ b.toNat ∧ (b.toNat : Int) < 256 := by
    have := b.toNat_lt
    omega
  refine readsData_flat rfl fun _ => reads_scalarOf (readsScalar_int (fitsSigned_byte b)) ?_
  dsimp only
  rw [if_pos hb, Int.toNat_natCast, UInt8.ofNat_toNat]
  exact decided_ok b

/-- A floating point number is read back if it is finite. The others are written as null, which is
no floating point number. -/
theorem readsData_float {y : Binary64} (h : ReadsBack y) :
    ReadsData (fun _ => float) (if y.isFinite then .float y else .null) (y.isFinite = true) y := by
  by_cases hy : y.isFinite = true
  · rw [if_pos hy]
    have hscalar := readsScalar_float h hy
    exact readsData_flat rfl fun _ => reads_scalarOf hscalar ((decided_ok y).congr (by simp [hy]))
  · rw [if_neg hy]
    exact readsData_flat rfl fun _ => reads_scalarOf readsScalar_null (decided_error _ hy)

/-! ## The start of a text -/

/-- A text starts like that of a variant or a record: with a quote or a brace. -/
def Marked (text : List Char) : Prop :=
  ∃ c t, text = c :: t ∧ (c = '"' ∨ c = '\x7b')

theorem marked_str (s : String) : Marked (print (.str s)) := ⟨'"', _, rfl, .inl rfl⟩

theorem marked_obj (es : List (String × Json)) : Marked (print (.obj es)) :=
  ⟨'\x7b', _, by rw [print_obj], .inr rfl⟩

theorem Marked.starts (h : Marked text) : Starts text := by
  obtain ⟨c, t, rfl, rfl | rfl⟩ := h
  · exact ⟨_, _, rfl, rfl, by decide⟩
  · exact ⟨_, _, rfl, rfl, by decide⟩

theorem starts_arr (xs : List Json) : Starts (print (.arr xs)) :=
  ⟨'[', _, print_arr xs, rfl, by decide⟩

theorem starts_int {i : Int} (h : Word64.fitsSigned i = true) : Starts (print (.int i)) := by
  obtain ⟨c, t, hprint, hc⟩ := (readsScalar_int h).starts
  exact ⟨c, t, hprint, not_isBlank_of_beginsScalar hc, ne_of_beginsScalar hc rfl⟩

/-! ## Options -/

/-- Nothing is written as null, and so told apart from anything that is tagged. -/
theorem readsData_option {reader : Nat → Reader α} {write : α → Json} {ok : α → Prop}
    {x? : Option α} (hmarked : ∀ x ∈ x?, Marked (print (write x)))
    (h : ∀ x ∈ x?, ReadsData reader (write x) (ok x) x) :
    ReadsData (fun n => option (reader n)) ((x?.map write).getD .null) (∀ x ∈ x?, ok x) x? := by
  cases x? with
  | none =>
    refine readsData_flat rfl fun n rest _ => ?_
    exact (decided_ok (none, rest)).congr (by simp)
  | some x =>
    have hcongr : ok x ↔ ∀ z ∈ some x, ok z := by simp
    obtain ⟨c, t, hprint, hc⟩ := hmarked x rfl
    have hblank : isBlank c = false := by rcases hc with rfl | rfl <;> rfl
    have hn : c ≠ 'n' := by rcases hc with rfl | rfl <;> decide
    refine ReadsData.congr (fun n rest hr => ?_) hcongr
    have hitem := ((h x rfl).map some n) rest hr
    simp only [Option.map_some, Option.getD_some, hprint, List.cons_append] at hitem ⊢
    rw [option, skipBlank_cons hblank]
    split
    · rename_i heq
      exact absurd (List.cons.inj heq).1 hn
    · exact hitem

/-! ## Lists -/

/-- A list takes a level, and is read as what stands in it is. -/
theorem readsData_sequence (form : Form) {inside : Nat → Reader α} {js : List Json}
    (h : ∀ m, Reads (inside m) (separated (js.map print) ++ [']']) (P ∧ depthItems js ≤ m) x) :
    ReadsData (fun n => sequence form (nested n inside)) (.arr js) P x := by
  intro n
  have hinside := reads_nested h n
  rw [print_arr, depth]
  exact fun rest hr => hinside rest hr

/-- A list is read back if its items are. -/
theorem readsData_listOf {item : Nat → Reader α} {write : α → Json} {ok : α → Prop} {xs : List α}
    (hstarts : ∀ x ∈ xs, Starts (print (write x)))
    (h : ∀ x ∈ xs, ReadsData item (write x) (ok x) x) :
    ReadsData (fun n => listOf n item) (.arr (xs.map write)) (∀ x ∈ xs, ok x) xs := by
  refine readsData_sequence .sequence fun m => ?_
  have hitems := reads_items (fun x => print (write x)) hstarts fun x hx => h x hx m
  rw [List.map_map, depthItems_le_iff, List.forall_mem_map]
  exact hitems.congr forall₂_and

/-- The first element of a list of fixed size has no comma before it. -/
theorem reads_element_first (form : Form) (size : Nat) {item : Reader α} (hx : Starts text)
    (h : Reads item text ok x) : Reads (element form size 0 item) text ok x := by
  intro rest hr
  have helement : Decided ok (some x, rest) (element? true item (text ++ rest)) := by
    rw [element?, anotherItem_first hx]
    exact (h rest hr).map rfl
  exact helement.map rfl

theorem reads_element_next (form : Form) (size index : Nat) {item : Reader α}
    (hx : Starts text) (h : Reads item text ok x) :
    Reads (element form size (index + 1) item) (',' :: text) ok x := by
  intro rest hr
  have helement : Decided ok (some x, rest) (element? false item (',' :: text ++ rest)) := by
    rw [element?, List.cons_append, anotherItem_comma hx]
    exact (h rest hr).map rfl
  exact helement.map rfl

/-- A pair is read back if both of its parts are. -/
theorem reads_twoElements (form : Form) {left : Reader α} {right : Reader β} {m : Nat}
    (hx : Starts (print j)) (hy : Starts (print k)) (h : Reads left (print j) (P ∧ depth j ≤ m) x)
    (h' : Reads right (print k) (Q ∧ depth k ≤ m) y) :
    Reads (twoElements form left right) (separated ([j, k].map print) ++ [']'])
      ((P ∧ Q) ∧ depthItems [j, k] ≤ m) (x, y) := by
  intro rest _
  have hfirst := reads_element_first form 2 hx h (',' :: (print k ++ ']' :: rest)) (ends_comma _)
  have hsecond := reads_element_next form 2 0 hy h' (']' :: rest) (ends_closeList rest)
  have hok : (P ∧ depth j ≤ m) ∧ (Q ∧ depth k ≤ m) ↔ (P ∧ Q) ∧ depthItems [j, k] ≤ m := by
    rw [depthItems_le_iff]
    simp only [List.forall_mem_cons, List.not_mem_nil, false_implies, implies_true, and_true]
    exact and_and_and_comm
  have htext : separated ([j, k].map print) ++ [']'] ++ rest =
      print j ++ ',' :: (print k ++ ']' :: rest) := by
    simp [separated]
  rw [htext, twoElements]
  refine (hfirst.bind ?_).congr hok
  dsimp only
  exact hsecond.map rfl

/-! ## Variants -/

theorem reads_bareVariant {known : String → Except Fault τ} {bare : τ → Except Fault α}
    {object : Reader α} {name : String} {t : τ} (hknown : known name = .ok t)
    (hbare : bare t = .ok x) :
    Reads (variant (bareVariant known bare) object) (printString name) True x := by
  intro rest _
  have hread : bareVariant known bare (name.toList.flatMap printChar ++ '"' :: rest) =
      .ok (x, rest) := by
    rw [bareVariant, string_append, except_ok_bind]
    dsimp only
    rw [hknown, except_ok_bind, hbare, except_ok_bind]
  rw [printString, List.cons_append, List.append_assoc, List.singleton_append, variant,
    skipBlank_cons rfl]
  exact (decided_ok (x, rest)).of_eq hread

theorem reads_variantObject {known : String → Except Fault τ} {contents : τ → Reader α}
    {name : String} {t : τ} (hknown : known name = .ok t)
    (h : Reads (contents t) (print j) ok x) :
    Reads (variantObject known contents) (printMember (name, j) ++ ['\x7d']) ok x := by
  intro rest _
  have hname : variantName (printString name ++ (':' :: print j ++ '\x7d' :: rest)) =
      .ok (name, ':' :: print j ++ '\x7d' :: rest) := by
    rw [variantName, anotherMember_first, except_ok_bind]
    exact string_append name _
  rw [printMember, List.append_assoc, List.append_assoc, List.singleton_append, variantObject,
    hname, except_ok_bind]
  dsimp only
  rw [hknown, except_ok_bind]
  exact (h _ (ends_closeObject rest)).map rfl

/-- A variant with contents is read back if they are. -/
theorem readsData_variant {bare : Reader α} {known : String → Except Fault τ}
    {contents : Nat → τ → Reader α} {name : String} {t : τ} (hknown : known name = .ok t)
    (h : ReadsData (fun m => contents m t) j P x) :
    ReadsData (fun n => variant bare (nested n fun m => variantObject known (contents m)))
      (.obj [(name, j)]) P x := by
  intro n
  have hobject := reads_nested (fun m => reads_variantObject hknown (h m)) n
  have hone : separated [printMember (name, j)] = printMember (name, j) := List.append_nil _
  rw [print_obj, List.map_singleton, hone, depth, depthMembers, depthMembers,
    Nat.max_eq_left (Nat.zero_le _)]
  exact fun rest hr => hobject rest hr

/-- A variant without contents is read back. -/
theorem readsData_enumeration {known : String → Except Fault τ} {name : String} {t : τ}
    (hknown : known name = .ok t) : ReadsData (enumeration known) (.str name) True t :=
  readsData_flat rfl fun _ => reads_bareVariant hknown rfl

/-! ## Records -/

/-- A field is read back behind its name and a colon. -/
theorem reads_field {name : String} {item : Reader α} {set : α → σ}
    (h : Reads item (print j) ok x) :
    Reads (field name none item set) (':' :: print j) ok (set x) :=
  fun rest hr => reads_mapResult set h rest hr

theorem reads_fieldsThen {level : Nat} {member : String → σ → Reader σ} {start fields : σ}
    {finish : σ → Except Fault α} {es : List (String × Json)}
    (h : MembersRead level member start es P fields) (hfinish : finish fields = .ok x) :
    Reads (fieldsThen member start finish) (separated (es.map printMember) ++ ['\x7d'])
      (P ∧ depthMembers es ≤ level) x := by
  intro rest hr
  refine (reads_members h rest hr).map ?_
  dsimp only
  rw [hfinish]
  rfl

/-- A record is read back if all its fields are. -/
theorem readsData_record {name : String} {list : Nat → Reader α}
    {member : Nat → String → σ → Reader σ} {start fields : σ} {finish : σ → Except Fault α}
    {es : List (String × Json)} (h : ∀ m, MembersRead m (member m) start es P fields)
    (hfinish : finish fields = .ok x) (hP : P ↔ Q) :
    ReadsData (fun n => record name n (fun m => fieldsThen (member m) start finish) list)
      (.obj es) Q x := by
  intro n
  have hobject := reads_nested (fun m => reads_fieldsThen (h m) hfinish) n
  rw [print_obj, depth]
  exact Reads.congr (fun rest hr => hobject rest hr) (and_congr_left fun _ => hP)

end GuardedCall.Tagged
