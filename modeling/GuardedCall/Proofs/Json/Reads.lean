import GuardedCall.Json.Items
import GuardedCall.Proofs.Json.Nesting
import GuardedCall.Proofs.Json.Numerals
import GuardedCall.Proofs.Json.Strings

/-!
# Reading what is written

What a reader does with the text of a value: it gives the value and leaves what follows, or it
fails, according to a condition on the value. The condition of a list is that of all its items,
and the condition of an object that of all its members: reading goes from left to right, and a
part that is refused makes the whole be refused.

Main definitions: `Decided`, `Reads`, `MembersRead`.
Main statements: `reads_scalarOf`, `reads_items`, `reads_members`.
-/

namespace GuardedCall

/-! ## Decided results -/

/-- A result is `y` if the condition holds, and a fault if it does not. -/
structure Decided {ε β : Type} (ok : Prop) (y : β) (e : Except ε β) : Prop where
  gives : ok → e = .ok y
  fails : ¬ ok → ∃ f, e = .error f

section Decided

variable {ε α β : Type} {ok ok' : Prop} {x : α} {y : β} {e : Except ε α} {f : α → Except ε β}

theorem decided_ok (x : α) : Decided True x (.ok x : Except ε α) :=
  ⟨fun _ => rfl, fun h => absurd trivial h⟩

theorem decided_error (fault : ε) (h : ¬ ok) : Decided ok x (.error fault : Except ε α) :=
  ⟨fun hok => absurd hok h, fun _ => ⟨fault, rfl⟩⟩

theorem Decided.of_eq {e' : Except ε α} (h : Decided ok x e) (he : e' = e) : Decided ok x e' :=
  he ▸ h

theorem Decided.congr (h : Decided ok x e) (hok : ok ↔ ok') : Decided ok' x e :=
  ⟨fun h' => h.gives (hok.2 h'), fun h' => h.fails fun h'' => h' (hok.1 h'')⟩

/-- Two steps are decided by both conditions. -/
theorem Decided.bind (h : Decided ok x e) (h' : Decided ok' y (f x)) :
    Decided (ok ∧ ok') y (e >>= f) := by
  by_cases hok : ok
  · rw [h.gives hok, except_ok_bind]
    exact h'.congr (and_iff_right hok).symm
  · obtain ⟨fault, hfault⟩ := h.fails hok
    rw [hfault, except_error_bind]
    exact decided_error fault fun hboth => hok hboth.1

/-- A second step that cannot fail changes the value only. -/
theorem Decided.map (h : Decided ok x e) (hf : f x = .ok y) : Decided ok y (e >>= f) := by
  have hstep : Decided True y (f x) := by
    rw [hf]
    exact decided_ok y
  exact (h.bind hstep).congr (and_iff_left trivial)

end Decided

namespace Json

variable {α σ : Type} {ok ok' : Prop} {text rest r : List Char} {x : α}

/-- On a text, whatever may follow it, a reader gives a value and leaves what follows, or it
fails, by whether the condition holds. -/
def Reads (reader : Reader α) (text : List Char) (ok : Prop) (x : α) : Prop :=
  ∀ rest, Ends rest → Decided ok (x, rest) (reader (text ++ rest))

theorem Reads.congr {reader : Reader α} (h : Reads reader text ok x) (hok : ok ↔ ok') :
    Reads reader text ok' x :=
  fun rest hr => (h rest hr).congr hok

/-! ## The start of a value -/

/-- A text starts with neither a blank nor a closing bracket. -/
def Starts (text : List Char) : Prop :=
  ∃ c t, text = c :: t ∧ isBlank c = false ∧ c ≠ ']'

theorem skipBlank_cons {c : Char} (h : isBlank c = false) (text : List Char) :
    skipBlank (c :: text) = c :: text := by
  simp [skipBlank, h]

/-- Blanks before something else are skipped. -/
theorem skipBlank_append {bs : List Char} (hbs : ∀ c ∈ bs, isBlank c = true) {c : Char}
    (hc : isBlank c = false) (t : List Char) : skipBlank (bs ++ c :: t) = c :: t := by
  rw [skipBlank, List.dropWhile_append_of_pos hbs]
  exact skipBlank_cons hc t

/-! ## Scalars -/

/-- On a text, whatever may follow it, the reader of scalars gives a scalar. -/
def ReadsScalar (text : List Char) (s : Scalar) : Prop :=
  ∀ rest, Ends rest → scalar (text ++ rest) = .ok (s, rest)

/-- The characters that a scalar begins with. -/
def beginsScalar (c : Char) : Bool :=
  c = 'n' || c = 't' || c = 'f' || c = '"' || c = '-' || c.isDigit

theorem ne_of_beginsScalar {c d : Char} (h : beginsScalar c = true)
    (hd : beginsScalar d = false) : c ≠ d := by
  rintro rfl
  rw [h] at hd
  cases hd

theorem not_isBlank_of_beginsScalar {c : Char} (h : beginsScalar c = true) :
    isBlank c = false := by
  simp only [isBlank, Bool.or_eq_false_iff, decide_eq_false_iff_not]
  exact ⟨⟨⟨ne_of_beginsScalar h rfl, ne_of_beginsScalar h rfl⟩, ne_of_beginsScalar h rfl⟩,
    ne_of_beginsScalar h rfl⟩

theorem beginsScalar_of_scalar {c : Char} {s : Scalar} (h : scalar (c :: text) = .ok (s, r)) :
    beginsScalar c = true := by
  rw [← Bool.not_eq_false]
  intro hc
  simp only [beginsScalar, Bool.or_eq_false_iff, decide_eq_false_iff_not] at hc
  obtain ⟨⟨⟨⟨⟨hn, ht⟩, hf⟩, hq⟩, hm⟩, hd⟩ := hc
  simp [scalar, hm, hd] at h

/-- A text on which a scalar is read starts with one of its characters. -/
theorem ReadsScalar.starts {s : Scalar} (h : ReadsScalar text s) :
    ∃ c t, text = c :: t ∧ beginsScalar c = true := by
  have hread := h [] ends_nil
  rw [List.append_nil] at hread
  cases text with
  | nil => cases hread
  | cons c t => exact ⟨c, t, rfl, beginsScalar_of_scalar hread⟩

/-- Where there is a scalar, the reader of scalars is used. -/
theorem scalarOf_cons {form : Form} {pick : Scalar → Except Fault α} {c : Char}
    (hc : beginsScalar c = true) :
    scalarOf form pick (c :: text) = scalar (c :: text) >>= fun p =>
      pick p.1 >>= fun x => .ok (x, p.2) := by
  have hl := ne_of_beginsScalar hc (d := '[') rfl
  have ho := ne_of_beginsScalar hc (d := '\x7b') rfl
  rw [scalarOf, skipBlank_cons (not_isBlank_of_beginsScalar hc)]
  simp [hl, ho]

/-- What is picked from a scalar decides. -/
theorem reads_scalarOf {form : Form} {pick : Scalar → Except Fault α} {s : Scalar}
    (hs : ReadsScalar text s) (hpick : Decided ok x (pick s)) :
    Reads (scalarOf form pick) text ok x := by
  intro rest hr
  have hread := hs rest hr
  obtain ⟨c, t, rfl, hc⟩ := hs.starts
  rw [List.cons_append] at hread ⊢
  rw [scalarOf_cons hc, hread, except_ok_bind]
  exact hpick.map rfl

theorem readsScalar_null : ReadsScalar "null".toList .null := fun _ _ => rfl

theorem readsScalar_bool (b : Bool) : ReadsScalar (print (.bool b)) (.bool b) := by
  cases b <;> exact fun _ _ => rfl

theorem readsScalar_string (s : String) : ReadsScalar (printString s) (.str s) := by
  intro rest _
  have hstring := string_append s rest
  rw [printString, List.cons_append, List.append_assoc, List.singleton_append, scalar, hstring]
  rfl

/-- What begins like a number is read as one. -/
theorem scalar_of_numberHead {c : Char} (hc : c = '-' ∨ c.isDigit = true) (t : List Char) :
    scalar (c :: t) = number (c :: t) >>= fun r => .ok (.number r.1, r.2) := by
  have hne (d : Char) (hm : d ≠ '-') (hd : d.isDigit = false) : c ≠ d := by
    rintro rfl
    rcases hc with hc | hc
    · exact hm hc
    · rw [hc] at hd
      cases hd
  have hn := hne 'n' (by decide) rfl
  have ht := hne 't' (by decide) rfl
  have hf := hne 'f' (by decide) rfl
  have hq := hne '"' (by decide) rfl
  simp [scalar, hc]

/-- A text that is read as a number is read as a scalar. -/
theorem readsScalar_number {n : Number} (h : number text = .ok (n, [])) :
    ReadsScalar text (.number n) := by
  intro rest hr
  have hnumber := number_append hr.endsNumber h
  cases text with
  | nil => cases h
  | cons c t =>
    rw [List.cons_append] at hnumber ⊢
    rw [scalar_of_numberHead (number_head h), hnumber]
    rfl

theorem readsScalar_int {i : Int} (h : Word64.fitsSigned i = true) :
    ReadsScalar (print (.int i)) (.number (.int i)) :=
  readsScalar_number (number_intDigits h)

theorem readsScalar_float {y : Binary64} (h : ReadsBack y) (hy : y.isFinite = true) :
    ReadsScalar (printFloat y) (.number (.float y)) :=
  readsScalar_number (h hy)

/-! ## Lists -/

theorem anotherItem_first (h : Starts text) (rest : List Char) :
    anotherItem true (text ++ rest) = .ok (true, text ++ rest) := by
  obtain ⟨c, t, rfl, hb, hc⟩ := h
  rw [List.cons_append, anotherItem, skipBlank_cons hb]
  simp

theorem anotherItem_comma (h : Starts text) (rest : List Char) :
    anotherItem false (',' :: (text ++ rest)) = .ok (true, text ++ rest) := by
  obtain ⟨c, t, rfl, hb, hc⟩ := h
  rw [List.cons_append, anotherItem, skipBlank_cons rfl]
  simp [skipBlank_cons hb]

/-- What stands behind an item may follow a value. -/
theorem ends_items (ts : List (List Char)) (rest : List Char) :
    Ends (ts.flatMap (',' :: ·) ++ ']' :: rest) := by
  cases ts with
  | nil => exact ends_closeList rest
  | cons t ts => exact ends_comma _

/-- Texts with a comma before each are at least as long as they are many. -/
theorem length_le_length_commas (ts : List (List Char)) :
    ts.length ≤ (ts.flatMap (',' :: ·)).length := by
  induction ts with
  | nil => exact Nat.le_refl 0
  | cons t ts ih =>
    simp only [List.flatMap_cons, List.length_append, List.length_cons] at ih ⊢
    omega

/-- There is fuel enough for the items behind the first. -/
theorem length_lt_separated (t : List Char) (ts : List (List Char)) (c : Char) (rest : List Char) :
    ts.length < (separated (t :: ts) ++ c :: rest).length := by
  have hcommas := length_le_length_commas ts
  simp only [separated, List.length_append, List.length_cons]
  omega

section Items

variable {item : Reader α} {xs : List α} (write : α → List Char) {okOf : α → Prop}

/-- The items behind the first, each with a comma before it. There is fuel enough as soon as there
is more than one step for each item. -/
theorem itemsFrom_more (hstarts : ∀ x ∈ xs, Starts (write x))
    (hitem : ∀ x ∈ xs, Reads item (write x) (okOf x) x) {fuel : Nat} (hfuel : xs.length < fuel)
    (rest : List Char) :
    Decided (∀ x ∈ xs, okOf x) (xs, ']' :: rest)
      (itemsFrom item fuel false ((xs.map write).flatMap (',' :: ·) ++ ']' :: rest)) := by
  induction xs generalizing fuel with
  | nil =>
    cases fuel with
    | zero => cases hfuel
    | succ fuel => exact (decided_ok _).congr (by simp)
  | cons x xs ih =>
    rw [List.forall_mem_cons] at hstarts hitem
    cases fuel with
    | zero => cases hfuel
    | succ fuel =>
      have hrest := ih hstarts.2 hitem.2 (Nat.lt_of_succ_lt_succ hfuel)
      have hfirst := hitem.1 _ (ends_items (xs.map write) rest)
      rw [List.map_cons, List.flatMap_cons, List.append_assoc, List.cons_append, itemsFrom,
        anotherItem_comma hstarts.1, except_ok_bind, List.forall_mem_cons]
      exact hfirst.bind (hrest.map rfl)

/-- A list is read if all its items are. -/
theorem reads_items (hstarts : ∀ x ∈ xs, Starts (write x))
    (hitem : ∀ x ∈ xs, Reads item (write x) (okOf x) x) :
    Reads (items item) (separated (xs.map write) ++ [']']) (∀ x ∈ xs, okOf x) xs := by
  intro rest _
  have hall : Decided (∀ x ∈ xs, okOf x) (xs, ']' :: rest)
      (itemsFrom item ((separated (xs.map write) ++ ']' :: rest).length + 1) true
        (separated (xs.map write) ++ ']' :: rest)) := by
    cases xs with
    | nil => exact (decided_ok _).congr (by simp)
    | cons x xs =>
      rw [List.forall_mem_cons] at hstarts hitem
      have hfuel := length_lt_separated (write x) (xs.map write) ']' rest
      rw [List.length_map] at hfuel
      have hrest := itemsFrom_more write hstarts.2 hitem.2 hfuel rest
      have hfirst := hitem.1 _ (ends_items (xs.map write) rest)
      rw [separated, List.append_assoc] at hrest
      rw [List.map_cons, separated, List.append_assoc, itemsFrom, anotherItem_first hstarts.1,
        except_ok_bind, List.forall_mem_cons]
      exact hfirst.bind (hrest.map rfl)
  rw [List.append_assoc, List.singleton_append, items]
  exact hall.map rfl

end Items

/-! ## Objects -/

theorem anotherMember_first (name : String) (rest : List Char) :
    anotherMember true (printString name ++ rest) =
      .ok (true, name.toList.flatMap printChar ++ '"' :: rest) := by
  rw [printString, List.cons_append, List.append_assoc]
  rfl

theorem anotherMember_comma (name : String) (rest : List Char) :
    anotherMember false (',' :: (printString name ++ rest)) =
      .ok (true, name.toList.flatMap printChar ++ '"' :: rest) := by
  rw [printString, List.cons_append, List.append_assoc]
  rfl

/-- What stands behind a member may follow a value. -/
theorem ends_members (ts : List (List Char)) (rest : List Char) :
    Ends (ts.flatMap (',' :: ·) ++ '\x7d' :: rest) := by
  cases ts with
  | nil => exact ends_closeObject rest
  | cons t ts => exact ends_comma _

/-- Members are read one after another from a state into another, each behind its name, if the
conditions of all of them hold and none is deeper than the level. -/
inductive MembersRead (level : Nat) (member : String → σ → Reader σ) :
    σ → List (String × Json) → Prop → σ → Prop
  | nil (s : σ) : MembersRead level member s [] True s
  | cons {s s₁ s₂ : σ} {name : String} {j : Json} {es : List (String × Json)} {P Q : Prop}
      (first : Reads (member name s) (':' :: print j) (P ∧ depth j ≤ level) s₁)
      (others : MembersRead level member s₁ es Q s₂) :
      MembersRead level member s ((name, j) :: es) (P ∧ Q) s₂

section Members

variable {level : Nat} {member : String → σ → Reader σ} {s s' : σ} {es : List (String × Json)}
  {P : Prop}

theorem member_within_iff {Q : Prop} {name : String} {j : Json} :
    (P ∧ depth j ≤ level) ∧ (Q ∧ depthMembers es ≤ level) ↔
      (P ∧ Q) ∧ depthMembers ((name, j) :: es) ≤ level := by
  rw [depthMembers, Nat.max_le]
  exact and_and_and_comm

/-- The members behind the first, each with a comma before it. -/
theorem membersFrom_more (h : MembersRead level member s es P s') {fuel : Nat}
    (hfuel : es.length < fuel) (rest : List Char) :
    Decided (P ∧ depthMembers es ≤ level) (s', '\x7d' :: rest)
      (membersFrom member fuel false s
        ((es.map printMember).flatMap (',' :: ·) ++ '\x7d' :: rest)) := by
  induction h generalizing fuel with
  | nil s =>
    cases fuel with
    | zero => cases hfuel
    | succ fuel => exact (decided_ok _).congr (by simp [depthMembers])
  | @cons _ _ _ name j es _ _ first others ih =>
    cases fuel with
    | zero => cases hfuel
    | succ fuel =>
      have hrest := ih (Nat.lt_of_succ_lt_succ hfuel)
      have hfirst := first _ (ends_members (es.map printMember) rest)
      rw [List.map_cons, List.flatMap_cons, List.append_assoc, printMember, List.cons_append,
        List.append_assoc, membersFrom, anotherMember_comma, except_ok_bind]
      dsimp only
      rw [if_pos rfl, string_append, except_ok_bind]
      exact (hfirst.bind hrest).congr member_within_iff

/-- An object is read if all its members are. -/
theorem reads_members (h : MembersRead level member s es P s') :
    Reads (members member s) (separated (es.map printMember) ++ ['\x7d'])
      (P ∧ depthMembers es ≤ level) s' := by
  intro rest _
  have hall : Decided (P ∧ depthMembers es ≤ level) (s', '\x7d' :: rest)
      (membersFrom member ((separated (es.map printMember) ++ '\x7d' :: rest).length + 1) true s
        (separated (es.map printMember) ++ '\x7d' :: rest)) := by
    cases h with
    | nil => exact (decided_ok _).congr (by simp [depthMembers])
    | @cons _ _ _ name j es _ _ first others =>
      have hfuel := length_lt_separated (printMember (name, j)) (es.map printMember) '\x7d' rest
      rw [List.length_map] at hfuel
      have hrest := membersFrom_more others hfuel rest
      have hfirst := first _ (ends_members (es.map printMember) rest)
      rw [separated, List.append_assoc, printMember, List.append_assoc] at hrest
      rw [List.map_cons, separated, List.append_assoc, printMember, List.append_assoc,
        membersFrom, anotherMember_first, except_ok_bind]
      dsimp only
      rw [if_pos rfl, string_append, except_ok_bind]
      exact (hfirst.bind hrest).congr member_within_iff
  rw [List.append_assoc, List.singleton_append, members]
  exact hall.map rfl

end Members

end Json

end GuardedCall
