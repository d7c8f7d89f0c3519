import GuardedCall.Json.Reader
import GuardedCall.Proofs.Entries
import GuardedCall.Proofs.Json.Parts
import GuardedCall.Proofs.Tagged.Accepts
import GuardedCall.Proofs.Tagged.Reads

/-!
# Reading data

The reader of data in both directions. Whatever text it accepts, the data is well formed and no
deeper than the levels that may be opened. The text that is written of data is read as this data if
it is not too deep, its members have distinct names, its whole numbers have 64 bits with a sign, and
its floating point numbers are finite and read back.

Main statements: `accepts_read`, `readable_of_parse`, `readsData_read`, `parse_print`.
-/

namespace GuardedCall.Json

open Tagged

variable {text rest : List Char} {c : Char} {j : Json}

/-! ## The reader by the start of a text -/

theorem read_openList (n : Nat) (h : skipBlank text = '[' :: rest) :
    read n text = nested n (fun m => mapResult arr (items (read m))) rest := by
  cases n with
  | zero => simp only [read, h, nested]
  | succ n =>
    simp only [read, h, nested]
    rfl

theorem read_openObject (n : Nat) (h : skipBlank text = '\x7b' :: rest) :
    read n text = nested n (fun m => mapResult obj (members (memberInto (read m)) [])) rest := by
  cases n with
  | zero => simp only [read, h, nested]
  | succ n =>
    simp only [read, h, nested]
    rfl

theorem read_scalar (n : Nat) (hlist : ∀ rest, skipBlank text ≠ '[' :: rest)
    (hobject : ∀ rest, skipBlank text ≠ '\x7b' :: rest) :
    read n text = readScalar (skipBlank text) := by
  cases n with
  | zero =>
    rw [read]
    split
    · exact absurd ‹_› (hlist _)
    · exact absurd ‹_› (hobject _)
    · rfl
  | succ n =>
    rw [read]
    split
    · exact absurd ‹_› (hlist _)
    · exact absurd ‹_› (hobject _)
    · rfl

/-! ## What is accepted -/

theorem depthMembers_le_iff {es : List (String × Json)} {n : Nat} :
    depthMembers es ≤ n ↔ ∀ e ∈ es, depth e.2 ≤ n := by
  induction es with
  | nil => simp [depthMembers]
  | cons e es ih => rw [depthMembers, Nat.max_le, ih, List.forall_mem_cons]

/-- Data that can be read with so many levels. -/
def Readable (n : Nat) (j : Json) : Prop := j.WellFormed ∧ depth j ≤ n

theorem readable_arr {xs : List Json} {n : Nat} (h : ∀ x ∈ xs, x.Readable n) :
    (arr xs).Readable (n + 1) := by
  refine ⟨wellFormed_arr.2 fun x hx => (h x hx).1, ?_⟩
  rw [depth, Nat.add_le_add_iff_right, depthItems_le_iff]
  exact fun x hx => (h x hx).2

/-- Members that can be read, with distinct names. -/
def ReadableMembers (n : Nat) (es : Entries Json) : Prop :=
  (Entries.keys es).Nodup ∧ ∀ e ∈ es, e.2.Readable n

theorem readable_obj {es : Entries Json} {n : Nat} (h : ReadableMembers n es) :
    (obj es).Readable (n + 1) := by
  refine ⟨wellFormed_obj.2 ⟨h.1, fun e he => (h.2 e he).1⟩, ?_⟩
  rw [depth, Nat.add_le_add_iff_right, depthMembers_le_iff]
  exact fun e he => (h.2 e he).2

/-- A member that can be read is put with the others, whether its name is new or not. -/
theorem readableMembers_put {es : Entries Json} {n : Nat} (h : ReadableMembers n es)
    (hj : j.Readable n) (name : String) : ReadableMembers n (es.put name j) := by
  refine ⟨Entries.nodup_keys_put h.1 name j, fun e he => ?_⟩
  rcases Entries.mem_of_mem_put he with rfl | he
  · exact hj
  · exact h.2 e he

/-- A scalar whose numbers are in range is well formed. -/
theorem readable_ofScalar {s : Scalar} (h : s.InRange) (n : Nat) : (ofScalar s).Readable n := by
  cases s with
  | null => exact ⟨(everywhere_leaf rfl).2 trivial, Nat.zero_le n⟩
  | bool b => exact ⟨(everywhere_leaf rfl).2 trivial, Nat.zero_le n⟩
  | str t => exact ⟨(everywhere_leaf rfl).2 trivial, Nat.zero_le n⟩
  | number m =>
    cases m with
    | int i => exact ⟨(everywhere_leaf rfl).2 h, Nat.zero_le n⟩
    | float x => exact ⟨(everywhere_leaf rfl).2 h, Nat.zero_le n⟩

theorem accepts_readScalar (n : Nat) : Accepts 0 n readScalar fun m j => j.Readable m := by
  intro text j rest h
  obtain ⟨⟨s, r⟩, hs, h⟩ := except_bind_eq_ok_iff.1 h
  cases h
  have hs := flat_scalar hs
  exact ⟨hs.1.follows, fun m _ => readable_ofScalar hs.2 m⟩

theorem accepts_memberInto {item : Reader Json} {n : Nat}
    (h : Accepts 0 n item fun m j => j.Readable m) (name : String) (es : Entries Json) :
    Accepts 0 n (memberInto item name es) fun m fs =>
      ReadableMembers m es → ReadableMembers m fs := by
  intro text fs rest hread
  obtain ⟨⟨_, r⟩, hcolon, hread⟩ := except_bind_eq_ok_iff.1 hread
  have hcolon := (flat_colon hcolon).follows
  have hput : Accepts 0 n (mapResult (fun v => es.put name v) item) fun m fs =>
      ReadableMembers m es → ReadableMembers m fs :=
    accepts_mapResult _ h fun m j hj hes => readableMembers_put hes hj name
  have hfs := hput hread
  exact ⟨hcolon.trans hfs.1, fun m hm => hfs.2 m (hm.follows hcolon)⟩

/-- What is read is well formed, and no deeper than the levels that may be opened or the text. -/
theorem accepts_read (n : Nat) : Accepts 0 n (read n) fun m j => j.Readable m := by
  induction n using Nat.strongRecOn with
  | ind n ih =>
    -- what stands inside a bracket is read with fewer levels
    have hlist (m : Nat) (hm : m < n) : Accepts 1 m (mapResult arr (items (read m)))
        fun k j => j.Readable (k + 1) :=
      accepts_mapResult arr (accepts_items (ih m hm)) fun k xs hxs => readable_arr hxs
    have hobject (m : Nat) (hm : m < n) :
        Accepts 1 m (mapResult obj (members (memberInto (read m)) []))
          fun k j => j.Readable (k + 1) := by
      have hnone (k : Nat) : ReadableMembers k [] := ⟨List.nodup_nil, List.forall_mem_nil _⟩
      exact accepts_mapResult obj (accepts_members (accepts_memberInto (ih m hm)) [])
        fun k es hes => readable_obj (hes (hnone k))
    intro text j rest h
    have hblank := flat_skipBlank text
    by_cases hl : ∃ t, skipBlank text = '[' :: t
    · obtain ⟨t, ht⟩ := hl
      rw [read_openList n ht] at h
      rw [ht] at hblank
      exact accepted_nested hlist hblank h
    · by_cases ho : ∃ t, skipBlank text = '\x7b' :: t
      · obtain ⟨t, ht⟩ := ho
        rw [read_openObject n ht] at h
        rw [ht] at hblank
        exact accepted_nested hobject hblank h
      · rw [read_scalar n (not_exists.1 hl) (not_exists.1 ho)] at h
        have hj := accepts_readScalar n h
        exact ⟨hblank.follows.trans hj.1, fun m hm => hj.2 m (hm.follows hblank.follows)⟩

/-- Whatever a text stands for is well formed and nests at most as many levels as may be opened. -/
theorem readable_of_parse (h : parse text = .ok j) : j.Readable maxLevels :=
  ((accepts_read maxLevels).of_complete h).1

/-! ## What is read back -/

/-- A scalar is read where its text stands. -/
theorem readsData_ofScalar {s : Scalar} (hs : depth (ofScalar s) = 0)
    (h : ReadsScalar (print (ofScalar s)) s) : ReadsData read (ofScalar s) True (ofScalar s) := by
  refine readsData_flat hs fun n rest hr => ?_
  obtain ⟨c, t, htext, hc⟩ := h.starts
  have hscalar := h rest hr
  rw [htext, List.cons_append] at hscalar ⊢
  have hblank := skipBlank_cons (not_isBlank_of_beginsScalar hc) (t ++ rest)
  have hread : read n (c :: (t ++ rest)) = readScalar (c :: (t ++ rest)) := by
    rw [read_scalar n, hblank]
    · intro r hl
      exact ne_of_beginsScalar hc rfl (List.cons.inj (hblank.symm.trans hl)).1
    · intro r ho
      exact ne_of_beginsScalar hc rfl (List.cons.inj (hblank.symm.trans ho)).1
  rw [hread, readScalar, hscalar]
  exact decided_ok _

theorem Starts.of_readsScalar {s : Scalar} (h : ReadsScalar text s) : Starts text := by
  obtain ⟨c, t, htext, hc⟩ := h.starts
  exact ⟨c, t, htext, not_isBlank_of_beginsScalar hc, ne_of_beginsScalar hc rfl⟩

/-- The text of data begins with neither a blank nor a closing bracket. -/
theorem starts_print (h : j.Everywhere (Written ReadsBack)) : Starts (print j) := by
  cases j with
  | null => exact .of_readsScalar readsScalar_null
  | bool b => exact .of_readsScalar (readsScalar_bool b)
  | int n => exact starts_int ((everywhere_leaf rfl).1 h)
  | float x =>
    have hx : x.isFinite = true ∧ ReadsBack x := (everywhere_leaf rfl).1 h
    exact .of_readsScalar (readsScalar_float hx.2 hx.1)
  | str s => exact .of_readsScalar (readsScalar_string s)
  | arr xs => exact starts_arr xs
  | obj es => exact (marked_obj es).starts

/-- Members with distinct names are read one after another, each put behind those before. -/
theorem membersRead_memberInto {m : Nat} {es : Entries Json}
    (h : ∀ e ∈ es, ReadsData read e.2 True e.2) (done : Entries Json)
    (hkeys : (Entries.keys (done ++ es)).Nodup) :
    MembersRead m (memberInto (read m)) done es True (done ++ es) := by
  induction es generalizing done with
  | nil =>
    rw [List.append_nil]
    exact .nil done
  | cons e es ih =>
    obtain ⟨name, j⟩ := e
    rw [List.forall_mem_cons] at h
    have hnew : name ∉ Entries.keys done := by
      rw [Entries.keys_append, List.nodup_append] at hkeys
      intro hname
      exact hkeys.2.2 _ hname _ List.mem_cons_self rfl
    have hfirst : Reads (memberInto (read m) name done) (':' :: print j) (True ∧ depth j ≤ m)
        (done.put name j) :=
      fun rest hr => (h.1 m rest hr).map rfl
    -- a name that was not read before is put at the end, so the members stay in their order
    have hsplit : done ++ (name, j) :: es = done.put name j ++ es := by
      rw [Entries.put_of_notMem hnew, List.append_assoc, List.singleton_append]
    rw [hsplit] at hkeys ⊢
    have hall := MembersRead.cons hfirst (ih h.2 _ hkeys)
    rw [and_self] at hall
    exact hall

/-- Data is read back from its text, on as many levels as it is deep. -/
theorem readsData_read (h : j.Everywhere (Written ReadsBack)) : ReadsData read j True j := by
  induction j using inductionOn with
  | null => exact readsData_ofScalar (s := .null) rfl readsScalar_null
  | bool b => exact readsData_ofScalar (s := .bool b) rfl (readsScalar_bool b)
  | int n =>
    have hn : Word64.fitsSigned n = true := (everywhere_leaf rfl).1 h
    exact readsData_ofScalar (s := .number (.int n)) rfl (readsScalar_int hn)
  | float x =>
    have hx : x.isFinite = true ∧ ReadsBack x := (everywhere_leaf rfl).1 h
    exact readsData_ofScalar (s := .number (.float x)) rfl (readsScalar_float hx.2 hx.1)
  | str s => exact readsData_ofScalar (s := .str s) rfl (readsScalar_string s)
  | arr xs ih =>
    obtain ⟨-, hxs⟩ := everywhere_arr.1 h
    have hinside (m : Nat) : Reads (mapResult arr (items (read m)))
        (separated (xs.map print) ++ [']']) (True ∧ depthItems xs ≤ m) (arr xs) := by
      have hitems := reads_items print (fun x hx => starts_print (hxs x hx))
        fun x hx => ih x hx (hxs x hx) m
      refine (reads_mapResult arr hitems).congr ?_
      rw [depthItems_le_iff]
      simp
    intro n rest hr
    rw [print_arr, depth, List.cons_append, read_openList n (skipBlank_cons rfl _)]
    exact reads_nested hinside n rest hr
  | obj es ih =>
    obtain ⟨hkeys, hes⟩ := everywhere_obj.1 h
    have hinside (m : Nat) : Reads (mapResult obj (members (memberInto (read m)) []))
        (separated (es.map printMember) ++ ['\x7d']) (True ∧ depthMembers es ≤ m) (obj es) := by
      have hmembers := membersRead_memberInto (m := m) (fun e he => ih e he (hes e he)) [] hkeys
      exact reads_mapResult obj (reads_members hmembers)
    intro n rest hr
    rw [print_obj, depth, List.cons_append, read_openObject n (skipBlank_cons rfl _)]
    exact reads_nested hinside n rest hr

/-- Data that is not too deep is what its text stands for. -/
theorem parse_print (h : j.Everywhere (Written ReadsBack)) (hdepth : depth j ≤ maxLevels) :
    parse (print j) = .ok j := by
  have hread := (readsData_read h maxLevels [] ends_nil).gives ⟨trivial, hdepth⟩
  rw [List.append_nil] at hread
  rw [parse, complete, hread]
  rfl

end GuardedCall.Json
