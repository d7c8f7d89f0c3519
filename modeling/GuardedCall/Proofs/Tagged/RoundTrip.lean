import GuardedCall.Proofs.Tagged.Floats
import GuardedCall.Proofs.Tagged.Reads

/-!
# Values are read back from their text

A value of a tagged type is read back from its text exactly if it holds no infinity or NaN and is
not nested too deep. If one of these is wrong, reading fails; another value is never read. That the
finite floating point numbers in the value are read back themselves is a hypothesis throughout,
because the reader of numbers gives the neighbour of some.

Main definitions: `ReadsWritten`, `RoundTrips`. Main statement: `values_round_trip`.
-/

namespace GuardedCall

open Json Tagged

variable {α : Type} {P : Prop} {j : Json}

/-- Given that its floating point numbers are, a value is read back from what is written of it,
within the levels that it needs, if all those numbers are finite; else it is refused. -/
def ReadsWritten [HasFloats α] (reader : Nat → Reader α) (write : α → Json) (x : α) : Prop :=
  AllFloats ReadsBack x → ReadsData reader (write x) (AllFinite x) x

/-- A value without floating point numbers needs no condition. -/
theorem readsWritten_of_eq_nil [HasFloats α] {reader : Nat → Reader α} {write : α → Json} {x : α}
    (h : ReadsData reader (write x) True x) (hnil : floats x = []) :
    ReadsWritten reader write x :=
  fun _ => h.congr (iff_of_true trivial (allFloats_of_eq_nil hnil))

/-! ## Options and lists -/

section Shared

variable [HasFloats α] {item : Nat → Reader α} {write : α → Json}

/-- What may be missing is read back, if it cannot be taken for null. -/
theorem readsData_optional {x? : Option α} (hmarked : ∀ x, Marked (print (write x)))
    (h : ∀ x, ReadsWritten item write x) (hback : AllFloats ReadsBack x?) :
    ReadsData (fun n => option (item n)) (writeOption write x?) (AllFinite x?) x? := by
  rw [allFloats_option] at hback
  have hoption := readsData_option (fun x _ => hmarked x) fun x hx => h x (hback x hx)
  exact hoption.congr allFloats_option.symm

/-- Several values are read back one by one. -/
theorem readsData_several {xs : List α} (hstarts : ∀ x, Starts (print (write x)))
    (h : ∀ x ∈ xs, ReadsWritten item write x) (hback : AllFloats ReadsBack xs) :
    ReadsData (fun n => listOf n item) (writeList write xs) (AllFinite xs) xs := by
  rw [allFloats_iff_forall_mem] at hback
  have hlist := readsData_listOf (fun x _ => hstarts x) fun x hx => h x hx (hback x hx)
  exact hlist.congr allFloats_iff_forall_mem.symm

end Shared

/-! ## Values -/

namespace Value

/-- A value is a variant by its tag, and its contents are read with one level less. -/
theorem read_eq (n : Nat) : read n = variant (bareVariant Tag.known bareValue)
    (nested n fun m => variantObject Tag.known (contents m (readItems m) (readEntries m))) := by
  cases n <;> rfl

theorem readItems_eq (n : Nat) : readItems n = listOf n read := by
  cases n <;> rfl

theorem readEntries_eq (n : Nat) : readEntries n = listOf n readEntry := by
  cases n <;> rfl

theorem readEntry_eq (n : Nat) : readEntry n =
    sequence .pair (nested n fun m => twoElements .pair (read m) (read m)) := by
  cases n <;> rfl

/-- A value is written as a name or an object, never as null. -/
theorem marked_encode (v : Value) : Marked (print (encode v)) := by
  cases v with
  | null => exact marked_str _
  | _ => exact marked_obj _

/-- A value with contents is read back if they are. -/
theorem readsData_tagged (t : Tag) {name : String} {v : Value} (hknown : Tag.known name = .ok t)
    (h : ReadsData (fun m => contents m (readItems m) (readEntries m) t) j P v)
    (hP : P ↔ AllFinite v) : ReadsData read (.obj [(name, j)]) (AllFinite v) v := by
  intro n
  rw [read_eq]
  exact ((readsData_variant hknown h).congr hP) n

theorem readsData_items {vs : List Value} (h : ∀ v ∈ vs, ReadsWritten read encode v)
    (hback : AllFloats ReadsBack vs) :
    ReadsData readItems (.arr (encodeItems vs)) (AllFinite vs) vs := by
  intro n
  rw [readItems_eq, encodeItems_eq]
  exact readsData_several (fun v => (marked_encode v).starts) h hback n

/-- An entry of a dictionary is read back if its key and its value are. -/
theorem readsWritten_entry {e : Value × Value} (hkey : ReadsWritten read encode e.1)
    (hvalue : ReadsWritten read encode e.2) : ReadsWritten readEntry encodeEntry e := by
  intro hback n
  rw [allFloats_pair] at hback
  rw [readEntry_eq]
  have hpair (m : Nat) := reads_twoElements .pair (marked_encode e.1).starts
    (marked_encode e.2).starts (hkey hback.1 m) (hvalue hback.2 m)
  exact (readsData_sequence .pair hpair n).congr (and_congr_left fun _ => allFloats_pair.symm)

theorem readsData_entries {es : List (Value × Value)}
    (h : ∀ e ∈ es, ReadsWritten readEntry encodeEntry e) (hback : AllFloats ReadsBack es) :
    ReadsData readEntries (.arr (encodeEntries es)) (AllFinite es) es := by
  intro n
  rw [readEntries_eq, encodeEntries_eq]
  exact readsData_several (fun _ => starts_arr _) h hback n

mutual

/-- A value is read back from its tagged data. -/
theorem readsWritten : ∀ v : Value, ReadsWritten read encode v
  | null => fun _ => by
    have hnull : AllFinite null := allFloats_of_eq_nil rfl
    have hknown : Tag.known "None" = .ok .null := rfl
    have hbare : bareValue .null = .ok null := rfl
    refine readsData_flat rfl fun n => ?_
    rw [read_eq]
    exact (reads_bareVariant hknown hbare).congr (iff_of_true trivial hnull)
  | bool b => fun _ => by
    have hb := (readsData_bool b).map bool
    exact readsData_tagged .bool rfl hb (iff_of_true trivial (allFloats_of_eq_nil rfl))
  | int n => fun _ => by
    have hn := (readsData_int64 n).map int
    exact readsData_tagged .int rfl hn (iff_of_true trivial (allFloats_of_eq_nil rfl))
  | float y => fun hback => by
    have hy := (readsData_float (allFloats_float.1 hback)).map float
    have hfinite : AllFinite (float y) ↔ y.isFinite = true := allFloats_float
    exact readsData_tagged .float rfl hy hfinite.symm
  | str s => fun _ => by
    have hs := (readsData_str s).map str
    exact readsData_tagged .str rfl hs (iff_of_true trivial (allFloats_of_eq_nil rfl))
  | bytes bs => fun _ => by
    have hbs := (readsData_listOf (fun b _ => starts_int (fitsSigned_byte b))
      fun b (_ : b ∈ bs) => readsData_byte b).map bytes
    exact readsData_tagged .bytes rfl hbs
      (iff_of_true (fun _ _ => trivial) (allFloats_of_eq_nil rfl))
  | list vs => fun hback => by
    have hvs := (readsData_items (readsWritten_items vs) (allFloats_list.1 hback)).map list
    exact readsData_tagged .list rfl hvs allFloats_list.symm
  | tuple vs => fun hback => by
    have hvs := (readsData_items (readsWritten_items vs) (allFloats_tuple.1 hback)).map tuple
    exact readsData_tagged .tuple rfl hvs allFloats_tuple.symm
  | dict es => fun hback => by
    have hes := (readsData_entries (readsWritten_entries es) (allFloats_dict.1 hback)).map dict
    exact readsData_tagged .dict rfl hes allFloats_dict.symm

theorem readsWritten_items : ∀ vs : List Value, ∀ v ∈ vs, ReadsWritten read encode v
  | [] => List.forall_mem_nil _
  | v :: vs => List.forall_mem_cons.2 ⟨readsWritten v, readsWritten_items vs⟩

theorem readsWritten_entries :
    ∀ es : List (Value × Value), ∀ e ∈ es, ReadsWritten readEntry encodeEntry e
  | [] => List.forall_mem_nil _
  | (k, v) :: es => List.forall_mem_cons.2
      ⟨readsWritten_entry (readsWritten k) (readsWritten v), readsWritten_entries es⟩

end

end Value

/-! ## Kinds, policies and failures -/

theorem Kind.readsData (k : Kind) : ReadsData reader (encode k) True k := by
  have hknown : identify Kind.all (fun k => [k.tag]) k.tag = .ok k := by cases k <;> rfl
  exact readsData_enumeration hknown

theorem FailureKind.readsData (k : FailureKind) : ReadsData reader (encode k) True k := by
  have hknown : identify FailureKind.all (fun k => [k.name]) k.name = .ok k := by cases k <;> rfl
  exact readsData_enumeration hknown

theorem Policy.readsData (p : Policy) : ReadsData reader (encode p) True p :=
  readsData_record (fun m => .cons (reads_field (readsData_bool p.boolIsInt m))
    (.cons (reads_field (readsData_bool p.intIsFloat m)) (.nil _))) rfl (by simp)

theorem Mismatch.readsData (x : Mismatch) : ReadsData reader (encode x) True x :=
  readsData_record (fun m => .cons (reads_field (readsData_str x.param m))
    (.cons (reads_field (x.expected.readsData m))
      (.cons (reads_field (x.actual.readsData m)) (.nil _)))) rfl (by simp)

theorem Failure.readsData (f : Failure) : ReadsData reader (encode f) True f := by
  have hmismatch := readsData_option (fun x (_ : x ∈ f.mismatch) => marked_obj _)
    fun x _ => x.readsData
  exact readsData_record (fun m => .cons (reads_field (f.kind.readsData m))
    (.cons (reads_field (readsData_str f.message m)) (.cons (reads_field (hmismatch m)) (.nil _))))
    rfl (by simp)

/-! ## Parameters and signatures -/

/-- A parameter is read back, with the kind and the default that it may lack. -/
theorem Param.readsWritten (p : Param) : ReadsWritten reader encode p := by
  intro hback
  have hkind := readsData_option (fun k (_ : k ∈ p.kind?) => marked_str _) fun k _ => k.readsData
  have hdefault := readsData_optional Value.marked_encode Value.readsWritten
    (show AllFloats ReadsBack p.default? from hback)
  have hfinite : AllFinite p ↔ AllFinite p.default? := Iff.rfl
  exact readsData_record (fun m => .cons (reads_field (readsData_str p.name m))
    (.cons (reads_field (hkind m)) (.cons (reads_field (hdefault m)) (.nil _))))
    rfl (by simp [hfinite])

/-- A declaration is read back, whether it builds a signature or not. -/
theorem Declaration.readsWritten (d : Declaration) : ReadsWritten reader encode d := by
  intro hback
  have hparams := readsData_several (fun p => (marked_obj _).starts)
    (fun p _ => Param.readsWritten p) hback
  have hfinite : AllFinite d ↔ AllFinite d.params := Iff.rfl
  exact readsData_record (fun m => .cons (reads_field (readsData_str d.name m))
    (.cons (reads_field (hparams m)) (.nil _))) rfl (by simp [hfinite])

/-- A signature is written like its declaration, and built of what is read back of that. -/
theorem Signature.readsWritten (s : Signature) : ReadsWritten reader encode s := by
  intro hback n rest hr
  have hbuild : ofDeclaration s.declaration = .ok s := ofDeclaration_eq_ok_iff.2 (build_self s)
  refine (s.declaration.readsWritten hback n rest hr).map ?_
  dsimp only
  rw [hbuild]
  rfl

/-! ## Arguments -/

theorem Positional.readsWritten (a : Positional) : ReadsWritten reader encode a := by
  intro hback
  cases a with
  | value v => exact readsData_variant rfl ((v.readsWritten hback).map value)
  | splat v => exact readsData_variant rfl ((v.readsWritten hback).map splat)

theorem Keyword.readsWritten (a : Keyword) : ReadsWritten reader encode a := by
  intro hback
  cases a with
  | named name v =>
    have hpair (m : Nat) := reads_mapResult (fun e => named e.1 e.2)
      (reads_twoElements (.tupleVariant (some "KwArg::Named")) (marked_str name).starts
        v.marked_encode.starts (readsData_str name m) (v.readsWritten hback m))
    have hcontents : ReadsData (fun m => contents m false) (.arr [.str name, encode v])
        (True ∧ AllFinite v) (named name v) := readsData_sequence _ hpair
    have hfinite : True ∧ AllFinite v ↔ AllFinite (named name v) := and_iff_right trivial
    exact readsData_variant rfl (hcontents.congr hfinite)
  | splat v => exact readsData_variant rfl ((v.readsWritten hback).map splat)

theorem Positional.marked_encode (a : Positional) : Marked (print (encode a)) := by
  cases a <;> exact marked_obj _

theorem Keyword.marked_encode (a : Keyword) : Marked (print (encode a)) := by
  cases a <;> exact marked_obj _

/-- The arguments of a call are read back as they are written, splats as splats. -/
theorem Arguments.readsWritten (a : Arguments) : ReadsWritten reader encode a := by
  intro hback
  rw [allFloats_arguments] at hback
  have hpositional := readsData_several (fun p => p.marked_encode.starts)
    (fun p _ => Positional.readsWritten p) hback.1
  have hkeywords := readsData_several (fun k => k.marked_encode.starts)
    (fun k _ => Keyword.readsWritten k) hback.2
  exact readsData_record (fun m => .cons (reads_field (hpositional m))
    (.cons (reads_field (hkeywords m)) (.nil _))) rfl (by simp [AllFinite, allFloats_arguments])

/-! ## Round trips -/

/-- From its text a value is read back exactly if its floating point numbers are finite and the
text nests at most 127 arrays and objects; else reading fails. Another value is never read. -/
structure RoundTrips [Tagged α] [HasFloats α] (x : α) : Prop where
  reads : AllFinite x → nesting (render x).toList ≤ 127 → parse (render x) = .ok x
  refuses : ¬ (AllFinite x ∧ nesting (render x).toList ≤ 127) →
    ∃ f, (parse (render x) : Except Fault α) = .error f
  never_other : ∀ x' : α, parse (render x) = .ok x' → x' = x

theorem toList_render [Tagged α] (x : α) : (render x).toList = print (encode x) :=
  String.toList_ofList

/-- What its reader reads back goes through text and back. -/
theorem ReadsWritten.roundTrips [Tagged α] [HasFloats α] {x : α}
    (h : ReadsWritten reader encode x) (hback : AllFloats ReadsBack x) : RoundTrips x := by
  have hdecided : Decided (AllFinite x ∧ nesting (render x).toList ≤ 127) x
      (parse (render x) : Except Fault α) := by
    have hreads := h hback maxLevels [] ends_nil
    rw [Tagged.parse, toList_render, nesting_print, complete]
    rw [List.append_nil] at hreads
    exact hreads.map rfl
  constructor
  · intro hfinite hnesting
    exact hdecided.gives ⟨hfinite, hnesting⟩
  · exact hdecided.fails
  · intro x' hx'
    by_cases hok : AllFinite x ∧ nesting (render x).toList ≤ 127
    · rw [hdecided.gives hok] at hx'
      exact (Except.ok.inj hx').symm
    · obtain ⟨f, hf⟩ := hdecided.fails hok
      rw [hf] at hx'
      cases hx'

theorem readsWritten_dict (es : List (Value × Value)) : ReadsWritten reader encode es := by
  intro hback
  exact Value.readsData_entries (Value.readsWritten_entries es) hback

/-- Neither of two different values is read from the text of the other. -/
def KeptApart [Tagged α] (x x' : α) : Prop :=
  parse (render x) ≠ .ok x' ∧ parse (render x') ≠ .ok x

/-- Texts of values that go through text and back are as different as the values. -/
theorem RoundTrips.keptApart [Tagged α] [HasFloats α] {x x' : α} (h : RoundTrips x)
    (h' : RoundTrips x') (hne : x ≠ x') : KeptApart x x' :=
  ⟨fun hx => hne (h.never_other x' hx).symm, fun hx' => hne (h'.never_other x hx')⟩

/-- A parameter is read back if its default is null, and also if it has none. -/
theorem Param.parse_render (p : Param) (h : p.default? = none ∨ p.default? = some .null) :
    parse (render p) = .ok p := by
  obtain ⟨name, kind?, default?⟩ := p
  have hnone (P : Binary64 → Prop) : AllFloats P (⟨name, kind?, default?⟩ : Param) := by
    rcases h with rfl | rfl <;> exact allFloats_of_eq_nil rfl
  have hround := (Param.readsWritten ⟨name, kind?, default?⟩).roundTrips (hnone _)
  refine hround.reads (hnone _) ?_
  rw [toList_render, nesting_print]
  have hdepth : 1 ≤ 127 := by decide
  rcases h with rfl | rfl <;> cases kind? <;> exact hdepth

/-- Values of every tagged type are read back from their text or refused, and never taken for
others. -/
theorem values_round_trip :
    (∀ v : Value, AllFloats ReadsBack v → RoundTrips v) ∧
      (∀ es : List (Value × Value), AllFloats ReadsBack es → RoundTrips es) ∧
      (∀ p : Param, AllFloats ReadsBack p → RoundTrips p) ∧
      (∀ s : Signature, AllFloats ReadsBack s → RoundTrips s) ∧
      (∀ a : Arguments, AllFloats ReadsBack a → RoundTrips a) ∧
      (∀ f : Failure, RoundTrips f) ∧
      (∀ p : Param, p.default? = none ∨ p.default? = some .null → parse (render p) = .ok p) ∧
      (∀ (ps qs : List Positional) (ks : List Keyword) (v : Value),
        AllFloats ReadsBack (⟨ps ++ .value v :: qs, ks⟩ : Arguments) →
          KeptApart (⟨ps ++ .splat v :: qs, ks⟩ : Arguments) ⟨ps ++ .value v :: qs, ks⟩) ∧
      (∀ (ps : List Positional) (js ks : List Keyword) (name : String) (v : Value),
        AllFloats ReadsBack (⟨ps, js ++ .named name v :: ks⟩ : Arguments) →
          KeptApart (⟨ps, js ++ .splat v :: ks⟩ : Arguments) ⟨ps, js ++ .named name v :: ks⟩) := by
  refine ⟨fun v => v.readsWritten.roundTrips, fun es => (readsWritten_dict es).roundTrips,
    fun p => p.readsWritten.roundTrips, fun s => s.readsWritten.roundTrips,
    fun a => a.readsWritten.roundTrips,
    fun f => (readsWritten_of_eq_nil f.readsData rfl).roundTrips (allFloats_of_eq_nil rfl),
    Param.parse_render, ?_, ?_⟩
  · intro ps qs ks v hback
    have hback' : AllFloats ReadsBack (⟨ps ++ .splat v :: qs, ks⟩ : Arguments) := by
      simp only [allFloats_arguments, allFloats_iff_forall_mem, List.forall_mem_append,
        List.forall_mem_cons] at hback ⊢
      exact hback
    refine RoundTrips.keptApart ((Arguments.readsWritten _).roundTrips hback')
      ((Arguments.readsWritten _).roundTrips hback) ?_
    simp
  · intro ps js ks name v hback
    have hback' : AllFloats ReadsBack (⟨ps, js ++ .splat v :: ks⟩ : Arguments) := by
      simp only [allFloats_arguments, allFloats_iff_forall_mem, List.forall_mem_append,
        List.forall_mem_cons] at hback ⊢
      exact hback
    refine RoundTrips.keptApart ((Arguments.readsWritten _).roundTrips hback')
      ((Arguments.readsWritten _).roundTrips hback) ?_
    simp

/-- Arguments with a splat of a list that holds one and a half are read back, and not taken for
arguments with that list; a tuple with a NaN is refused. -/
theorem values_round_trip_splat :
    let items : Value := .list [.float ⟨0x3ff8000000000000⟩]
    let a : Arguments := ⟨[.splat items], [.named "k" items]⟩
    let v : Value := .tuple [.null, .float ⟨0x7ff8000000000000⟩]
    (AllFloats ReadsBack a ∧ parse (render a) = .ok a ∧
      KeptApart a ⟨[.value items], [.named "k" items]⟩) ∧
      AllFloats ReadsBack v ∧ ∃ f, (parse (render v) : Except Fault Value) = .error f := by
  intro items a v
  obtain ⟨hvalue, -, -, -, harguments, -, -, hsplat, -⟩ := values_round_trip
  have hhalf : ReadsBack ⟨0x3ff8000000000000⟩ := fun _ => by decide +kernel
  have ha : AllFloats ReadsBack a :=
    List.forall_mem_cons.2 ⟨hhalf, List.forall_mem_singleton.2 hhalf⟩
  have hfinite : AllFinite a := List.forall_mem_cons.2 ⟨rfl, List.forall_mem_singleton.2 rfl⟩
  have hnesting : nesting (render a).toList ≤ 127 := by
    rw [toList_render, nesting_print]
    decide
  have hv : AllFloats ReadsBack v := List.forall_mem_singleton.2 fun h => by cases h
  refine ⟨⟨ha, ?_, ?_⟩, hv, ?_⟩
  · exact (harguments a ha).reads hfinite hnesting
  · exact hsplat [] [] [.named "k" items] items ha
  · refine (hvalue v hv).refuses fun h => ?_
    have hnan := h.1 ⟨0x7ff8000000000000⟩ (List.mem_singleton.2 rfl)
    cases hnan

end GuardedCall
