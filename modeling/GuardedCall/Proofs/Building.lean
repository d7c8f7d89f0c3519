import GuardedCall.CommandLine
import GuardedCall.Proofs.Binding
import GuardedCall.Proofs.Tagged.RoundTrip
import GuardedCall.Proofs.Wording

/-!
# Building signatures

Parameters make a signature exactly if their names are distinct and the defaults come last. If they
do not, the fault is that of the first parameter that is wrong, seen together with those before it.
A signature that is read from a text is built of the name and the parameters that the text stands
for, so it is there exactly if building gives it, and is refused with the words of the same fault.

Because the defaults come last, the required parameters are the first ones, and values by position
alone bind exactly if they are no fewer than these and no more than all.

Main definitions: `Signature.ParamFault`, `Signature.FaultAt`.
Main statements: `build_eq_error_iff`, `parse_signature_eq_ok_iff`, `hasDefault_eq_false_iff`,
`bind_positional_iff`, `signatures_are_built_of_sound_parameters`.
-/

namespace GuardedCall

namespace Signature

/-! ## The first fault -/

/-- What is wrong with a parameter, given those before it. That it has no default counts only if
its name is new. -/
inductive ParamFault (before : List Param) (p : Param) : SignatureFault → Prop
  | repeatedName (h : ∃ q ∈ before, q.name = p.name) : ParamFault before p (.repeatedName p.name)
  | defaultBefore (hname : ∀ q ∈ before, q.name ≠ p.name) (hp : p.hasDefault = false)
      (h : ∃ q ∈ before, q.hasDefault = true) : ParamFault before p (.defaultBefore p.name)

/-- The parameter at an index has a fault, given `done` and the parameters before it. -/
def FaultAfter (done ps : List Param) (i : Nat) (f : SignatureFault) : Prop :=
  ∃ p, ps[i]? = some p ∧ ParamFault (done ++ ps.take i) p f

/-- The parameter at an index has a fault, given the parameters before it. -/
def FaultAt (ps : List Param) (i : Nat) (f : SignatureFault) : Prop :=
  ∃ p, ps[i]? = some p ∧ ParamFault (ps.take i) p f

/-- A fault at the smallest index that has one. -/
def FirstFaultAfter (done ps : List Param) (f : SignatureFault) : Prop :=
  ∃ i, FaultAfter done ps i f ∧ ∀ j < i, ∀ f', ¬ FaultAfter done ps j f'

variable {done ps : List Param} {p : Param} {f : SignatureFault} {name : String} {s : Signature}

theorem faultAfter_zero : FaultAfter done (p :: ps) 0 f ↔ ParamFault done p f := by
  simp [FaultAfter]

theorem faultAfter_succ {i : Nat} :
    FaultAfter done (p :: ps) (i + 1) f ↔ FaultAfter (done ++ [p]) ps i f := by
  simp [FaultAfter]

theorem not_firstFaultAfter_nil : ¬ FirstFaultAfter done [] f := by
  rintro ⟨i, ⟨p, hp, -⟩, -⟩
  simp at hp

/-- The first fault is that of the head, or the head has none and it is in the tail. -/
theorem firstFaultAfter_cons : FirstFaultAfter done (p :: ps) f ↔
    ParamFault done p f ∨ (∀ f', ¬ ParamFault done p f') ∧ FirstFaultAfter (done ++ [p]) ps f := by
  constructor
  · rintro ⟨i, hi, hmin⟩
    cases i with
    | zero => exact Or.inl (faultAfter_zero.1 hi)
    | succ i =>
      refine Or.inr ⟨fun f' hf' => hmin 0 (Nat.zero_lt_succ i) f' (faultAfter_zero.2 hf'), i,
        faultAfter_succ.1 hi, ?_⟩
      intro j hj f' hf'
      exact hmin (j + 1) (Nat.succ_lt_succ hj) f' (faultAfter_succ.2 hf')
  · rintro (hp | ⟨hnone, i, hi, hmin⟩)
    · exact ⟨0, faultAfter_zero.2 hp, fun j hj => absurd hj (Nat.not_lt_zero j)⟩
    · refine ⟨i + 1, faultAfter_succ.2 hi, ?_⟩
      intro j hj f' hf'
      cases j with
      | zero => exact hnone f' (faultAfter_zero.1 hf')
      | succ j => exact hmin j (Nat.lt_of_succ_lt_succ hj) f' (faultAfter_succ.1 hf')

theorem paramFault_iff_of_mem (h : p.name ∈ done.map Param.name) :
    ParamFault done p f ↔ f = .repeatedName p.name := by
  have hrepeated : ∃ q ∈ done, q.name = p.name := List.mem_map.1 h
  constructor
  · rintro (- | ⟨hname, -, -⟩)
    · rfl
    · obtain ⟨q, hq, hqp⟩ := hrepeated
      exact absurd hqp (hname q hq)
  · rintro rfl
    exact .repeatedName hrepeated

theorem paramFault_iff_of_notMem (h : p.name ∉ done.map Param.name) :
    ParamFault done p f ↔
      (done.any Param.hasDefault && !p.hasDefault) = true ∧ f = .defaultBefore p.name := by
  have hname : ∀ q ∈ done, q.name ≠ p.name := by
    intro q hq hqp
    exact h (List.mem_map.2 ⟨q, hq, hqp⟩)
  simp only [Bool.and_eq_true, Bool.not_eq_true', List.any_eq_true]
  constructor
  · rintro (⟨q, hq, hqp⟩ | ⟨-, hp, hd⟩)
    · exact absurd hqp (hname q hq)
    · exact ⟨⟨hd, hp⟩, rfl⟩
  · rintro ⟨⟨hd, hp⟩, rfl⟩
    exact .defaultBefore hname hp hd

/-- The loop over the parameters stops at the first fault. What it carries along are the names of
the parameters that are done, and whether one of them has a default. -/
theorem fault?_eq_some_iff (done ps : List Param) :
    fault? (done.map Param.name).reverse (done.any Param.hasDefault) ps = some f ↔
      FirstFaultAfter done ps f := by
  induction ps generalizing done with
  | nil => exact iff_of_false (by simp [fault?]) not_firstFaultAfter_nil
  | cons p ps ih =>
    rw [firstFaultAfter_cons, fault?]
    simp only [List.mem_reverse]
    by_cases hname : p.name ∈ done.map Param.name
    · rw [if_pos hname, paramFault_iff_of_mem hname, Option.some.injEq, eq_comm]
      refine (or_iff_left ?_).symm
      rintro ⟨hnone, -⟩
      exact hnone _ ((paramFault_iff_of_mem hname).2 rfl)
    · rw [if_neg hname]
      by_cases hdefault : (done.any Param.hasDefault && !p.hasDefault) = true
      · rw [if_pos hdefault, paramFault_iff_of_notMem hname, Option.some.injEq, eq_comm,
          and_iff_right hdefault]
        refine (or_iff_left ?_).symm
        rintro ⟨hnone, -⟩
        exact hnone _ ((paramFault_iff_of_notMem hname).2 ⟨hdefault, rfl⟩)
      · have hnone (f' : SignatureFault) : ¬ ParamFault done p f' := by
          rw [paramFault_iff_of_notMem hname]
          exact fun h => hdefault h.1
        rw [if_neg hdefault, or_iff_right (hnone f), and_iff_right hnone, ← ih]
        simp

/-- Building is the loop over all parameters. -/
theorem build_eq_error_iff_fault? : build name ps = .error f ↔ fault? [] false ps = some f := by
  unfold build
  split
  · rename_i f' hf'
    rw [hf', Except.error.injEq, Option.some.injEq]
  · rename_i hnone
    simp [hnone]

/-- Building fails with the fault at the smallest index that has one. -/
theorem build_eq_error_iff : build name ps = .error f ↔
    ∃ i, FaultAt ps i f ∧ ∀ j < i, ∀ f', ¬ FaultAt ps j f' :=
  build_eq_error_iff_fault?.trans (fault?_eq_some_iff [] ps)

/-- Parameters make a signature exactly if their names are distinct and the defaults come last. -/
theorem exists_build_eq_ok_iff : (∃ s, build name ps = .ok s) ↔
    (ps.map Param.name).Nodup ∧ DefaultsLast ps := by
  simp only [build_eq_ok_iff]
  constructor
  · rintro ⟨s, rfl, rfl⟩
    exact ⟨s.names_nodup, s.defaults_last⟩
  · rintro ⟨hnames, hdefaults⟩
    exact ⟨⟨name, ps, hnames, hdefaults⟩, rfl, rfl⟩

/-! ## Required parameters -/

/-- Where `test` holds from some place on, it fails exactly at the first places. -/
theorem eq_false_iff_lt_length_filter {α : Type} {test : α → Bool} {xs : List α}
    (h : xs.Pairwise fun x y => test x = true → test y = true) {i : Nat} {x : α}
    (hx : xs[i]? = some x) : test x = false ↔ i < (xs.filter fun x => !test x).length := by
  induction xs generalizing i with
  | nil => simp at hx
  | cons y xs ih =>
    rw [List.pairwise_cons] at h
    cases hy : test y with
    | true =>
      -- nothing fails from here on
      have hall : ∀ z ∈ y :: xs, test z = true :=
        List.forall_mem_cons.2 ⟨hy, fun z hz => h.1 z hz hy⟩
      have hnone : ((y :: xs).filter fun x => !test x) = [] := by
        rw [List.filter_eq_nil_iff]
        intro z hz
        simp [hall z hz]
      simp [hnone, hall x (List.mem_of_getElem? hx)]
    | false =>
      rw [List.filter_cons_of_pos (by simp [hy]), List.length_cons]
      cases i with
      | zero =>
        cases hx
        simp [hy]
      | succ i =>
        rw [ih h.2 (by simpa using hx)]
        omega

/-- The required parameters are the first ones. -/
theorem hasDefault_eq_false_iff {i : Nat} (hp : s.params[i]? = some p) :
    p.hasDefault = false ↔ i < s.required.length :=
  eq_false_iff_lt_length_filter s.defaults_last hp

theorem length_required_le (s : Signature) : s.required.length ≤ s.params.length :=
  List.length_filter_le _ _

/-- A name is among the first ones exactly if its parameter is among the first parameters. -/
theorem name_mem_take_iff {i k : Nat} (hp : s.params[i]? = some p) :
    p.name ∈ s.names.take k ↔ i < k := by
  have hname : s.names[i]? = some p.name := by
    rw [names, List.getElem?_map, hp]
    rfl
  have hi : i < s.names.length := (List.getElem?_eq_some_iff.1 hname).1
  constructor
  · intro h
    obtain ⟨j, hj⟩ := List.mem_iff_getElem?.1 h
    rw [List.getElem?_take] at hj
    split at hj
    · have hij : i = j := (List.getElem?_inj hi s.names_nodup).1 (hname.trans hj.symm)
      omega
    · cases hj
  · intro hik
    refine List.mem_iff_getElem?.2 ⟨i, ?_⟩
    rw [List.getElem?_take_of_lt hik, hname]

/-- Plain values by position always fit if there are parameters for them. -/
theorem fits_ofValues_iff (s : Signature) (vs : List Value) :
    s.Fits (.ofValues vs) ↔ vs.length ≤ s.params.length := by
  rw [fits_iff, Arguments.values_ofValues, Arguments.named_ofValues]
  simp [Arguments.wellFormed_ofValues]

/-- Plain values by position go to the first parameters. -/
theorem keys_supply_ofValues (s : Signature) (vs : List Value) :
    (s.supply (.ofValues vs)).keys = s.names.take vs.length := by
  rw [keys_supply, Arguments.values_ofValues]
  exact List.append_nil _

/-- Values by position alone bind exactly if they are no fewer than the required parameters and no
more than all. -/
theorem bind_positional_iff (s : Signature) (vs : List Value) :
    (∃ b, s.bind (.ofValues vs) = .ok b) ↔
      s.required.length ≤ vs.length ∧ vs.length ≤ s.params.length := by
  simp only [bind_eq_ok_iff, exists_and_left, exists_eq, and_true, fits_ofValues_iff,
    keys_supply_ofValues]
  constructor
  · rintro ⟨hcount, hall⟩
    refine ⟨?_, hcount⟩
    by_contra hlt
    -- the first parameter without a value would be a required one
    have hk : vs.length < s.params.length := by
      have hle := s.length_required_le
      omega
    have hp := List.getElem?_eq_getElem hk
    have hrequired := (hasDefault_eq_false_iff hp).2 (by omega)
    rcases hall _ (List.mem_of_getElem? hp) with hdefault | hname
    · rw [hdefault] at hrequired
      cases hrequired
    · exact absurd ((name_mem_take_iff hp).1 hname) (lt_irrefl _)
  · rintro ⟨hrequired, hcount⟩
    refine ⟨hcount, ?_⟩
    intro p hp
    obtain ⟨i, hi⟩ := List.mem_iff_getElem?.1 hp
    by_cases hik : i < vs.length
    · exact Or.inr ((name_mem_take_iff hi).2 hik)
    · left
      have hlate : ¬ p.hasDefault = false := by
        rw [hasDefault_eq_false_iff hi]
        omega
      simpa using hlate

end Signature

/-! ## Signatures as data -/

namespace Declaration

open Json Tagged

/-- A whole text is read if nothing but blanks follows what is read of it. -/
theorem complete_eq_ok_iff {α : Type} {read : Reader α} {chars : List Char} {x : α} :
    complete read chars = .ok x ↔ ∃ rest, read chars = .ok (x, rest) ∧ skipBlank rest = [] := by
  rw [complete, except_bind_eq_ok_iff]
  constructor
  · rintro ⟨⟨y, rest⟩, hread, hrest⟩
    dsimp only at hrest
    split at hrest
    · rename_i hblank
      cases hrest
      exact ⟨rest, hread, hblank⟩
    · cases hrest
  · rintro ⟨rest, hread, hblank⟩
    refine ⟨(x, rest), hread, ?_⟩
    dsimp only
    rw [hblank]

variable {text : String} {d : Declaration} {s : Signature} {f : SignatureFault}

/-- What is read of a text as a signature is read as a declaration, and then built. -/
theorem reader_signature (chars : List Char) : (reader maxLevels : Reader Signature) chars =
    (reader maxLevels : Reader Declaration) chars >>= fun r =>
      Signature.ofDeclaration r.1 >>= fun s => .ok (s, r.2) := rfl

/-- A signature is read exactly where a declaration is read that builds it. -/
theorem parse_signature_eq_ok_iff : parse text = .ok s ↔
    ∃ d : Declaration, parse text = .ok d ∧ d.build = .ok s := by
  simp only [Tagged.parse, complete_eq_ok_iff, reader_signature, except_bind_eq_ok_iff,
    Except.ok.injEq, Prod.mk.injEq, Signature.ofDeclaration_eq_ok_iff]
  constructor
  · rintro ⟨rest, ⟨⟨d, rest'⟩, hd, s', hbuild, rfl, rfl⟩, hblank⟩
    exact ⟨d, ⟨rest', hd, hblank⟩, hbuild⟩
  · rintro ⟨d, ⟨rest, hd, hblank⟩, hbuild⟩
    exact ⟨rest, ⟨(d, rest), hd, s, hbuild, rfl, rfl⟩, hblank⟩

/-- Where a declaration is read that does not build, reading a signature fails for the same
reason. -/
theorem parse_signature_of_fault (h : parse text = .ok d) (hf : d.build = .error f) :
    (parse text : Except Fault Signature) = .error (.refused (f.failure d.name).display) := by
  obtain ⟨rest, hd, -⟩ := complete_eq_ok_iff.1 h
  rw [Tagged.parse, complete, reader_signature, hd, except_ok_bind, Signature.ofDeclaration, hf]
  rfl

end Declaration

open Json Tagged

/-- **Signatures are built of sound parameters.**  A name and parameters build a signature, which
is of just these, exactly if the names of the parameters are distinct and no parameter without
default comes after one with a default. Otherwise building fails for the smallest index at which a
name comes again or a default is missing, and the failure says which of the two it is, and of which
parameter. Reading a text that stands for the name and the parameters gives the same signature, or
fails with the text of the same failure, and the written form of a name and parameters stands for
them. So of every signature the required parameters are the first ones, and values by position alone
bind exactly if they are no fewer than these and no more than all. -/
theorem signatures_are_built_of_sound_parameters :
    (∀ d : Declaration,
      ((∃ s, d.build = .ok s) ↔ (d.params.map Param.name).Nodup ∧ DefaultsLast d.params) ∧
      (∀ s, d.build = .ok s ↔ s.name = d.name ∧ s.params = d.params) ∧
      (∀ f, d.build = .error f ↔
        ∃ i, Signature.FaultAt d.params i f ∧ ∀ j < i, ∀ f', ¬ Signature.FaultAt d.params j f') ∧
      ∀ f, d.build = .error f → f.Told d.name (f.failure d.name)) ∧
    (∀ (text : String) (d : Declaration), parse text = .ok d →
      (∀ s : Signature, parse text = .ok s ↔ d.build = .ok s) ∧
      ∀ f, d.build = .error f → ∃ e, (parse text : Except Fault Signature) = .error e ∧
        e.message = (f.failure d.name).display) ∧
    (∀ (text : String) (s : Signature), parse text = .ok s → ∃ d : Declaration,
      parse text = .ok d ∧ d.build = .ok s) ∧
    (∀ d : Declaration, AllFloats ReadsBack d → AllFinite d →
      nesting (render d).toList ≤ 127 → parse (render d) = .ok d) ∧
    ∀ s : Signature,
      (∀ (i : Nat) (p : Param), s.params[i]? = some p →
        (p.hasDefault = false ↔ i < s.required.length)) ∧
      ∀ vs : List Value, (∃ b, s.bind { positional := vs.map .value } = .ok b) ↔
        s.required.length ≤ vs.length ∧ vs.length ≤ s.params.length := by
  refine ⟨fun d => ?_, fun text d hd => ?_, fun text s hs => ?_, fun d hback hfinite hnesting => ?_,
    fun s => ?_⟩
  · exact ⟨Signature.exists_build_eq_ok_iff, fun s => Signature.build_eq_ok_iff,
      fun f => Signature.build_eq_error_iff, fun f _ => f.told d.name⟩
  · constructor
    · intro s
      rw [Declaration.parse_signature_eq_ok_iff]
      constructor
      · rintro ⟨d', hd', hbuild⟩
        rw [hd] at hd'
        cases hd'
        exact hbuild
      · intro hbuild
        exact ⟨d, hd, hbuild⟩
    · intro f hf
      exact ⟨_, Declaration.parse_signature_of_fault hd hf, rfl⟩
  · exact Declaration.parse_signature_eq_ok_iff.1 hs
  · exact (d.readsWritten.roundTrips hback).reads hfinite hnesting
  · exact ⟨fun i p hp => Signature.hasDefault_eq_false_iff hp, s.bind_positional_iff⟩

/-- A parameter that comes again behind one with a default: reading reports the repeated name. One
without default behind one with a default: building reports it. The sum takes one or two values by
position. -/
theorem signatures_are_built_of_sound_parameters_sum :
    let d : Declaration :=
      { name := "f"
        params := [{ name := "a" }, { name := "b", default? := some .null }, { name := "a" }] }
    let late : Declaration :=
      { name := "f", params := [{ name := "a", default? := some .null }, { name := "b" }] }
    (AllFloats ReadsBack d ∧ parse (render d) = .ok d ∧
      ∃ e, (parse (render d) : Except Fault Signature) = .error e ∧
        e.message = "SignatureError: duplicate argument 'a' in function definition of f()") ∧
      (∃ f, late.build = .error f ∧
        (f.failure "f").message = "non-default argument 'b' follows default argument in f()") ∧
      ∃ b, sumSignature.bind { positional := [.value (.int 1)] } = .ok b := by
  intro d late
  obtain ⟨hbuild, hparse, -, hread, hsum⟩ := signatures_are_built_of_sound_parameters
  have hback : AllFloats ReadsBack d := allFloats_of_eq_nil rfl
  have hd : parse (render d) = .ok d := by
    refine hread d hback (allFloats_of_eq_nil rfl) ?_
    rw [toList_render, nesting_print]
    decide
  have hfault : d.build = .error (.repeatedName "a") := rfl
  obtain ⟨e, he, hmessage⟩ := (hparse _ d hd).2 _ hfault
  have hlate : late.build = .error (.defaultBefore "b") := rfl
  have htold := (hbuild late).2.2.2 _ hlate
  exact ⟨⟨hback, hd, e, he, hmessage⟩, ⟨_, hlate, htold.defaultBefore "b" rfl⟩,
    ((hsum sumSignature).2 [.int 1]).2 (by decide)⟩

end GuardedCall
