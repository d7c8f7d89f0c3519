import GuardedCall.Proofs.Admission
import GuardedCall.Proofs.CallForm
import GuardedCall.Proofs.Wording

/-!
# The first mistyped parameter

If the arguments of a call bind, each parameter takes a value, its own or its default, and the
guard compares the kinds in the order of the signature. So a call with mistyped parameters fails
for the one that comes first in the signature, however the arguments are written. A call that does
not bind fails before any kind is compared.

Main definitions: `Guard.Refuses`, `Guard.Meets`, `Guard.Mistyped`, `Guard.FirstMistyped`.
Main statements: `check_eq_mismatchFailure_iff`, `check_eq_mismatchFailure_iff_firstMistyped`,
`first_mistyped_parameter_is_reported`.
-/

namespace GuardedCall

namespace Guard

variable {g : Guard} {a a' : Arguments} {b : Bound} {p : Param} {m : Mismatch}

/-! ## Refused parameters -/

/-- The value that a parameter takes is not of the declared kind. -/
def Refuses (g : Guard) (a : Arguments) (p : Param) (m : Mismatch) : Prop :=
  g.checkOf (g.signature.complete a) p = some (m, false)

theorem refuses_iff :
    g.Refuses a p m ↔ ∃ k v, p.kind? = some k ∧ (g.signature.complete a).get? p.name = some v ∧
      g.policy.accepts k v.kind = false ∧ m = ⟨p.name, k, v.kind⟩ := by
  rw [Refuses, checkOf]
  cases p.kind? with
  | none => simp
  | some k =>
    cases (g.signature.complete a).get? p.name with
    | none => simp
    | some v =>
      simp only [Option.some.injEq, Prod.mk.injEq]
      constructor
      · rintro ⟨hm, hrefused⟩
        exact ⟨k, v, rfl, rfl, hrefused, hm.symm⟩
      · rintro ⟨_, _, rfl, rfl, hrefused, rfl⟩
        exact ⟨rfl, hrefused⟩

theorem param_of_refuses (h : g.Refuses a p m) : m.param = p.name := by
  obtain ⟨k, v, -, -, -, rfl⟩ := refuses_iff.1 h
  rfl

/-- The first comparison that fails is that of the first parameter that is refused. -/
theorem firstMismatch_comparisons_eq_some_iff :
    firstMismatch (g.comparisons a) = some m ↔ FirstFault (g.Refuses a) g.signature.params m := by
  rw [comparisons]
  generalize g.signature.params = ps
  induction ps with
  | nil => exact iff_of_false (by simp [firstMismatch]) not_firstFault_nil
  | cons p ps ih =>
    rw [firstFault_cons, ← ih, List.filterMap_cons]
    simp only [Refuses]
    cases g.checkOf (g.signature.complete a) p with
    | none => simp
    | some c =>
      obtain ⟨m', passed⟩ := c
      cases passed with
      | false => simp [firstMismatch]
      | true => simp [firstMismatch]

/-- The check fails for the first parameter that is refused, if the arguments bind. -/
theorem check_eq_mismatchFailure_iff :
    g.check a = .error (mismatchFailure g.name m) ↔
      (∃ b, g.signature.bind a = .ok b) ∧ FirstFault (g.Refuses a) g.signature.params m := by
  rw [← firstMismatch_comparisons_eq_some_iff]
  cases hb : g.signature.bind a with
  | error f =>
    rw [check_of_fault hb]
    simp [BindFault.failure, mismatchFailure]
  | ok b =>
    rw [check_of_bind hb]
    cases firstMismatch (g.comparisons a) with
    | none => simp
    | some m' =>
      constructor
      · intro h
        -- the mismatch is part of the failure
        have hm : some m' = some m := congrArg (·.mismatch) (Except.error.inj h)
        exact ⟨⟨b, rfl⟩, hm⟩
      · rintro ⟨-, hm⟩
        cases hm
        rfl

/-! ## Mistyped parameters -/

/-- The value that a parameter takes is accepted for its declared kind, if it has one. -/
def Meets (g : Guard) (a : Arguments) (p : Param) : Prop :=
  ∀ k, p.kind? = some k → ∃ v, g.signature.Takes a p v ∧ g.policy.accepts k v.kind = true

/-- The value that a parameter takes is not accepted for its declared kind. -/
inductive Mistyped (g : Guard) (a : Arguments) (p : Param) : Mismatch → Prop
  | of_takes {k : Kind} {v : Value} (hk : p.kind? = some k) (hv : g.signature.Takes a p v)
      (h : g.policy.accepts k v.kind = false) : Mistyped g a p ⟨p.name, k, v.kind⟩

/-- In the order of the signature, some parameter is mistyped, and all before it are not. -/
def FirstMistyped (g : Guard) (a : Arguments) (m : Mismatch) : Prop :=
  FirstIn (fun before p => (∀ q ∈ before, g.Meets a q) ∧ g.Mistyped a p m) g.signature.params

theorem mistyped_iff_refuses (hb : g.signature.bind a = .ok b) (hp : p ∈ g.signature.params) :
    g.Mistyped a p m ↔ g.Refuses a p m := by
  obtain ⟨hf, -, -⟩ := Signature.bind_eq_ok_iff.1 hb
  rw [refuses_iff, Signature.get?_complete hp]
  simp only [← Signature.takes_iff hf.distinct]
  constructor
  · rintro ⟨hk, hv, h⟩
    exact ⟨_, _, hk, hv, h, rfl⟩
  · rintro ⟨k, v, hk, hv, h, rfl⟩
    exact .of_takes hk hv h

/-- If the arguments bind, a parameter is either refused or meets its declaration. -/
theorem meets_iff (hb : g.signature.bind a = .ok b) (hp : p ∈ g.signature.params) :
    g.Meets a p ↔ ∀ m, ¬ g.Refuses a p m := by
  obtain ⟨hf, -, -⟩ := Signature.bind_eq_ok_iff.1 hb
  constructor
  · intro h m hm
    obtain @⟨k, v, hk, hv, hrefused⟩ := (mistyped_iff_refuses hb hp).2 hm
    obtain ⟨w, hw, haccepts⟩ := h k hk
    rw [Signature.takes_iff hf.distinct] at hv hw
    -- a parameter takes one value only
    have hvw : some v = some w := hv.symm.trans hw
    cases hvw
    rw [hrefused] at haccepts
    cases haccepts
  · intro h k hk
    obtain ⟨v, hv⟩ := Option.isSome_iff_exists.1 (Signature.isSome_valueOrDefault?_of_bind hb hp)
    have htakes : g.signature.Takes a p v := (Signature.takes_iff hf.distinct).2 hv
    refine ⟨v, htakes, ?_⟩
    by_contra hrefused
    rw [Bool.not_eq_true] at hrefused
    exact h _ ((mistyped_iff_refuses hb hp).1 (.of_takes hk htakes hrefused))

theorem firstMistyped_iff (hb : g.signature.bind a = .ok b) :
    g.FirstMistyped a m ↔ FirstFault (g.Refuses a) g.signature.params m := by
  constructor
  · intro h
    refine h.imp fun before p hbefore hp => ?_
    rintro ⟨hmeets, hm⟩
    exact ⟨fun q hq => (meets_iff hb (hbefore q hq)).1 (hmeets q hq),
      (mistyped_iff_refuses hb hp).1 hm⟩
  · intro h
    refine h.imp fun before p hbefore hp => ?_
    rintro ⟨hnone, hm⟩
    exact ⟨fun q hq => (meets_iff hb (hbefore q hq)).2 (hnone q hq),
      (mistyped_iff_refuses hb hp).2 hm⟩

/-- The check fails for the first parameter that is mistyped. -/
theorem check_eq_mismatchFailure_iff_firstMistyped :
    g.check a = .error (mismatchFailure g.name m) ↔
      (∃ b, g.signature.bind a = .ok b) ∧ g.FirstMistyped a m := by
  rw [check_eq_mismatchFailure_iff]
  refine and_congr_right ?_
  rintro ⟨b, hb⟩
  exact (firstMistyped_iff hb).symm

/-- If any parameter is mistyped, one of them comes first. -/
theorem exists_firstMistyped (hb : g.signature.bind a = .ok b)
    (h : ∃ p ∈ g.signature.params, ∃ m, g.Mistyped a p m) : ∃ m, g.FirstMistyped a m := by
  obtain ⟨p, hp, m, hm⟩ := h
  simp only [firstMistyped_iff hb]
  exact exists_firstFault_iff.2 ⟨p, hp, m, (mistyped_iff_refuses hb hp).1 hm⟩

/-- A failed check is that of a binding or that of a comparison. -/
theorem check_eq_error {f : Failure} (h : g.check a = .error f) :
    (∃ e, g.signature.bind a = .error e ∧ f = e.failure g.name) ∨
      ∃ m, f = mismatchFailure g.name m := by
  cases hb : g.signature.bind a with
  | error e =>
    rw [check_of_fault hb] at h
    cases h
    exact Or.inl ⟨e, rfl, rfl⟩
  | ok b =>
    rw [check_of_bind hb] at h
    split at h
    · rename_i m _
      cases h
      exact Or.inr ⟨m, rfl⟩
    · cases h

/-- Calls that supply the same values in some order are checked alike if they bind. -/
theorem check_of_perm (hb : g.signature.bind a = .ok b) (hw' : a'.WellFormed)
    (hc' : a'.values.length ≤ g.signature.params.length)
    (h : (g.signature.supply a).Perm (g.signature.supply a')) : g.check a' = g.check a := by
  have hbind : g.signature.bind a' = g.signature.bind a := by
    rw [hb, Signature.bind_of_perm hw' hc' h hb]
  exact check_congr hbind

end Guard

/-- **The first mistyped parameter is reported.**  If the arguments bind and some parameter is
mistyped, then the check and the call fail with a type failure about the first such parameter in the
order of the signature, whose message names it and the two kinds, in whatever form and order the
same values are supplied. What the guard itself fails with has a mismatch exactly if it is a type
failure. A call that does not bind fails for that reason, whatever the kinds of its values. -/
theorem first_mistyped_parameter_is_reported (g : Guard) (a : Arguments) {m : Type → Type}
    [Monad m] [LawfulMonad m] (body : Bound → m (Except Failure Value)) :
    (∀ b, g.signature.bind a = .ok b →
      (∃ p ∈ g.signature.params, ∃ mm, g.Mistyped a p mm) →
        ∃ mm f, g.FirstMistyped a mm ∧
          f = Guard.mismatchFailure g.name mm ∧ f.kind = .type ∧ f.mismatch = some mm ∧
          Text.Mentions [g.name, "'" ++ mm.param ++ "'", mm.expected.name, mm.actual.name]
            f.message ∧
          g.check a = .error f ∧ g.call body a = pure (.error f) ∧
          ∀ a', a'.WellFormed → a'.values.length ≤ g.signature.params.length →
            (g.signature.supply a).Perm (g.signature.supply a') →
              g.check a' = .error f ∧ g.call body a' = pure (.error f)) ∧
      (∀ f, g.check a = .error f →
        g.call body a = pure (.error f) ∧ (f.mismatch.isSome = true ↔ f.kind = .type)) ∧
      ∀ e, g.signature.bind a = .error e →
        g.check a = .error (e.failure g.name) ∧ g.call body a = pure (.error (e.failure g.name)) ∧
          (e.failure g.name).kind = .binding := by
  have hcall (a : Arguments) (f : Failure) (h : g.check a = .error f) :
      g.call body a = pure (.error f) := by
    rw [Guard.call_eq_check, h]
  refine ⟨?_, ?_, ?_⟩
  · intro b hb hmistyped
    obtain ⟨mm, hfirst⟩ := Guard.exists_firstMistyped hb hmistyped
    have hcheck := Guard.check_eq_mismatchFailure_iff_firstMistyped.2 ⟨⟨b, hb⟩, hfirst⟩
    refine ⟨mm, _, hfirst, rfl, rfl, rfl, Guard.mentions_mismatchFailure g.name mm, hcheck,
      hcall a _ hcheck, ?_⟩
    intro a' hw' hc' hperm
    have hcheck' := (Guard.check_of_perm hb hw' hc' hperm).trans hcheck
    exact ⟨hcheck', hcall a' _ hcheck'⟩
  · intro f hf
    refine ⟨hcall a f hf, ?_⟩
    rcases Guard.check_eq_error hf with ⟨e, -, rfl⟩ | ⟨mm, rfl⟩
    · simp [BindFault.failure]
    · simp [Guard.mismatchFailure]
  · intro e he
    have hcheck := Guard.check_of_fault he
    exact ⟨hcheck, hcall a _ hcheck, rfl⟩

/-- Two texts for the sum, the second number first: what is reported is the first number. -/
theorem first_mistyped_parameter_is_reported_sum :
    let g := sumGuard .strict
    let a := (Arguments.empty.passNamed "b" (.str "two")).passNamed "a" (.str "one")
    ∃ f, g.check a = .error f ∧ f.mismatch = some ⟨"a", .int, .str⟩ ∧
      g.FirstMistyped a ⟨"a", .int, .str⟩ := by
  intro g a
  obtain ⟨hfirst, -, -⟩ := first_mistyped_parameter_is_reported g a (m := Id) sum
  have hsecond : g.Mistyped a { name := "b", kind? := some .int, default? := some (.int 0) }
      ⟨"b", .int, .str⟩ := .of_takes (v := .str "two") rfl (.supplied List.mem_cons_self) rfl
  obtain ⟨mm, f, hmm, -, -, hf, -, hcheck, -⟩ := hfirst _ rfl ⟨_, by decide, _, hsecond⟩
  have hreported : some mm = some ⟨"a", .int, .str⟩ :=
    hf.symm.trans (congrArg (·.mismatch) (Except.error.inj hcheck)).symm
  cases hreported
  exact ⟨f, hcheck, hf, hmm⟩

end GuardedCall
