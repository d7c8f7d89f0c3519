import GuardedCall.CommandLine
import GuardedCall.Proofs.Preparation

/-!
# When the body runs

A guarded call runs its body once or not at all. It runs it exactly if the arguments bind and every
parameter with a declared kind takes a value that the policy accepts for that kind; the body is
then given a value for each parameter, in the order of the signature, and has the last word on the
outcome.

Main definitions: `Guard.Admits`, `logged`. Main statement: `body_runs_iff_admitted`.
-/

namespace GuardedCall

namespace Guard

/-- The arguments bind, and each parameter with a declared kind takes a value of an accepted
kind. -/
structure Admits (g : Guard) (a : Arguments) : Prop where
  binds : ∃ b, g.signature.bind a = .ok b
  accepted : ∀ p ∈ g.signature.params, ∀ k, p.kind? = some k →
    ∃ v, g.signature.Takes a p v ∧ g.policy.accepts k v.kind = true

variable {g : Guard} {a : Arguments} {b : Bound}

/-- No comparison fails exactly if all declared kinds are met. No parameter is passed over for
want of a value, as all of them have one. -/
theorem firstMismatch_comparisons_eq_none_iff (h : g.signature.bind a = .ok b) :
    firstMismatch (g.comparisons a) = none ↔
      ∀ p ∈ g.signature.params, ∀ k, p.kind? = some k →
        ∃ v, g.signature.Takes a p v ∧ g.policy.accepts k v.kind = true := by
  obtain ⟨hf, -, -⟩ := Signature.bind_eq_ok_iff.1 h
  rw [firstMismatch_eq_none_iff]
  constructor
  · intro hall p hp k hk
    obtain ⟨v, hv⟩ := Option.isSome_iff_exists.1 (Signature.isSome_valueOrDefault?_of_bind h hp)
    have hmem : (⟨p.name, k, v.kind⟩, g.policy.accepts k v.kind) ∈ g.comparisons a :=
      List.mem_filterMap.2 ⟨p, hp, checkOf_complete hp hk hv⟩
    exact ⟨v, (Signature.takes_iff hf.distinct).2 hv, hall _ hmem⟩
  · intro hall c hc
    obtain ⟨p, hp, hcheck⟩ := List.mem_filterMap.1 hc
    cases hk : p.kind? with
    | none =>
      rw [checkOf, hk] at hcheck
      cases hcheck
    | some k =>
      obtain ⟨v, hv, haccepts⟩ := hall p hp k hk
      rw [checkOf_complete hp hk ((Signature.takes_iff hf.distinct).1 hv)] at hcheck
      cases hcheck
      exact haccepts

/-- The check succeeds exactly for the calls that are admitted. -/
theorem exists_check_eq_ok_iff : (∃ b, g.check a = .ok b) ↔ g.Admits a := by
  cases h : g.signature.bind a with
  | error f =>
    rw [check_of_fault h]
    constructor
    · rintro ⟨b, hb⟩
      cases hb
    · rintro ⟨⟨b, hb⟩, -⟩
      rw [h] at hb
      cases hb
  | ok b =>
    rw [check_of_bind h]
    cases hm : firstMismatch (g.comparisons a) with
    | none =>
      have hall := (firstMismatch_comparisons_eq_none_iff h).1 hm
      exact ⟨fun _ => ⟨⟨b, h⟩, hall⟩, fun _ => ⟨_, rfl⟩⟩
    | some m =>
      constructor
      · rintro ⟨b', hb'⟩
        cases hb'
      · rintro ⟨-, hall⟩
        rw [(firstMismatch_comparisons_eq_none_iff h).2 hall] at hm
        cases hm

/-- A check that succeeds gives the complete arguments. -/
theorem check_eq_ok (h : g.check a = .ok b) :
    (∃ b', g.signature.bind a = .ok b') ∧ b = g.signature.complete a := by
  cases hb : g.signature.bind a with
  | error f =>
    rw [check_of_fault hb] at h
    cases h
  | ok b' =>
    rw [check_of_bind hb] at h
    split at h
    · cases h
    · cases h
      exact ⟨⟨b', rfl⟩, rfl⟩

end Guard

section Logged

variable {m : Type → Type} [Monad m]

/-- A body that logs what it is given each time that it runs. -/
def logged (body : Bound → m (Except Failure Value)) (b : Bound) :
    StateT (List Bound) m (Except Failure Value) := do
  modify fun log => log ++ [b]
  liftM (body b)

theorem run_logged [LawfulMonad m] (body : Bound → m (Except Failure Value)) (b : Bound)
    (log : List Bound) :
    (logged body b).run log = (fun o => (o, log ++ [b])) <$> body b := by
  simp [logged]

end Logged

/-- **The body runs exactly for admitted calls.**  The check succeeds if and only if the call is
admitted. Then its result has every parameter once, in the order of the signature and with the
value that the parameter takes; the call runs the body once on that result, and does what the body
does. Otherwise the call fails as the check does, and the body does not run. -/
theorem body_runs_iff_admitted (g : Guard) (a : Arguments) {m : Type → Type} [Monad m]
    [LawfulMonad m] (body : Bound → m (Except Failure Value)) :
    ((∃ b, g.check a = .ok b) ↔ g.Admits a) ∧
      (∀ b, g.check a = .ok b →
        b.names = g.signature.names ∧ b.names.Nodup ∧
          (∀ p ∈ g.signature.params, ∀ v,
            (p.name, v) ∈ b.entries ↔ g.signature.Takes a p v) ∧
          g.call body a = body b ∧
          ∀ log, (g.call (logged body) a).run log = (fun o => (o, log ++ [b])) <$> body b) ∧
      ∀ f, g.check a = .error f →
        g.call body a = pure (.error f) ∧
          ∀ log, (g.call (logged body) a).run log = pure (.error f, log) := by
  refine ⟨Guard.exists_check_eq_ok_iff, fun b hb => ?_, fun f hf => ?_⟩
  · obtain ⟨⟨b', hbind⟩, rfl⟩ := Guard.check_eq_ok hb
    have hnames := Signature.names_complete_of_bind hbind
    refine ⟨hnames, ?_, fun p hp v => Signature.mem_complete_iff hbind hp, ?_, fun log => ?_⟩
    · rw [hnames]
      exact g.signature.names_nodup
    · rw [Guard.call_eq_check, hb]
    · rw [Guard.call_eq_check, hb]
      exact run_logged body _ log
  · refine ⟨?_, fun log => ?_⟩
    · rw [Guard.call_eq_check, hf]
    · rw [Guard.call_eq_check, hf]
      rfl

/-- The sum of one argument and a default runs on both, and the sum of a text does not run. -/
theorem body_runs_iff_admitted_sum :
    let g := sumGuard .strict
    (g.Admits (Arguments.empty.pass (.int 2)) ∧
      g.call (m := Id) sum (Arguments.empty.pass (.int 2)) =
        sum ⟨[("a", .int 2), ("b", .int 0)]⟩) ∧
      ¬ g.Admits (Arguments.empty.pass (.str "two")) := by
  intro g
  obtain ⟨hiff, hok, -⟩ := body_runs_iff_admitted g (Arguments.empty.pass (.int 2)) (m := Id) sum
  obtain ⟨hiff', -⟩ := body_runs_iff_admitted g (Arguments.empty.pass (.str "two")) (m := Id) sum
  refine ⟨⟨hiff.1 ⟨_, rfl⟩, (hok _ rfl).2.2.2.1⟩, fun h => ?_⟩
  obtain ⟨b, hb⟩ := hiff'.2 h
  cases hb

end GuardedCall
