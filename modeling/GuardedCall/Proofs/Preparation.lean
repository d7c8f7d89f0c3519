import GuardedCall.Guard
import GuardedCall.Proofs.Binding

/-!
# What happens before the body

The part of a guarded call before the body, read off the signature and what the call supplies. If
the arguments bind, every parameter has a value, its own or its default; the declared kinds are
compared with these values in the order of the signature, up to the first that is not accepted.

Main definitions: `Signature.complete`, `Guard.comparisons`, `Guard.compared`,
`Guard.firstMismatch`.
Main statements: `checkParams_eq`, `prepare_of_fault`, `prepare_of_bind`, `call_eq_check`.
-/

namespace GuardedCall

namespace Signature

/-! ## Complete arguments -/

/-- The arguments of a call with the defaults filled in, in the order of the signature. -/
def complete (s : Signature) (a : Arguments) : Bound :=
  ⟨tabulate s.params (valueOrDefault? (s.supply a))⟩

/-- A parameter goes into a call with a value: the one that the caller supplies, or its default if
the caller supplies none. -/
inductive Takes (s : Signature) (a : Arguments) (p : Param) (v : Value) : Prop
  | supplied (h : (p.name, v) ∈ s.supply a)
  | defaulted (h : p.name ∉ (s.supply a).keys) (hd : p.default? = some v)

variable {s : Signature} {a : Arguments} {b : Bound} {p : Param} {v : Value}

theorem takes_iff (hd : (s.supply a).keys.Nodup) :
    s.Takes a p v ↔ valueOrDefault? (s.supply a) p = some v := by
  rw [valueOrDefault?]
  constructor
  · rintro (h | ⟨h, hd⟩)
    · rw [(Entries.get?_eq_some_iff hd).2 h]
      rfl
    · rw [Entries.get?_eq_none_iff.2 h]
      exact hd
  · intro h
    cases hg : (s.supply a).get? p.name with
    | none =>
      rw [hg] at h
      exact .defaulted (Entries.get?_eq_none_iff.1 hg) h
    | some w =>
      rw [hg] at h
      cases h
      exact .supplied (Entries.mem_of_get?_eq_some hg)

/-- What is bound becomes complete. -/
theorem applyDefaults_of_bind (h : s.bind a = .ok b) : s.applyDefaults b = s.complete a := by
  obtain ⟨-, -, rfl⟩ := bind_eq_ok_iff.1 h
  exact applyDefaults_arrange s _

/-- If the arguments bind, every parameter has a value. -/
theorem isSome_valueOrDefault?_of_bind (h : s.bind a = .ok b) (hp : p ∈ s.params) :
    (valueOrDefault? (s.supply a) p).isSome = true := by
  obtain ⟨-, hall, -⟩ := bind_eq_ok_iff.1 h
  rw [valueOrDefault?, Option.isSome_or, Bool.or_eq_true, Entries.get?_isSome_iff]
  exact (hall p hp).symm

/-- If the arguments bind, the complete ones have all names of the signature, in order. -/
theorem names_complete_of_bind (h : s.bind a = .ok b) : (s.complete a).names = s.names := by
  have hkeys : (s.complete a).names =
      (s.params.filter fun p => (valueOrDefault? (s.supply a) p).isSome).map Param.name :=
    keys_tabulate _ _
  rw [hkeys, List.filter_eq_self.2 fun p hp => isSome_valueOrDefault?_of_bind h hp]
  rfl

theorem get?_complete (hp : p ∈ s.params) :
    (s.complete a).get? p.name = valueOrDefault? (s.supply a) p :=
  get?_tabulate s.names_nodup hp

/-- The complete arguments hold what the parameters take. -/
theorem mem_complete_iff (h : s.bind a = .ok b) (hp : p ∈ s.params) :
    (p.name, v) ∈ (s.complete a).entries ↔ s.Takes a p v := by
  have hn : (s.complete a).names.Nodup := by
    rw [names_complete_of_bind h]
    exact s.names_nodup
  obtain ⟨hf, -, -⟩ := bind_eq_ok_iff.1 h
  rw [takes_iff hf.distinct, ← get?_complete hp]
  exact (Entries.get?_eq_some_iff hn).symm

end Signature

namespace Guard

/-! ## Comparisons -/

/-- The comparisons for all parameters with a declared kind, in the order of the signature. -/
def comparisons (g : Guard) (a : Arguments) : List (Mismatch × Bool) :=
  g.signature.params.filterMap (g.checkOf (g.signature.complete a))

/-- Comparisons up to and including the first that fails. -/
def compared (cs : List (Mismatch × Bool)) : List (Mismatch × Bool) :=
  cs.takeWhile (·.2) ++ (cs.find? (!·.2)).toList

/-- The first comparison that fails. -/
def firstMismatch (cs : List (Mismatch × Bool)) : Option Mismatch :=
  (cs.find? (!·.2)).map Prod.fst

/-- The event of a comparison. -/
def checkEvent (g : Guard) (c : Mismatch × Bool) : Event :=
  .check g.name c.1.param c.1.expected c.1.actual c.2

variable {g : Guard} {a : Arguments} {b : Bound} {f : BindFault}

/-- A parameter with a declared kind is compared by its value or default. -/
theorem checkOf_complete {p : Param} (hp : p ∈ g.signature.params) {k : Kind} {v : Value}
    (hk : p.kind? = some k) (hv : Signature.valueOrDefault? (g.signature.supply a) p = some v) :
    g.checkOf (g.signature.complete a) p =
      some (⟨p.name, k, v.kind⟩, g.policy.accepts k v.kind) := by
  rw [checkOf, Signature.get?_complete hp, hk, hv]

theorem find?_failed_eq_none_iff {cs : List (Mismatch × Bool)} :
    cs.find? (!·.2) = none ↔ ∀ c ∈ cs, c.2 = true := by
  rw [List.find?_eq_none]
  simp

theorem firstMismatch_eq_none_iff {cs : List (Mismatch × Bool)} :
    firstMismatch cs = none ↔ ∀ c ∈ cs, c.2 = true := by
  rw [firstMismatch, Option.map_eq_none_iff, find?_failed_eq_none_iff]

/-- The checks go through the comparisons up to the first that fails. -/
theorem checkParams_eq (g : Guard) (b : Bound) (ps : List Param) :
    g.checkParams b ps = ((compared (ps.filterMap (g.checkOf b))).map g.checkEvent,
      firstMismatch (ps.filterMap (g.checkOf b))) := by
  induction ps with
  | nil => rfl
  | cons p ps ih =>
    rw [checkParams, List.filterMap_cons]
    cases hc : g.checkOf b p with
    | none => exact ih
    | some c =>
      obtain ⟨m, passed⟩ := c
      cases passed with
      | false => rfl
      | true =>
        simp only [ih, if_pos]
        rfl

/-! ## Preparation -/

theorem prepare_of_fault (h : g.signature.bind a = .error f) :
    g.prepare a = ([], .error (f.failure g.name)) := by
  rw [prepare, h]

theorem prepare_of_bind (h : g.signature.bind a = .ok b) :
    g.prepare a =
      (.bind g.name b ::
        ((g.signature.defaulted b).map (fun e => Event.default g.name e.1 e.2) ++
          (compared (g.comparisons a)).map g.checkEvent),
        match firstMismatch (g.comparisons a) with
        | some m => .error (mismatchFailure g.name m)
        | none => .ok (g.signature.complete a)) := by
  rw [prepare, h]
  simp only [Signature.applyDefaults_of_bind h, checkParams_eq]
  rfl

theorem check_of_fault (h : g.signature.bind a = .error f) :
    g.check a = .error (f.failure g.name) := by
  rw [check, prepare_of_fault h]

theorem check_of_bind (h : g.signature.bind a = .ok b) :
    g.check a = match firstMismatch (g.comparisons a) with
      | some m => .error (mismatchFailure g.name m)
      | none => .ok (g.signature.complete a) := by
  rw [check, prepare_of_bind h]

/-! ## Calls -/

section Call

variable {m : Type → Type} [Monad m] [LawfulMonad m]

theorem forM_unobserved (events : List Event) :
    (events.forM fun _ => (pure () : m Unit)) = pure () := by
  induction events with
  | nil => rfl
  | cons e events ih =>
    show (pure () >>= fun _ => events.forM fun _ => (pure () : m Unit)) = pure ()
    rw [pure_bind, ih]

/-- A guarded call is the check and then the body. -/
theorem call_eq_check (g : Guard) (body : Bound → m (Except Failure Value)) (a : Arguments) :
    g.call body a = match g.check a with
      | .error f => pure (.error f)
      | .ok b => body b := by
  rw [call, callObserved, check]
  obtain ⟨events, ready⟩ := g.prepare a
  cases ready with
  | error f => simp [forM_unobserved]
  | ok b => simp [forM_unobserved]

end Call

end Guard

end GuardedCall
