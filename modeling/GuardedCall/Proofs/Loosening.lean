import GuardedCall.Proofs.BindFault
import GuardedCall.Proofs.Mismatch

/-!
# Looser guards

A guard becomes looser if declared kinds are dropped or widened to `object`, and if its policy
switches on more of its flags. A looser guard binds alike, and it refuses a parameter only where
the stricter one refuses it too; so it never rejects or changes a call that the stricter one lets
through, and it never stops at an earlier parameter.

What a signature binds does not depend on its declared kinds: all of it is a function of the names
and the defaults (`Signature.shape`).

Main definitions: `Guard.Looser`, `Guard.MismatchAt`. Main statement: `looser_keeps_calls`.
-/

namespace GuardedCall

/-! ## What binding depends on -/

namespace Signature

/-- The names of the parameters and their defaults. -/
def shape (s : Signature) : List (String × Option Value) :=
  s.params.map fun p => (p.name, p.default?)

variable {s s' : Signature}

theorem names_eq_shape (s : Signature) : s.names = s.shape.map Prod.fst := by
  rw [shape, List.map_map]
  rfl

theorem length_params_of_shape (h : s.shape = s'.shape) :
    s.params.length = s'.params.length := by
  have hlength := congrArg List.length h
  simpa [shape] using hlength

theorem leftOut_eq_shape (s : Signature) (a : Arguments) :
    s.leftOut a = ((s.shape.drop a.values.length).filter fun e =>
      !e.2.isSome && decide (e.1 ∉ a.named.keys)).map Prod.fst := by
  rw [leftOut, shape, ← List.map_drop, List.filter_map, List.map_map]
  rfl

theorem arrange_eq_shape (s : Signature) (given : Entries Value) :
    s.arrange given =
      ⟨s.shape.filterMap fun e => (given.get? e.1).map fun v => (e.1, v)⟩ := by
  rw [arrange, tabulate, shape, List.filterMap_map]
  rfl

theorem complete_eq_shape (s : Signature) (a : Arguments) :
    s.complete a =
      ⟨s.shape.filterMap fun e => (((s.supply a).get? e.1).or e.2).map fun v => (e.1, v)⟩ := by
  rw [complete, tabulate, shape, List.filterMap_map]
  rfl

theorem supply_of_shape (h : s.shape = s'.shape) (a : Arguments) :
    s.supply a = s'.supply a := by
  rw [supply, supply, names_eq_shape, names_eq_shape, h]

theorem complete_of_shape (h : s.shape = s'.shape) (a : Arguments) :
    s.complete a = s'.complete a := by
  rw [complete_eq_shape, complete_eq_shape, supply_of_shape h, h]

theorem faultClasses_of_shape (h : s.shape = s'.shape) (a : Arguments) :
    s.faultClasses a = s'.faultClasses a := by
  have hcount : s.CountFault a = s'.CountFault a := by
    funext f
    rw [CountFault, CountFault, length_params_of_shape h]
  have hkeyword : s.KeywordNameFault a = s'.KeywordNameFault a := by
    funext f
    rw [KeywordNameFault, KeywordNameFault, names_eq_shape, names_eq_shape, h]
  have hmissing : s.MissingFault a = s'.MissingFault a := by
    funext f
    rw [MissingFault, MissingFault, leftOut_eq_shape, leftOut_eq_shape, h]
  rw [faultClasses, faultClasses, hcount, hkeyword, hmissing]

/-- Signatures with the same names and defaults bind alike. -/
theorem bind_of_shape (h : s.shape = s'.shape) (a : Arguments) : s.bind a = s'.bind a := by
  cases hb : s.bind a with
  | error f =>
    rw [bind_eq_error_iff, faultClasses_of_shape h] at hb
    exact (bind_eq_error_iff.2 hb).symm
  | ok b =>
    cases hb' : s'.bind a with
    | error f =>
      -- a fault on one side is the same fault on the other
      rw [bind_eq_error_iff, ← faultClasses_of_shape h, ← bind_eq_error_iff, hb] at hb'
      cases hb'
    | ok b' =>
      obtain ⟨-, -, rfl⟩ := bind_eq_ok_iff.1 hb
      obtain ⟨-, -, rfl⟩ := bind_eq_ok_iff.1 hb'
      rw [arrange_eq_shape, arrange_eq_shape, supply_of_shape h, h]

end Signature

/-! ## Loosening -/

/-- A declaration is kept, widened to `object`, or dropped. -/
inductive Kind.Looser : Option Kind → Option Kind → Prop
  | kept (kind? : Option Kind) : Looser kind? kind?
  | widened (k : Kind) : Looser (some k) (some .object)
  | dropped (k : Kind) : Looser (some k) none

/-- The same parameter, with a declaration that may be looser. -/
structure Param.Looser (p p' : Param) : Prop where
  name : p.name = p'.name
  default : p.default? = p'.default?
  kind : Kind.Looser p.kind? p'.kind?

/-- Every flag that is on stays on. -/
structure Policy.Looser (p p' : Policy) : Prop where
  boolIsInt : p.boolIsInt = true → p'.boolIsInt = true
  intIsFloat : p.intIsFloat = true → p'.intIsFloat = true

/-- The same function and parameters, with looser declarations under a looser policy. -/
structure Guard.Looser (g g' : Guard) : Prop where
  name : g.name = g'.name
  params : List.Forall₂ Param.Looser g.signature.params g'.signature.params
  policy : Policy.Looser g.policy g'.policy

/-- A looser policy accepts all that the other one accepts. -/
theorem Policy.Looser.accepts {p p' : Policy} (h : p.Looser p') {declared actual : Kind}
    (ha : p.accepts declared actual = true) : p'.accepts declared actual = true := by
  obtain ⟨hbool, hint⟩ := h
  unfold Policy.accepts at ha ⊢
  by_cases hsame : actual = declared ∨ declared = .object
  · rw [if_pos hsame]
  · rw [if_neg hsame] at ha ⊢
    -- a truth value passes for a floating point number by both flags at once
    split at ha
    · exact hbool ha
    · exact hint ha
    · rw [Bool.and_eq_true] at ha ⊢
      exact ⟨hint ha.1, hbool ha.2⟩
    · cases ha

namespace Guard

variable {g g' : Guard} {a : Arguments} {p p' : Param} {m : Mismatch}

theorem Looser.shape (h : g.Looser g') : g.signature.shape = g'.signature.shape := by
  have hparams := h.params
  rw [Signature.shape, Signature.shape]
  generalize g.signature.params = ps at hparams
  generalize g'.signature.params = ps' at hparams
  induction hparams with
  | nil => rfl
  | cons hp _ ih => rw [List.map_cons, List.map_cons, hp.name, hp.default, ih]

/-- The parameter at the same place has a declaration that is no looser. -/
theorem Looser.param_at (h : g.Looser g') {i : Nat} (hp : g'.signature.params[i]? = some p') :
    ∃ p, g.signature.params[i]? = some p ∧ p.Looser p' := by
  obtain ⟨hlt', rfl⟩ := List.getElem?_eq_some_iff.1 hp
  have hlt : i < g.signature.params.length := by
    rw [h.params.length_eq]
    exact hlt'
  exact ⟨_, List.getElem?_eq_getElem hlt, h.params.get hlt hlt'⟩

/-! ## Refused parameters -/

/-- A looser guard refuses no more than the other one. -/
theorem Looser.refuses (h : g.Looser g') (hp : p.Looser p') (hr : g'.Refuses a p' m) :
    ∃ m, g.Refuses a p m := by
  obtain ⟨k, v, hk', hv, hrefused, -⟩ := refuses_iff.1 hr
  rw [← Signature.complete_of_shape h.shape, ← hp.name] at hv
  have hkind := hp.kind
  rw [hk'] at hkind
  -- what refuses a value has neither been dropped nor widened
  have hk : p.kind? = some k := by
    generalize p.kind? = k? at hkind
    cases hkind with
    | kept => rfl
    | widened => simp at hrefused
  have hrefused' : g.policy.accepts k v.kind = false := by
    rw [← Bool.not_eq_true] at hrefused ⊢
    exact fun ha => hrefused (h.policy.accepts ha)
  exact ⟨_, refuses_iff.2 ⟨k, v, hk, hv, hrefused', rfl⟩⟩

/-- The check fails for the parameter at an index. -/
def MismatchAt (g : Guard) (a : Arguments) (i : Nat) : Prop :=
  ∃ m, g.check a = .error (mismatchFailure g.name m) ∧
    g.signature.names[i]? = some m.param

theorem name_at {i : Nat} (hp : g.signature.params[i]? = some p) :
    g.signature.names[i]? = some p.name := by
  rw [Signature.names, List.getElem?_map, hp]
  rfl

/-- A mismatch is that of a parameter. -/
theorem refuses_of_mismatch (h : g.check a = .error (mismatchFailure g.name m)) :
    ∃ (i : Nat) (p : Param), g.signature.params[i]? = some p ∧ g.Refuses a p m := by
  obtain ⟨-, before, p, after, hparams, -, hr⟩ := check_eq_mismatchFailure_iff.1 h
  refine ⟨before.length, p, ?_, hr⟩
  rw [hparams]
  simp

/-- A mismatch is at some index. -/
theorem exists_mismatchAt (h : g.check a = .error (mismatchFailure g.name m)) :
    ∃ i, g.MismatchAt a i := by
  obtain ⟨i, p, hp, hr⟩ := refuses_of_mismatch h
  exact ⟨i, m, h, by rw [name_at hp, param_of_refuses hr]⟩

/-- The parameter at which a check fails is refused. -/
theorem MismatchAt.refuses {i : Nat} (h : g.MismatchAt a i) :
    ∃ p m, g.signature.params[i]? = some p ∧ g.Refuses a p m := by
  obtain ⟨m, hcheck, hi⟩ := h
  obtain ⟨j, p, hp, hr⟩ := refuses_of_mismatch hcheck
  -- no other parameter has this name
  have hij : i = j := by
    have hlt : i < g.signature.names.length := (List.getElem?_eq_some_iff.1 hi).1
    have hname : g.signature.names[i]? = g.signature.names[j]? := by
      rw [hi, name_at hp, param_of_refuses hr]
    exact (List.getElem?_inj hlt g.signature.names_nodup).1 hname
  exact ⟨p, m, hij ▸ hp, hr⟩

/-- If a parameter is refused, the check fails there or before. -/
theorem mismatchAt_of_refuses {b : Bound} {i : Nat} (hb : g.signature.bind a = .ok b)
    (hp : g.signature.params[i]? = some p) (h : g.Refuses a p m) :
    ∃ j ≤ i, g.MismatchAt a j := by
  obtain ⟨m', hfirst⟩ := exists_firstFault_iff.2 ⟨p, List.mem_of_getElem? hp, m, h⟩
  have hcheck := check_eq_mismatchFailure_iff.2 ⟨⟨b, hb⟩, hfirst⟩
  obtain ⟨before, p', after, hparams, hnone, hr⟩ := hfirst
  have hp' : g.signature.params[before.length]? = some p' := by
    rw [hparams]
    simp
  refine ⟨before.length, ?_, m', hcheck, by rw [name_at hp', param_of_refuses hr]⟩
  -- no parameter before the first one is refused
  by_contra hlt
  rw [hparams, List.getElem?_append_left (by omega)] at hp
  exact hnone p (List.mem_of_getElem? hp) m h

/-- Where a looser guard stops, the other one has stopped there or before. -/
theorem Looser.mismatchAt (h : g.Looser g') {i : Nat} (hi : g'.MismatchAt a i) :
    ∃ j ≤ i, g.MismatchAt a j := by
  obtain ⟨p', m', hp', hr'⟩ := hi.refuses
  obtain ⟨m, hcheck, -⟩ := hi
  obtain ⟨⟨b, hb⟩, -⟩ := check_eq_mismatchFailure_iff.1 hcheck
  rw [← Signature.bind_of_shape h.shape] at hb
  obtain ⟨p, hp, hloose⟩ := h.param_at hp'
  obtain ⟨m, hr⟩ := h.refuses hloose hr'
  exact mismatchAt_of_refuses hb hp hr

/-- What a guard lets through, a looser one lets through with the same arguments. -/
theorem Looser.check_eq_ok (h : g.Looser g') {b : Bound} (hb : g.check a = .ok b) :
    g'.check a = .ok b := by
  obtain ⟨⟨b₀, hbind⟩, rfl⟩ := Guard.check_eq_ok hb
  have hbind' : g'.signature.bind a = .ok b₀ := by
    rw [← Signature.bind_of_shape h.shape, hbind]
  rw [check_of_bind hbind']
  cases hm : firstMismatch (g'.comparisons a) with
  | none => rw [Signature.complete_of_shape h.shape]
  | some m =>
    -- a parameter that is refused now has been refused before
    have hcheck' : g'.check a = .error (mismatchFailure g'.name m) := by
      rw [check_of_bind hbind', hm]
    obtain ⟨i, hi⟩ := exists_mismatchAt hcheck'
    obtain ⟨j, -, m', hcheck, -⟩ := h.mismatchAt hi
    rw [hb] at hcheck
    cases hcheck

end Guard

/-- **Loosening never rejects or changes an accepted call.**  If a guard lets a call through, a
looser one lets it through with the same arguments, so that a call does the same. If the looser
guard does not bind a call, the other one fails alike; and if the looser guard stops at a
parameter, the other one stops at this parameter or at one before it. -/
theorem looser_keeps_calls {g g' : Guard} (h : g.Looser g') (a : Arguments) :
    (∀ b, g.check a = .ok b → g'.check a = .ok b ∧
      ∀ {m : Type → Type} [Monad m] [LawfulMonad m] (body : Bound → m (Except Failure Value)),
        g.call body a = g'.call body a) ∧
      (∀ f, g'.check a = .error f → f.kind = .binding → g.check a = .error f) ∧
      ∀ i, g'.MismatchAt a i → ∃ j ≤ i, g.MismatchAt a j := by
  have hbind := Signature.bind_of_shape h.shape a
  refine ⟨fun b hb => ?_, fun f hf hkind => ?_, fun i hi => h.mismatchAt hi⟩
  · have hb' : g'.check a = .ok b := h.check_eq_ok hb
    refine ⟨hb', fun body => ?_⟩
    rw [Guard.call_eq_check, Guard.call_eq_check, hb, hb']
  · cases hb' : g'.signature.bind a with
    | error e =>
      rw [Guard.check_of_fault hb'] at hf
      rw [Guard.check_of_fault (hbind.trans hb'), h.name]
      exact hf
    | ok b =>
      -- what binds can only fail by a mismatch
      rw [Guard.check_of_bind hb'] at hf
      split at hf
      · cases hf
        cases hkind
      · cases hf

/-- The sum whose first argument is not checked, under a policy that admits truth values. Both
guards let numbers through; of two texts the strict one refuses the first already. -/
theorem looser_keeps_calls_sum :
    let g := sumGuard .strict
    let g' : Guard :=
      { signature :=
          { name := "sum"
            params := [{ name := "a" },
              { name := "b", kind? := some .int, default? := some (.int 0) }]
            names_nodup := by decide
            defaults_last := by decide }
        policy := .boolAsInt }
    g.Looser g' ∧
      g'.check (Arguments.empty.pass (.int 2)) = .ok ⟨[("a", .int 2), ("b", .int 0)]⟩ ∧
      ∃ j ≤ 1, g.MismatchAt ((Arguments.empty.pass (.str "x")).pass (.str "y")) j := by
  intro g g'
  have h : g.Looser g' :=
    { name := rfl
      params := .cons ⟨rfl, rfl, .dropped .int⟩ (.cons ⟨rfl, rfl, .kept _⟩ .nil)
      policy := ⟨fun _ => rfl, id⟩ }
  refine ⟨h, ?_, ?_⟩
  · exact ((looser_keeps_calls h (Arguments.empty.pass (.int 2))).1 _ rfl).1
  · refine (looser_keeps_calls h ((Arguments.empty.pass (.str "x")).pass (.str "y"))).2.2 1 ?_
    exact ⟨⟨"b", .int, .str⟩, rfl, rfl⟩

end GuardedCall
