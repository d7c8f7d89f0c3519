import GuardedCall.Proofs.Admission

/-!
# What a body sees of its arguments

A body takes its arguments out as integers, floating point numbers or texts. Each of these views
covers every kind that some policy accepts for the declaration of the same name, and a body that
runs has a value for every parameter; so on a parameter that is declared `int`, `float` or `str`
the view of this kind does not fail, whatever the policy.

Main definition: `Guard.runsOn`. Main statement: `views_of_declared_parameters`.
-/

namespace GuardedCall

/-! ## Views and accepted kinds -/

namespace Value

variable {p : Policy} {v : Value}

/-- What is accepted for an integer counts as one: the integer itself, or zero or one. -/
theorem asInt?_of_accepts (h : p.accepts .int v.kind = true) :
    ∃ n, v.asInt? = some n ∧ (v = .int n ∨ v = .bool true ∧ n = 1 ∨ v = .bool false ∧ n = 0) := by
  cases v with
  | int n => exact ⟨n, rfl, Or.inl rfl⟩
  | bool b =>
    cases b with
    | true => exact ⟨1, rfl, Or.inr (Or.inl ⟨rfl, rfl⟩)⟩
    | false => exact ⟨0, rfl, Or.inr (Or.inr ⟨rfl, rfl⟩)⟩
  | _ => simp [Policy.accepts, kind] at h

/-- What is accepted for a floating point number counts as one: the number itself, or the number
nearest to an integer. -/
theorem asFloat?_of_accepts (h : p.accepts .float v.kind = true) :
    ∃ x, v.asFloat? = some x ∧
      (v = .float x ∨ ∃ n, v.asInt? = some n ∧ x = Binary64.ofInt n.toInt) := by
  cases v with
  | float x => exact ⟨x, rfl, Or.inl rfl⟩
  | int n => exact ⟨_, rfl, Or.inr ⟨n, rfl, rfl⟩⟩
  | bool b => cases b <;> exact ⟨_, rfl, Or.inr ⟨_, rfl, rfl⟩⟩
  | _ => simp [Policy.accepts, kind] at h

/-- Nothing but a string is accepted for a string. -/
theorem asStr?_of_accepts (h : p.accepts .str v.kind = true) :
    ∃ s, v.asStr? = some s ∧ v = .str s := by
  cases v with
  | str s => exact ⟨s, rfl, rfl⟩
  | _ => simp [Policy.accepts, kind] at h

end Value

/-- A view of a parameter that has a value is the view of this value. -/
theorem Bound.view_eq_ok {α : Type} {as? : Value → Option α} {kind : Kind} {b : Bound}
    {name : String} {v : Value} {x : α} (hv : b.get? name = some v) (hx : as? v = some x) :
    b.view as? kind name = .ok x := by
  simp only [view, hv, hx]

/-! ## Bodies that run -/

namespace Guard

variable {g : Guard} {a : Arguments} {b : Bound}

/-- The bound arguments on which a call runs its body, one run after another. -/
def runsOn (g : Guard) (body : Bound → Except Failure Value) (a : Arguments) : List Bound :=
  ((g.call (m := StateT (List Bound) Id) (logged body) a).run []).2

/-- The body runs on what the check gives, and on nothing else. -/
theorem mem_runsOn_iff {body : Bound → Except Failure Value} :
    b ∈ g.runsOn body a ↔ g.check a = .ok b := by
  rw [runsOn, call_eq_check]
  cases g.check a with
  | error f =>
    constructor
    · intro h
      cases h
    · intro h
      cases h
  | ok b' =>
    have hlog : ((logged (m := Id) body b').run []).2 = [b'] := rfl
    rw [hlog, List.mem_singleton, Except.ok.injEq, eq_comm]

/-- A parameter with a declared kind has a value when the body runs, and the policy accepts it. -/
theorem accepted_of_check (h : g.check a = .ok b) {p : Param} (hp : p ∈ g.signature.params)
    {k : Kind} (hk : p.kind? = some k) :
    ∃ v, b.get? p.name = some v ∧ g.policy.accepts k v.kind = true := by
  have hadmits : g.Admits a := exists_check_eq_ok_iff.1 ⟨b, h⟩
  obtain ⟨⟨b', hbind⟩, rfl⟩ := check_eq_ok h
  obtain ⟨hfits, -, -⟩ := Signature.bind_eq_ok_iff.1 hbind
  obtain ⟨v, hv, haccepts⟩ := hadmits.accepted p hp k hk
  refine ⟨v, ?_, haccepts⟩
  rw [Signature.get?_complete hp]
  exact (Signature.takes_iff hfits.distinct).1 hv

end Guard

/-- **Views of declared parameters do not fail.**  Whenever the body of a guarded call runs, under
whatever policy, a parameter that is declared `int` is seen as the integer that it has, or as zero
or one if it has a truth value; one that is declared `float` is seen as the number that it has, or
as the one nearest to its integer; and one that is declared `str` is seen as the string that it
has. -/
theorem views_of_declared_parameters (g : Guard) (body : Bound → Except Failure Value)
    (a : Arguments) {b : Bound} (hb : b ∈ g.runsOn body a) {p : Param}
    (hp : p ∈ g.signature.params) :
    (p.kind? = some .int → ∃ v n, b.get? p.name = some v ∧ b.int p.name = .ok n ∧
      (v = .int n ∨ v = .bool true ∧ n = 1 ∨ v = .bool false ∧ n = 0)) ∧
    (p.kind? = some .float → ∃ v x, b.get? p.name = some v ∧ b.float p.name = .ok x ∧
      (v = .float x ∨ ∃ n, v.asInt? = some n ∧ x = Binary64.ofInt n.toInt)) ∧
    (p.kind? = some .str → ∃ s, b.get? p.name = some (.str s) ∧ b.str p.name = .ok s) := by
  have hcheck := Guard.mem_runsOn_iff.1 hb
  refine ⟨fun hk => ?_, fun hk => ?_, fun hk => ?_⟩
  · obtain ⟨v, hv, haccepts⟩ := Guard.accepted_of_check hcheck hp hk
    obtain ⟨n, hn, hvn⟩ := Value.asInt?_of_accepts haccepts
    exact ⟨v, n, hv, Bound.view_eq_ok hv hn, hvn⟩
  · obtain ⟨v, hv, haccepts⟩ := Guard.accepted_of_check hcheck hp hk
    obtain ⟨x, hx, hvx⟩ := Value.asFloat?_of_accepts haccepts
    exact ⟨v, x, hv, Bound.view_eq_ok hv hx, hvx⟩
  · obtain ⟨v, hv, haccepts⟩ := Guard.accepted_of_check hcheck hp hk
    obtain ⟨s, hs, rfl⟩ := Value.asStr?_of_accepts haccepts
    exact ⟨s, hv, Bound.view_eq_ok hv hs⟩

/-- The sum of a truth value and a default, under the policy that admits truth values: the body
runs, and sees one and zero. -/
theorem views_of_declared_parameters_sum :
    let g := sumGuard .boolAsInt
    let a := Arguments.empty.pass (.bool true)
    let b : Bound := ⟨[("a", .bool true), ("b", .int 0)]⟩
    b ∈ g.runsOn sum a ∧
      ∃ v n, b.get? "a" = some v ∧ b.int "a" = .ok n ∧
        (v = .int n ∨ v = .bool true ∧ n = 1 ∨ v = .bool false ∧ n = 0) := by
  intro g a b
  have hb : b ∈ g.runsOn sum a := List.mem_singleton.2 rfl
  have hp : { name := "a", kind? := some .int } ∈ g.signature.params := List.mem_cons_self
  exact ⟨hb, (views_of_declared_parameters g sum a hb hp).1 rfl⟩

end GuardedCall
