import GuardedCall.Proofs.Completion

/-!
# Partial binding

A full binding is a partial one, followed by the question whether a required parameter has been
left without a value. Where both bind, they bind to the same arguments; where the partial one fails,
the full one fails alike. What is bound in part is completed by the defaults of the parameters that
have no value yet, and then only required parameters can still be without one.

Main definition: `Signature.lacking`.
Main statements: `bind_eq_bindPartial`, `entries_perm_of_completes`,
`partial_binding_leaves_only_gaps`.
-/

namespace GuardedCall

namespace Signature

/-- The names of the required parameters that have no value. -/
def lacking (s : Signature) (b : Bound) : List String :=
  (s.required.filter fun p => !b.contains p.name).map Param.name

variable {s : Signature} {a : Arguments} {b r : Bound} {p : Param} {ps : List Param}

/-! ## Gaps -/

theorem mem_required_iff : p ∈ s.required ↔ p ∈ s.params ∧ p.hasDefault = false := by
  rw [required, List.mem_filter, Bool.not_eq_true']

theorem lacking_eq_nil_iff : s.lacking b = [] ↔ ∀ p ∈ s.required, b.contains p.name = true := by
  rw [lacking, List.map_eq_nil_iff, List.filter_eq_nil_iff]
  simp

/-- What has been arranged lacks the required parameters for which nothing is given. -/
theorem lacking_arrange (s : Signature) (given : Entries Value) :
    s.lacking (s.arrange given) = s.missing given := by
  rw [lacking, required, List.filter_filter, missing]
  refine congrArg (List.map Param.name) (List.filter_congr ?_)
  intro p hp
  have hcontains := contains_arrange_iff hp given
  by_cases hkey : p.name ∈ given.keys
  · simp [hcontains.2 hkey, hkey]
  · have hnot : (s.arrange given).contains p.name = false := by
      rw [← Bool.not_eq_true]
      intro h
      exact hkey (hcontains.1 h)
    simp [hnot, hkey]

/-- A full binding is a partial one that leaves no gaps. -/
theorem bind_eq_bindPartial (s : Signature) (a : Arguments) :
    s.bind a = s.bindPartial a >>= fun b =>
      if s.lacking b = [] then .ok b else .error (.missing (s.lacking b)) := by
  rw [bind_eq_place, bindPartial_eq_place]
  cases hplace : s.place a with
  | error f => rfl
  | ok slots =>
    obtain ⟨-, rfl⟩ := place_eq_ok_iff.1 hplace
    rw [except_ok_bind, except_ok_bind, except_ok_bind, boundOf_slotsOf, missingNames_slotsOf,
      lacking_arrange]

/-! ## Filling the gaps -/

/-- A table of values or else others has the entries of both tables, those of the second only where
the first has none. -/
theorem tabulate_or_perm (ps : List Param) (f g : Param → Option Value) :
    (tabulate ps fun p => (f p).or (g p)).Perm
      (tabulate ps f ++ tabulate ps fun p => if (f p).isSome then none else g p) := by
  induction ps with
  | nil => exact List.Perm.nil
  | cons p ps ih =>
    simp only [tabulate_cons]
    cases hf : f p with
    | some v => simpa using ih
    | none =>
      cases hg : g p with
      | none => simpa using ih
      | some w =>
        -- the default comes behind all values of the first table
        simpa using (ih.cons (p.name, w)).trans List.perm_middle.symm

/-- A completion has the entries that were bound and the defaults of the other parameters. -/
theorem entries_perm_of_completes (hb : b.names.Sublist s.names) (h : s.Completes b r) :
    r.entries.Perm (b.entries ++ s.defaulted b) := by
  have htable : tabulate s.params (fun p => b.get? p.name) = b.entries :=
    tabulate_get?_eq s.names_nodup hb
  rw [completes_iff.1 h, rebuild_eq_tabulate, defaulted_eq_tabulate]
  have hperm := tabulate_or_perm s.params (fun p => b.get? p.name) Param.default?
  rw [htable] at hperm
  exact hperm

/-- What a completion leaves without a value is required, and had none before. -/
theorem name_notMem_of_completes_iff (h : s.Completes b r) (hp : p ∈ s.params) :
    p.name ∉ r.names ↔ p ∈ s.required ∧ b.contains p.name = false := by
  have hget : p.name ∉ r.names ↔ r.get? p.name = none := Entries.get?_eq_none_iff.symm
  rw [hget, h.value p hp, Option.or_eq_none_iff, mem_required_iff]
  simp [hp, Param.hasDefault, Bound.contains, and_comm]

/-- What is bound in part is completed as it should be. -/
theorem completes_of_bindPartial (h : s.bindPartial a = .ok b) :
    s.Completes b (s.applyDefaults b) :=
  completes_applyDefaults_iff.2 (names_eq_of_size_eq (Or.inr h) rfl)

end Signature

/-- **Partial binding leaves only gaps.**  If a partial binding fails, the full one fails alike. If
it succeeds, the full one gives the same arguments where each required parameter has a value, and
otherwise fails for just the required parameters that have none, in the order of the signature.
Filling in the defaults keeps all that is bound, adds the defaults of the parameters that have no
value, in the order of the signature, and leaves only required parameters without a value; doing so
again changes nothing. -/
theorem partial_binding_leaves_only_gaps (s : Signature) (a : Arguments) :
    (∀ f, s.bindPartial a = .error f → s.bind a = .error f) ∧
      ∀ b, s.bindPartial a = .ok b →
        ((∀ p ∈ s.required, b.contains p.name = true) → s.bind a = .ok b) ∧
        ((∃ p ∈ s.required, b.contains p.name = false) →
          s.bind a = .error (.missing (s.lacking b))) ∧
        (s.applyDefaults b).entries.Perm (b.entries ++ s.defaulted b) ∧
        (s.applyDefaults b).names.Sublist s.names ∧
        (∀ p ∈ s.params, p.name ∉ (s.applyDefaults b).names ↔
          p ∈ s.required ∧ b.contains p.name = false) ∧
        s.applyDefaults (s.applyDefaults b) = s.applyDefaults b := by
  have hbind := s.bind_eq_bindPartial a
  constructor
  · intro f hf
    rw [hbind, hf, except_error_bind]
  · intro b hb
    rw [hb, except_ok_bind] at hbind
    have hcompletes := Signature.completes_of_bindPartial hb
    have hsublist := Signature.names_sublist_of_bound (Or.inr hb)
    refine ⟨?_, ?_, Signature.entries_perm_of_completes hsublist hcompletes, hcompletes.order, ?_,
      Signature.applyDefaults_of_completes hcompletes⟩
    · intro hall
      rw [hbind, if_pos (Signature.lacking_eq_nil_iff.2 hall)]
    · rintro ⟨p, hp, hcontains⟩
      rw [hbind, if_neg]
      intro hnone
      rw [Signature.lacking_eq_nil_iff.1 hnone p hp] at hcontains
      cases hcontains
    · intro p hp
      exact Signature.name_notMem_of_completes_iff hcompletes hp

/-- A gap in the middle: the first and the third of three required numbers are given, and a fourth
is left to its default. -/
theorem partial_binding_leaves_only_gaps_middle :
    let s : Signature :=
      ⟨"f", [{ name := "a" }, { name := "b" }, { name := "c" },
        { name := "d", default? := some (.int 0) }], by decide, by decide⟩
    let a := (Arguments.empty.pass (.int 1)).passNamed "c" (.int 3)
    let b : Bound := ⟨[("a", .int 1), ("c", .int 3)]⟩
    s.bindPartial a = .ok b ∧ s.bind a = .error (.missing ["b"]) ∧
      "b" ∉ (s.applyDefaults b).names := by
  intro s a b
  have hb : s.bindPartial a = .ok b := rfl
  obtain ⟨-, hmissing, -, -, hopen, -⟩ := (partial_binding_leaves_only_gaps s a).2 b hb
  have hrequired : ({ name := "b" } : Param) ∈ s.required := by decide
  exact ⟨hb, hmissing ⟨_, hrequired, rfl⟩, (hopen { name := "b" } (by decide)).2 ⟨hrequired, rfl⟩⟩

end GuardedCall
