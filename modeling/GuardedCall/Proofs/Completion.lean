import GuardedCall.CommandLine
import GuardedCall.Proofs.Binding

/-!
# Filling in defaults

What it means that bound arguments are completed for a signature: only names of its parameters, in
their order, each with the bound value or else the default. There is one such result, the one that
is built parameter by parameter. Arguments that are as many as the parameters are taken as they are,
which is this result only if their names are those of the signature. This holds of arguments that
were bound to the signature itself, and can fail for arguments that were bound to another one.

Main definitions: `Signature.Completes`, `Signature.rebuild`.
Main statements: `completes_iff`, `completes_applyDefaults_iff`,
`defaults_complete_unless_foreign_names_fill_up`.
-/

namespace GuardedCall

namespace Signature

/-- The result has names of parameters only, in their order, and each parameter has the value that
was bound, or else its default. -/
structure Completes (s : Signature) (b r : Bound) : Prop where
  order : r.names.Sublist s.names
  value : ∀ p ∈ s.params, r.get? p.name = (b.get? p.name).or p.default?

/-- All values, bound or by default, parameter by parameter. -/
def rebuild (s : Signature) (b : Bound) : Bound := ⟨s.params.filterMap (entryOrDefault? b)⟩

variable {s t : Signature} {a : Arguments} {b r : Bound} {ps : List Param} {es : Entries Value}

/-! ## One result -/

/-- Entries in the order of distinct parameters are the table of their values. -/
theorem tabulate_get?_eq (hn : (ps.map Param.name).Nodup)
    (h : es.keys.Sublist (ps.map Param.name)) : tabulate ps (fun p => es.get? p.name) = es := by
  induction ps generalizing es with
  | nil =>
    rw [List.map_nil, List.sublist_nil] at h
    rw [List.map_eq_nil_iff.1 h]
    rfl
  | cons p ps ih =>
    rw [List.map_cons, List.nodup_cons] at hn
    rw [List.map_cons, List.sublist_cons_iff] at h
    rw [tabulate_cons]
    rcases h with h | ⟨names, hkeys, h⟩
    · -- there is no entry for this parameter
      have hnone : es.get? p.name = none := by
        rw [Entries.get?_eq_none_iff]
        intro hmem
        exact hn.1 (h.subset hmem)
      rw [hnone, ih hn.2 h]
      rfl
    · -- the first entry is for this parameter
      obtain ⟨⟨name, v⟩, es, rfl, hname, rfl⟩ := List.map_eq_cons_iff.1 hkeys
      dsimp only at hname
      subst hname
      have hrest : tabulate ps (fun q => Entries.get? ((p.name, v) :: es) q.name) =
          tabulate ps fun q => Entries.get? es q.name := by
        refine tabulate_congr fun q hq => ?_
        rw [Entries.get?_cons, if_neg]
        intro hpq
        exact hn.1 (List.mem_map.2 ⟨q, hq, hpq.symm⟩)
      rw [hrest, ih hn.2 h, Entries.get?_cons, if_pos rfl]
      rfl

theorem rebuild_eq_tabulate (s : Signature) (b : Bound) :
    s.rebuild b = ⟨tabulate s.params fun p => (b.get? p.name).or p.default?⟩ := rfl

theorem names_rebuild_sublist (s : Signature) (b : Bound) :
    (s.rebuild b).names.Sublist s.names := by
  have hkeys : (s.rebuild b).names =
      (s.params.filter fun p => ((b.get? p.name).or p.default?).isSome).map Param.name :=
    keys_tabulate _ _
  rw [hkeys]
  exact List.filter_sublist.map Param.name

/-- There is one completion: the one that is built parameter by parameter. -/
theorem completes_iff : s.Completes b r ↔ r = s.rebuild b := by
  constructor
  · rintro ⟨horder, hvalue⟩
    have htable : tabulate s.params (fun p => r.get? p.name) = r.entries :=
      tabulate_get?_eq s.names_nodup horder
    rw [rebuild_eq_tabulate, ← tabulate_congr hvalue, htable]
  · rintro rfl
    refine ⟨names_rebuild_sublist s b, ?_⟩
    intro p hp
    exact get?_tabulate s.names_nodup hp

/-! ## When it is the result -/

theorem length_names (b : Bound) : b.names.length = b.size := List.length_map Prod.fst

theorem length_signature_names (s : Signature) : s.names.length = s.params.length :=
  List.length_map Param.name

theorem applyDefaults_of_size_eq (h : b.size = s.params.length) : s.applyDefaults b = b :=
  if_pos h

theorem applyDefaults_of_size_ne (h : b.size ≠ s.params.length) :
    s.applyDefaults b = s.rebuild b :=
  if_neg h

/-- Arguments that have all names of the signature, in order, are complete already. -/
theorem completes_self (h : b.names = s.names) : s.Completes b b := by
  refine ⟨by rw [h], ?_⟩
  intro p hp
  have hmem : p.name ∈ b.entries.keys := by
    show p.name ∈ b.names
    rw [h]
    exact List.mem_map_of_mem hp
  have hsome : (b.get? p.name).isSome = true := Entries.get?_isSome_iff.2 hmem
  rw [Option.or_of_isSome hsome]

/-- Defaults are filled in as they should exactly if arguments as many as the parameters have their
names, in order. -/
theorem completes_applyDefaults_iff : s.Completes b (s.applyDefaults b) ↔
    (b.size = s.params.length → b.names = s.names) := by
  by_cases hsize : b.size = s.params.length
  · rw [applyDefaults_of_size_eq hsize]
    constructor
    · intro h _
      refine h.order.eq_of_length ?_
      rw [length_names, length_signature_names, hsize]
    · intro h
      exact completes_self (h hsize)
  · rw [applyDefaults_of_size_ne hsize]
    refine iff_of_true (completes_iff.2 rfl) ?_
    intro h
    exact absurd h hsize

/-- Bound arguments, complete or not, stand in the order of the signature they were bound to. -/
theorem names_sublist_of_bound (h : t.bind a = .ok b ∨ t.bindPartial a = .ok b) :
    b.names.Sublist t.names := by
  rcases h with h | h
  · obtain ⟨-, -, rfl⟩ := bind_eq_ok_iff.1 h
    exact names_arrange_sublist t _
  · obtain ⟨-, rfl⟩ := bindPartial_eq_ok_iff.1 h
    exact names_arrange_sublist t _

/-- Arguments bound to a signature with the same names are never mistaken for complete. -/
theorem names_eq_of_size_eq (h : t.bind a = .ok b ∨ t.bindPartial a = .ok b)
    (hnames : t.names = s.names) (hsize : b.size = s.params.length) : b.names = s.names := by
  have hsublist := names_sublist_of_bound h
  rw [hnames] at hsublist
  refine hsublist.eq_of_length ?_
  rw [length_names, length_signature_names, hsize]

/-- What is complete stays as it is. -/
theorem applyDefaults_of_completes (h : s.Completes b r) : s.applyDefaults r = r := by
  by_cases hsize : r.size = s.params.length
  · exact applyDefaults_of_size_eq hsize
  · have hself : s.Completes r r := by
      refine ⟨h.order, ?_⟩
      intro p hp
      rw [h.value p hp, Option.or_assoc, Option.or_self]
    rw [applyDefaults_of_size_ne hsize]
    exact (completes_iff.1 hself).symm

end Signature

/-- **Defaults complete bound arguments, unless foreign names fill up the signature.**  For
arguments that were bound to any signature, the result of filling in the defaults has names of
parameters only, in their order, with the bound values and otherwise the defaults, exactly if the
arguments are not as many as the parameters or have just their names in just their order. So it is
for arguments that were bound to a signature with the same names. There is only one such result, and
filling in the defaults again does not change it. -/
theorem defaults_complete_unless_foreign_names_fill_up (s t : Signature) (a : Arguments) (b : Bound)
    (h : t.bind a = .ok b ∨ t.bindPartial a = .ok b) :
    (s.Completes b (s.applyDefaults b) ↔ (b.size = s.params.length → b.names = s.names)) ∧
    (t.names = s.names → s.Completes b (s.applyDefaults b)) ∧
    ∀ r, s.Completes b r → r = s.rebuild b ∧ s.applyDefaults r = r := by
  refine ⟨Signature.completes_applyDefaults_iff, ?_, ?_⟩
  · intro hnames
    rw [Signature.completes_applyDefaults_iff]
    exact Signature.names_eq_of_size_eq h hnames
  · intro r hr
    exact ⟨Signature.completes_iff.1 hr, Signature.applyDefaults_of_completes hr⟩

/-- Arguments of the sum that leave the second number to its default. -/
theorem defaults_complete_unless_foreign_names_fill_up_sum :
    ∃ b, sumSignature.bind { positional := [.value (.int 1)] } = .ok b ∧
      sumSignature.Completes b (sumSignature.applyDefaults b) := by
  obtain ⟨b, hb⟩ : ∃ b, sumSignature.bind { positional := [.value (.int 1)] } = .ok b := ⟨_, rfl⟩
  obtain ⟨-, hcompletes, -⟩ :=
    defaults_complete_unless_foreign_names_fill_up sumSignature sumSignature _ b (Or.inl hb)
  exact ⟨b, hb, hcompletes rfl⟩

/-- A single foreign name takes the place of the only parameter, whose default is not filled in; and
names that are those of the parameters in another order stay in that order. -/
theorem foreign_names_fill_up_the_signature :
    let f : Signature := ⟨"f", [{ name := "a", default? := some (.int 0) }], by decide, by decide⟩
    let g : Signature := ⟨"g", [{ name := "b" }], by decide, by decide⟩
    let foreign : Bound := ⟨[("b", .int 1)]⟩
    let ab : Signature := ⟨"ab", [{ name := "a" }, { name := "b" }], by decide, by decide⟩
    let ba : Signature := ⟨"ba", [{ name := "b" }, { name := "a" }], by decide, by decide⟩
    let turned : Bound := ⟨[("b", .int 1), ("a", .int 2)]⟩
    (g.bind { positional := [.value (.int 1)] } = .ok foreign ∧
      f.applyDefaults foreign = foreign ∧ ¬ f.Completes foreign (f.applyDefaults foreign)) ∧
    (ba.bind { positional := [.value (.int 1), .value (.int 2)] } = .ok turned ∧
      ab.applyDefaults turned = turned ∧ ¬ ab.Completes turned (ab.applyDefaults turned)) := by
  simp only [Signature.completes_applyDefaults_iff]
  refine ⟨⟨rfl, rfl, ?_⟩, rfl, rfl, ?_⟩
  · decide
  · decide

end GuardedCall
