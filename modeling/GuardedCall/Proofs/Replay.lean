import GuardedCall.Proofs.Admission
import GuardedCall.Proofs.Completion

/-!
# Calls with bound arguments

Bound arguments can be passed on as the arguments of a new call, by position or by name and then in
any order. Such a call supplies just the entries of the bound arguments, so it binds to these again.
If they are complete, there is nothing left for the defaults, and the kinds are compared as before.

Main definition: `Replays`.
Main statements: `bindPartial_of_supply_perm`, `bind_of_supply_perm`, `check_of_replays`,
`bound_arguments_can_be_passed_on`.
-/

namespace GuardedCall

namespace Signature

variable {s : Signature} {a : Arguments} {b : Bound}

/-- Arguments that stand in the order of the signature are arranged as they are, in whatever order
their entries are given. -/
theorem arrange_of_perm {given : Entries Value} (hb : b.names.Sublist s.names)
    (h : given.Perm b.entries) : s.arrange given = b := by
  have hkeys : b.entries.keys.Nodup := s.names_nodup.sublist hb
  have hget (name : String) : given.get? name = b.entries.get? name :=
    (Entries.get?_perm h.symm hkeys name).symm
  refine congrArg Bound.mk ?_
  simp only [hget]
  exact tabulate_get?_eq s.names_nodup hb

/-- A call fits if it supplies the entries of arguments that stand in the order of the signature. -/
theorem fits_of_supply_perm (hb : b.names.Sublist s.names) (hw : a.WellFormed)
    (hc : a.values.length ≤ s.params.length) (h : (s.supply a).Perm b.entries) : s.Fits a := by
  have hkeys : (s.supply a).keys.Perm b.names := h.map Prod.fst
  refine ⟨hw, hc, ?_, hkeys.nodup_iff.2 (s.names_nodup.sublist hb)⟩
  intro n hn
  exact hb.subset (hkeys.mem_iff.1 hn)

theorem bindPartial_of_supply_perm (hb : b.names.Sublist s.names) (hw : a.WellFormed)
    (hc : a.values.length ≤ s.params.length) (h : (s.supply a).Perm b.entries) :
    s.bindPartial a = .ok b :=
  bindPartial_eq_ok_iff.2 ⟨fits_of_supply_perm hb hw hc h, (arrange_of_perm hb h).symm⟩

/-- Complete arguments bind to themselves. -/
theorem bind_of_supply_perm (hb : b.names = s.names) (hw : a.WellFormed)
    (hc : a.values.length ≤ s.params.length) (h : (s.supply a).Perm b.entries) :
    s.bind a = .ok b := by
  have hsublist : b.names.Sublist s.names := by rw [hb]
  refine bind_eq_ok_iff.2
    ⟨fits_of_supply_perm hsublist hw hc h, ?_, (arrange_of_perm hsublist h).symm⟩
  intro p hp
  right
  have hkeys : (s.supply a).keys.Perm b.names := h.map Prod.fst
  rw [hkeys.mem_iff, hb]
  exact List.mem_map_of_mem hp

/-- Complete arguments need no defaults. -/
theorem complete_of_bind (hb : b.names = s.names) (h : s.bind a = .ok b) : s.complete a = b := by
  have hsize : b.size = s.params.length := by
    rw [← length_names, hb, length_signature_names]
  rw [← applyDefaults_of_bind h, applyDefaults_of_size_eq hsize]

end Signature

/-- A call that passes on bound arguments: all by position in their order, or all by name in any
order. -/
inductive Replays (b : Bound) : Arguments → Prop
  | byPosition : Replays b (.ofValues b.values)
  | byName {es : Entries Value} (h : es.Perm b.entries) : Replays b (.ofEntries es)

namespace Replays

variable {s : Signature} {a : Arguments} {b : Bound}

theorem wellFormed (h : Replays b a) : a.WellFormed := by
  cases h with
  | byPosition => exact Arguments.wellFormed_ofValues _
  | byName => exact Arguments.wellFormed_ofEntries _

theorem length_values_le (h : Replays b a) (hb : b.names = s.names) :
    a.values.length ≤ s.params.length := by
  cases h with
  | byPosition =>
    have hlength : b.values.length = s.params.length := by
      rw [← Signature.length_signature_names, ← hb]
      simp [Bound.values, Bound.names, Entries.values, Entries.keys]
    rw [Arguments.values_ofValues]
    exact Nat.le_of_eq hlength
  | byName => simp

/-- By position, the values go to the parameters that they belong to only if all are there. -/
theorem supply_perm (h : Replays b a) (hb : b.names = s.names) :
    (s.supply a).Perm b.entries := by
  cases h with
  | byPosition =>
    have hzip : s.names.zip b.values = b.entries := by
      rw [← hb]
      exact (List.zip_of_prod rfl rfl).symm
    rw [Signature.supply, Arguments.values_ofValues, Arguments.named_ofValues, hzip,
      List.append_nil]
  | byName hes =>
    rw [Signature.supply, Arguments.values_ofEntries, Arguments.named_ofEntries,
      List.zip_nil_right, List.nil_append]
    exact hes

end Replays

namespace Guard

variable {g : Guard} {a a' : Arguments} {b b' : Bound}

/-- What is checked are the complete arguments, however they are supplied. -/
theorem check_of_complete_eq (hb : g.signature.bind a = .ok b) (hb' : g.signature.bind a' = .ok b')
    (h : g.signature.complete a = g.signature.complete a') : g.check a = g.check a' := by
  rw [check_of_bind hb, check_of_bind hb', comparisons, comparisons, h]

/-- A call that passes on what has been checked is checked with the same result. -/
theorem check_of_replays (h : g.check a = .ok b) (ha' : Replays b a') : g.check a' = .ok b := by
  obtain ⟨⟨b₀, hbind⟩, hcomplete⟩ := check_eq_ok h
  have hnames : b.names = g.signature.names := by
    rw [hcomplete]
    exact Signature.names_complete_of_bind hbind
  have hbind' := Signature.bind_of_supply_perm hnames ha'.wellFormed (ha'.length_values_le hnames)
    (ha'.supply_perm hnames)
  have hsame : g.signature.complete a = g.signature.complete a' := by
    rw [← hcomplete, Signature.complete_of_bind hnames hbind']
  rw [← check_of_complete_eq hbind hbind' hsame, h]

end Guard

/-- **Bound arguments can be passed on.**  A call with the values that have passed the check of
another call, by position or by name in any order, passes it with the same result, so that the body
runs on the same arguments. What has been bound in part is bound in part again if it is passed on by
name, in any order. -/
theorem bound_arguments_can_be_passed_on (g : Guard) (a : Arguments) :
    (∀ b, g.check a = .ok b → ∀ a', Replays b a' → g.check a' = .ok b ∧
      ∀ {m : Type → Type} [Monad m] [LawfulMonad m] (body : Bound → m (Except Failure Value)),
        g.call body a = body b ∧ g.call body a' = body b) ∧
      ∀ b, g.signature.bindPartial a = .ok b → ∀ es : Entries Value, es.Perm b.entries →
        g.signature.bindPartial (.ofEntries es) = .ok b := by
  constructor
  · intro b hb a' ha'
    have hb' := Guard.check_of_replays hb ha'
    refine ⟨hb', ?_⟩
    intro m _ _ body
    rw [Guard.call_eq_check, Guard.call_eq_check, hb, hb']
    exact ⟨rfl, rfl⟩
  · intro b hb es hes
    have hsublist := Signature.names_sublist_of_bound (Or.inr hb)
    refine Signature.bindPartial_of_supply_perm hsublist (Arguments.wellFormed_ofEntries es) ?_ ?_
    · simp
    · simpa [Signature.supply] using hes

/-- A list that is passed on by position is no splat, and a default that is passed on by name stays
the value; the last of three parameters can be passed on alone. -/
theorem bound_arguments_can_be_passed_on_list :
    let s : Signature :=
      ⟨"f", [{ name := "xs", kind? := some .list }, { name := "n", default? := some (.int 0) },
        { name := "m", default? := some (.int 1) }], by decide, by decide⟩
    let g : Guard := { signature := s }
    let a := Arguments.empty.pass (.list [.int 1, .int 2])
    let b : Bound := ⟨[("xs", .list [.int 1, .int 2]), ("n", .int 0), ("m", .int 1)]⟩
    g.check a = .ok b ∧ g.check (.ofValues b.values) = .ok b ∧
      g.check (.ofEntries b.entries.reverse) = .ok b ∧
      g.signature.bindPartial (.ofEntries [("m", .int 5)]) = .ok ⟨[("m", .int 5)]⟩ := by
  intro s g a b
  have hb : g.check a = .ok b := rfl
  obtain ⟨hreplay, -⟩ := bound_arguments_can_be_passed_on g a
  obtain ⟨-, hpartial⟩ :=
    bound_arguments_can_be_passed_on g (Arguments.empty.passNamed "m" (.int 5))
  exact ⟨hb, (hreplay b hb _ .byPosition).1,
    (hreplay b hb _ (.byName (List.reverse_perm b.entries))).1, hpartial _ rfl _ (.refl _)⟩

end GuardedCall
