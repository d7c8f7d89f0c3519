import GuardedCall.CommandLine
import GuardedCall.Recording
import GuardedCall.Proofs.Binding

/-!
# The form of a call

A value may be written by position, by name, or in a splat of either kind, and keyword arguments
in any order. None of this matters: two calls that supply the same named values, in whatever
order, bind alike, and a guarded call of the one does what a guarded call of the other does.

Main statement: `bind_supply_perm`.
-/

namespace GuardedCall

namespace Signature

variable {s : Signature} {a a' : Arguments}

/-- Whether a well-formed call fits does not depend on the order of what it supplies. -/
theorem Fits.of_perm (hf : s.Fits a) (hw' : a'.WellFormed)
    (hc' : a'.values.length ≤ s.params.length) (h : (s.supply a).Perm (s.supply a')) :
    s.Fits a' := by
  have hkeys : (s.supply a).keys.Perm (s.supply a').keys := h.map Prod.fst
  refine ⟨hw', hc', ?_, hkeys.nodup_iff.1 hf.distinct⟩
  intro n hn
  exact hf.known n (hkeys.mem_iff.2 hn)

/-- What fits is arranged alike in whatever order it is supplied. -/
theorem Fits.arrange_perm (hf : s.Fits a) (h : (s.supply a).Perm (s.supply a')) :
    s.arrange (s.supply a) = s.arrange (s.supply a') :=
  congrArg Bound.mk (tabulate_congr fun p _ => Entries.get?_perm h hf.distinct p.name)

theorem bindPartial_of_perm {b : Bound} (hw' : a'.WellFormed)
    (hc' : a'.values.length ≤ s.params.length) (h : (s.supply a).Perm (s.supply a'))
    (hb : s.bindPartial a = .ok b) : s.bindPartial a' = .ok b := by
  rw [bindPartial_eq_ok_iff] at hb ⊢
  obtain ⟨hf, rfl⟩ := hb
  exact ⟨hf.of_perm hw' hc' h, hf.arrange_perm h⟩

theorem bind_of_perm {b : Bound} (hw' : a'.WellFormed)
    (hc' : a'.values.length ≤ s.params.length) (h : (s.supply a).Perm (s.supply a'))
    (hb : s.bind a = .ok b) : s.bind a' = .ok b := by
  rw [bind_eq_ok_iff] at hb ⊢
  obtain ⟨hf, hall, rfl⟩ := hb
  refine ⟨hf.of_perm hw' hc' h, fun p hp => ?_, hf.arrange_perm h⟩
  exact (hall p hp).imp id (h.map Prod.fst).mem_iff.1

/-- Two results of binding are alike: the same arguments in the order of the signature, or a
binding failure on both sides. -/
def Alike (s : Signature) (x y : Except BindFault Bound) : Prop :=
  (∃ b, x = .ok b ∧ y = .ok b ∧ b.names.Sublist s.names) ∨
    ∃ f f', x = .error f ∧ y = .error f' ∧
      (f.failure s.name).kind = .binding ∧ (f'.failure s.name).kind = .binding

/-- Results are alike if success on either side brings the same success on the other. -/
theorem alike_of_ok_iff {x y : Except BindFault Bound}
    (hxy : ∀ b, x = .ok b → y = .ok b) (hyx : ∀ b, y = .ok b → x = .ok b)
    (horder : ∀ b, x = .ok b → b.names.Sublist s.names) : s.Alike x y := by
  cases hx : x with
  | ok b => exact Or.inl ⟨b, rfl, hxy b hx, horder b hx⟩
  | error f =>
    cases hy : y with
    | ok b =>
      rw [hyx b hy] at hx
      cases hx
    | error f' => exact Or.inr ⟨f, f', rfl, rfl, rfl, rfl⟩

end Signature

/-- A guarded call depends on its arguments only through their binding. -/
theorem Guard.prepare_congr {g : Guard} {a a' : Arguments}
    (h : g.signature.bind a = g.signature.bind a') : g.prepare a = g.prepare a' := by
  rw [Guard.prepare, Guard.prepare, h]

theorem Guard.check_congr {g : Guard} {a a' : Arguments}
    (h : g.signature.bind a = g.signature.bind a') : g.check a = g.check a' := by
  rw [Guard.check, Guard.check, Guard.prepare_congr h]

theorem Guard.callObserved_congr {g : Guard} {a a' : Arguments} {m : Type → Type} [Monad m]
    (h : g.signature.bind a = g.signature.bind a') (observe : Event → m Unit)
    (body : Bound → m (Except Failure Value)) :
    g.callObserved observe body a = g.callObserved observe body a' := by
  rw [Guard.callObserved, Guard.callObserved, Guard.prepare_congr h]

/-- **The form of a call does not matter.**  Two calls with well-formed splats and no more values
by position than parameters, which supply the same named values in some order, bind alike, fully
or in part; and if they bind, a guarded call has the same effects, outcome and events for both. -/
theorem bind_supply_perm (g : Guard) {a a' : Arguments} (hw : a.WellFormed) (hw' : a'.WellFormed)
    (hc : a.values.length ≤ g.signature.params.length)
    (hc' : a'.values.length ≤ g.signature.params.length)
    (h : (g.signature.supply a).Perm (g.signature.supply a')) :
    g.signature.Alike (g.signature.bind a) (g.signature.bind a') ∧
      g.signature.Alike (g.signature.bindPartial a) (g.signature.bindPartial a') ∧
        ∀ b, g.signature.bind a = .ok b →
          ∀ {m : Type → Type} [Monad m] (body : Bound → m (Except Failure Value)),
            g.call body a = g.call body a' ∧
              ∀ r, (g.callTold Recording.observe body a).run r =
                (g.callTold Recording.observe body a').run r := by
  refine ⟨?_, ?_, ?_⟩
  · refine Signature.alike_of_ok_iff (fun b => Signature.bind_of_perm hw' hc' h)
      (fun b => Signature.bind_of_perm hw hc h.symm) fun b hb => ?_
    obtain ⟨-, -, rfl⟩ := Signature.bind_eq_ok_iff.1 hb
    exact Signature.names_arrange_sublist _ _
  · refine Signature.alike_of_ok_iff (fun b => Signature.bindPartial_of_perm hw' hc' h)
      (fun b => Signature.bindPartial_of_perm hw hc h.symm) fun b hb => ?_
    obtain ⟨-, rfl⟩ := Signature.bindPartial_eq_ok_iff.1 hb
    exact Signature.names_arrange_sublist _ _
  · intro b hb m _ body
    have hbind : g.signature.bind a = g.signature.bind a' := by
      rw [hb, Signature.bind_of_perm hw' hc' h hb]
    have hprepare := Guard.prepare_congr hbind
    refine ⟨?_, fun r => ?_⟩
    · rw [Guard.call, Guard.call, Guard.callObserved, Guard.callObserved, hprepare]
    · rw [Guard.callTold, Guard.callTold, Guard.callObserved, Guard.callObserved, hprepare]

/-- The sum of one and two, with the first in a splat and the second by name, and with both in a
splat of a dictionary the other way round. -/
theorem bind_supply_perm_sum :
    let g := sumGuard .strict
    let a := (Arguments.empty.passAll (.list [.int 1])).passNamed "b" (.int 2)
    let a' := Arguments.empty.passAllNamed (.dict [(.str "b", .int 2), (.str "a", .int 1)])
    (g.signature.supply a).Perm (g.signature.supply a') ∧
      g.signature.Alike (g.signature.bind a) (g.signature.bind a') := by
  intro g a a'
  have h : (g.signature.supply a).Perm (g.signature.supply a') := List.Perm.swap _ _ _
  exact ⟨h, (bind_supply_perm g (by decide) (by decide) (by decide) (by decide) h).1⟩

end GuardedCall
