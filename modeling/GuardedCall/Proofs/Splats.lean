import GuardedCall.CommandLine
import GuardedCall.Proofs.CallForm

/-!
# Splats

A splat of a list or tuple may be replaced, in its place, by its items as plain arguments, and a
splat of a dictionary whose keys are strings by its entries as named ones. Whichever splats are
replaced, the arguments expand to the same values or fail for the same fault, also if other splats
have no items or a keyword comes again. What is bound, checked, done and observed depends on the
arguments only through this expansion, so it stays the same.

Main definitions: `InPlace`, `Arguments.Unfolds`, `Arguments.plain`.
Main statements: `expand_of_unfolds`, `unfolds_plain`, `splats_are_transparent`.
-/

namespace GuardedCall

/-- Each item of a list is replaced in its place by items that may stand for it. -/
inductive InPlace {α : Type} (R : α → List α → Prop) : List α → List α → Prop
  | nil : InPlace R [] []
  | cons {x : α} {ys xs zs : List α} (h : R x ys) (hs : InPlace R xs zs) :
      InPlace R (x :: xs) (ys ++ zs)

namespace InPlace

variable {α β : Type} {R : α → List α → Prop} {xs zs : List α}

/-- All items at once. -/
theorem flatMap {f : α → List α} (h : ∀ x ∈ xs, R x (f x)) : InPlace R xs (xs.flatMap f) := by
  induction xs with
  | nil => exact .nil
  | cons x xs ih =>
    rw [List.forall_mem_cons] at h
    rw [List.flatMap_cons]
    exact .cons h.1 (ih h.2)

/-- What the items stand for, one after another, stays as it is if it does for each item. -/
theorem flatMap_eq {f : α → List β} (hR : ∀ x ys, R x ys → ys.flatMap f = f x)
    (h : InPlace R xs zs) : zs.flatMap f = xs.flatMap f := by
  induction h with
  | nil => rfl
  | cons hx _ ih => rw [List.flatMap_append, List.flatMap_cons, hR _ _ hx, ih]

end InPlace

/-! ## Positional arguments -/

/-- What a positional argument may be replaced by. -/
inductive Positional.Unfolds : Positional → List Positional → Prop
  | kept (p : Positional) : Unfolds p [p]
  | list (items : List Value) : Unfolds (.splat (.list items)) (items.map .value)
  | tuple (items : List Value) : Unfolds (.splat (.tuple items)) (items.map .value)

/-- A well-formed argument unfolds to its items. -/
theorem Positional.unfolds_items {p : Positional} (h : p.WellFormed) :
    p.Unfolds (p.items.map .value) := by
  cases p with
  | value v => exact .kept _
  | splat v =>
    cases v with
    | list items => exact .list items
    | tuple items => exact .tuple items
    | _ => simp [WellFormed, Value.kind] at h

/-! ## Keyword arguments -/

namespace Keyword

/-- What a keyword argument may be replaced by. -/
inductive Unfolds : Keyword → List Keyword → Prop
  | kept (k : Keyword) : Unfolds k [k]
  | dict (es : Entries Value) :
      Unfolds (.splat (.dict (es.map fun e => (.str e.1, e.2)))) (es.map fun e => .named e.1 e.2)

variable {k : Keyword} {ks : List Keyword}

/-- Entries whose keys are strings are the named values that they stand for. -/
theorem entries_eq_map_pairs {entries : List (Value × Value)} (h : ∀ e ∈ entries, e.1.kind = .str) :
    entries =
      (Part.pairs (entries.map fun e => .entry e.1 e.2)).map fun e => (.str e.1, e.2) := by
  induction entries with
  | nil => rfl
  | cons e entries ih =>
    obtain ⟨key, v⟩ := e
    rw [List.forall_mem_cons] at h
    cases key with
    | str name =>
      rw [List.map_cons, Part.pairs_cons, Part.pair?, Option.toList_some, List.singleton_append,
        List.map_cons, ← ih h.2]
    | _ => exact absurd h.1 (by simp [Value.kind])

/-- A well-formed argument unfolds to the named values that it stands for. -/
theorem unfolds_named (h : k.WellFormed) :
    k.Unfolds ((Part.pairs k.parts).map fun e => .named e.1 e.2) := by
  cases k with
  | named name v => exact .kept _
  | splat v =>
    obtain ⟨entries, rfl, hkeys⟩ := h
    have hunfolds := Unfolds.dict (Part.pairs (entries.map fun e => .entry e.1 e.2))
    rw [← entries_eq_map_pairs hkeys] at hunfolds
    exact hunfolds

theorem flatMap_unfold_of_unfolds (h : k.Unfolds ks) : ks.flatMap unfold = k.unfold := by
  cases h with
  | kept => simp
  | dict es =>
    rw [unfold, List.flatMap_map, List.map_map, List.map_eq_flatMap]
    rfl

end Keyword

/-! ## All arguments -/

namespace Arguments

variable {a a' : Arguments}

/-- Some splats, or all, are replaced in place by what they stand for. -/
structure Unfolds (a a' : Arguments) : Prop where
  positional : InPlace Positional.Unfolds a.positional a'.positional
  keywords : InPlace Keyword.Unfolds a.keywords a'.keywords

/-- The arguments without splats that well-formed ones stand for. -/
def plain (a : Arguments) : Arguments :=
  { positional := a.values.map .value, keywords := a.named.map fun e => .named e.1 e.2 }

/-- All splats of well-formed arguments can be replaced. -/
theorem unfolds_plain (h : a.WellFormed) : a.Unfolds a.plain := by
  have hpositional : a.values.map Positional.value =
      a.positional.flatMap fun p => p.items.map .value := List.map_flatMap
  have hkeywords : (a.named.map fun e => Keyword.named e.1 e.2) =
      a.keywords.flatMap fun k => (Keyword.Part.pairs k.parts).map fun e => .named e.1 e.2 := by
    rw [named, parts, Keyword.Part.pairs, List.filterMap_flatMap, List.map_flatMap]
    rfl
  constructor
  · show InPlace _ _ (a.values.map Positional.value)
    rw [hpositional]
    exact .flatMap fun p hp => Positional.unfolds_items (h.1 p hp)
  · show InPlace _ _ (a.named.map fun e => Keyword.named e.1 e.2)
    rw [hkeywords]
    exact .flatMap fun k hk => Keyword.unfolds_named (h.2 k hk)

/-- Positional arguments are expanded one after another, up to the first fault. -/
theorem expandPositional_append (ps qs : List Positional) :
    expandPositional (ps ++ qs) =
      expandPositional ps >>= fun vs => expandPositional qs >>= fun ws => .ok (vs ++ ws) := by
  induction ps with
  | nil =>
    show expandPositional qs = expandPositional qs >>= fun ws => .ok ws
    cases expandPositional qs <;> rfl
  | cons p ps ih =>
    rw [List.cons_append, expandPositional, expandPositional, ih]
    cases p.expand with
    | error f => rfl
    | ok vs =>
      simp only [except_ok_bind]
      cases expandPositional ps with
      | error f => rfl
      | ok ws =>
        simp only [except_ok_bind]
        cases expandPositional qs with
        | error f => rfl
        | ok us => simp only [except_ok_bind, List.append_assoc]

theorem expandPositional_values (vs : List Value) :
    expandPositional (vs.map .value) = .ok vs := by
  induction vs with
  | nil => rfl
  | cons v vs ih =>
    rw [List.map_cons, expandPositional, ih]
    rfl

theorem expandPositional_of_unfolds {p : Positional} {ps : List Positional} (h : p.Unfolds ps) :
    expandPositional ps = p.expand := by
  cases h with
  | kept =>
    rw [expandPositional]
    cases p.expand with
    | error f => rfl
    | ok vs => simp [expandPositional, except_ok_bind]
  | list items => exact expandPositional_values items
  | tuple items => exact expandPositional_values items

theorem expandPositional_of_inPlace {ps qs : List Positional}
    (h : InPlace Positional.Unfolds ps qs) : expandPositional qs = expandPositional ps := by
  induction h with
  | nil => rfl
  | cons hp _ ih =>
    rw [expandPositional_append, expandPositional_of_unfolds hp, ih, expandPositional]

/-- Replacing splats in place does not change what arguments expand to, nor for which fault they
do not. -/
theorem expand_of_unfolds (h : a.Unfolds a') : a'.expand = a.expand := by
  have hkeywords : expandKeywords a'.keywords = expandKeywords a.keywords := by
    rw [expandKeywords, expandKeywords,
      h.keywords.flatMap_eq fun k ks => Keyword.flatMap_unfold_of_unfolds]
  rw [expand, expand, expandPositional_of_inPlace h.positional, hkeywords]

end Arguments

/-- **Splats are transparent.**  If splats of lists, tuples and dictionaries with strings for keys
are replaced in place by what they stand for, then binding, the check and the call have the same
outcome as before, down to the fault that is reported, and an observer is told the same events.
This holds whatever the other arguments are, and in well-formed arguments all splats can be replaced
at once. -/
theorem splats_are_transparent {a a' : Arguments} (h : a.Unfolds a') :
    (∀ s : Signature, s.bind a' = s.bind a ∧ s.bindPartial a' = s.bindPartial a) ∧
      (∀ g : Guard, g.check a' = g.check a ∧
        ∀ {m : Type → Type} [Monad m] (body : Bound → m (Except Failure Value)),
          g.call body a' = g.call body a ∧
            ∀ {σ : Type} (tell : σ → Event → σ), g.callTold tell body a' = g.callTold tell body a) ∧
      (a.WellFormed → a.Unfolds a.plain) := by
  have hexpand := Arguments.expand_of_unfolds h
  have hbind (s : Signature) : s.bind a' = s.bind a := by
    rw [Signature.bind, Signature.bind, hexpand]
  refine ⟨?_, ?_, Arguments.unfolds_plain⟩
  · intro s
    refine ⟨hbind s, ?_⟩
    rw [Signature.bindPartial, Signature.bindPartial, hexpand]
  · intro g
    refine ⟨Guard.check_congr (hbind g.signature), ?_⟩
    intro m _ body
    refine ⟨Guard.callObserved_congr (hbind g.signature) _ body, ?_⟩
    intro σ tell
    exact Guard.callObserved_congr (hbind g.signature) _ _

/-- A list and a dictionary are unfolded before splats that have no items and no entries, and next
to a keyword that comes again. -/
theorem splats_are_transparent_malformed :
    let a : Arguments :=
      { positional := [.splat (.list [.int 1, .int 2]), .splat (.int 5)]
        keywords := [.splat (.dict [(.str "a", .int 1)]), .named "a" (.int 2), .splat (.int 3)] }
    let a' : Arguments :=
      { positional := [.value (.int 1), .value (.int 2), .splat (.int 5)]
        keywords := [.named "a" (.int 1), .named "a" (.int 2), .splat (.int 3)] }
    a.Unfolds a' ∧ sumSignature.bind a' = sumSignature.bind a := by
  intro a a'
  have h : a.Unfolds a' :=
    { positional :=
        .cons (Positional.Unfolds.list [.int 1, .int 2]) (.cons (Positional.Unfolds.kept _) .nil)
      keywords :=
        .cons (Keyword.Unfolds.dict [("a", .int 1)])
          (.cons (Keyword.Unfolds.kept _) (.cons (Keyword.Unfolds.kept _) .nil)) }
  exact ⟨h, ((splats_are_transparent h).1 sumSignature).1⟩

end GuardedCall
