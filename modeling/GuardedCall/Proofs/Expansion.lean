import GuardedCall.Arguments
import GuardedCall.Proofs.Entries
import GuardedCall.Proofs.FirstFault

/-!
# Expansion

What the arguments of a call stand for once their splats are unfolded in place: values by position
and named values. Expanding them gives exactly these if every splat is well formed and no keyword
occurs again, and otherwise the first fault that one meets from left to right, positional
arguments before keyword arguments.

Main definitions: `Arguments.values`, `Arguments.named`, `Arguments.WellFormed`,
`Arguments.PositionalFault`, `Arguments.KeywordFault`.
Main statements: `expand_eq_ok_iff`, `expand_eq_error_iff`.
-/

namespace GuardedCall

/-! ## Positional arguments -/

namespace Positional

/-- A splat has items: it is of a list or of a tuple. -/
def WellFormed : Positional → Prop
  | value _ => True
  | splat v => v.kind = .list ∨ v.kind = .tuple

instance (p : Positional) : Decidable p.WellFormed :=
  match p with
  | value _ => isTrue trivial
  | splat v => inferInstanceAs (Decidable (v.kind = .list ∨ v.kind = .tuple))

/-- The values that a well-formed argument stands for. -/
def items : Positional → List Value
  | value v => [v]
  | splat (.list items) => items
  | splat (.tuple items) => items
  | splat _ => []

/-- What is wrong with a splat that has no items. -/
inductive SplatFault : Positional → BindFault → Prop
  | notIterable (v : Value) (h : ¬ (splat v).WellFormed) :
      SplatFault (splat v) (.notIterable v.kind)

/-- A positional argument is expanded exactly if it has items, and into these. -/
theorem expand_eq_ok_iff {p : Positional} {vs : List Value} :
    p.expand = .ok vs ↔ p.WellFormed ∧ vs = p.items := by
  cases p with
  | value v => simp [expand, WellFormed, items, eq_comm]
  | splat v => cases v <;> simp [expand, WellFormed, items, Value.kind, eq_comm]

/-- A positional argument has one fault at most, that of a splat without items. -/
theorem expand_eq_error_iff {p : Positional} {f : BindFault} :
    p.expand = .error f ↔ p.SplatFault f := by
  constructor
  · intro h
    cases p with
    | value v => cases h
    | splat v => cases v <;> cases h <;> exact .notIterable _ (by simp [WellFormed, Value.kind])
  · rintro ⟨v, h⟩
    cases v with
    | list items => exact absurd (Or.inl rfl) h
    | tuple items => exact absurd (Or.inr rfl) h
    | _ => rfl

end Positional

/-! ## Keyword arguments -/

namespace Keyword

/-- A splat has named entries: it is of a dictionary whose keys are strings. -/
def WellFormed : Keyword → Prop
  | named _ _ => True
  | splat v => ∃ entries, v = .dict entries ∧ ∀ e ∈ entries, e.1.kind = .str

/-- What one finds going through keyword arguments with the splats unfolded in place. -/
inductive Part
  /-- A value under a key: a name, or any value that is a key of a dictionary. -/
  | entry (key v : Value)
  /-- A splat of something that has no entries. -/
  | other (v : Value)

/-- The parts of a keyword argument. -/
def parts : Keyword → List Part
  | named name v => [.entry (.str name) v]
  | splat (.dict entries) => entries.map fun e => .entry e.1 e.2
  | splat v => [.other v]

namespace Part

/-- The named value that a part stands for. -/
def pair? : Part → Option (String × Value)
  | entry (.str name) v => some (name, v)
  | _ => none

/-- The named values that parts stand for. -/
def pairs (ps : List Part) : Entries Value := ps.filterMap pair?

/-- What is wrong with a part after others with the names `seen`. -/
inductive Fault (seen : List String) : Part → BindFault → Prop
  | notMapping (v : Value) : Fault seen (other v) (.notMapping v.kind)
  | keyNotString (key v : Value) (h : key.kind ≠ .str) : Fault seen (entry key v) .keyNotString
  | repeated (name : String) (v : Value) (h : name ∈ seen) :
      Fault seen (entry (.str name) v) (.keywordRepeated name)

/-- What a part is read as on its own. -/
def read : Part → Except BindFault (String × Value)
  | entry (.str name) v => .ok (name, v)
  | entry _ _ => .error .keyNotString
  | other v => .error (.notMapping v.kind)

theorem pairs_cons (p : Part) (ps : List Part) : pairs (p :: ps) = p.pair?.toList ++ pairs ps := by
  rw [pairs, List.filterMap_cons]
  cases p.pair? <;> rfl

theorem pair?_eq_none_of_read {p : Part} {f : BindFault} (h : p.read = .error f) :
    p.pair? = none := by
  cases p with
  | entry key v => cases key <;> first | rfl | cases h
  | other v => rfl

/-- A part is read as the pair that it is. -/
theorem read_eq_ok_iff {p : Part} {e : String × Value} : p.read = .ok e ↔ p.pair? = some e := by
  cases p with
  | entry key v => cases key <;> simp [read, pair?]
  | other v => simp [read, pair?]

/-- A part is at fault on its own, or for its name. -/
theorem fault_iff {seen : List String} {p : Part} {f : BindFault} :
    p.Fault seen f ↔
      p.read = .error f ∨ ∃ e, p.pair? = some e ∧ e.1 ∈ seen ∧ f = .keywordRepeated e.1 := by
  constructor
  · rintro (⟨v⟩ | ⟨key, v, h⟩ | ⟨name, v, h⟩)
    · exact Or.inl rfl
    · cases key with
      | str name => exact absurd rfl h
      | _ => exact Or.inl rfl
    · exact Or.inr ⟨(name, v), rfl, h, rfl⟩
  · rintro (h | ⟨⟨name, v⟩, hp, hs, rfl⟩)
    · cases p with
      | entry key v => cases key <;> cases h <;> exact .keyNotString _ _ (by simp [Value.kind])
      | other v => cases h; exact .notMapping v
    · cases p with
      | entry key w => cases key <;> cases hp; exact .repeated name v hs
      | other w => cases hp

/-- Of the names before, only those that there are matter. -/
theorem fault_congr {seen seen' : List String} (h : ∀ n, n ∈ seen ↔ n ∈ seen') {p : Part}
    {f : BindFault} : p.Fault seen f ↔ p.Fault seen' f := by
  simp only [fault_iff, h]

end Part

/-- A keyword argument unfolds into its parts, each of which is read on its own. -/
theorem unfold_eq (k : Keyword) : k.unfold = k.parts.map Part.read := by
  cases k with
  | named name v => rfl
  | splat v =>
    cases v with
    | dict entries =>
      rw [unfold, parts, List.map_map]
      refine List.map_congr_left ?_
      rintro ⟨key, v⟩ -
      cases key <;> rfl
    | _ => rfl

/-- A keyword argument is well-formed if each of its parts is a pair. -/
theorem wellFormed_iff {k : Keyword} :
    k.WellFormed ↔ ∀ p ∈ k.parts, p.pair?.isSome = true := by
  cases k with
  | named name v => simp [WellFormed, parts, Part.pair?]
  | splat v =>
    cases v with
    | dict entries =>
      have hkey (e : Value × Value) :
          e.1.kind = .str ↔ (Part.entry e.1 e.2).pair?.isSome = true := by
        obtain ⟨key, v⟩ := e
        cases key <;> simp [Value.kind, Part.pair?]
      rw [parts, List.forall_mem_map]
      simp [WellFormed, hkey]
    | _ => simp [WellFormed, parts, Part.pair?]

instance (k : Keyword) : Decidable k.WellFormed := decidable_of_iff _ wellFormed_iff.symm

end Keyword

/-! ## All arguments -/

namespace Arguments

open Keyword (Part)

/-- The values by position. -/
def values (a : Arguments) : List Value := a.positional.flatMap Positional.items

/-- The keyword arguments with the splats unfolded in place. -/
def parts (a : Arguments) : List Part := a.keywords.flatMap Keyword.parts

/-- The named values. -/
def named (a : Arguments) : Entries Value := Part.pairs a.parts

/-- Every splat is well formed. -/
def WellFormed (a : Arguments) : Prop :=
  (∀ p ∈ a.positional, p.WellFormed) ∧ ∀ k ∈ a.keywords, k.WellFormed

instance (a : Arguments) : Decidable a.WellFormed :=
  inferInstanceAs (Decidable ((∀ p ∈ a.positional, p.WellFormed) ∧ ∀ k ∈ a.keywords, k.WellFormed))

/-- The first positional splat that has no items. -/
def PositionalFault (a : Arguments) (f : BindFault) : Prop :=
  FirstIn (fun before p => (∀ q ∈ before, q.WellFormed) ∧ p.SplatFault f) a.positional

/-- The first part of the keyword arguments that has no name, or a name that a part before it
has too. -/
def KeywordFault (a : Arguments) (f : BindFault) : Prop :=
  FirstIn (fun before p => (∀ q ∈ before, q.pair?.isSome = true) ∧ (Part.pairs before).keys.Nodup ∧
    p.Fault (Part.pairs before).keys f) a.parts

/-! ### Plain arguments -/

@[simp] theorem values_ofValues (vs : List Value) : (ofValues vs).values = vs := by
  simp [ofValues, values, List.flatMap_map, Positional.items]

@[simp] theorem named_ofValues (vs : List Value) : (ofValues vs).named = [] := rfl

theorem wellFormed_ofValues (vs : List Value) : (ofValues vs).WellFormed := by
  simp [ofValues, WellFormed, Positional.WellFormed]

@[simp] theorem values_ofEntries (es : Entries Value) : (ofEntries es).values = [] := rfl

@[simp] theorem named_ofEntries (es : Entries Value) : (ofEntries es).named = es := by
  induction es with
  | nil => rfl
  | cons e es ih =>
    show e :: (ofEntries es).named = e :: es
    rw [ih]

theorem wellFormed_ofEntries (es : Entries Value) : (ofEntries es).WellFormed := by
  refine ⟨List.forall_mem_nil _, ?_⟩
  intro k hk
  obtain ⟨e, -, rfl⟩ := List.mem_map.1 hk
  trivial

/-! ### What arguments expand to -/

/-- Positional arguments are expanded exactly if all have items, and into all items in order. -/
theorem expandPositional_eq_ok_iff {ps : List Positional} {vs : List Value} :
    expandPositional ps = .ok vs ↔
      (∀ p ∈ ps, p.WellFormed) ∧ vs = ps.flatMap Positional.items := by
  induction ps generalizing vs with
  | nil => simp [expandPositional, eq_comm]
  | cons p ps ih =>
    simp only [expandPositional, except_bind_eq_ok_iff, Positional.expand_eq_ok_iff, ih,
      List.forall_mem_cons, List.flatMap_cons, Except.ok.injEq]
    constructor
    · rintro ⟨_, ⟨hp, rfl⟩, _, ⟨hps, rfl⟩, rfl⟩
      exact ⟨⟨hp, hps⟩, rfl⟩
    · rintro ⟨⟨hp, hps⟩, rfl⟩
      exact ⟨_, ⟨hp, rfl⟩, _, ⟨hps, rfl⟩, rfl⟩

/-- Positional arguments fail for the first that has no items. -/
theorem expandPositional_eq_error_iff {ps : List Positional} {f : BindFault} :
    expandPositional ps = .error f ↔
      FirstIn (fun before p => (∀ q ∈ before, q.WellFormed) ∧ p.SplatFault f) ps := by
  induction ps with
  | nil =>
    constructor
    · intro h
      cases h
    · intro h
      exact absurd h not_firstIn_nil
  | cons p ps ih =>
    have hrest (vs : List Value) : (do
        let ws ← expandPositional ps
        .ok (vs ++ ws)) = .error f ↔ expandPositional ps = .error f := by
      simp [except_bind_eq_error_iff]
    simp only [expandPositional, except_bind_eq_error_iff, hrest, Positional.expand_eq_ok_iff,
      Positional.expand_eq_error_iff, firstIn_cons, List.forall_mem_cons, and_assoc,
      firstIn_and_left, ih]
    simp

/-- Parts are read as their named values if all have a name, and each name is new. -/
theorem distinct_eq_ok_iff {ps : List Part} {seen : List String} {es : Entries Value} :
    distinct seen (ps.map Part.read) = .ok es ↔
      (∀ p ∈ ps, p.pair?.isSome = true) ∧ (Part.pairs ps).keys.Nodup ∧
        (∀ n ∈ (Part.pairs ps).keys, n ∉ seen) ∧ es = Part.pairs ps := by
  induction ps generalizing seen es with
  | nil =>
    constructor
    · intro h
      cases h
      exact ⟨by simp, by simp [Part.pairs], by simp [Part.pairs], rfl⟩
    · rintro ⟨-, -, -, rfl⟩
      rfl
  | cons p ps ih =>
    rw [List.map_cons, List.forall_mem_cons, Part.pairs_cons]
    cases hp : p.read with
    | error f =>
      simp [distinct, Part.pair?_eq_none_of_read hp]
    | ok e =>
      obtain ⟨name, v⟩ := e
      rw [Part.read_eq_ok_iff.1 hp]
      by_cases hn : name ∈ seen
      · simp [distinct, hn]
      · simp only [distinct, if_neg hn, except_bind_eq_ok_iff, ih, Option.isSome_some, true_and,
          Option.toList_some, List.singleton_append, Entries.keys_cons, List.nodup_cons,
          List.mem_cons, forall_eq_or_imp, not_or, Except.ok.injEq]
        constructor
        · rintro ⟨_, ⟨hps, hnd, hnew, rfl⟩, rfl⟩
          exact ⟨hps, ⟨fun h => (hnew name h).1 rfl, hnd⟩, ⟨hn, fun n h => (hnew n h).2⟩, rfl⟩
        · rintro ⟨hps, ⟨hname, hnd⟩, ⟨-, hnew⟩, rfl⟩
          refine ⟨_, ⟨hps, hnd, fun n h => ⟨?_, hnew n h⟩, rfl⟩, rfl⟩
          rintro rfl
          exact hname h

/-- Parts are refused for the first that has no name, or a name that is not new. -/
theorem distinct_eq_error_iff {ps : List Part} {seen : List String} {f : BindFault} :
    distinct seen (ps.map Part.read) = .error f ↔
      FirstIn (fun before p => (∀ q ∈ before, q.pair?.isSome = true) ∧
        (Part.pairs before).keys.Nodup ∧ (∀ n ∈ (Part.pairs before).keys, n ∉ seen) ∧
          p.Fault (seen ++ (Part.pairs before).keys) f) ps := by
  induction ps generalizing seen with
  | nil =>
    constructor
    · intro h
      cases h
    · intro h
      exact absurd h not_firstIn_nil
  | cons p ps ih =>
    have hhead : ((∀ q ∈ ([] : List Part), q.pair?.isSome = true) ∧
        (Part.pairs []).keys.Nodup ∧ (∀ n ∈ (Part.pairs []).keys, n ∉ seen) ∧
          p.Fault (seen ++ (Part.pairs []).keys) f) ↔ p.Fault seen f := by
      simp [Part.pairs]
    rw [List.map_cons, firstIn_cons, hhead, Part.fault_iff]
    simp only [List.forall_mem_cons, Part.pairs_cons]
    cases hp : p.read with
    | error f' =>
      have hnone := Part.pair?_eq_none_of_read hp
      simp [distinct, hnone]
    | ok e =>
      obtain ⟨name, v⟩ := e
      rw [Part.read_eq_ok_iff.1 hp]
      have hread :
          (Except.ok (name, v) : Except BindFault (String × Value)) = .error f ↔ False := by
        simp
      by_cases hn : name ∈ seen
      · have hrep : (Except.error (.keywordRepeated name) : Except BindFault (Entries Value)) =
            .error f ↔ f = .keywordRepeated name := by
          rw [Except.error.injEq, eq_comm]
        simp [distinct, hn, hrep]
      · -- the rest is read after one more name
        have hstep : distinct seen (.ok (name, v) :: ps.map Part.read) = .error f ↔
            distinct (name :: seen) (ps.map Part.read) = .error f := by
          simp [distinct, hn, except_bind_eq_error_iff]
        simp only [hstep, ih, hread, Option.some.injEq, exists_eq_left', hn, false_and, or_false,
          false_or, Option.isSome_some, true_and, Option.toList_some, List.singleton_append,
          Entries.keys_cons]
        refine firstIn_congr fun before q => and_congr_right fun _ => ?_
        have hseen : q.Fault (name :: seen ++ (Part.pairs before).keys) f ↔
            q.Fault (seen ++ name :: (Part.pairs before).keys) f :=
          Part.fault_congr fun n => by simp [or_left_comm]
        rw [hseen, List.nodup_cons]
        simp only [List.mem_cons, not_or, forall_eq_or_imp]
        constructor
        · rintro ⟨hnd, hnew, hf⟩
          exact ⟨⟨fun h => (hnew name h).1 rfl, hnd⟩, ⟨hn, fun n h => (hnew n h).2⟩, hf⟩
        · rintro ⟨⟨hname, hnd⟩, ⟨-, hnew⟩, hf⟩
          exact ⟨hnd, fun n h => ⟨fun hne => hname (hne ▸ h), hnew n h⟩, hf⟩

/-- The keyword arguments of a call are read part by part, from none seen so far. -/
theorem expandKeywords_eq (a : Arguments) :
    expandKeywords a.keywords = distinct [] (a.parts.map Part.read) := by
  have hunfold : Keyword.unfold = fun k => k.parts.map Part.read := funext Keyword.unfold_eq
  rw [expandKeywords, hunfold, parts, List.map_flatMap]

theorem wellFormed_iff {a : Arguments} :
    a.WellFormed ↔
      (∀ p ∈ a.positional, p.WellFormed) ∧ ∀ p ∈ a.parts, p.pair?.isSome = true := by
  simp only [WellFormed, parts, Keyword.wellFormed_iff, List.forall_mem_flatMap]

/-- Arguments expand to the values that they stand for if every splat is well formed and no
keyword occurs again. -/
theorem expand_eq_ok_iff {a : Arguments} {e : Expanded} :
    a.expand = .ok e ↔ a.WellFormed ∧ a.named.keys.Nodup ∧ e = ⟨a.values, a.named⟩ := by
  simp only [expand, except_bind_eq_ok_iff, expandPositional_eq_ok_iff, expandKeywords_eq,
    distinct_eq_ok_iff, wellFormed_iff, Except.ok.injEq]
  constructor
  · rintro ⟨_, ⟨hp, rfl⟩, _, ⟨hk, hnd, -, rfl⟩, rfl⟩
    exact ⟨⟨hp, hk⟩, hnd, rfl⟩
  · rintro ⟨⟨hp, hk⟩, hnd, rfl⟩
    exact ⟨_, ⟨hp, rfl⟩, _, ⟨hk, hnd, fun _ _ => List.not_mem_nil, rfl⟩, rfl⟩

/-- Arguments do not expand for the first positional fault, or else for the first keyword
fault. -/
theorem expand_eq_error_iff {a : Arguments} {f : BindFault} :
    a.expand = .error f ↔ FirstOf [a.PositionalFault, a.KeywordFault] f := by
  have hpositional (f : BindFault) :
      expandPositional a.positional = .error f ↔ FirstOf [a.PositionalFault] f := by
    rw [expandPositional_eq_error_iff, firstOf_singleton]
    rfl
  have hkeyword (f : BindFault) :
      expandKeywords a.keywords = .error f ↔ FirstOf [a.KeywordFault] f := by
    rw [expandKeywords_eq, distinct_eq_error_iff, firstOf_singleton, KeywordFault]
    simp
  rw [expand]
  refine except_bind_eq_error_iff_firstOf hpositional fun values _ => ?_
  rw [← hkeyword, except_bind_eq_error_iff]
  simp

end Arguments

end GuardedCall
