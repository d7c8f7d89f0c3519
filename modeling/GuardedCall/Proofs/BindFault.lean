import GuardedCall.CommandLine
import GuardedCall.Proofs.Binding
import GuardedCall.Proofs.Wording

/-!
# Why arguments do not bind

The faults of a call fall into five classes: a positional splat without items, a fault of the
keyword arguments on their own, too many values by position, a keyword that has no free
parameter, and parameters that are left out. Binding fails exactly if a class applies, and with
the fault of the first that does.

A keyword meets a slot that is taken only where a value by position has been before. That no
earlier keyword can have been there is what the distinct keywords and the distinct names of
parameters are for (`assignAll_eq_error_iff`).

Main definitions: `Signature.NameFault`, `Signature.faultClasses`.
Main statement: `bind_fails_with_first_fault`.
-/

namespace GuardedCall

open Decimal (natText)
open Text (Mentions)

namespace Signature

/-! ## The classes of faults -/

/-- What is wrong with a keyword, given the names that are known and those of them that are
taken. -/
inductive NameFault (known taken : List String) (name : String) : BindFault → Prop
  | unexpected (h : name ∉ known) : NameFault known taken name (.unexpectedKeyword name)
  | repeated (h : name ∈ known) (ht : name ∈ taken) :
      NameFault known taken name (.argumentRepeated name)

/-- More values by position than parameters. -/
def CountFault (s : Signature) (a : Arguments) (f : BindFault) : Prop :=
  s.params.length < a.values.length ∧ f = .tooManyPositional s.params.length a.values.length

/-- The first keyword that names no parameter, or one that has a value by position. -/
def KeywordNameFault (s : Signature) (a : Arguments) (f : BindFault) : Prop :=
  FirstFault (fun e => NameFault s.names (s.names.take a.values.length) e.1) a.named f

/-- The parameters without default that have neither a value by position nor a keyword. -/
def leftOut (s : Signature) (a : Arguments) : List String :=
  ((s.params.drop a.values.length).filter fun p =>
    !p.hasDefault && decide (p.name ∉ a.named.keys)).map Param.name

/-- Parameters that are left out, all of them. -/
def MissingFault (s : Signature) (a : Arguments) (f : BindFault) : Prop :=
  s.leftOut a ≠ [] ∧ f = .missing (s.leftOut a)

/-- The classes of faults of a call, in the order in which they count. -/
def faultClasses (s : Signature) (a : Arguments) : List (BindFault → Prop) :=
  [a.PositionalFault, a.KeywordFault, s.CountFault a, s.KeywordNameFault a, s.MissingFault a]

/-! ## Keywords that have no free parameter -/

variable {ps : List Param} {given es : Entries Value} {f : BindFault} {s : Signature}
  {a : Arguments}

theorem nameFault_congr {known taken taken' : List String} {name : String}
    (h : name ∈ taken ↔ name ∈ taken') :
    NameFault known taken name f ↔ NameFault known taken' name f := by
  constructor
  · rintro (hn | ⟨hn, ht⟩)
    · exact .unexpected hn
    · exact .repeated hn (h.1 ht)
  · rintro (hn | ⟨hn, ht⟩)
    · exact .unexpected hn
    · exact .repeated hn (h.2 ht)

theorem assign_eq_error_iff (hn : (ps.map Param.name).Nodup) {name : String} {v : Value} :
    assign name v (slotsOf ps given) = .error f ↔
      NameFault (ps.map Param.name) given.keys name f := by
  rw [assign_slotsOf hn]
  by_cases hknown : name ∈ ps.map Param.name
  · rw [if_neg (not_not_intro hknown)]
    by_cases htaken : name ∈ given.keys
    · rw [if_pos htaken]
      constructor
      · rintro ⟨⟩
        exact .repeated hknown htaken
      · rintro (hu | -)
        · exact absurd hknown hu
        · rfl
    · rw [if_neg htaken]
      constructor
      · rintro ⟨⟩
      · rintro (hu | ⟨-, ht⟩)
        · exact absurd hknown hu
        · exact absurd ht htaken
  · rw [if_pos hknown]
    constructor
    · rintro ⟨⟩
      exact .unexpected hknown
    · rintro (- | ⟨hk, -⟩)
      · rfl
      · exact absurd hk hknown

theorem assign_eq_ok_iff (hn : (ps.map Param.name).Nodup) {name : String} {v : Value}
    {slots : List Slot} :
    assign name v (slotsOf ps given) = .ok slots ↔
      (∀ f, ¬ NameFault (ps.map Param.name) given.keys name f) ∧
        slots = slotsOf ps (given ++ [(name, v)]) := by
  constructor
  · intro h
    refine ⟨fun f hf => ?_, ?_⟩
    · rw [← assign_eq_error_iff hn, h] at hf
      cases hf
    · rw [assign_slotsOf hn] at h
      split at h
      · cases h
      · split at h
        · cases h
        · cases h
          rfl
  · rintro ⟨hfree, rfl⟩
    have hknown : name ∈ ps.map Param.name :=
      Decidable.not_not.1 fun h => hfree _ (.unexpected h)
    have hopen : name ∉ given.keys := fun h => hfree _ (.repeated hknown h)
    rw [assign_slotsOf hn, if_neg (not_not_intro hknown), if_neg hopen]

/-- Distinct keywords are refused for the first that has no free parameter; a keyword before it
has not taken its slot. -/
theorem assignAll_eq_error_iff (hn : (ps.map Param.name).Nodup) (hd : es.keys.Nodup) :
    assignAll es (slotsOf ps given) = .error f ↔
      FirstFault (fun e => NameFault (ps.map Param.name) given.keys e.1) es f := by
  induction es generalizing given with
  | nil =>
    constructor
    · intro h
      cases h
    · intro h
      exact absurd h not_firstFault_nil
  | cons e es ih =>
    obtain ⟨name, v⟩ := e
    rw [Entries.keys_cons, List.nodup_cons] at hd
    -- what the keyword takes is of no concern to the keywords after it
    have hsame : ∀ d ∈ es, d.1 ∈ (given ++ [(name, v)]).keys ↔ d.1 ∈ given.keys := by
      intro d hmem
      have hne : d.1 ≠ name := fun h => hd.1 (h ▸ Entries.mem_keys_of_mem hmem)
      rw [Entries.keys_append, List.mem_append, Entries.keys_cons, Entries.keys_nil,
        List.mem_singleton, or_iff_left hne]
    have hrest : assignAll es (slotsOf ps (given ++ [(name, v)])) = .error f ↔
        FirstFault (fun e => NameFault (ps.map Param.name) given.keys e.1) es f := by
      rw [ih hd.2]
      exact firstFault_congr fun d hmem _ => nameFault_congr (hsame d hmem)
    rw [assignAll, except_bind_eq_error_iff, assign_eq_error_iff hn, firstFault_cons]
    simp only [assign_eq_ok_iff hn, and_assoc, exists_and_left, exists_eq_left, hrest]

/-! ## All classes -/

theorem slots_eq_error_iff (hd : a.named.keys.Nodup) :
    s.slots ⟨a.values, a.named⟩ = .error f ↔ FirstOf [s.CountFault a, s.KeywordNameFault a] f := by
  have hkeyword : assignAll a.named (fill s.params a.values) = .error f ↔
      s.KeywordNameFault a f := by
    rw [fill_eq s.names_nodup, assignAll_eq_error_iff s.names_nodup hd, Entries.keys_zip]
    rfl
  rw [Signature.slots, firstOf_cons, firstOf_singleton]
  by_cases hc : s.params.length < a.values.length
  · rw [if_pos hc]
    simp [CountFault, hc, eq_comm]
  · rw [if_neg hc, hkeyword]
    simp [CountFault, hc]

theorem place_eq_error_iff :
    s.place a = .error f ↔ FirstOf
      ([a.PositionalFault, a.KeywordFault] ++ [s.CountFault a, s.KeywordNameFault a]) f := by
  rw [place]
  refine except_bind_eq_error_iff_firstOf (fun f => Arguments.expand_eq_error_iff) fun e he => ?_
  obtain ⟨-, hd, rfl⟩ := Arguments.expand_eq_ok_iff.1 he
  exact slots_eq_error_iff hd

/-- A parameter after those that have values by position gets its value from a keyword or not at
all. -/
theorem mem_keys_supply_of_mem_drop {p : Param} (hp : p ∈ s.params.drop a.values.length) :
    p.name ∈ (s.supply a).keys ↔ p.name ∈ a.named.keys := by
  rw [keys_supply, List.mem_append, or_iff_right]
  intro ht
  have hdrop : p.name ∈ s.names.drop a.values.length := by
    rw [names, ← List.map_drop]
    exact List.mem_map_of_mem hp
  have hn : (s.names.take a.values.length ++ s.names.drop a.values.length).Nodup := by
    rw [List.take_append_drop]
    exact s.names_nodup
  exact (List.nodup_append.1 hn).2.2 _ ht _ hdrop rfl

/-- What is missing is what is neither among the first parameters nor among the keywords. -/
theorem missing_supply (s : Signature) (a : Arguments) : s.missing (s.supply a) = s.leftOut a := by
  have hfirst : ((s.params.take a.values.length).filter fun p =>
      !p.hasDefault && decide (p.name ∉ (s.supply a).keys)) = [] := by
    rw [List.filter_eq_nil_iff]
    intro p hp
    have hkeys : p.name ∈ (s.supply a).keys := by
      rw [keys_supply, names, ← List.map_take]
      exact List.mem_append_left _ (List.mem_map_of_mem hp)
    simp [hkeys]
  have hrest : ((s.params.drop a.values.length).filter fun p =>
      !p.hasDefault && decide (p.name ∉ (s.supply a).keys)) =
        (s.params.drop a.values.length).filter fun p =>
          !p.hasDefault && decide (p.name ∉ a.named.keys) := by
    refine List.filter_congr fun p hp => ?_
    simp only [mem_keys_supply_of_mem_drop hp]
  rw [missing, leftOut, ← List.take_append_drop a.values.length s.params, List.filter_append,
    List.take_append_drop, hfirst, hrest, List.nil_append]

/-- Binding fails with the first fault of the first class that applies. -/
theorem bind_eq_error_iff :
    s.bind a = .error f ↔ FirstOf (s.faultClasses a) f := by
  have hclasses : s.faultClasses a = ([a.PositionalFault, a.KeywordFault] ++
      [s.CountFault a, s.KeywordNameFault a]) ++ [s.MissingFault a] := rfl
  rw [bind_eq_place, hclasses]
  refine except_bind_eq_error_iff_firstOf (fun f => place_eq_error_iff) fun slots hslots => ?_
  obtain ⟨-, rfl⟩ := place_eq_ok_iff.1 hslots
  rw [missingNames_slotsOf, missing_supply, firstOf_singleton, MissingFault]
  by_cases hm : s.leftOut a = []
  · simp [hm]
  · simp [hm, eq_comm]

/-- Where no class applies, what is bound is what the call supplies, in order. -/
theorem bind_ok_of_not_faultClasses (h : ∀ c ∈ s.faultClasses a, ∀ f, ¬ c f) :
    ∃ b, s.bind a = .ok b ∧ b.entries.Perm (s.supply a) ∧ b.names.Sublist s.names := by
  cases hb : s.bind a with
  | error f =>
    obtain ⟨c, hc, f', hf'⟩ := exists_firstOf_iff.1 ⟨f, bind_eq_error_iff.1 hb⟩
    exact absurd hf' (h c hc f')
  | ok b =>
    obtain ⟨hf, -, rfl⟩ := bind_eq_ok_iff.1 hb
    exact ⟨_, rfl, entries_arrange_perm hf.known hf.distinct, names_arrange_sublist s _⟩

end Signature

/-- **Binding fails with the first fault.**  Arguments do not bind exactly if one of the five
classes of faults applies, and what is reported is the fault of the first one that does: a binding
failure without mismatch. Its message names what the fault is about, in order, and gives the number
of missing parameters if it is for these; and no other fault of the function has this message,
unless names with quotes in them make lists of names look alike. If no class applies, the arguments
bind, and what is bound is exactly what the call supplies, in the order of the signature. -/
theorem bind_fails_with_first_fault (s : Signature) (a : Arguments) :
    ((∃ f, s.bind a = .error f) ↔ ∃ c ∈ s.faultClasses a, ∃ f, c f) ∧
      (∀ f, s.bind a = .error f ↔ FirstOf (s.faultClasses a) f) ∧
      (∀ f, s.bind a = .error f →
        (f.failure s.name).kind = .binding ∧ (f.failure s.name).mismatch = none ∧
          Mentions (f.about s.name) (f.failure s.name).message ∧
          (∀ names, f = .missing names → (f.failure s.name).message =
            s.name ++ "() missing " ++ natText names.length ++ " required positional " ++
              (if names.length = 1 then "argument" else "arguments") ++ ": " ++ nameList names) ∧
          ∀ f' : BindFault, (∀ n ∈ f.names, Unquoted n) → (∀ n ∈ f'.names, Unquoted n) →
            (f'.failure s.name).message = (f.failure s.name).message → f' = f) ∧
      ((∀ c ∈ s.faultClasses a, ∀ f, ¬ c f) →
        ∃ b, s.bind a = .ok b ∧ b.entries.Perm (s.supply a) ∧ b.names.Sublist s.names) := by
  refine ⟨?_, fun f => Signature.bind_eq_error_iff, fun f _ => ⟨rfl, rfl, ?_, ?_, ?_⟩,
    Signature.bind_ok_of_not_faultClasses⟩
  · simp only [Signature.bind_eq_error_iff]
    exact exists_firstOf_iff
  · exact BindFault.mentions_message s.name f
  · rintro names rfl
    exact BindFault.message_missing s.name names
  · intro f' hf hf' h
    exact BindFault.message_inj hf' hf h

/-- Of a splat without items, a repeated keyword and too many values, the first counts. -/
example :
    sumSignature.bind
        { positional := [.value (.int 1), .value (.int 2), .value (.int 3), .splat (.int 4)],
          keywords := [.named "c" (.int 1), .named "c" (.int 2)] } =
      .error (.notIterable .int) := rfl

end GuardedCall
