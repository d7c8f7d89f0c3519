import GuardedCall.Signature.Binding
import GuardedCall.Proofs.Expansion
import Mathlib.Data.List.Nodup

/-!
# Binding

A call supplies named values: those by position under the names of the first parameters, then the
keyword arguments. Whatever its form, a call binds exactly if its splats are well formed, it has
no more values by position than there are parameters, and what it supplies has distinct names, all
of parameters; the bound arguments are then what it supplies, in the order of the signature.

The proof follows the slots: at each moment a slot shows the value that has been supplied under the
name of its parameter so far (`slotsOf`).

Main definitions: `Signature.supply`, `Signature.arrange`, `Signature.Fits`.
Main statements: `bindPartial_eq_ok_iff`, `bind_eq_ok_iff`.
-/

namespace GuardedCall.Signature

/-! ## What a call supplies -/

/-- The names of the parameters, in order. -/
def names (s : Signature) : List String := s.params.map Param.name

/-- The values that a call supplies, by name: each value by position under the name of the
parameter at its place, then the keyword arguments. -/
def supply (s : Signature) (a : Arguments) : Entries Value := s.names.zip a.values ++ a.named

/-- The values of parameters, for those that have one, under their names and in order. -/
def tabulate (ps : List Param) (f : Param → Option Value) : Entries Value :=
  ps.filterMap fun p => (f p).map fun v => (p.name, v)

/-- Named values in the order of the signature. -/
def arrange (s : Signature) (given : Entries Value) : Bound :=
  ⟨tabulate s.params fun p => given.get? p.name⟩

/-- The arguments can be bound, if perhaps not all that are required. -/
structure Fits (s : Signature) (a : Arguments) : Prop where
  wellFormed : a.WellFormed
  count : a.values.length ≤ s.params.length
  known : ∀ n ∈ (s.supply a).keys, n ∈ s.names
  distinct : (s.supply a).keys.Nodup

theorem keys_supply (s : Signature) (a : Arguments) :
    (s.supply a).keys = s.names.take a.values.length ++ a.named.keys := by
  rw [supply, Entries.keys_append, Entries.keys_zip]

/-! ## Slots -/

/-- The slots of parameters that show what has been given so far. -/
def slotsOf (ps : List Param) (given : Entries Value) : List Slot :=
  ps.map fun p => ⟨p, given.get? p.name⟩

variable {ps : List Param} {given es : Entries Value} {name : String} {v : Value}

/-- What is given under another name does not show. -/
theorem slotsOf_congr {given' : Entries Value}
    (h : ∀ p ∈ ps, given.get? p.name = given'.get? p.name) :
    slotsOf ps given = slotsOf ps given' :=
  List.map_congr_left fun p hp => by rw [h p hp]

/-- Values by position go to the first parameters. -/
theorem fill_eq (hn : (ps.map Param.name).Nodup) (vs : List Value) :
    fill ps vs = slotsOf ps ((ps.map Param.name).zip vs) := by
  induction ps generalizing vs with
  | nil => rfl
  | cons p ps ih =>
    rw [List.map_cons, List.nodup_cons] at hn
    cases vs with
    | nil =>
      rw [fill, ih hn.2, List.zip_nil_right, List.zip_nil_right]
      rfl
    | cons v vs =>
      rw [fill, ih hn.2, List.map_cons, List.zip_cons_cons]
      have hrest : slotsOf ps ((ps.map Param.name).zip vs) =
          slotsOf ps ((p.name, v) :: (ps.map Param.name).zip vs) := by
        refine slotsOf_congr fun q hq => ?_
        rw [Entries.get?_cons, if_neg]
        intro hpq
        exact hn.1 (List.mem_map.2 ⟨q, hq, hpq.symm⟩)
      rw [hrest, slotsOf, slotsOf, List.map_cons, Entries.get?_cons, if_pos rfl]

theorem get?_concat (given : Entries Value) (name other : String) (v : Value) :
    (given ++ [(name, v)]).get? other =
      (given.get? other).or (if name = other then some v else none) := by
  rw [Entries.get?_append, Entries.get?_cons, Entries.get?_nil]

/-- One keyword: it must name a parameter that has nothing yet, and then shows in its slot. -/
theorem assign_slotsOf (hn : (ps.map Param.name).Nodup) :
    assign name v (slotsOf ps given) =
      if name ∉ ps.map Param.name then .error (.unexpectedKeyword name)
      else if name ∈ given.keys then .error (.argumentRepeated name)
      else .ok (slotsOf ps (given ++ [(name, v)])) := by
  induction ps with
  | nil => rfl
  | cons p ps ih =>
    rw [List.map_cons, List.nodup_cons] at hn
    have hcons : slotsOf (p :: ps) given = ⟨p, given.get? p.name⟩ :: slotsOf ps given := rfl
    rw [hcons, assign]
    by_cases hp : p.name = name
    · subst hp
      have hmem : p.name ∈ (p :: ps).map Param.name := by simp
      rw [if_pos rfl, if_neg (not_not_intro hmem)]
      cases hg : given.get? p.name with
      | none =>
        have hfree : p.name ∉ given.keys := Entries.get?_eq_none_iff.1 hg
        have hrest : slotsOf ps given = slotsOf ps (given ++ [(p.name, v)]) := by
          refine slotsOf_congr fun q hq => ?_
          rw [get?_concat, if_neg, Option.or_none]
          intro hpq
          exact hn.1 (List.mem_map.2 ⟨q, hq, hpq.symm⟩)
        rw [if_neg hfree, hrest]
        simp [slotsOf, get?_concat, hg]
      | some w =>
        have htaken : p.name ∈ given.keys := Entries.get?_isSome_iff.1 (by rw [hg]; rfl)
        rw [if_pos htaken]
    · have hmem : name ∈ (p :: ps).map Param.name ↔ name ∈ ps.map Param.name := by
        simp [Ne.symm hp]
      rw [if_neg hp, ih hn.2]
      simp only [hmem]
      split
      · rfl
      · split
        · rfl
        · rw [except_ok_bind]
          simp [slotsOf, get?_concat, Ne.symm hp]

/-- All keywords: each names a parameter, no name comes twice, and none was given before. -/
theorem assignAll_eq_ok_iff (hn : (ps.map Param.name).Nodup) {slots : List Slot} :
    assignAll es (slotsOf ps given) = .ok slots ↔
      (∀ n ∈ es.keys, n ∈ ps.map Param.name) ∧ es.keys.Nodup ∧
        (∀ n ∈ es.keys, n ∉ given.keys) ∧ slots = slotsOf ps (given ++ es) := by
  induction es generalizing given with
  | nil => simp [assignAll, eq_comm]
  | cons e es ih =>
    obtain ⟨name, v⟩ := e
    rw [assignAll, assign_slotsOf hn]
    simp only [Entries.keys_cons, List.forall_mem_cons, List.nodup_cons]
    by_cases hknown : name ∈ ps.map Param.name
    · rw [if_neg (not_not_intro hknown)]
      by_cases htaken : name ∈ given.keys
      · rw [if_pos htaken, except_error_bind]
        simp [htaken]
      · rw [if_neg htaken, except_ok_bind, ih, List.append_assoc, List.singleton_append,
          Entries.keys_append]
        simp only [Entries.keys_cons, Entries.keys_nil, List.mem_append, List.mem_singleton,
          not_or, hknown, htaken, not_false_eq_true, true_and]
        constructor
        · rintro ⟨hk, hnd, hnew, hs⟩
          exact ⟨hk, ⟨fun h => (hnew name h).2 rfl, hnd⟩, fun n h => (hnew n h).1, hs⟩
        · rintro ⟨hk, ⟨hname, hnd⟩, hnew, hs⟩
          refine ⟨hk, hnd, fun n h => ⟨hnew n h, ?_⟩, hs⟩
          rintro rfl
          exact hname h
    · rw [if_pos hknown, except_error_bind]
      simp [hknown]

/-- The slots are those of what the call supplies, if that has distinct names of parameters. -/
theorem slots_eq_ok_iff (s : Signature) {vs : List Value} {es : Entries Value}
    {slots : List Slot} :
    s.slots ⟨vs, es⟩ = .ok slots ↔
      vs.length ≤ s.params.length ∧ (∀ n ∈ es.keys, n ∈ s.names) ∧ es.keys.Nodup ∧
        (∀ n ∈ es.keys, n ∉ s.names.take vs.length) ∧
          slots = slotsOf s.params (s.names.zip vs ++ es) := by
  rw [Signature.slots, fill_eq s.names_nodup]
  by_cases hc : s.params.length < vs.length
  · simp [hc, Nat.not_le.2 hc]
  · rw [if_neg hc, assignAll_eq_ok_iff s.names_nodup, Entries.keys_zip]
    simp only [Nat.not_lt.1 hc, true_and]
    rfl

/-- A call fits exactly if it expands to something that has slots. -/
theorem fits_iff (s : Signature) (a : Arguments) :
    s.Fits a ↔ a.WellFormed ∧ a.named.keys.Nodup ∧ a.values.length ≤ s.params.length ∧
      (∀ n ∈ a.named.keys, n ∈ s.names) ∧ ∀ n ∈ a.named.keys, n ∉ s.names.take a.values.length := by
  have htake : ∀ n ∈ s.names.take a.values.length, n ∈ s.names := fun n h => List.mem_of_mem_take h
  constructor
  · rintro ⟨hw, hc, hk, hd⟩
    rw [keys_supply] at hk hd
    rw [List.nodup_append] at hd
    refine ⟨hw, hd.2.1, hc, fun n h => hk n (List.mem_append_right _ h), fun n h ht => ?_⟩
    exact hd.2.2 n ht n h rfl
  · rintro ⟨hw, hnd, hc, hk, hnew⟩
    refine ⟨hw, hc, ?_, ?_⟩
    · intro n h
      rw [keys_supply, List.mem_append] at h
      exact h.elim (htake n) (hk n)
    · rw [keys_supply, List.nodup_append]
      refine ⟨s.names_nodup.sublist (List.take_sublist _ _), hnd, ?_⟩
      rintro n ht m h rfl
      exact hnew n h ht

theorem boundOf_slotsOf (s : Signature) (given : Entries Value) :
    boundOf (slotsOf s.params given) = s.arrange given := by
  rw [boundOf, slotsOf, List.filterMap_map]
  rfl

/-! ## Bound arguments -/

/-- The names of the parameters that have no default and are given no value. -/
def missing (s : Signature) (given : Entries Value) : List String :=
  (s.params.filter fun p => !p.hasDefault && decide (p.name ∉ given.keys)).map Param.name

theorem missing_eq_nil_iff {s : Signature} {given : Entries Value} :
    s.missing given = [] ↔ ∀ p ∈ s.params, p.hasDefault = true ∨ p.name ∈ given.keys := by
  rw [missing, List.map_eq_nil_iff, List.filter_eq_nil_iff]
  refine forall_congr' fun p => imp_congr_right fun _ => ?_
  cases p.hasDefault <;> simp

theorem missingNames_slotsOf (s : Signature) (given : Entries Value) :
    missingNames (slotsOf s.params given) = s.missing given := by
  rw [missingNames, slotsOf, List.filter_map, List.map_map]
  have hmissing (p : Param) : (Slot.mk p (given.get? p.name)).isMissing =
      (!p.hasDefault && decide (p.name ∉ given.keys)) := by
    rw [Bool.eq_iff_iff]
    simp [Slot.isMissing, Entries.get?_eq_none_iff, and_comm]
  have hfilter : Slot.isMissing ∘ (fun p => Slot.mk p (given.get? p.name)) =
      fun p => !p.hasDefault && decide (p.name ∉ given.keys) := funext hmissing
  rw [hfilter]
  rfl

/-- The slots after all arguments of a call. -/
def place (s : Signature) (a : Arguments) : Except BindFault (List Slot) := do
  let e ← a.expand
  s.slots e

theorem place_eq_ok_iff {s : Signature} {a : Arguments} {slots : List Slot} :
    s.place a = .ok slots ↔ s.Fits a ∧ slots = slotsOf s.params (s.supply a) := by
  rw [place, except_bind_eq_ok_iff, fits_iff]
  simp only [Arguments.expand_eq_ok_iff]
  constructor
  · rintro ⟨_, ⟨hw, hnd, rfl⟩, h⟩
    obtain ⟨hc, hk, -, hnew, rfl⟩ := (slots_eq_ok_iff s).1 h
    exact ⟨⟨hw, hnd, hc, hk, hnew⟩, rfl⟩
  · rintro ⟨⟨hw, hnd, hc, hk, hnew⟩, rfl⟩
    exact ⟨_, ⟨hw, hnd, rfl⟩, (slots_eq_ok_iff s).2 ⟨hc, hk, hnd, hnew, rfl⟩⟩

theorem bindPartial_eq_place (s : Signature) (a : Arguments) :
    s.bindPartial a = s.place a >>= fun slots => .ok (boundOf slots) := by
  rw [bindPartial, place]
  cases a.expand <;> rfl

theorem bind_eq_place (s : Signature) (a : Arguments) :
    s.bind a = s.place a >>= fun slots =>
      if missingNames slots = [] then .ok (boundOf slots)
      else .error (.missing (missingNames slots)) := by
  rw [bind, place]
  cases a.expand with
  | error f => rfl
  | ok e =>
    rw [except_ok_bind, except_ok_bind]
    cases s.slots e with
    | error f => rfl
    | ok slots =>
      rw [except_ok_bind, except_ok_bind]
      cases missingNames slots <;> rfl

/-- A partial binding succeeds exactly for calls that fit, with what they supply. -/
theorem bindPartial_eq_ok_iff {s : Signature} {a : Arguments} {b : Bound} :
    s.bindPartial a = .ok b ↔ s.Fits a ∧ b = s.arrange (s.supply a) := by
  rw [bindPartial_eq_place, except_bind_eq_ok_iff]
  simp only [place_eq_ok_iff, Except.ok.injEq]
  constructor
  · rintro ⟨_, ⟨hf, rfl⟩, rfl⟩
    exact ⟨hf, boundOf_slotsOf s _⟩
  · rintro ⟨hf, rfl⟩
    exact ⟨_, ⟨hf, rfl⟩, boundOf_slotsOf s _⟩

/-- A binding succeeds exactly for calls that fit and leave out no required parameter, with what
they supply. -/
theorem bind_eq_ok_iff {s : Signature} {a : Arguments} {b : Bound} :
    s.bind a = .ok b ↔ s.Fits a ∧
      (∀ p ∈ s.params, p.hasDefault = true ∨ p.name ∈ (s.supply a).keys) ∧
        b = s.arrange (s.supply a) := by
  rw [bind_eq_place, except_bind_eq_ok_iff, ← missing_eq_nil_iff]
  simp only [place_eq_ok_iff]
  constructor
  · rintro ⟨_, ⟨hf, rfl⟩, h⟩
    rw [missingNames_slotsOf, boundOf_slotsOf] at h
    split at h
    · rename_i hm
      cases h
      exact ⟨hf, hm, rfl⟩
    · cases h
  · rintro ⟨hf, hm, rfl⟩
    refine ⟨_, ⟨hf, rfl⟩, ?_⟩
    rw [missingNames_slotsOf, boundOf_slotsOf, if_pos hm]

/-! ## What is bound -/

section tabulate

variable {f g : Param → Option Value}

theorem tabulate_cons (p : Param) (ps : List Param) (f : Param → Option Value) :
    tabulate (p :: ps) f = ((f p).map fun v => (p.name, v)).toList ++ tabulate ps f := by
  rw [tabulate, List.filterMap_cons]
  cases f p <;> rfl

theorem tabulate_congr (h : ∀ p ∈ ps, f p = g p) : tabulate ps f = tabulate ps g := by
  induction ps with
  | nil => rfl
  | cons p ps ih =>
    rw [List.forall_mem_cons] at h
    rw [tabulate_cons, tabulate_cons, h.1, ih h.2]

/-- Values in the order of the signature are under the names of parameters. -/
theorem param_of_mem_tabulate {f : Param → Option Value} {e : String × Value}
    (h : e ∈ tabulate ps f) : ∃ p ∈ ps, e.1 = p.name := by
  obtain ⟨p, hp, he⟩ := List.mem_filterMap.1 h
  obtain ⟨v, -, rfl⟩ := Option.map_eq_some_iff.1 he
  exact ⟨p, hp, rfl⟩

theorem keys_tabulate (ps : List Param) (f : Param → Option Value) :
    (tabulate ps f).keys = (ps.filter fun p => (f p).isSome).map Param.name := by
  induction ps with
  | nil => rfl
  | cons p ps ih =>
    rw [tabulate_cons, Entries.keys_append, ih, List.filter_cons]
    cases f p <;> rfl

/-- A value is found under the name of its parameter. -/
theorem get?_tabulate (hn : (ps.map Param.name).Nodup) {p : Param} (hp : p ∈ ps) :
    (tabulate ps f).get? p.name = f p := by
  induction ps with
  | nil => cases hp
  | cons q ps ih =>
    rw [List.map_cons, List.nodup_cons] at hn
    rw [tabulate_cons, Entries.get?_append]
    rcases List.mem_cons.1 hp with rfl | hp
    · have habsent : (tabulate ps f).get? p.name = none := by
        rw [Entries.get?_eq_none_iff, keys_tabulate]
        intro h
        obtain ⟨q, hq, hname⟩ := List.mem_map.1 h
        exact hn.1 (List.mem_map.2 ⟨q, (List.mem_filter.1 hq).1, hname⟩)
      rw [habsent, Option.or_none]
      cases f p with
      | none => rfl
      | some v => exact if_pos rfl
    · have hne : q.name ≠ p.name := fun h => hn.1 (h ▸ List.mem_map_of_mem hp)
      have hother : Entries.get? ((f q).map fun v => (q.name, v)).toList p.name = none := by
        cases f q with
        | none => rfl
        | some v => exact if_neg hne
      rw [hother, Option.none_or, ih hn.2 hp]

/-- All parameters have a value if there are as many values. -/
theorem length_tabulate_eq_iff :
    (tabulate ps f).length = ps.length ↔ ∀ p ∈ ps, (f p).isSome = true := by
  have hlen : (tabulate ps f).length = (ps.filter fun p => (f p).isSome).length := by
    have hkeys := congrArg List.length (keys_tabulate ps f)
    rw [List.length_map] at hkeys
    rw [← hkeys]
    exact (List.length_map Prod.fst).symm
  rw [hlen]
  exact List.length_filter_eq_length_iff

end tabulate

/-- What is arranged is found under the names of the parameters. -/
theorem get?_arrange {s : Signature} {given : Entries Value} {p : Param} (hp : p ∈ s.params) :
    (s.arrange given).get? p.name = given.get? p.name :=
  get?_tabulate s.names_nodup hp

theorem contains_arrange_iff {s : Signature} {p : Param} (hp : p ∈ s.params)
    (given : Entries Value) :
    (s.arrange given).contains p.name = true ↔ p.name ∈ given.keys := by
  rw [Bound.contains, get?_arrange hp, Entries.get?_isSome_iff]

/-- What is arranged has the names of the parameters that have a value, in order. -/
theorem names_arrange (s : Signature) (given : Entries Value) :
    (s.arrange given).names =
      (s.params.filter fun p => decide (p.name ∈ given.keys)).map Param.name := by
  have hkeys : (s.arrange given).names =
      (s.params.filter fun p => (given.get? p.name).isSome).map Param.name := keys_tabulate _ _
  rw [hkeys]
  congr 1
  refine List.filter_congr fun p _ => ?_
  rw [Bool.eq_iff_iff, Entries.get?_isSome_iff, decide_eq_true_iff]

/-- Bound arguments stand in the order of the signature. -/
theorem names_arrange_sublist (s : Signature) (given : Entries Value) :
    (s.arrange given).names.Sublist s.names := by
  rw [names_arrange]
  exact List.filter_sublist.map Param.name

/-- What is given under distinct names of parameters is only put in order. -/
theorem entries_arrange_perm {s : Signature} {given : Entries Value}
    (hk : ∀ n ∈ given.keys, n ∈ s.names) (hd : given.keys.Nodup) :
    (s.arrange given).entries.Perm given := by
  have hn : (s.arrange given).names.Nodup := s.names_nodup.sublist (names_arrange_sublist s given)
  rw [List.perm_ext_iff_of_nodup (List.Nodup.of_map Prod.fst hn) (List.Nodup.of_map Prod.fst hd)]
  rintro ⟨n, v⟩
  constructor
  · intro h
    obtain ⟨p, -, hp⟩ := List.mem_filterMap.1 h
    obtain ⟨w, hw, he⟩ := Option.map_eq_some_iff.1 hp
    cases he
    exact Entries.mem_of_get?_eq_some hw
  · intro h
    obtain ⟨p, hp, rfl⟩ := List.mem_map.1 (hk n (Entries.mem_keys_of_mem h))
    have hv : given.get? p.name = some v := (Entries.get?_eq_some_iff hd).2 h
    exact List.mem_filterMap.2 ⟨p, hp, Option.map_eq_some_iff.2 ⟨v, hv, rfl⟩⟩

/-! ## Defaults -/

/-- The value with which a parameter goes into a call: the one that is given, or else its
default. -/
def valueOrDefault? (given : Entries Value) (p : Param) : Option Value :=
  (given.get? p.name).or p.default?

/-- The defaults that are left to be filled in, in the order of the signature. -/
theorem defaulted_eq_tabulate (s : Signature) (b : Bound) :
    s.defaulted b =
      tabulate s.params fun p => if b.contains p.name then none else p.default? := by
  refine List.filterMap_congr fun p _ => ?_
  by_cases hc : b.contains p.name = true
  · simp [hc]
  · simp [hc]

/-- Filling in the defaults of bound arguments of the same signature gives every parameter its
value or its default. If there is nothing to fill in, this holds already. -/
theorem applyDefaults_arrange (s : Signature) (given : Entries Value) :
    s.applyDefaults (s.arrange given) = ⟨tabulate s.params (valueOrDefault? given)⟩ := by
  have hrebuilt : (⟨s.params.filterMap (entryOrDefault? (s.arrange given))⟩ : Bound) =
      ⟨tabulate s.params (valueOrDefault? given)⟩ := by
    refine congrArg Bound.mk (tabulate_congr fun p hp => ?_)
    rw [get?_arrange hp, valueOrDefault?]
  rw [applyDefaults]
  split
  · -- as many values as parameters: no parameter is left to its default
    rename_i hsize
    have hall := length_tabulate_eq_iff.1 hsize
    refine congrArg Bound.mk (tabulate_congr fun p hp => ?_)
    rw [valueOrDefault?, Option.or_of_isSome (hall p hp)]
  · exact hrebuilt

end GuardedCall.Signature
