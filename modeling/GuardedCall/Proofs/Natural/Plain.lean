import GuardedCall.Proofs.Entries
import GuardedCall.Value.Natural
import Mathlib.Data.List.Nodup

/-!
# Plain values

A value is plain if nothing is lost when it is written as plain data: there are no bytes and no
tuples in it, all its floating point numbers are finite, and its dictionaries have distinct strings
for keys. Such a value is given back by its data.

Main definitions: `Value.parts`, `Value.Everywhere`, `Value.Direct`, `Value.Plain`.
Main statements: `Value.inductionOn`, `Value.ofJson_toJson_of_plain`.
-/

namespace GuardedCall

namespace Value

/-! ## Values with all that is inside them -/

/-- What holds of all values without parts, of lists and tuples if it holds of their items, and of
dictionaries if it holds of their keys and values, holds of all values. -/
@[elab_as_elim]
theorem inductionOn {P : Value → Prop} (null : P .null) (bool : ∀ b, P (.bool b))
    (int : ∀ n, P (.int n)) (float : ∀ x, P (.float x)) (str : ∀ s, P (.str s))
    (bytes : ∀ bs, P (.bytes bs)) (list : ∀ vs, (∀ v ∈ vs, P v) → P (.list vs))
    (tuple : ∀ vs, (∀ v ∈ vs, P v) → P (.tuple vs))
    (dict : ∀ es : List (Value × Value), (∀ e ∈ es, P e.1 ∧ P e.2) → P (.dict es)) (v : Value) :
    P v :=
  @Value.rec P (fun vs => ∀ v ∈ vs, P v) (fun es => ∀ e ∈ es, P e.1 ∧ P e.2)
    (fun e => P e.1 ∧ P e.2)
    null bool int float str bytes list tuple dict
    (List.forall_mem_nil _) (fun _ _ hv hvs => List.forall_mem_cons.2 ⟨hv, hvs⟩)
    (List.forall_mem_nil _) (fun _ _ he hes => List.forall_mem_cons.2 ⟨he, hes⟩)
    (fun _ _ hk hv => ⟨hk, hv⟩) v

mutual

/-- A value, and all values inside it, the keys of dictionaries too. -/
def parts : Value → List Value
  | list vs => list vs :: partsItems vs
  | tuple vs => tuple vs :: partsItems vs
  | dict es => dict es :: partsEntries es
  | v => [v]

/-- All values in several items. -/
def partsItems : List Value → List Value
  | [] => []
  | v :: vs => parts v ++ partsItems vs

/-- All values in several entries. -/
def partsEntries : List (Value × Value) → List Value
  | [] => []
  | (k, v) :: es => (parts k ++ parts v) ++ partsEntries es

end

/-- A property of a value and of all values inside it. -/
def Everywhere (P : Value → Prop) (v : Value) : Prop := ∀ w ∈ v.parts, P w

instance {P : Value → Prop} [DecidablePred P] (v : Value) : Decidable (v.Everywhere P) :=
  inferInstanceAs (Decidable (∀ w ∈ v.parts, P w))

variable {P : Value → Prop} {v : Value} {vs : List Value} {es : List (Value × Value)}

theorem partsItems_eq_flatMap (vs : List Value) : partsItems vs = vs.flatMap parts := by
  induction vs with
  | nil => rfl
  | cons v vs ih => rw [partsItems, ih, List.flatMap_cons]

theorem partsEntries_eq_flatMap (es : List (Value × Value)) :
    partsEntries es = es.flatMap fun e => parts e.1 ++ parts e.2 := by
  induction es with
  | nil => rfl
  | cons e es ih => rw [partsEntries, ih, List.flatMap_cons]

theorem everywhere_list : (list vs).Everywhere P ↔ P (list vs) ∧ ∀ v ∈ vs, v.Everywhere P := by
  rw [Everywhere, parts, List.forall_mem_cons, partsItems_eq_flatMap, List.forall_mem_flatMap]
  rfl

theorem everywhere_dict : (dict es).Everywhere P ↔
    P (dict es) ∧ ∀ e ∈ es, e.1.Everywhere P ∧ e.2.Everywhere P := by
  rw [Everywhere, parts, List.forall_mem_cons, partsEntries_eq_flatMap, List.forall_mem_flatMap]
  simp only [List.forall_mem_append]
  rfl

/-- A value without parts. -/
theorem everywhere_leaf (h : v.parts = [v]) : v.Everywhere P ↔ P v := by
  rw [Everywhere, h, List.forall_mem_singleton]

/-- The value is its own first part. -/
theorem Everywhere.self (h : v.Everywhere P) : P v := by
  apply h
  cases v <;> exact List.mem_cons_self

/-! ## Items and members -/

theorem ofJsonItems_eq_map (xs : List Json) : ofJsonItems xs = xs.map ofJson := by
  induction xs with
  | nil => rfl
  | cons x xs ih => rw [ofJsonItems, ih, List.map_cons]

theorem toJsonItems_eq_map (vs : List Value) : toJsonItems vs = vs.map toJson := by
  induction vs with
  | nil => rfl
  | cons v vs ih => rw [toJsonItems, ih, List.map_cons]

/-- The entry that a member stands for. -/
def ofJsonMember (e : String × Json) : Value × Value := (str e.1, ofJson e.2)

/-- The member that an entry of a dictionary makes. -/
def toJsonMember (e : Value × Value) : String × Json := (memberName e.1, toJson e.2)

theorem ofJsonMembers_eq_map (es : List (String × Json)) :
    ofJsonMembers es = es.map ofJsonMember := by
  induction es with
  | nil => rfl
  | cons e es ih =>
    rw [ofJsonMembers, ih, List.map_cons]
    rfl

theorem toJsonMembers_eq_map (es : List (Value × Value)) :
    toJsonMembers es = es.map toJsonMember := by
  induction es with
  | nil => rfl
  | cons e es ih =>
    rw [toJsonMembers, ih, List.map_cons]
    rfl

/-- Only what each item is mapped to matters. -/
theorem map_eq_self_iff {α : Type} {f : α → α} {xs : List α} :
    xs.map f = xs ↔ ∀ x ∈ xs, f x = x := by
  have hid : xs.map f = xs ↔ xs.map f = xs.map id := by rw [List.map_id]
  rw [hid, List.map_inj_left]
  rfl

/-! ## Plain values -/

/-- What a value must be itself, its parts aside, to be written as plain data and given back. -/
def Direct : Value → Prop
  | bytes _ => False
  | tuple _ => False
  | float x => x.isFinite = true
  | dict es => (∀ e ∈ es, e.1.kind = .str) ∧ (es.map Prod.fst).Nodup
  | _ => True

instance : DecidablePred Direct
  | bytes _ => .isFalse id
  | tuple _ => .isFalse id
  | float x => inferInstanceAs (Decidable (x.isFinite = true))
  | dict es => inferInstanceAs (Decidable ((∀ e ∈ es, e.1.kind = .str) ∧ (es.map Prod.fst).Nodup))
  | null => .isTrue trivial
  | bool _ => .isTrue trivial
  | int _ => .isTrue trivial
  | str _ => .isTrue trivial
  | list _ => .isTrue trivial

/-- Nowhere in a value are there bytes, a tuple, an infinity or NaN, or a dictionary with a key
that is no string or comes twice. -/
def Plain (v : Value) : Prop := v.Everywhere Direct

instance : DecidablePred Plain := fun v => inferInstanceAs (Decidable (v.Everywhere Direct))

theorem eq_str_of_kind (h : v.kind = .str) : v = .str (memberName v) := by
  cases v with
  | str s => rfl
  | _ => cases h

theorem plain_of_kind_str (h : v.kind = .str) : v.Plain := by
  rw [eq_str_of_kind h]
  exact (everywhere_leaf rfl).2 trivial

theorem plain_list {vs : List Value} : (list vs).Plain ↔ ∀ v ∈ vs, v.Plain :=
  everywhere_list.trans (and_iff_right trivial)

/-- Keys that are strings are plain themselves. -/
theorem plain_dict : (dict es).Plain ↔ (dict es).Direct ∧ ∀ e ∈ es, e.2.Plain := by
  rw [Plain, everywhere_dict]
  refine and_congr_right fun hdirect => forall_congr' fun e => imp_congr_right fun he => ?_
  exact and_iff_right (plain_of_kind_str (hdirect.1 e he))

/-- String keys are the names of the members. -/
theorem map_str_keys (h : ∀ e ∈ es, e.1.kind = .str) :
    (Entries.keys (toJsonMembers es)).map str = es.map Prod.fst := by
  rw [toJsonMembers_eq_map, Entries.keys, List.map_map, List.map_map]
  exact List.map_congr_left fun e he => (eq_str_of_kind (h e he)).symm

theorem nodup_map_str {names : List String} : (names.map str).Nodup ↔ names.Nodup :=
  List.nodup_map_iff fun _ _ h => Value.str.inj h

/-- The entries of a dictionary with distinct string keys are not merged. -/
theorem collect_toJsonMembers (h : (dict es).Direct) :
    Entries.collect (toJsonMembers es) = toJsonMembers es := by
  apply Entries.collect_eq_self
  rw [← nodup_map_str, map_str_keys h.1]
  exact h.2

/-- What members with distinct names stand for has distinct string keys. -/
theorem direct_dict_ofJsonMembers {ms : List (String × Json)} (h : (Entries.keys ms).Nodup) :
    (dict (ofJsonMembers ms)).Direct := by
  rw [ofJsonMembers_eq_map]
  constructor
  · intro e he
    obtain ⟨m, -, rfl⟩ := List.mem_map.1 he
    rfl
  · have hkeys : (ms.map ofJsonMember).map Prod.fst = (Entries.keys ms).map str := by
      rw [Entries.keys, List.map_map, List.map_map]
      rfl
    rw [hkeys, nodup_map_str]
    exact h

/-- Nothing is lost of a plain value: the bits of its floating point numbers and the order of its
entries are kept. -/
theorem ofJson_toJson_of_plain (h : v.Plain) : ofJson (toJson v) = v := by
  induction v using Value.inductionOn with
  | null => rfl
  | bool b => rfl
  | str s => rfl
  | int n => rw [toJson, ofJson, ofWhole, if_pos (Word64.fitsSigned_toInt n), Int64.ofInt_toInt]
  | float x =>
    have hx : x.isFinite = true := (everywhere_leaf rfl).1 h
    rw [toJson, if_pos hx, ofJson]
  | bytes bs => exact h.self.elim
  | tuple vs ih => exact h.self.elim
  | list vs ih =>
    rw [plain_list] at h
    rw [toJson, ofJson, toJsonItems_eq_map, ofJsonItems_eq_map, List.map_map, Value.list.injEq,
      map_eq_self_iff]
    exact fun v hv => ih v hv (h v hv)
  | dict es ih =>
    obtain ⟨hdirect, hes⟩ := plain_dict.1 h
    rw [toJson, collect_toJsonMembers hdirect, ofJson, toJsonMembers_eq_map, ofJsonMembers_eq_map,
      List.map_map, Value.dict.injEq, map_eq_self_iff]
    refine fun e he => Prod.ext ?_ ((ih e he).2 (hes e he))
    exact (eq_str_of_kind (hdirect.1 e he)).symm

end Value

end GuardedCall
