import GuardedCall.Json.Basic
import GuardedCall.Word64

/-!
# Data with all that is inside it

Data is a tree, and what is said of it is often said of every place in it. This module collects the
parts of a tree, and gives the induction that goes with them. Data that a text can stand for is well
formed: its whole numbers have 64 bits, signed or not, its floating point numbers are finite, and
the members of each object have distinct names.

Main definitions: `Json.parts`, `Json.Everywhere`, `Json.WellFormed`, `Json.FitsSigned`,
`Json.Written`. Main statement: `Json.inductionOn`.
-/

namespace GuardedCall

namespace Json

/-- What holds of all data without parts, and of arrays and objects if it holds of what they hold,
holds of all data. -/
@[elab_as_elim]
theorem inductionOn {P : Json → Prop} (null : P .null) (bool : ∀ b, P (.bool b))
    (int : ∀ n, P (.int n)) (float : ∀ x, P (.float x)) (str : ∀ s, P (.str s))
    (arr : ∀ xs, (∀ x ∈ xs, P x) → P (.arr xs))
    (obj : ∀ es : List (String × Json), (∀ e ∈ es, P e.2) → P (.obj es)) (j : Json) : P j :=
  @Json.rec P (fun xs => ∀ x ∈ xs, P x) (fun es => ∀ e ∈ es, P e.2) (fun e => P e.2)
    null bool int float str arr obj
    (List.forall_mem_nil _) (fun _ _ hx hxs => List.forall_mem_cons.2 ⟨hx, hxs⟩)
    (List.forall_mem_nil _) (fun _ _ he hes => List.forall_mem_cons.2 ⟨he, hes⟩)
    (fun _ _ hx => hx) j

mutual

/-- Data, and all data inside it. -/
def parts : Json → List Json
  | arr xs => arr xs :: partsItems xs
  | obj es => obj es :: partsMembers es
  | j => [j]

/-- All data in several items. -/
def partsItems : List Json → List Json
  | [] => []
  | x :: xs => parts x ++ partsItems xs

/-- All data in several members. -/
def partsMembers : List (String × Json) → List Json
  | [] => []
  | (_, x) :: es => parts x ++ partsMembers es

end

/-- A property of data and of all data inside it. -/
def Everywhere (P : Json → Prop) (j : Json) : Prop := ∀ k ∈ j.parts, P k

variable {P Q : Json → Prop} {j : Json} {xs : List Json} {es : List (String × Json)}

/-- The parts of several data are those of each, one after another. -/
theorem partsItems_eq_flatMap (xs : List Json) : partsItems xs = xs.flatMap parts := by
  induction xs with
  | nil => rfl
  | cons x xs ih => rw [partsItems, ih, List.flatMap_cons]

theorem partsMembers_eq_flatMap (es : List (String × Json)) :
    partsMembers es = es.flatMap fun e => parts e.2 := by
  induction es with
  | nil => rfl
  | cons e es ih => rw [partsMembers, ih, List.flatMap_cons]

/-- A property holds everywhere in an array if it holds of the array and everywhere in its items. -/
theorem everywhere_arr : (arr xs).Everywhere P ↔ P (arr xs) ∧ ∀ x ∈ xs, x.Everywhere P := by
  rw [Everywhere, parts, List.forall_mem_cons, partsItems_eq_flatMap, List.forall_mem_flatMap]
  rfl

/-- A property holds everywhere in an object if it holds of the object and everywhere in its
members. -/
theorem everywhere_obj : (obj es).Everywhere P ↔ P (obj es) ∧ ∀ e ∈ es, e.2.Everywhere P := by
  rw [Everywhere, parts, List.forall_mem_cons, partsMembers_eq_flatMap, List.forall_mem_flatMap]
  rfl

/-- Data without parts. -/
theorem everywhere_leaf (h : j.parts = [j]) : j.Everywhere P ↔ P j := by
  rw [Everywhere, h, List.forall_mem_singleton]

theorem Everywhere.imp (h : j.Everywhere P) (himp : ∀ k, P k → Q k) : j.Everywhere Q :=
  fun k hk => himp k (h k hk)

/-! ## Well-formed data -/

/-- What data must be itself, its parts aside, to stand in a text. -/
def Proper : Json → Prop
  | int n => Word64.fitsSigned n = true ∨ Word64.fitsUnsigned n = true
  | float x => x.isFinite = true
  | obj es => (Entries.keys es).Nodup
  | _ => True

/-- All whole numbers have 64 bits, all floating point numbers are finite, and all objects have
members with distinct names. -/
def WellFormed (j : Json) : Prop := j.Everywhere Proper

/-- A whole number has 64 bits with its sign; other data is not meant. -/
def FitsSigned : Json → Prop
  | int n => Word64.fitsSigned n = true
  | _ => True

/-- What data must be itself to be written of a value whose floating point numbers all have a
property `P`. -/
def Written (P : Binary64 → Prop) : Json → Prop
  | int n => Word64.fitsSigned n = true
  | float x => x.isFinite = true ∧ P x
  | obj es => (Entries.keys es).Nodup
  | _ => True

/-- What is written of a value may stand in a text. -/
theorem Written.proper {P : Binary64 → Prop} (h : j.Written P) : j.Proper := by
  cases j with
  | int n => exact Or.inl h
  | float x => exact h.1
  | obj es => exact h
  | _ => trivial

theorem Written.fitsSigned {P : Binary64 → Prop} (h : j.Written P) : j.FitsSigned := by
  cases j with
  | int n => exact h
  | _ => trivial

theorem wellFormed_arr : (arr xs).WellFormed ↔ ∀ x ∈ xs, x.WellFormed :=
  everywhere_arr.trans (and_iff_right trivial)

/-- An object is well-formed if its members are, and if no two of them have one name. -/
theorem wellFormed_obj :
    (obj es).WellFormed ↔ (Entries.keys es).Nodup ∧ ∀ e ∈ es, e.2.WellFormed :=
  everywhere_obj

end Json

end GuardedCall
