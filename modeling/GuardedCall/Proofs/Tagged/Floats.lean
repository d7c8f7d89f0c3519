import GuardedCall.Proofs.Json.Nesting
import GuardedCall.Proofs.Json.Numerals
import GuardedCall.Tagged.Arguments
import GuardedCall.Tagged.Failure
import GuardedCall.Tagged.Signature

/-!
# The floating point numbers in a value

Not every value of a tagged type has a text that is read back: JSON has no text for infinities
and NaNs, and readers limit how deep a text may be nested. This module collects the floating point
numbers that a value holds, and says which values are legible.

Main definitions: `HasFloats`, `AllFloats`, `AllFinite`, `Legible`.
-/

namespace GuardedCall

open Json Tagged

/-- A type whose values may hold floating point numbers. -/
class HasFloats (α : Type) where
  /-- All floating point numbers in a value, from left to right. -/
  floats : α → List Binary64

export HasFloats (floats)

variable {α : Type} {P : Binary64 → Prop}

namespace Value

mutual

/-- All floating point numbers in a value. -/
def floats : Value → List Binary64
  | float y => [y]
  | list items => floatsItems items
  | tuple items => floatsItems items
  | dict entries => floatsEntries entries
  | _ => []

/-- All floating point numbers in several values. -/
def floatsItems : List Value → List Binary64
  | [] => []
  | v :: vs => floats v ++ floatsItems vs

/-- All floating point numbers in the entries of a dictionary. -/
def floatsEntries : List (Value × Value) → List Binary64
  | [] => []
  | (k, v) :: es => (floats k ++ floats v) ++ floatsEntries es

end

end Value

instance : HasFloats Value where
  floats := Value.floats

instance {β : Type} [HasFloats α] [HasFloats β] : HasFloats (α × β) where
  floats p := floats p.1 ++ floats p.2

instance [HasFloats α] : HasFloats (List α) where
  floats xs := xs.flatMap floats

instance [HasFloats α] : HasFloats (Option α) where
  floats x? := floats x?.toList

instance : HasFloats Kind where
  floats _ := []

instance : HasFloats FailureKind where
  floats _ := []

instance : HasFloats Mismatch where
  floats _ := []

instance : HasFloats Failure where
  floats _ := []

instance : HasFloats Policy where
  floats _ := []

instance : HasFloats Param where
  floats p := floats p.default?

instance : HasFloats Declaration where
  floats d := floats d.params

instance : HasFloats Signature where
  floats s := floats s.params

instance : HasFloats Positional where
  floats
    | .value v => floats v
    | .splat v => floats v

instance : HasFloats Keyword where
  floats
    | .named _ v => floats v
    | .splat v => floats v

instance : HasFloats Arguments where
  floats a := floats a.positional ++ floats a.keywords

/-! ## Legible values -/

/-- A property that all floating point numbers in a value have. -/
def AllFloats [HasFloats α] (P : Binary64 → Prop) (x : α) : Prop := ∀ y ∈ floats x, P y

/-- All floating point numbers in a value are finite. -/
def AllFinite [HasFloats α] (x : α) : Prop := AllFloats (fun y => y.isFinite = true) x

/-- What is written of a value can be read if at most so many arrays and objects may be opened. -/
def Legible [HasFloats α] (write : α → Json) (n : Nat) (x : α) : Prop :=
  AllFinite x ∧ depth (write x) ≤ n

/-- What may be missing is written as null where it is. -/
def writeOption (write : α → Json) (x? : Option α) : Json := (x?.map write).getD .null

/-- Several values are written as a list. -/
def writeList (write : α → Json) (xs : List α) : Json := .arr (xs.map write)

/-- What holds no floating point number has any property of them. -/
theorem allFloats_of_eq_nil [HasFloats α] {x : α} (h : floats x = []) : AllFloats P x := by
  intro y hy
  rw [h] at hy
  cases hy

/-- A pair holds the numbers of both of its parts. -/
theorem allFloats_pair {β : Type} [HasFloats α] [HasFloats β] {p : α × β} :
    AllFloats P p ↔ AllFloats P p.1 ∧ AllFloats P p.2 :=
  List.forall_mem_append

/-- A list holds the numbers of its items. -/
theorem allFloats_iff_forall_mem [HasFloats α] {xs : List α} :
    AllFloats P xs ↔ ∀ x ∈ xs, AllFloats P x :=
  List.forall_mem_flatMap

/-- What may be missing holds numbers only where it is there. -/
theorem allFloats_option [HasFloats α] {x? : Option α} :
    AllFloats P x? ↔ ∀ x ∈ x?, AllFloats P x := by
  have h : AllFloats P x? ↔ AllFloats P x?.toList := Iff.rfl
  simp [h, allFloats_iff_forall_mem]

theorem allFloats_arguments {a : Arguments} :
    AllFloats P a ↔ AllFloats P a.positional ∧ AllFloats P a.keywords :=
  List.forall_mem_append

namespace Value

theorem allFloats_float {y : Binary64} : AllFloats P (float y) ↔ P y :=
  List.forall_mem_singleton

/-- The numbers in several values are those in the list of them. -/
theorem floatsItems_eq (vs : List Value) : floatsItems vs = HasFloats.floats vs := by
  induction vs with
  | nil => rfl
  | cons v vs ih =>
    rw [floatsItems, ih]
    rfl

/-- The numbers in entries are those in the list of pairs. -/
theorem floatsEntries_eq (es : List (Value × Value)) : floatsEntries es = HasFloats.floats es := by
  induction es with
  | nil => rfl
  | cons e es ih =>
    rw [floatsEntries, ih]
    rfl

theorem allFloats_list {vs : List Value} : AllFloats P (list vs) ↔ AllFloats P vs := by
  have h : AllFloats P (list vs) ↔ ∀ y ∈ floatsItems vs, P y := Iff.rfl
  rw [h, floatsItems_eq]
  rfl

theorem allFloats_tuple {vs : List Value} : AllFloats P (tuple vs) ↔ AllFloats P vs :=
  allFloats_list

/-- A dictionary holds the numbers of its keys and of its values. -/
theorem allFloats_dict {es : List (Value × Value)} : AllFloats P (dict es) ↔ AllFloats P es := by
  have h : AllFloats P (dict es) ↔ ∀ y ∈ floatsEntries es, P y := Iff.rfl
  rw [h, floatsEntries_eq]
  rfl

/-- Several values are written one by one. -/
theorem encodeItems_eq (vs : List Value) : encodeItems vs = vs.map encode := by
  induction vs with
  | nil => rfl
  | cons v vs ih => rw [encodeItems, ih, List.map_cons]

/-- An entry of a dictionary is written as a pair. -/
def encodeEntry (e : Value × Value) : Json := .arr [encode e.1, encode e.2]

theorem encodeEntries_eq (es : List (Value × Value)) : encodeEntries es = es.map encodeEntry := by
  induction es with
  | nil => rfl
  | cons e es ih =>
    rw [encodeEntries, ih, List.map_cons]
    rfl

end Value

end GuardedCall
