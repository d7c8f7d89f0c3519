import GuardedCall.Proofs.Natural.Plain
import GuardedCall.Tagged.Value
import Mathlib.Data.List.Forall2

/-!
# Equality of values

Two values are equal for the test exactly if they are the same tree: they are built by the same
constructor, hold the same data, floating point numbers down to the bit, and have the same parts in
the same order and number, the keys of dictionaries among them. So the test is an equivalence, and
what is written of a value does not tell equal ones apart.

Main definitions: `Value.SameTree`, `Value.SameEntry`.
Main statements: `sameTree_iff_eq`, `beq_iff_sameTree`, `equality_compares_trees`.
-/

namespace GuardedCall

namespace Value

mutual

/-- Two values are the same tree. -/
inductive SameTree : Value → Value → Prop
  | null : SameTree null null
  | bool (b : Bool) : SameTree (bool b) (bool b)
  | int (n : Int64) : SameTree (int n) (int n)
  /-- A NaN is the same as itself, and zero is not the same as minus zero. -/
  | float {x y : Binary64} (h : x.bits = y.bits) : SameTree (float x) (float y)
  | str (s : String) : SameTree (str s) (str s)
  | bytes (bs : List UInt8) : SameTree (bytes bs) (bytes bs)
  | list {vs ws : List Value} (h : List.Forall₂ SameTree vs ws) : SameTree (list vs) (list ws)
  | tuple {vs ws : List Value} (h : List.Forall₂ SameTree vs ws) : SameTree (tuple vs) (tuple ws)
  | dict {es fs : List (Value × Value)} (h : List.Forall₂ SameEntry es fs) :
      SameTree (dict es) (dict fs)

/-- Two entries of dictionaries have the same keys and the same values. -/
inductive SameEntry : Value × Value → Value × Value → Prop
  | mk {e f : Value × Value} (hkey : SameTree e.1 f.1) (hvalue : SameTree e.2 f.2) : SameEntry e f

end

/-- Lists are equal if their items are related one by one, and related items are equal. -/
theorem eq_of_forall₂ {α : Type} {R : α → α → Prop} {xs ys : List α} (h : List.Forall₂ R xs ys)
    (heq : ∀ x ∈ xs, ∀ y, R x y → x = y) : xs = ys := by
  induction h with
  | nil => rfl
  | cons hxy _ ih =>
    rw [List.forall_mem_cons] at heq
    rw [heq.1 _ hxy, ih heq.2]

/-- Every value is the same tree as itself. -/
theorem SameTree.refl (v : Value) : SameTree v v := by
  induction v using Value.inductionOn with
  | null => exact .null
  | bool b => exact .bool b
  | int n => exact .int n
  | float x => exact .float rfl
  | str s => exact .str s
  | bytes bs => exact .bytes bs
  | list vs ih => exact .list (List.forall₂_same.2 ih)
  | tuple vs ih => exact .tuple (List.forall₂_same.2 ih)
  | dict es ih => exact .dict (List.forall₂_same.2 fun e he => ⟨(ih e he).1, (ih e he).2⟩)

/-- Values that are the same tree are one value. -/
theorem SameTree.eq {v w : Value} (h : SameTree v w) : v = w := by
  induction v using Value.inductionOn generalizing w with
  | null =>
    cases h
    rfl
  | bool b =>
    cases h
    rfl
  | int n =>
    cases h
    rfl
  | float x =>
    cases h with
    | @float _ y hbits =>
      obtain ⟨bits⟩ := x
      obtain ⟨bits'⟩ := y
      cases hbits
      rfl
  | str s =>
    cases h
    rfl
  | bytes bs =>
    cases h
    rfl
  | list vs ih =>
    cases h with
    | list hitems => rw [eq_of_forall₂ hitems fun x hx y => ih x hx]
  | tuple vs ih =>
    cases h with
    | tuple hitems => rw [eq_of_forall₂ hitems fun x hx y => ih x hx]
  | dict es ih =>
    cases h with
    | dict hentries =>
      have hentry : ∀ e ∈ es, ∀ f, SameEntry e f → e = f := by
        rintro e he f ⟨hkey, hvalue⟩
        exact Prod.ext ((ih e he).1 hkey) ((ih e he).2 hvalue)
      rw [eq_of_forall₂ hentries hentry]

theorem sameTree_iff_eq {v w : Value} : SameTree v w ↔ v = w :=
  ⟨SameTree.eq, fun h => h ▸ SameTree.refl v⟩

/-- The test for equality goes through all nodes of two trees. -/
theorem beq_iff_sameTree {v w : Value} : beq v w = true ↔ SameTree v w :=
  (beq_iff v w).trans sameTree_iff_eq.symm

end Value

open Value in
/-- **Equality compares trees.**  The test for equality succeeds exactly for values that are the
same tree, floating point numbers bit by bit and dictionaries with their keys. It is reflexive,
symmetric and transitive, and equal values are of one kind and have the same literal, the same plain
data and the same tagged text. -/
theorem equality_compares_trees :
    (∀ a b : Value, beq a b = true ↔ SameTree a b) ∧
      (∀ a : Value, beq a a = true) ∧
      (∀ a b : Value, beq a b = beq b a) ∧
      (∀ a b c : Value, beq a b = true → beq b c = true → beq a c = true) ∧
      ∀ a b : Value, beq a b = true →
        a.kind = b.kind ∧ a.repr = b.repr ∧ a.toJson = b.toJson ∧
          Tagged.render a = Tagged.render b := by
  refine ⟨fun a b => beq_iff_sameTree, fun a => (beq_iff a a).2 rfl, fun a b => ?_,
    fun a b c hab hbc => ?_, fun a b hab => ?_⟩
  · rw [Bool.eq_iff_iff, beq_iff, beq_iff, eq_comm]
  · rw [beq_iff] at hab hbc ⊢
    exact hab.trans hbc
  · cases (beq_iff a b).1 hab
    exact ⟨rfl, rfl, rfl, rfl⟩

/-- A NaN equals itself inside a list, where zero does not equal minus zero. -/
example :
    Value.beq (.list [.float ⟨0x7ff8000000000000⟩]) (.list [.float ⟨0x7ff8000000000000⟩]) = true ∧
      Value.beq (.list [.float ⟨0⟩]) (.list [.float ⟨0x8000000000000000⟩]) = false := by
  decide

end GuardedCall
