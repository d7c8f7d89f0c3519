import GuardedCall.Kind

/-!
# Policies

How strictly a declared kind is taken. A strict policy accepts a value for a declaration only if
their kinds agree; two flags admit truth values as integers, and integers as floating point
numbers.

Main definitions: `Policy`, `Policy.accepts`.
-/

namespace GuardedCall

/-- Which kinds may stand in for others. -/
structure Policy where
  boolIsInt : Bool := false
  intIsFloat : Bool := false
  deriving DecidableEq, Repr, Inhabited

namespace Policy

/-- Nothing stands in for anything else. -/
def strict : Policy := {}

/-- Truth values count as integers; an integer is still no floating point number. -/
def boolAsInt : Policy where boolIsInt := true

/-- Whether a value of the kind `actual` may be passed where `declared` is asked for. A truth
value passes for a floating point number only through the integers, so by both flags. -/
def accepts (p : Policy) (declared actual : Kind) : Bool :=
  if actual = declared ∨ declared = .object then true
  else match declared, actual with
    | .int, .bool => p.boolIsInt
    | .float, .int => p.intIsFloat
    | .float, .bool => p.intIsFloat && p.boolIsInt
    | _, _ => false

@[simp] theorem accepts_self (p : Policy) (k : Kind) : p.accepts k k = true := by
  simp [accepts]

@[simp] theorem accepts_object (p : Policy) (k : Kind) : p.accepts .object k = true := by
  simp [accepts]

end Policy

end GuardedCall
