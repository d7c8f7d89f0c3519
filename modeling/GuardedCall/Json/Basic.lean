import GuardedCall.Decimal.Binary64
import GuardedCall.Entries

/-!
# Data in JSON

A JSON text stands for a tree of plain data. Whole numbers and floating point numbers are kept
apart, and the members of an object are in order.

Main definitions: `Json`, `Json.Scalar`.
-/

namespace GuardedCall

/-- Plain data. -/
inductive Json where
  | null
  | bool (b : Bool)
  | int (n : Int)
  | float (x : Binary64)
  | str (s : String)
  | arr (items : List Json)
  | obj (members : List (String × Json))
  deriving Inhabited

namespace Json

/-- A whole number, or a floating point number. -/
inductive Number
  | int (n : Int)
  | float (x : Binary64)
  deriving DecidableEq

/-- Data that holds no other data. -/
inductive Scalar
  | null
  | bool (b : Bool)
  | number (n : Number)
  | str (s : String)
  deriving DecidableEq

/-- A scalar as data. -/
def ofScalar : Scalar → Json
  | .null => null
  | .bool b => bool b
  | .number (.int n) => int n
  | .number (.float x) => float x
  | .str s => str s

end Json

end GuardedCall
