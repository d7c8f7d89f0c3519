import GuardedCall.Json.Basic
import GuardedCall.Value.Repr
import GuardedCall.Word64

/-!
# Values as plain data

Plain data and values that are made of nothing else correspond directly: null, truth values,
numbers, strings, lists, and dictionaries with string keys. Of the rest, bytes and tuples are
written as objects with one marked member, keys that are no strings by their literals, and numbers
that are not finite as null; these are not read back as what they were.

Main definitions: `Value.ofJson`, `Value.toJson`.
-/

namespace GuardedCall.Value

/-- A whole number: an integer if it fits, the nearest floating point number otherwise. -/
def ofWhole (n : Int) : Value :=
  if Word64.fitsSigned n then int (Int64.ofInt n) else float (Binary64.ofInt n)

mutual

/-- The value that plain data stands for. -/
def ofJson : Json → Value
  | .null => null
  | .bool b => bool b
  | .int n => ofWhole n
  | .float x => float x
  | .str s => str s
  | .arr xs => list (ofJsonItems xs)
  | .obj es => dict (ofJsonMembers es)

/-- The values of several items. -/
def ofJsonItems : List Json → List Value
  | [] => []
  | x :: xs => ofJson x :: ofJsonItems xs

/-- The entries of the members of an object. -/
def ofJsonMembers : List (String × Json) → List (Value × Value)
  | [] => []
  | (name, x) :: es => (str name, ofJson x) :: ofJsonMembers es

end

/-- The name of a member for a key: a string is its own, any other key has its literal. -/
def memberName : Value → String
  | str s => s
  | key => key.repr

mutual

/-- A value as plain data. Entries whose keys have the same name are merged: the first keeps its
place, the last gives the value. -/
def toJson : Value → Json
  | null => .null
  | bool b => .bool b
  | int n => .int n.toInt
  | float x => if x.isFinite then .float x else .null
  | str s => .str s
  | bytes bs => .obj [("$bytes", .arr (bs.map fun b => .int b.toNat))]
  | list items => .arr (toJsonItems items)
  | tuple items => .obj [("$tuple", .arr (toJsonItems items))]
  | dict entries => .obj (Entries.collect (toJsonMembers entries))

/-- Several values as items. -/
def toJsonItems : List Value → List Json
  | [] => []
  | v :: vs => toJson v :: toJsonItems vs

/-- The entries of a dictionary as members, before merging. -/
def toJsonMembers : List (Value × Value) → List (String × Json)
  | [] => []
  | (k, v) :: es => (memberName k, toJson v) :: toJsonMembers es

end

end GuardedCall.Value
