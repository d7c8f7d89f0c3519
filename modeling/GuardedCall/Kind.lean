/-!
# Kinds of value

The nine kinds that a value can have, and the tenth, `object`, that a declaration can ask for and
every value is of. A kind has one spelling; the kind of the null value may also be written `None`.

Main definitions: `Kind`, `Kind.name`, `Kind.tag`, `Kind.parse?`, `Kind.all`, `Kind.isNumeric`.
Main statement: `parse?_name`, a kind is read back from its spelling.
-/

namespace GuardedCall

/-- A kind of value, or `object`, which covers them all. -/
inductive Kind
  | null
  | bool
  | int
  | float
  | str
  | bytes
  | list
  | tuple
  | dict
  | object
  deriving DecidableEq, Repr

namespace Kind

/-- The spelling used in declarations and messages. -/
def name : Kind → String
  | null => "NoneType"
  | bool => "bool"
  | int => "int"
  | float => "float"
  | str => "str"
  | bytes => "bytes"
  | list => "list"
  | tuple => "tuple"
  | dict => "dict"
  | object => "object"

/-- The name in the tagged data format and in dumps. -/
def tag : Kind → String
  | null => "NoneType"
  | bool => "Bool"
  | int => "Int"
  | float => "Float"
  | str => "Str"
  | bytes => "Bytes"
  | list => "List"
  | tuple => "Tuple"
  | dict => "Dict"
  | object => "Object"

/-- All kinds, in the order of the declaration. -/
def all : List Kind := [null, bool, int, float, str, bytes, list, tuple, dict, object]

/-- The kind with a spelling. Case matters. -/
def parse? (text : String) : Option Kind :=
  if text = "None" then some null else all.find? fun k => k.name = text

/-- The kinds that stand for a number. -/
def isNumeric : Kind → Bool
  | bool | int | float => true
  | _ => false

/-- A kind is read back from its spelling. -/
theorem parse?_name (k : Kind) : parse? k.name = some k := by
  cases k <;> decide

/-- Kinds of one spelling are one kind. -/
theorem name_inj {k l : Kind} (h : k.name = l.name) : k = l := by
  have hk := parse?_name k
  rw [h, parse?_name l] at hk
  exact (Option.some.inj hk).symm

end Kind

end GuardedCall
