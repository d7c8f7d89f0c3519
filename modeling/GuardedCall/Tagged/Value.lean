import GuardedCall.Tagged.Basic
import GuardedCall.Value.Basic

/-!
# The tagged format of values

Every value but null is an object that names its constructor. A dictionary is a list of pairs, so
that keys of all kinds and repeated keys are kept. When read, the constructors have other names
too.

Main definitions: `Value.encode`, `Value.read`, and the instances of `Tagged`.
-/

namespace GuardedCall

open Json Tagged

namespace Value

/-- The constructors of values. -/
inductive Tag
  | null
  | bool
  | int
  | float
  | str
  | bytes
  | list
  | tuple
  | dict
  deriving DecidableEq

namespace Tag

/-- All constructors, in the order of the declaration. -/
def all : List Tag := [null, bool, int, float, str, bytes, list, tuple, dict]

/-- The names of a constructor; the first is the one that is written. -/
def names : Tag → List String
  | null => ["None", "NoneType", "none"]
  | bool => ["Bool", "bool"]
  | int => ["Int", "int"]
  | float => ["Float", "float"]
  | str => ["String", "str"]
  | bytes => ["Bytes", "bytes"]
  | list => ["List", "list"]
  | tuple => ["Tuple", "tuple"]
  | dict => ["Dict", "dict"]

/-- The constructor with a name. -/
def known : String → Except Fault Tag := identify all names

end Tag

/-! ## Writing -/

mutual

/-- A value as tagged data. -/
def encode : Value → Json
  | null => .str "None"
  | bool b => .obj [("Bool", .bool b)]
  | int n => .obj [("Int", .int n.toInt)]
  | float x => .obj [("Float", if x.isFinite then .float x else .null)]
  | str s => .obj [("String", .str s)]
  | bytes bs => .obj [("Bytes", .arr (bs.map fun b => .int b.toNat))]
  | list items => .obj [("List", .arr (encodeItems items))]
  | tuple items => .obj [("Tuple", .arr (encodeItems items))]
  | dict entries => .obj [("Dict", .arr (encodeEntries entries))]

/-- Several values as tagged data. -/
def encodeItems : List Value → List Json
  | [] => []
  | v :: vs => encode v :: encodeItems vs

/-- The entries of a dictionary as pairs. -/
def encodeEntries : List (Value × Value) → List Json
  | [] => []
  | (k, v) :: es => .arr [encode k, encode v] :: encodeEntries es

end

/-! ## Reading -/

/-- A bare name stands for null only. -/
def bareValue : Tag → Except Fault Value
  | .null => .ok null
  | _ => bareData .newtypeVariant

/-- The contents of a value, given the readers of nested items and entries. -/
def contents (level : Nat) (items : Reader (List Value)) (entries : Reader (List (Value × Value))) :
    Tag → Reader Value
  | .null => noContents null
  | .bool => mapResult bool Tagged.bool
  | .int => mapResult int Tagged.int64
  | .float => mapResult float Tagged.float
  | .str => mapResult str Tagged.str
  | .bytes => mapResult bytes (listOf level fun _ => Tagged.byte)
  | .list => mapResult list items
  | .tuple => mapResult tuple items
  | .dict => mapResult dict entries

mutual

/-- Read a value. -/
def read : Nat → Reader Value
  | 0 => variant (bareVariant Tag.known bareValue) (fun _ => .error .tooDeep)
  | level + 1 =>
    variant (bareVariant Tag.known bareValue)
      (variantObject Tag.known (contents level (readItems level) (readEntries level)))

/-- Read a list of values. -/
def readItems : Nat → Reader (List Value)
  | 0 => sequence .sequence (fun _ => .error .tooDeep)
  | level + 1 => sequence .sequence (items (read level))

/-- Read a list of pairs. -/
def readEntries : Nat → Reader (List (Value × Value))
  | 0 => sequence .sequence (fun _ => .error .tooDeep)
  | level + 1 => sequence .sequence (items (readEntry level))

/-- Read a pair. -/
def readEntry : Nat → Reader (Value × Value)
  | 0 => sequence .pair (fun _ => .error .tooDeep)
  | level + 1 => sequence .pair (twoElements .pair (read level) (read level))

end

instance : Tagged Value where
  encode := encode
  reader := read

/-- The entries of a dictionary by themselves. -/
instance : Tagged (List (Value × Value)) where
  encode es := .arr (encodeEntries es)
  reader := readEntries

end Value

end GuardedCall
