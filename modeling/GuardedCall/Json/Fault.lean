import GuardedCall.Decimal.Layout
import GuardedCall.Json.Basic
import GuardedCall.Text.Dump

/-!
# Why a text is refused

A reader goes through a text from left to right and stops at the first fault: the text is no
JSON, or it is not of the form that the reader asks for.

Main definitions: `Found`, `Form`, `Fault`, `Fault.message`.
-/

namespace GuardedCall.Json

open Decimal Text

/-- What stood in the text. -/
inductive Found
  | scalar (s : Scalar)
  | sequence
  | map
  /-- The bare name of a variant. -/
  | unitVariant
  deriving DecidableEq

/-- What a reader asks for. -/
inductive Form
  | bool
  | int64
  | byte
  | float
  | str
  | unit
  | sequence
  | pair
  /-- A record of the given name. -/
  | struct (name : String)
  /-- A variant that holds one value. -/
  | newtypeVariant
  /-- A variant that holds several values, and its name if that is known. -/
  | tupleVariant (name : Option String)
  deriving DecidableEq

/-- Why a text is refused. -/
inductive Fault
  /-- The text ends where a value, a list, an object or a string goes on. -/
  | endOfValue
  | endOfList
  | endOfObject
  | endOfString
  | expectedColon
  | expectedListEnd
  | expectedObjectEnd
  /-- A word that begins like `null`, `true` or `false` and is another. -/
  | expectedWord
  | expectedValue
  | invalidEscape
  | invalidNumber
  | numberOutOfRange
  | controlCharacter
  | keyNotString
  /-- A surrogate out of place. -/
  | loneSurrogate
  /-- A leading surrogate that no escape follows. -/
  | splitSurrogate
  | trailingComma
  | trailingText
  /-- Arrays and objects are nested too deep. -/
  | tooDeep
  | unexpected (found : Found) (form : Form)
  | outOfRange (n : Int) (form : Form)
  /-- A sequence ends after `count` of `size` parts. -/
  | wrongLength (count : Nat) (form : Form) (size : Nat)
  | missingField (name : String)
  | duplicateField (name : String)
  | unknownVariant (name : String) (known : List String)
  /-- The parts are right, and what they make is refused. -/
  | refused (reason : String)
  deriving DecidableEq

/-- A description of a scalar. -/
def Scalar.describe : Scalar → String
  | null => "null"
  | bool b => "boolean `" ++ (if b then "true" else "false") ++ "`"
  | number (.int n) => "integer `" ++ String.ofList (intDigits n) ++ "`"
  | number (.float x) => "floating point `" ++ String.ofList (Layout.literal.write x) ++ "`"
  | str s => "string " ++ String.ofList (dumpString s)

/-- A description of what stood in the text. -/
def Found.describe : Found → String
  | scalar s => s.describe
  | sequence => "sequence"
  | map => "map"
  | unitVariant => "unit variant"

/-- A description of what is asked for. -/
def Form.describe : Form → String
  | bool => "a boolean"
  | int64 => "i64"
  | byte => "u8"
  | float => "f64"
  | str => "a string"
  | unit => "unit"
  | sequence => "a sequence"
  | pair => "a tuple of size 2"
  | struct name => "struct " ++ name
  | newtypeVariant => "newtype variant"
  | tupleVariant none => "tuple variant"
  | tupleVariant (some name) => "tuple variant " ++ name

/-- A description of what is asked for, with the number of its parts. -/
def Form.describeSized (size : Nat) : Form → String
  | pair => Form.describe pair
  | form => form.describe ++ " with " ++ natText size ++ " elements"

/-- The choices that a name is not among. -/
def describeChoices : List String → String
  | [] => "nothing"
  | [a] => "`" ++ a ++ "`"
  | [a, b] => "`" ++ a ++ "` or `" ++ b ++ "`"
  | names => "one of " ++ ", ".intercalate (names.map fun n => "`" ++ n ++ "`")

/-- The wording of a fault. -/
def Fault.message : Fault → String
  | endOfValue => "EOF while parsing a value"
  | endOfList => "EOF while parsing a list"
  | endOfObject => "EOF while parsing an object"
  | endOfString => "EOF while parsing a string"
  | expectedColon => "expected `:`"
  | expectedListEnd => "expected `,` or `]`"
  | expectedObjectEnd => "expected `,` or `\x7d`"
  | expectedWord => "expected ident"
  | expectedValue => "expected value"
  | invalidEscape => "invalid escape"
  | invalidNumber => "invalid number"
  | numberOutOfRange => "number out of range"
  | controlCharacter => "control character (\\u0000-\\u001F) found while parsing a string"
  | keyNotString => "key must be a string"
  | loneSurrogate => "lone leading surrogate in hex escape"
  | splitSurrogate => "unexpected end of hex escape"
  | trailingComma => "trailing comma"
  | trailingText => "trailing characters"
  | tooDeep => "recursion limit exceeded"
  | unexpected found form => "invalid type: " ++ found.describe ++ ", expected " ++ form.describe
  | outOfRange n form =>
    "invalid value: " ++ (Scalar.number (.int n)).describe ++ ", expected " ++ form.describe
  | wrongLength count form size =>
    "invalid length " ++ natText count ++ ", expected " ++
      form.describeSized size
  | missingField name => "missing field `" ++ name ++ "`"
  | duplicateField name => "duplicate field `" ++ name ++ "`"
  | unknownVariant name known =>
    "unknown variant `" ++ name ++ "`, expected " ++ describeChoices known
  | refused reason => reason

end GuardedCall.Json
