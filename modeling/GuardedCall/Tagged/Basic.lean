import GuardedCall.Json.Items
import GuardedCall.Json.Printer
import GuardedCall.Json.Skip

/-!
# The tagged data format

A data format in which every value of a type is written as JSON and can be read back. A variant is
the name of its constructor, or an object whose one member has that name and holds the contents;
a record is an object of its fields. Records are also read from a list of their fields, fields
that nobody knows are skipped, and a reader stops at the first fault from left to right.

This module has the class of the types that have such a format, and the readers of variants,
records and sequences that all of them share. A reader is given the number of arrays and objects
that may still be opened.

Main definitions: `Tagged`, `Tagged.render`, `Tagged.parse`.
-/

namespace GuardedCall

open Json

/-- A type with a tagged data format. -/
class Tagged (α : Type) where
  /-- The value as data. -/
  encode : α → Json
  /-- Read a value in which at most so many arrays and objects are nested. -/
  reader : Nat → Reader α

namespace Tagged

variable {α β σ τ : Type}

/-- The text of a value. -/
def render [Tagged α] (x : α) : String := (encode x).render

/-- The value that a text stands for. -/
def parse [Tagged α] (text : String) : Except Fault α :=
  complete (reader maxLevels) text.toList

/-! ## Results -/

/-- Read, and make something of the result. -/
def mapResult (f : α → β) (item : Reader α) : Reader β := fun text => do
  let (x, rest) ← item text
  .ok (f x, rest)

/-- Open one more array or object, if that is allowed. -/
def nested (level : Nat) (inside : Nat → Reader α) : Reader α :=
  match level with
  | 0 => fun _ => .error .tooDeep
  | level + 1 => inside level

/-! ## Scalars -/

/-- A scalar of another form than wanted. -/
def wrongScalar (form : Form) (s : Scalar) : Except Fault α :=
  .error (.unexpected (.scalar s) form)

/-- Null. -/
def unit : Reader Unit :=
  scalarOf .unit fun
    | .null => .ok ()
    | s => wrongScalar .unit s

/-- A truth value. -/
def bool : Reader Bool :=
  scalarOf .bool fun
    | .bool b => .ok b
    | s => wrongScalar .bool s

/-- A whole number of 64 bits, signed. -/
def int64 : Reader Int64 :=
  scalarOf .int64 fun
    | .number (.int n) =>
      if Word64.fitsSigned n then .ok (Int64.ofInt n) else .error (.outOfRange n .int64)
    | s => wrongScalar .int64 s

/-- A whole number of eight bits. -/
def byte : Reader UInt8 :=
  scalarOf .byte fun
    | .number (.int n) =>
      if 0 ≤ n ∧ n < 256 then .ok (UInt8.ofNat n.toNat) else .error (.outOfRange n .byte)
    | s => wrongScalar .byte s

/-- A floating point number; a whole number stands for the nearest one. -/
def float : Reader Binary64 :=
  scalarOf .float fun
    | .number (.float x) => .ok x
    | .number (.int n) => .ok (Binary64.ofInt n)
    | s => wrongScalar .float s

/-- A string. -/
def str : Reader String :=
  scalarOf .str fun
    | .str s => .ok s
    | s => wrongScalar .str s

/-- Null for nothing, or something. -/
def option (item : Reader α) : Reader (Option α) := fun text =>
  match skipBlank text with
  | 'n' :: rest => do
    let (_, rest) ← word ['u', 'l', 'l'] rest
    .ok (none, rest)
  | start => mapResult some item start

/-! ## Sequences -/

/-- A list, whose reader starts behind the opening bracket. -/
def sequence (form : Form) (inside : Reader α) : Reader α := fun text =>
  match skipBlank text with
  | [] => .error .endOfValue
  | '[' :: rest => inside rest
  | start => mismatch form start

/-- The next element of a list of fixed size, if there is one. -/
def element? (first : Bool) (item : Reader α) : Reader (Option α) := fun text => do
  let (more, text) ← anotherItem first text
  if more then mapResult some item text else .ok (none, text)

/-- The element at an index of a list of the given form and size. -/
def element (form : Form) (size index : Nat) (item : Reader α) : Reader α := fun text => do
  let (x?, text) ← element? (index == 0) item text
  match x? with
  | some x => .ok (x, text)
  | none => .error (.wrongLength index form size)

/-- Two elements behind the opening bracket of a list, and nothing else in it. -/
def twoElements (form : Form) (left : Reader α) (right : Reader β) : Reader (α × β) :=
  fun text => do
    let (x, text) ← element form 2 0 left text
    let (y, text) ← element form 2 1 right text
    let (_, text) ← closeList text
    .ok ((x, y), text)

/-- Items of one kind. -/
def listOf (level : Nat) (item : Nat → Reader α) : Reader (List α) :=
  sequence .sequence (nested level fun level => items (item level))

/-! ## Variants -/

/-- The variant with a name; each variant may have several. -/
def identify (all : List τ) (names : τ → List String) (name : String) : Except Fault τ :=
  match all.find? fun t => (names t).contains name with
  | some t => .ok t
  | none => .error (.unknownVariant name (all.flatMap names))

/-- A bare name, behind its opening quote. -/
def bareVariant (known : String → Except Fault τ) (bare : τ → Except Fault α) : Reader α :=
  fun text => do
    let (name, text) ← string text
    let t ← known name
    let x ← bare t
    .ok (x, text)

/-- The name of a variant, which is that of the first member of an object. -/
def variantName : Reader String := fun text => do
  let (more, text) ← anotherMember true text
  if more then string text else .error .expectedValue

/-- An object with the name and the contents of a variant, behind its opening brace. -/
def variantObject (known : String → Except Fault τ) (contents : τ → Reader α) : Reader α :=
  fun text => do
    let (name, text) ← variantName text
    let t ← known name
    let (_, text) ← colon text
    let (x, text) ← contents t text
    match skipBlank text with
    | [] => .error .endOfObject
    | '\x7d' :: rest => .ok (x, rest)
    | _ => .error .expectedValue

/-- A variant in either form. -/
def variant (bare object : Reader α) : Reader α := fun text =>
  match skipBlank text with
  | [] => .error .endOfValue
  | '"' :: rest => bare rest
  | '\x7b' :: rest => object rest
  | _ => .error .expectedValue

/-- The contents of a variant that has none. -/
def noContents (x : α) : Reader α := mapResult (fun _ => x) unit

/-- A type whose variants have no contents. -/
def enumeration (known : String → Except Fault τ) (level : Nat) : Reader τ :=
  variant (bareVariant known .ok) (nested level fun _ => variantObject known noContents)

/-- A variant that holds data, written as if it held none. -/
def bareData (form : Form) : Except Fault α := .error (.unexpected .unitVariant form)

/-! ## Records -/

/-- A record, in the form of an object or of a list; both readers start behind the opening
character. -/
def record (name : String) (level : Nat) (object list : Nat → Reader α) : Reader α :=
  fun text =>
    match skipBlank text with
    | [] => .error .endOfValue
    | '[' :: rest => nested level list rest
    | '\x7b' :: rest => nested level object rest
    | start => mismatch (.struct name) start

/-- The value of a field, read into the fields so far. A field must not occur twice. -/
def field (name : String) (old : Option α) (item : Reader α) (set : α → σ) : Reader σ :=
  fun text =>
    if old.isSome then .error (.duplicateField name)
    else do
      let (_, text) ← colon text
      mapResult set item text

/-- The value of a field that nobody knows. -/
def unknownField (fields : σ) : Reader σ := fun text => do
  let (_, text) ← colon text
  mapResult (fun _ => fields) skip text

/-- A field that must be there. -/
def requiredField (name : String) : Option α → Except Fault α
  | some x => .ok x
  | none => .error (.missingField name)

/-- Read the fields of an object, and make the record of them. -/
def fieldsThen (member : String → σ → Reader σ) (start : σ) (finish : σ → Except Fault α) :
    Reader α := fun text => do
  let (fields, text) ← members member start text
  let x ← finish fields
  .ok (x, text)

end Tagged

end GuardedCall
