import GuardedCall.Decimal.Digits
import GuardedCall.Decimal.Scaled
import GuardedCall.Json.Fault
import GuardedCall.Word64

/-!
# Words, numbers and strings of JSON

The parts of a JSON text that hold no other values. Every reader takes a text and gives what it
has read with the rest of the text, or the first fault.

A number without fraction and exponent is whole if it fits in 64 bits, signed or not; a larger
one is a floating point number, and so is minus zero. A floating point number is read the quick
way, which may give the neighbour of the nearest number if there are many digits. Strings hold no
raw control characters, and surrogates are escaped in pairs.

Main definitions: `Reader`, `skipBlank`, `word`, `number`, `string`, `scalar`.
-/

namespace GuardedCall.Json

open Decimal

/-- A reader gives a result and the rest of the text, or a fault. -/
abbrev Reader (α : Type) := List Char → Except Fault (α × List Char)

/-! ## Blanks and words -/

/-- The blanks of JSON: space, tab, line feed and carriage return. -/
def isBlank (c : Char) : Bool := c = ' ' || c = '\t' || c = '\n' || c = '\r'

/-- The text after leading blanks. -/
def skipBlank (text : List Char) : List Char := text.dropWhile isBlank

/-- The letters of a word, one after another. -/
def word : List Char → Reader Unit
  | [], text => .ok ((), text)
  | _ :: _, [] => .error .endOfValue
  | l :: ls, c :: text => if c = l then word ls text else .error .expectedWord

/-! ## Numbers -/

/-- The digits at the front of a text. -/
def digits (text : List Char) : List Char × List Char :=
  (text.takeWhile Char.isDigit, text.dropWhile Char.isDigit)

/-- The digits before the point: a zero stands alone. -/
def wholePart : Reader (List Char)
  | [] => .error .endOfValue
  | '0' :: text =>
    match text with
    | c :: _ => if c.isDigit then .error .invalidNumber else .ok (['0'], text)
    | [] => .ok (['0'], text)
  | c :: text => if c.isDigit then .ok (digits (c :: text)) else .error .invalidNumber

/-- At least one digit. -/
def someDigits (text : List Char) : Except Fault (List Char × List Char) :=
  match digits text with
  | ([], []) => .error .endOfValue
  | ([], _ :: _) => .error .invalidNumber
  | found => .ok found

/-- The digits after the point, if there is a point. -/
def fractionPart : Reader (Option (List Char))
  | '.' :: text => do
    let (ds, rest) ← someDigits text
    .ok (some ds, rest)
  | text => .ok (none, text)

/-- The sign before the digits of an exponent: whether it is a minus. -/
def exponentSign : List Char → Bool × List Char
  | '+' :: text => (false, text)
  | '-' :: text => (true, text)
  | text => (false, text)

/-- The exponent, if there is one. -/
def exponentPart : Reader (Option Int)
  | [] => .ok (none, [])
  | c :: text =>
    if c = 'e' ∨ c = 'E' then do
      let (minus, text) := exponentSign text
      let (ds, rest) ← someDigits text
      .ok (some (if minus then -(ofDigits ds : Int) else ofDigits ds), rest)
    else .ok (none, c :: text)

/-- The floating point number that a decimal is read as, unless it is out of range. Digits of the
whole part that do not fit are worth a power of ten each, those of the fraction nothing. -/
def scaledFloat (negative : Bool) (whole fraction : List Char) (exponent : Int) :
    Except Fault Number :=
  let (n, wholeLeft) := appendFitting 0 whole
  let (n, fractionLeft) := appendFitting n fraction
  let x := Binary64.ofScaled negative n
    (exponent + wholeLeft.length + fractionLeft.length - fraction.length)
  if x.isFinite then .ok (.float x) else .error .numberOutOfRange

/-- The number with the given parts. -/
def numberOfParts (negative : Bool) (whole : List Char) (fraction : Option (List Char))
    (exponent : Option Int) : Except Fault Number :=
  match fraction, exponent with
  | none, none =>
    let n := ofDigits whole
    if negative then
      if 0 < n ∧ Word64.fitsSigned (-n) then .ok (.int (-n)) else scaledFloat true whole [] 0
    else if Word64.fitsUnsigned n then .ok (.int n) else scaledFloat false whole [] 0
  | _, _ => scaledFloat negative whole (fraction.getD []) (exponent.getD 0)

/-- A number after its sign. -/
def unsigned (negative : Bool) : Reader Number := fun text => do
  let (whole, text) ← wholePart text
  let (fraction, text) ← fractionPart text
  let (exponent, text) ← exponentPart text
  let n ← numberOfParts negative whole fraction exponent
  .ok (n, text)

/-- A number. -/
def number : Reader Number
  | '-' :: text => unsigned true text
  | text => unsigned false text

/-! ## Strings -/

/-- The value of a hexadecimal digit of either case. -/
def hexDigit? (c : Char) : Option Nat :=
  let n := c.toNat
  if 48 ≤ n ∧ n ≤ 57 then some (n - 48)
  else if 97 ≤ n ∧ n ≤ 102 then some (n - 87)
  else if 65 ≤ n ∧ n ≤ 70 then some (n - 55)
  else none

/-- The value of four hexadecimal digits. -/
def hexUnit (a b c d : Char) : Except Fault Nat :=
  match hexDigit? a, hexDigit? b, hexDigit? c, hexDigit? d with
  | some a, some b, some c, some d => .ok (((a * 16 + b) * 16 + c) * 16 + d)
  | _, _, _, _ => .error .invalidEscape

/-- The fault of a text too short for four hexadecimal digits: it has ended, unless it holds four
bytes, which then are no digits. -/
def shortUnit (text : List Char) : Fault :=
  if text.foldl (fun n c => n + c.utf8Size) 0 < 4 then .endOfString else .invalidEscape

/-- The character that a letter after a backslash stands for. -/
def simpleEscape? : Char → Option Char
  | '"' => some '"'
  | '\\' => some '\\'
  | '/' => some '/'
  | 'b' => some '\x08'
  | 'f' => some '\x0c'
  | 'n' => some '\n'
  | 'r' => some '\r'
  | 't' => some '\t'
  | _ => none

/-- A unit that opens a pair of surrogates. -/
def isLeading (n : Nat) : Bool := 0xD800 ≤ n && n < 0xDC00

/-- A unit that closes a pair of surrogates. -/
def isTrailing (n : Nat) : Bool := 0xDC00 ≤ n && n < 0xE000

/-- The character of a pair of surrogates. -/
def pairedChar (leading trailing : Nat) : Char :=
  Char.ofNat (0x10000 + (leading - 0xD800) * 1024 + (trailing - 0xDC00))

/-- A character before those that are read next. -/
def consChar (c : Char) (r : Except Fault (List Char × List Char)) :
    Except Fault (List Char × List Char) := do
  let (cs, rest) ← r
  .ok (c :: cs, rest)

/-- The characters of a string after its opening quote, up to the closing one. -/
def stringChars : Reader (List Char)
  | [] => .error .endOfString
  | '"' :: text => .ok ([], text)
  | '\\' :: text =>
    match text with
    | [] => .error .endOfString
    | 'u' :: a :: b :: c :: d :: text => do
      let unit ← hexUnit a b c d
      if isTrailing unit then .error .loneSurrogate
      else if isLeading unit then
        match text with
        | [] => .error .endOfString
        | '\\' :: [] => .error .endOfString
        | '\\' :: 'u' :: e :: f :: g :: h :: text => do
          let second ← hexUnit e f g h
          if isTrailing second then consChar (pairedChar unit second) (stringChars text)
          else .error .loneSurrogate
        | '\\' :: 'u' :: text => .error (shortUnit text)
        | _ => .error .splitSurrogate
      else consChar (Char.ofNat unit) (stringChars text)
    | 'u' :: text => .error (shortUnit text)
    | c :: text =>
      match simpleEscape? c with
      | some e => consChar e (stringChars text)
      | none => .error .invalidEscape
  | c :: text =>
    if c.toNat < 32 then .error .controlCharacter else consChar c (stringChars text)

/-- A string after its opening quote. -/
def string : Reader String := fun text => do
  let (cs, rest) ← stringChars text
  .ok (String.ofList cs, rest)

/-! ## Scalars -/

/-- A value that is no array and no object, at the front of a text. -/
def scalar : Reader Scalar
  | [] => .error .endOfValue
  | 'n' :: rest => do
    let (_, rest) ← word ['u', 'l', 'l'] rest
    .ok (.null, rest)
  | 't' :: rest => do
    let (_, rest) ← word ['r', 'u', 'e'] rest
    .ok (.bool true, rest)
  | 'f' :: rest => do
    let (_, rest) ← word ['a', 'l', 's', 'e'] rest
    .ok (.bool false, rest)
  | '"' :: rest => do
    let (s, rest) ← string rest
    .ok (.str s, rest)
  | c :: rest =>
    if c = '-' ∨ c.isDigit then do
      let (n, rest) ← number (c :: rest)
      .ok (.number n, rest)
    else .error .expectedValue

end GuardedCall.Json
