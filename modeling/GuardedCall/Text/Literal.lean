/-!
# Quoted literals

How a string and a sequence of bytes are written as a literal: between single quotes, or between
double quotes if single ones occur inside and double ones do not. The backslash, the surrounding
quote and the control characters are escaped, so a literal is always one line. A byte that is no
printable ASCII character is escaped too, and the literal of bytes has the letter `b` in front.

Main definitions: `hexPair`, `quoteFor`, `ofString`, `ofBytes`.
-/

namespace GuardedCall.Text.Literal

/-- Two lower case hexadecimal digits. -/
def hexPair (n : Nat) : List Char := [Nat.digitChar (n / 16 % 16), Nat.digitChar (n % 16)]

/-- The quote that surrounds a text. -/
def quoteFor (text : List Char) : Char :=
  if text.contains '\'' && !text.contains '"' then '"' else '\''

/-- The control characters: the first thirty-two, delete, and the thirty-two after it. -/
def isControl (c : Char) : Bool :=
  let n := c.toNat
  n < 32 || (127 ≤ n && n < 160)

/-- The escapes that all literals share: the backslash, three kinds of white space, and the
quote. -/
def escape? (quote c : Char) : Option (List Char) :=
  if c = '\\' then some ['\\', '\\']
  else if c = '\n' then some ['\\', 'n']
  else if c = '\r' then some ['\\', 'r']
  else if c = '\t' then some ['\\', 't']
  else if c = quote then some ['\\', quote]
  else none

/-- A character of a string inside a literal. -/
def escapeChar (quote c : Char) : List Char :=
  (escape? quote c).getD <| if isControl c then '\\' :: 'x' :: hexPair c.toNat else [c]

/-- A byte inside a literal. -/
def escapeByte (quote : Char) (b : UInt8) : List Char :=
  (escape? quote (Char.ofNat b.toNat)).getD <|
    if 32 ≤ b.toNat ∧ b.toNat < 127 then [Char.ofNat b.toNat]
    else '\\' :: 'x' :: hexPair b.toNat

/-- The literal of a string. -/
def ofString (text : List Char) : List Char :=
  let quote := quoteFor text
  quote :: (text.flatMap (escapeChar quote) ++ [quote])

/-- The literal of a sequence of bytes. -/
def ofBytes (bs : List UInt8) : List Char :=
  let quote := quoteFor (bs.map fun b => Char.ofNat b.toNat)
  'b' :: quote :: (bs.flatMap (escapeByte quote) ++ [quote])

end GuardedCall.Text.Literal
