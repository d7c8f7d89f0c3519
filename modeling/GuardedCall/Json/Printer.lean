import GuardedCall.Decimal.Layout
import GuardedCall.Json.Basic
import GuardedCall.Text.Literal

/-!
# Writing JSON

Data is written without any blanks. In strings only the double quote, the backslash and the
controls below the space are escaped. A number that JSON has no text for is written as null.

Main definition: `print`.
-/

namespace GuardedCall.Json

open Decimal Text

/-- A character inside a string. -/
def printChar (c : Char) : List Char :=
  if c = '"' then ['\\', '"']
  else if c = '\\' then ['\\', '\\']
  else if c = '\x08' then ['\\', 'b']
  else if c = '\t' then ['\\', 't']
  else if c = '\n' then ['\\', 'n']
  else if c = '\x0c' then ['\\', 'f']
  else if c = '\r' then ['\\', 'r']
  else if c.toNat < 32 then '\\' :: 'u' :: '0' :: '0' :: Literal.hexPair c.toNat
  else [c]

/-- A string in quotes. -/
def printString (s : String) : List Char :=
  '"' :: (s.toList.flatMap printChar ++ ['"'])

/-- A floating point number. -/
def printFloat (x : Binary64) : List Char :=
  if x.isFinite then Layout.literal.write x else "null".toList

mutual

/-- The text of data. -/
def print : Json → List Char
  | null => "null".toList
  | bool true => "true".toList
  | bool false => "false".toList
  | int n => intDigits n
  | float x => printFloat x
  | str s => printString s
  | arr xs => '[' :: ([','].intercalate (printItems xs) ++ [']'])
  | obj es => '\x7b' :: ([','].intercalate (printMembers es) ++ ['\x7d'])

/-- The texts of several items. -/
def printItems : List Json → List (List Char)
  | [] => []
  | x :: xs => print x :: printItems xs

/-- The texts of several members. -/
def printMembers : List (String × Json) → List (List Char)
  | [] => []
  | (name, x) :: es => (printString name ++ ':' :: print x) :: printMembers es

end

/-- The text of data as a string. -/
def render (j : Json) : String := String.ofList j.print

end GuardedCall.Json
