import GuardedCall.Text.Hidden

/-!
# Strings in diagnostic dumps

A string in a dump stands between double quotes. The double quote, the backslash and a few
controls have escapes of their own; every other character that is not visible by itself is shown
by its number.

Main definitions: `dumpChar`, `dumpString`.
-/

namespace GuardedCall.Text

/-- A character of a string in a dump. -/
def dumpChar (c : Char) : List Char :=
  if c = '\x00' then ['\\', '0']
  else if c = '\t' then ['\\', 't']
  else if c = '\r' then ['\\', 'r']
  else if c = '\n' then ['\\', 'n']
  else if c = '"' then ['\\', '"']
  else if c = '\\' then ['\\', '\\']
  else if isHidden c then
    ['\\', 'u', '\x7b'] ++ Nat.toDigits 16 c.toNat ++ ['\x7d']
  else [c]

/-- A string in a dump. -/
def dumpString (s : String) : List Char :=
  '"' :: (s.toList.flatMap dumpChar ++ ['"'])

end GuardedCall.Text
