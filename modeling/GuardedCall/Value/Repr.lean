import GuardedCall.Decimal.Layout
import GuardedCall.Text.Literal
import GuardedCall.Value.Basic

/-!
# Literal text of values

Every value is written as a literal from which its kind and its parts can be told: strings are
quoted, a tuple of one item has a comma, and a whole floating point number has a point. The
display text is the same, except that a string stands for itself.

Main definitions: `Value.repr`, `Value.display`.
-/

namespace GuardedCall.Value

open Decimal Text

/-- Texts one after another, with a comma and a space between. -/
def commaSeparated (texts : List (List Char)) : List Char := [',', ' '].intercalate texts

mutual

/-- The characters of a literal. -/
def reprChars : Value → List Char
  | null => "None".toList
  | bool true => "True".toList
  | bool false => "False".toList
  | int n => intDigits n.toInt
  | float x => Layout.literal.write x
  | str s => Literal.ofString s.toList
  | bytes bs => Literal.ofBytes bs
  | list items => '[' :: (commaSeparated (reprItems items) ++ [']'])
  | tuple [item] => '(' :: (reprChars item ++ [',', ')'])
  | tuple items => '(' :: (commaSeparated (reprItems items) ++ [')'])
  | dict entries => '\x7b' :: (commaSeparated (reprEntries entries) ++ ['\x7d'])

/-- The literals of several values. -/
def reprItems : List Value → List (List Char)
  | [] => []
  | v :: vs => reprChars v :: reprItems vs

/-- The entries of a dictionary, each with a colon after its key. -/
def reprEntries : List (Value × Value) → List (List Char)
  | [] => []
  | (k, v) :: es => (reprChars k ++ ':' :: ' ' :: reprChars v) :: reprEntries es

end

/-- The literal of a value. -/
def repr (v : Value) : String := String.ofList v.reprChars

/-- The text shown for a value: strings unquoted, anything else as its literal. -/
def display : Value → String
  | str s => s
  | v => v.repr

end GuardedCall.Value
