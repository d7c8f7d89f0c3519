import GuardedCall.Decimal.Layout
import GuardedCall.Text.Dump
import GuardedCall.Value.Repr

/-!
# Diagnostic dumps of values

A dump names the constructor of every node of a value.

Main definition: `Value.dump`.
-/

namespace GuardedCall.Value

open Decimal Text

/-- A constructor with one argument. -/
def applied (name : List Char) (argument : List Char) : List Char :=
  name ++ '(' :: (argument ++ [')'])

/-- A list in brackets. -/
def bracketed (texts : List (List Char)) : List Char :=
  '[' :: (commaSeparated texts ++ [']'])

mutual

/-- The characters of a dump. -/
def dump : Value → List Char
  | null => "None".toList
  | bool b => applied "Bool".toList (if b then "true".toList else "false".toList)
  | int n => applied "Int".toList (intDigits n.toInt)
  | float x => applied "Float".toList (Layout.debug.write x)
  | str s => applied "String".toList (dumpString s)
  | bytes bs => applied "Bytes".toList (bracketed (bs.map fun b => natDigits b.toNat))
  | list items => applied "List".toList (bracketed (dumpItems items))
  | tuple items => applied "Tuple".toList (bracketed (dumpItems items))
  | dict entries =>
    applied "Dict".toList (applied "DictPairs".toList (bracketed (dumpEntries entries)))

/-- The dumps of several values. -/
def dumpItems : List Value → List (List Char)
  | [] => []
  | v :: vs => dump v :: dumpItems vs

/-- The dumps of the entries of a dictionary, each a pair in parentheses. -/
def dumpEntries : List (Value × Value) → List (List Char)
  | [] => []
  | (k, v) :: es => ('(' :: (commaSeparated [dump k, dump v] ++ [')'])) :: dumpEntries es

end

end GuardedCall.Value
