import GuardedCall.Kind

/-!
# Failures

What a call fails with: a kind of failure, a message, and for an argument of the wrong kind the
parameter and the two kinds in question. Bodies raise failures of their own; those of the guard
are made from their causes in the modules that detect them.

Main definitions: `FailureKind`, `Mismatch`, `Failure`.
-/

namespace GuardedCall

/-- A kind of failure. -/
inductive FailureKind
  | binding
  | type
  | signature
  | value
  | overflow
  | zeroDivision
  | runtime
  deriving DecidableEq, Repr

namespace FailureKind

/-- The name of a kind of failure. -/
def name : FailureKind → String
  | binding => "BindingError"
  | type => "TypeError"
  | signature => "SignatureError"
  | value => "ValueError"
  | overflow => "OverflowError"
  | zeroDivision => "ZeroDivisionError"
  | runtime => "RuntimeError"

/-- All kinds of failure, in the order of the declaration. -/
def all : List FailureKind :=
  [binding, type, signature, value, overflow, zeroDivision, runtime]

/-- The kind of failure with a name. Case matters. -/
def parse? (text : String) : Option FailureKind := all.find? fun k => k.name = text

/-- A kind of failure is read back from its name. -/
theorem parse?_name (k : FailureKind) : parse? k.name = some k := by
  cases k <;> decide

end FailureKind

/-- A parameter whose argument is of another kind than declared. -/
structure Mismatch where
  param : String
  expected : Kind
  actual : Kind
  deriving DecidableEq, Repr

/-- What a call fails with. -/
structure Failure where
  kind : FailureKind
  message : String
  mismatch : Option Mismatch := none
  deriving DecidableEq, Repr

namespace Failure

/-- One line for the reader. -/
def display (f : Failure) : String := f.kind.name ++ ": " ++ f.message

end Failure

/-- A name in single quotes. -/
def quotedName (name : String) : String := "'" ++ name ++ "'"

/-- Names in single quotes, with commas and a final "and". -/
def nameList : List String → String
  | [] => ""
  | [a] => quotedName a
  | [a, b] => quotedName a ++ " and " ++ quotedName b
  | a :: names => quotedName a ++ ", " ++ nameList names

end GuardedCall
