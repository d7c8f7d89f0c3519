import GuardedCall.Bound
import GuardedCall.Value.Repr

/-!
# Events of a guarded call

What a guarded call does, step by step, and the report that is printed about it: one line for
each event, or for the failures alone.

Main definitions: `Event`, `Event.line`, `Event.isFailure`, `report`, `reportFailures`.
-/

namespace GuardedCall

/-- One step of a guarded call of the function named first. -/
inductive Event
  /-- The arguments are bound; the defaults are not filled in yet. -/
  | bind (func : String) (bound : Bound)
  /-- A parameter takes its default. -/
  | default (func param : String) (value : Value)
  /-- The kind of a parameter's value is compared with the declared one. -/
  | check (func param : String) (expected actual : Kind) (passed : Bool)
  /-- The body is about to run. -/
  | invoke (func : String)
  | returned (func : String) (value : Value)
  | failed (func : String) (failure : Failure)
  deriving DecidableEq

namespace Event

/-- A text filled up with blanks to a width. -/
def padded (width : Nat) (s : String) : String :=
  s ++ String.ofList (List.replicate (width - s.length) ' ')

/-- The line that reports an event. -/
def line : Event → String
  | bind func bound =>
    "  >>> BIND " ++ padded 15 func ++ " " ++
      ", ".intercalate (bound.entries.map fun e => e.1 ++ "=" ++ e.2.repr)
  | default func param value =>
    "      DEFAULT " ++ padded 15 (func ++ "." ++ param) ++ " = " ++ value.repr
  | check func param expected actual passed =>
    "      CHECK " ++ padded 15 (func ++ "." ++ param) ++ " " ++ expected.name ++
      (if passed then " ok" else " FAILED (got " ++ actual.name ++ ")")
  | invoke func => "  >>> CALL " ++ func
  | returned func value => "  <<< RETURN " ++ padded 13 func ++ " " ++ value.repr
  | failed func failure => "  !!! ERROR " ++ padded 14 func ++ " " ++ failure.display

/-- A failed check, or the failure of the call. -/
def isFailure : Event → Bool
  | check _ _ _ _ passed => !passed
  | failed _ _ => true
  | _ => false

/-- The body runs. -/
def isInvoke : Event → Bool
  | invoke _ => true
  | _ => false

/-- The line that reports an event, with its end. -/
def entry (e : Event) : String := e.line ++ "\n"

end Event

/-- The report on all events. -/
def report (events : List Event) : String := String.join (events.map Event.entry)

/-- The report on the failures among the events. -/
def reportFailures (events : List Event) : String := report (events.filter Event.isFailure)

end GuardedCall
