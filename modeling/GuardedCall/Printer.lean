import GuardedCall.Event

/-!
# Printers

A printer writes down what it is told about guarded calls, an entry for each event. It may be asked
for the failures alone; then it is silent about anything else.

Main definitions: `Printer`, `Printer.prints`, `Printer.tell`.
Main statement: `foldl_tell`, what is printed is the report on the events.
-/

namespace GuardedCall

/-- An observer that prints. -/
structure Printer where
  /-- Only checks and calls that fail are told. -/
  failuresOnly : Bool := false
  deriving DecidableEq

namespace Printer

/-- What is printed about an event. -/
def prints (p : Printer) (e : Event) : String :=
  match e with
  | .bind _ _ => if p.failuresOnly then "" else e.entry
  | .default _ _ _ => if p.failuresOnly then "" else e.entry
  | .check _ _ _ _ passed =>
    if passed then
      if p.failuresOnly then "" else e.entry
    else e.entry
  | .invoke _ => if p.failuresOnly then "" else e.entry
  | .returned _ _ => if p.failuresOnly then "" else e.entry
  | .failed _ _ => e.entry

/-- Print about one more event. -/
def tell (p : Printer) (printed : String) (e : Event) : String := printed ++ p.prints e

/-- A printer is silent about an event, or prints its entry. -/
theorem prints_eq (p : Printer) (e : Event) :
    p.prints e = if p.failuresOnly && !e.isFailure then "" else e.entry := by
  cases e with
  | check func param expected actual passed => cases passed <;> simp [prints, Event.isFailure]
  | _ => simp [prints, Event.isFailure]

/-- What is printed about events one after another is the report on them, or that on the
failures. -/
theorem foldl_tell (p : Printer) (events : List Event) (printed : String) :
    events.foldl p.tell printed =
      printed ++ if p.failuresOnly then reportFailures events else report events := by
  induction events generalizing printed with
  | nil => simp [report, reportFailures]
  | cons e events ih =>
    rw [List.foldl_cons, ih, tell, prints_eq]
    cases p.failuresOnly <;> cases h : e.isFailure <;>
      simp [report, reportFailures, h, String.append_assoc]

end Printer

end GuardedCall
