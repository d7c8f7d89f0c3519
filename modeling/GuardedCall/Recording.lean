import GuardedCall.Guard

/-!
# Recordings

A recording keeps what it is told about guarded calls, one call after another, until it is
cleared. It keeps the names of bound arguments without their values, the parameters that take a
default without the default, and of a result its literal text.

Main definitions: `Record`, `Event.record`, `Recording`, `Guard.callTold`.
-/

namespace GuardedCall

/-- What is kept of an event of the function named first. -/
inductive Record
  /-- The names that the caller gave a value. -/
  | bind (func : String) (bound : List String)
  | default (func param : String)
  | check (func param : String) (expected actual : Kind) (passed : Bool)
  | invoke (func : String)
  /-- The literal text of the result. -/
  | returned (func repr : String)
  | failed (func : String) (failure : Failure)
  deriving DecidableEq

/-- What is kept of an event. -/
def Event.record : Event → Record
  | .bind func bound => .bind func bound.names
  | .default func param _ => .default func param
  | .check func param expected actual passed => .check func param expected actual passed
  | .invoke func => .invoke func
  | .returned func value => .returned func value.repr
  | .failed func failure => .failed func failure

namespace Record

/-- The body ran. -/
def isInvoke : Record → Bool
  | invoke _ => true
  | _ => false

end Record

/-- The records of all events since the beginning, or since the last clearing. -/
structure Recording where
  records : List Record := []
  deriving DecidableEq

namespace Recording

/-- Keep one more event. -/
def observe (r : Recording) (e : Event) : Recording := ⟨r.records ++ [e.record]⟩

/-- Forget all events. -/
def clear (_ : Recording) : Recording := {}

/-- Whether a body ran in any of the calls. -/
def invoked (r : Recording) : Bool := r.records.any Record.isInvoke

end Recording

/-- A guarded call that is told to an observer with a state of its own: each event changes that
state, and nothing else. -/
def Guard.callTold {m : Type → Type} [Monad m] {σ : Type} (g : Guard) (tell : σ → Event → σ)
    (body : Bound → m (Except Failure Value)) (a : Arguments) :
    StateT σ m (Except Failure Value) :=
  g.callObserved (fun e => modify fun s => tell s e) (fun b => liftM (body b)) a

end GuardedCall
