import GuardedCall.Event
import GuardedCall.Policy
import GuardedCall.Signature.Binding

/-!
# Guards

A guard stands before the body of a function. It binds the arguments of a call, fills in the
defaults and compares the kind of every value with the declaration under its policy; only then
does the body run. The body may have effects of any kind, and so may an observer, which is told
of each step and cannot change the outcome.

Main definitions: `Guard`, `Guard.prepare`, `Guard.check`, `Guard.callObserved`, `Guard.call`.
-/

namespace GuardedCall

/-- A signature that is enforced under a policy. -/
structure Guard where
  signature : Signature
  policy : Policy := .strict
  deriving DecidableEq

namespace Guard

def name (g : Guard) : String := g.signature.name

/-- The failure of an argument of the wrong kind. -/
def mismatchFailure (func : String) (m : Mismatch) : Failure where
  kind := .type
  message := func ++ "() argument " ++ quotedName m.param ++ " must be " ++ m.expected.name ++
    ", not " ++ m.actual.name
  mismatch := some m

/-- Whether a parameter's value is of the declared kind; nothing to compare without a declaration
or a value. -/
def checkOf (g : Guard) (b : Bound) (p : Param) : Option (Mismatch × Bool) :=
  match p.kind?, b.get? p.name with
  | some expected, some v =>
    some (⟨p.name, expected, v.kind⟩, g.policy.accepts expected v.kind)
  | _, _ => none

/-- Compare kinds parameter by parameter, up to the first that differs: the events, and the
mismatch if there is one. -/
def checkParams (g : Guard) (b : Bound) : List Param → List Event × Option Mismatch
  | [] => ([], none)
  | p :: ps =>
    match g.checkOf b p with
    | none => checkParams g b ps
    | some (m, passed) =>
      let event := Event.check g.name m.param m.expected m.actual passed
      if passed then
        let (events, first) := checkParams g b ps
        (event :: events, first)
      else ([event], some m)

/-- The part of a call before the body: the events, and the arguments for the body or the
failure. -/
def prepare (g : Guard) (a : Arguments) : List Event × Except Failure Bound :=
  match g.signature.bind a with
  | .error f => ([], .error (f.failure g.name))
  | .ok bound =>
    let defaults := (g.signature.defaulted bound).map fun e => Event.default g.name e.1 e.2
    let filled := g.signature.applyDefaults bound
    let (checks, first) := g.checkParams filled g.signature.params
    (.bind g.name bound :: (defaults ++ checks),
      match first with
      | some m => .error (mismatchFailure g.name m)
      | none => .ok filled)

/-- The arguments that the body would get, or the failure before it. -/
def check (g : Guard) (a : Arguments) : Except Failure Bound := (g.prepare a).2

/-- The event at the end of a call. -/
def outcomeEvent (g : Guard) : Except Failure Value → Event
  | .ok v => .returned g.name v
  | .error f => .failed g.name f

/-- A guarded call whose steps are told to an observer. -/
def callObserved {m : Type → Type} [Monad m] (g : Guard) (observe : Event → m Unit)
    (body : Bound → m (Except Failure Value)) (a : Arguments) : m (Except Failure Value) := do
  let (events, ready) := g.prepare a
  events.forM observe
  let outcome ← match ready with
    | .error f => pure (.error f)
    | .ok b => do
      observe (.invoke g.name)
      body b
  observe (g.outcomeEvent outcome)
  pure outcome

/-- A guarded call. -/
def call {m : Type → Type} [Monad m] (g : Guard) (body : Bound → m (Except Failure Value))
    (a : Arguments) : m (Except Failure Value) :=
  g.callObserved (fun _ => pure ()) body a

/-- The observer that records the events in order. -/
def record (e : Event) : StateM (List Event) Unit := modify (· ++ [e])

/-- The events of a call whose body has no effects, and its outcome. -/
def run (g : Guard) (body : Bound → Except Failure Value) (a : Arguments) :
    Except Failure Value × List Event :=
  (g.callObserved record (fun b => pure (body b)) a).run []

end Guard

end GuardedCall
