import GuardedCall.Entries
import GuardedCall.Failure
import GuardedCall.Value.Basic

/-!
# Bound arguments

The values of a function's parameters by name, in order. A body takes them out by name, as they
are or as a number or text.

Main definitions: `Bound`, `Bound.int`, `Bound.float`, `Bound.str`.
-/

namespace GuardedCall

/-- Values of parameters by name, in order. -/
structure Bound where
  entries : Entries Value
  deriving DecidableEq, Inhabited

namespace Bound

def empty : Bound := ⟨[]⟩

/-- The value of a parameter. -/
def get? (b : Bound) (name : String) : Option Value := b.entries.get? name

def contains (b : Bound) (name : String) : Bool := (b.get? name).isSome

def names (b : Bound) : List String := b.entries.keys

def values (b : Bound) : List Value := b.entries.values

def size (b : Bound) : Nat := b.entries.length

def isEmpty (b : Bound) : Bool := b.entries.isEmpty

/-- The same parameters with the same values, in any order. -/
def same (a b : Bound) : Bool := a.entries.sameMap b.entries

/-- The value of a parameter, seen as something of a kind: a failure if there is no value, or if
it cannot be seen so. -/
def view {α : Type} (as? : Value → Option α) (kind : Kind) (b : Bound) (name : String) :
    Except Failure α :=
  match b.get? name with
  | none =>
    .error { kind := .binding, message := "no value bound for argument " ++ quotedName name }
  | some v =>
    match as? v with
    | some x => .ok x
    | none =>
      .error
        { kind := .type
          message := quotedName name ++ " must be " ++ kind.name ++ ", not " ++ v.kind.name }

/-- A parameter as an integer. -/
def int : Bound → String → Except Failure Int64 := view Value.asInt? .int

/-- A parameter as a floating point number. -/
def float : Bound → String → Except Failure Binary64 := view Value.asFloat? .float

/-- A parameter as text. -/
def str : Bound → String → Except Failure String := view Value.asStr? .str

end Bound

end GuardedCall
