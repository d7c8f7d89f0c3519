import GuardedCall.Arguments
import GuardedCall.Bound
import GuardedCall.Signature.Basic

/-!
# Binding

Arguments are bound to the parameters of a signature: positional values fill the first slots in
order, then each keyword fills the slot of its name. A partial binding leaves required parameters
open. Defaults are filled in afterwards.

Main definitions: `Signature.bind`, `Signature.bindPartial`, `Signature.applyDefaults`.
-/

namespace GuardedCall

/-- A parameter and the value that it has been given so far. -/
structure Slot where
  param : Param
  value : Option Value

namespace Slot

/-- The parameter has neither a value nor a default. -/
def isMissing (s : Slot) : Bool := s.value.isNone && !s.param.hasDefault

/-- The value under the name of the parameter. -/
def entry? (s : Slot) : Option (String × Value) := s.value.map fun v => (s.param.name, v)

end Slot

namespace Signature

/-- Give positional values to parameters, in order; those that are left stay open. -/
def fill : List Param → List Value → List Slot
  | [], _ => []
  | p :: ps, [] => ⟨p, none⟩ :: fill ps []
  | p :: ps, v :: vs => ⟨p, some v⟩ :: fill ps vs

/-- Give a value to the parameter with a name, which must be there and open. -/
def assign (name : String) (v : Value) : List Slot → Except BindFault (List Slot)
  | [] => .error (.unexpectedKeyword name)
  | s :: slots =>
    if s.param.name = name then
      match s.value with
      | some _ => .error (.argumentRepeated name)
      | none => .ok ({ s with value := some v } :: slots)
    else do
      let slots ← assign name v slots
      .ok (s :: slots)

/-- Give values to parameters by name, one after another. -/
def assignAll : Entries Value → List Slot → Except BindFault (List Slot)
  | [], slots => .ok slots
  | (name, v) :: es, slots => do
    let slots ← assign name v slots
    assignAll es slots

/-- The slots of all parameters after positional and keyword values. -/
def slots (s : Signature) (e : Expanded) : Except BindFault (List Slot) :=
  if s.params.length < e.positional.length then
    .error (.tooManyPositional s.params.length e.positional.length)
  else assignAll e.keywords (fill s.params e.positional)

/-- The values of the slots that have one. -/
def boundOf (slots : List Slot) : Bound := ⟨slots.filterMap Slot.entry?⟩

/-- The names of the parameters that a call has left out. -/
def missingNames (slots : List Slot) : List String :=
  (slots.filter Slot.isMissing).map fun s => s.param.name

/-- Bind arguments; every required parameter must get a value. Parameters that are left to their
defaults are not in the result. -/
def bind (s : Signature) (a : Arguments) : Except BindFault Bound := do
  let e ← a.expand
  let slots ← s.slots e
  match missingNames slots with
  | [] => .ok (boundOf slots)
  | names => .error (.missing names)

/-- Bind arguments, of which required ones may be missing. -/
def bindPartial (s : Signature) (a : Arguments) : Except BindFault Bound := do
  let e ← a.expand
  let slots ← s.slots e
  .ok (boundOf slots)

/-- The value of a parameter, bound or else by default, under its name. -/
def entryOrDefault? (b : Bound) (p : Param) : Option (String × Value) :=
  ((b.get? p.name).or p.default?).map fun v => (p.name, v)

/-- Fill in the defaults and put all values into the order of the signature. Bound arguments that
are as many as the parameters are complete, and stay as they are. -/
def applyDefaults (s : Signature) (b : Bound) : Bound :=
  if b.size = s.params.length then b else ⟨s.params.filterMap (entryOrDefault? b)⟩

/-- The parameters that are left to their defaults, with these. -/
def defaulted (s : Signature) (b : Bound) : Entries Value :=
  s.params.filterMap fun p =>
    if b.contains p.name then none else p.default?.map fun v => (p.name, v)

end Signature

end GuardedCall
