import GuardedCall.Arguments
import GuardedCall.Bound
import GuardedCall.Tagged.Value

/-!
# The tagged format of arguments

A splat is written as one, and so told apart from a plain argument with the same value. Bound
arguments are written as an object of their values; they are not read.

Main definitions: the instances of `Tagged`, `Bound.encode`.
-/

namespace GuardedCall

open Json Tagged

namespace Positional

/-- The variants of positional arguments, by whether they are splats. -/
def known : String → Except Fault Bool :=
  identify [false, true] fun splat => [if splat then "Splat" else "Value"]

/-- The contents of a positional argument. -/
def contents (level : Nat) (isSplat : Bool) : Reader Positional :=
  mapResult (if isSplat then splat else value) (reader level)

instance : Tagged Positional where
  encode
    | value v => .obj [("Value", Tagged.encode v)]
    | splat v => .obj [("Splat", Tagged.encode v)]
  reader level :=
    variant (bareVariant known fun _ => bareData .newtypeVariant)
      (nested level fun level => variantObject known (contents level))

end Positional

namespace Keyword

/-- The variants of keyword arguments, by whether they are splats. -/
def known : String → Except Fault Bool :=
  identify [false, true] fun splat => [if splat then "Splat" else "Named"]

/-- The name and the value of a keyword argument, as a pair. -/
def readNamed (level : Nat) : Reader Keyword :=
  let form := Form.tupleVariant (some "KwArg::Named")
  sequence form (nested level fun level =>
    mapResult (fun e => named e.1 e.2) (twoElements form str (reader level)))

/-- The contents of a keyword argument. -/
def contents (level : Nat) (isSplat : Bool) : Reader Keyword :=
  if isSplat then mapResult splat (reader level) else readNamed level

instance : Tagged Keyword where
  encode
    | named name v => .obj [("Named", .arr [.str name, Tagged.encode v])]
    | splat v => .obj [("Splat", Tagged.encode v)]
  reader level :=
    variant
      (bareVariant known fun isSplat =>
        bareData (if isSplat then .newtypeVariant else .tupleVariant none))
      (nested level fun level => variantObject known (contents level))

end Keyword

namespace Arguments

/-- The fields that have been read. -/
structure Fields where
  positional : Option (List Positional) := none
  keywords : Option (List Keyword) := none

/-- The arguments of the given fields. -/
def ofFields (fs : Fields) : Except Fault Arguments := do
  let positional ← requiredField "positional" fs.positional
  let keywords ← requiredField "keywords" fs.keywords
  .ok { positional, keywords }

/-- Read a field by its name. -/
def member (level : Nat) (name : String) (fs : Fields) : Reader Fields :=
  match name with
  | "positional" =>
    field name fs.positional (listOf level reader) fun x => { fs with positional := some x }
  | "keywords" =>
    field name fs.keywords (listOf level reader) fun x => { fs with keywords := some x }
  | _ => unknownField fs

/-- Read the fields in order. -/
def readList (level : Nat) : Reader Arguments := fun text => do
  let form := Form.struct "CallArgs"
  let (positional, text) ← element form 2 0 (listOf level reader) text
  let (keywords, text) ← element form 2 1 (listOf level reader) text
  let (_, text) ← closeList text
  .ok ({ positional, keywords }, text)

instance : Tagged Arguments where
  encode a :=
    .obj
      [("positional", .arr (a.positional.map encode)), ("keywords", .arr (a.keywords.map encode))]
  reader level :=
    record "CallArgs" level (fun level => fieldsThen (member level) {} ofFields) readList

end Arguments

/-- Bound arguments as data. -/
def Bound.encode (b : Bound) : Json :=
  .obj [("arguments", .obj (b.entries.map fun e => (e.1, Tagged.encode e.2)))]

end GuardedCall
