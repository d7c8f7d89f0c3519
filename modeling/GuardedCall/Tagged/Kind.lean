import GuardedCall.Failure
import GuardedCall.Kind
import GuardedCall.Policy
import GuardedCall.Tagged.Basic

/-!
# The tagged format of kinds and policies

A kind is written by the name of its constructor, not by its spelling in declarations. The flags
of a policy that are not given are off.

Main definitions: the instances of `Tagged`, `Policy.parse`.
-/

namespace GuardedCall

open Json Tagged

instance : Tagged Kind where
  encode k := .str k.tag
  reader := enumeration (identify Kind.all fun k => [k.tag])

namespace Policy

/-- The flags that have been read. -/
structure Fields where
  boolIsInt : Option Bool := none
  intIsFloat : Option Bool := none

/-- The policy of the given flags. -/
def ofFields (fs : Fields) : Policy := ⟨fs.boolIsInt.getD false, fs.intIsFloat.getD false⟩

/-- Read a flag by its name. -/
def member (name : String) (fs : Fields) : Reader Fields :=
  match name with
  | "bool_is_int" => field name fs.boolIsInt bool fun b => { fs with boolIsInt := some b }
  | "int_is_float" => field name fs.intIsFloat bool fun b => { fs with intIsFloat := some b }
  | _ => unknownField fs

/-- Read the flags in order; those at the end may be left out. -/
def readList : Reader Policy := fun text => do
  let (boolIsInt, text) ← element? true bool text
  let (intIsFloat, text) ←
    if boolIsInt.isSome then element? false bool text else .ok (none, text)
  let (_, text) ← closeList text
  .ok (ofFields { boolIsInt, intIsFloat }, text)

instance : Tagged Policy where
  encode p := .obj [("bool_is_int", .bool p.boolIsInt), ("int_is_float", .bool p.intIsFloat)]
  reader level :=
    record "TypePolicy" level (fun _ => fieldsThen member {} fun fs => .ok (ofFields fs))
      fun _ => readList

/-- The policy that a text stands for, or the failure to read it. -/
def parse (text : String) : Except Failure Policy :=
  match (Tagged.parse text : Except Fault Policy) with
  | .ok p => .ok p
  | .error f => .error { kind := .value, message := "invalid type policy: " ++ f.message }

end Policy

end GuardedCall
