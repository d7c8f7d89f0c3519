import GuardedCall.Failure
import GuardedCall.Tagged.Kind

/-!
# The tagged format of failures

The mismatch of a failure may be left out, in either form of the record.

Main definitions: the instances of `Tagged`.
-/

namespace GuardedCall

open Json Tagged

instance : Tagged FailureKind where
  encode k := .str k.name
  reader := enumeration (identify FailureKind.all fun k => [k.name])

namespace Mismatch

/-- The fields that have been read. -/
structure Fields where
  param : Option String := none
  expected : Option Kind := none
  actual : Option Kind := none

/-- The mismatch of the given fields. -/
def ofFields (fs : Fields) : Except Fault Mismatch := do
  let param ← requiredField "param" fs.param
  let expected ← requiredField "expected" fs.expected
  let actual ← requiredField "actual" fs.actual
  .ok ⟨param, expected, actual⟩

/-- Read a field by its name. -/
def member (level : Nat) (name : String) (fs : Fields) : Reader Fields :=
  match name with
  | "param" => field name fs.param str fun x => { fs with param := some x }
  | "expected" => field name fs.expected (reader level) fun x => { fs with expected := some x }
  | "actual" => field name fs.actual (reader level) fun x => { fs with actual := some x }
  | _ => unknownField fs

/-- Read the fields in order. -/
def readList (level : Nat) : Reader Mismatch := fun text => do
  let form := Form.struct "ArgMismatch"
  let (param, text) ← element form 3 0 str text
  let (expected, text) ← element form 3 1 (reader level) text
  let (actual, text) ← element form 3 2 (reader level) text
  let (_, text) ← closeList text
  .ok (⟨param, expected, actual⟩, text)

instance : Tagged Mismatch where
  encode m :=
    .obj [("param", .str m.param), ("expected", encode m.expected), ("actual", encode m.actual)]
  reader level :=
    record "ArgMismatch" level (fun level => fieldsThen (member level) {} ofFields) readList

end Mismatch

namespace Failure

/-- The fields that have been read. -/
structure Fields where
  kind : Option FailureKind := none
  message : Option String := none
  mismatch : Option (Option Mismatch) := none

/-- The failure of the given fields. -/
def ofFields (fs : Fields) : Except Fault Failure := do
  let kind ← requiredField "exc_type" fs.kind
  let message ← requiredField "message" fs.message
  .ok ⟨kind, message, fs.mismatch.getD none⟩

/-- Read a field by its name. -/
def member (level : Nat) (name : String) (fs : Fields) : Reader Fields :=
  match name with
  | "exc_type" => field name fs.kind (reader level) fun x => { fs with kind := some x }
  | "message" => field name fs.message str fun x => { fs with message := some x }
  | "mismatch" =>
    field name fs.mismatch (option (reader level)) fun x => { fs with mismatch := some x }
  | _ => unknownField fs

/-- Read the fields in order; the mismatch may be left out. -/
def readList (level : Nat) : Reader Failure := fun text => do
  let form := Form.struct "Exception"
  let (kind, text) ← element form 3 0 (reader level) text
  let (message, text) ← element form 3 1 str text
  let (mismatch, text) ← element? false (option (reader level)) text
  let (_, text) ← closeList text
  .ok (⟨kind, message, mismatch.getD none⟩, text)

instance : Tagged Failure where
  encode f :=
    .obj
      [("exc_type", encode f.kind), ("message", .str f.message),
        ("mismatch", (f.mismatch.map encode).getD .null)]
  reader level :=
    record "Exception" level (fun level => fieldsThen (member level) {} ofFields) readList

end Failure

end GuardedCall
