import GuardedCall.Signature.Basic
import GuardedCall.Tagged.Kind
import GuardedCall.Tagged.Value

/-!
# The tagged format of parameters and signatures

What a parameter lacks is written as null, and may be left out. A default of null is written as a
value, so it is told apart from no default. A signature that is read is built of the name and the
parameters that are declared, and refused like any other if these do not fit together.

Main definitions: `Declaration`, the instances of `Tagged`.
-/

namespace GuardedCall

open Json Tagged

namespace Param

/-- The fields that have been read. -/
structure Fields where
  name : Option String := none
  kind? : Option (Option Kind) := none
  default? : Option (Option Value) := none

/-- The parameter of the given fields. -/
def ofFields (fs : Fields) : Except Fault Param := do
  let name ← requiredField "name" fs.name
  .ok ⟨name, fs.kind?.getD none, fs.default?.getD none⟩

/-- Read a field by its name. -/
def member (level : Nat) (name : String) (fs : Fields) : Reader Fields :=
  match name with
  | "name" => field name fs.name str fun x => { fs with name := some x }
  | "annotation" =>
    field name fs.kind? (option (reader level)) fun x => { fs with kind? := some x }
  | "default" =>
    field name fs.default? (option (reader level)) fun x => { fs with default? := some x }
  | _ => unknownField fs

/-- Read the fields in order. -/
def readList (level : Nat) : Reader Param := fun text => do
  let form := Form.struct "Param"
  let (name, text) ← element form 3 0 str text
  let (kind?, text) ← element form 3 1 (option (reader level)) text
  let (default?, text) ← element form 3 2 (option (reader level)) text
  let (_, text) ← closeList text
  .ok (⟨name, kind?, default?⟩, text)

instance : Tagged Param where
  encode p :=
    .obj
      [("name", .str p.name),
        ("annotation", (p.kind?.map encode).getD .null),
        ("default", (p.default?.map encode).getD .null)]
  reader level :=
    record "Param" level (fun level => fieldsThen (member level) {} ofFields) readList

end Param

/-- A name and parameters, of which a signature is to be built. -/
structure Declaration where
  name : String
  params : List Param

namespace Declaration

/-- The fields that have been read. -/
structure Fields where
  name : Option String := none
  params : Option (List Param) := none

/-- The declaration of the given fields. -/
def ofFields (fs : Fields) : Except Fault Declaration := do
  let name ← requiredField "name" fs.name
  let params ← requiredField "params" fs.params
  .ok ⟨name, params⟩

/-- Read a field by its name. -/
def member (level : Nat) (name : String) (fs : Fields) : Reader Fields :=
  match name with
  | "name" => field name fs.name str fun x => { fs with name := some x }
  | "params" => field name fs.params (listOf level reader) fun x => { fs with params := some x }
  | _ => unknownField fs

/-- Read the fields in order. -/
def readList (level : Nat) : Reader Declaration := fun text => do
  let form := Form.struct "SignatureBuilder"
  let (name, text) ← element form 2 0 str text
  let (params, text) ← element form 2 1 (listOf level reader) text
  let (_, text) ← closeList text
  .ok (⟨name, params⟩, text)

instance : Tagged Declaration where
  encode d := .obj [("name", .str d.name), ("params", .arr (d.params.map encode))]
  reader level :=
    record "SignatureBuilder" level (fun level => fieldsThen (member level) {} ofFields) readList

/-- The signature of the declared name and parameters. -/
def build (d : Declaration) : Except SignatureFault Signature := Signature.build d.name d.params

end Declaration

namespace Signature

/-- The name and the parameters of a signature. -/
def declaration (s : Signature) : Declaration := ⟨s.name, s.params⟩

/-- The signature of a declaration that has been read. -/
def ofDeclaration (d : Declaration) : Except Fault Signature :=
  match d.build with
  | .ok s => .ok s
  | .error f => .error (.refused (f.failure d.name).display)

/-- A declaration that has been read is built, or refused. -/
theorem ofDeclaration_eq_ok_iff {d : Declaration} {s : Signature} :
    ofDeclaration d = .ok s ↔ d.build = .ok s := by
  rw [ofDeclaration]
  cases d.build <;> simp

/-- Read a signature. -/
def read (level : Nat) : Reader Signature := fun text => do
  let (d, rest) ← reader level text
  let s ← ofDeclaration d
  .ok (s, rest)

instance : Tagged Signature where
  encode s := encode s.declaration
  reader := read

end Signature

end GuardedCall
