import GuardedCall.Guard
import GuardedCall.Value.Dump

/-!
# Diagnostic dumps of guards

A dump shows the signature and the policy of a guard with all their fields. Its body cannot be
shown.

Main definition: `Guard.dump`.
-/

namespace GuardedCall

open Text Value

/-- A record in braces: the texts of its fields after their names. -/
def dumpRecord (name : String) (fields : List (String × List Char)) (rest : List (List Char)) :
    List Char :=
  name.toList ++ " \x7b ".toList ++
    commaSeparated (fields.map (fun f => f.1.toList ++ ": ".toList ++ f.2) ++ rest) ++
    " \x7d".toList

/-- An optional part. -/
def dumpOption (part : Option (List Char)) : List Char :=
  match part with
  | none => "None".toList
  | some text => applied "Some".toList text

def dumpBool (b : Bool) : List Char := (if b then "true" else "false").toList

def Param.dump (p : Param) : List Char :=
  dumpRecord "Param"
    [("name", dumpString p.name),
      ("annotation", dumpOption (p.kind?.map fun k => k.tag.toList)),
      ("default", dumpOption (p.default?.map Value.dump))] []

def Signature.dump (s : Signature) : List Char :=
  dumpRecord "Signature"
    [("name", dumpString s.name), ("params", bracketed (s.params.map Param.dump))] []

def Policy.dump (p : Policy) : List Char :=
  dumpRecord "TypePolicy"
    [("bool_is_int", dumpBool p.boolIsInt), ("int_is_float", dumpBool p.intIsFloat)] []

/-- The dump of a guard; two dots stand for its body. -/
def Guard.dump (g : Guard) : String :=
  String.ofList <|
    dumpRecord "StrictFn" [("signature", g.signature.dump), ("policy", g.policy.dump)]
      ["..".toList]

end GuardedCall
