import GuardedCall.Decimal.Digits
import GuardedCall.Entries
import GuardedCall.Failure
import GuardedCall.Value.Basic

/-!
# Arguments as written

The arguments of a call before they are bound: positional ones, of which some are splats of a
list or tuple, and keyword ones, of which some are splats of a dictionary. Expansion unfolds the
splats in place, from left to right, positional arguments first.

Main definitions: `Arguments`, `BindFault`, `Arguments.expand`.
-/

namespace GuardedCall

open Decimal

/-- A positional argument. -/
inductive Positional
  | value (v : Value)
  /-- The items of a list or tuple. -/
  | splat (v : Value)
  deriving DecidableEq

/-- A keyword argument. -/
inductive Keyword
  | named (name : String) (v : Value)
  /-- The entries of a dictionary. -/
  | splat (v : Value)
  deriving DecidableEq

/-- The arguments of a call as written. -/
structure Arguments where
  positional : List Positional := []
  keywords : List Keyword := []
  deriving DecidableEq

/-- Why arguments do not bind. -/
inductive BindFault
  /-- A positional splat of something that has no items. -/
  | notIterable (actual : Kind)
  /-- A keyword splat of something that has no entries. -/
  | notMapping (actual : Kind)
  /-- A keyword splat with a key that is no string. -/
  | keyNotString
  /-- A keyword that occurs again. -/
  | keywordRepeated (name : String)
  | tooManyPositional (takes given : Nat)
  | unexpectedKeyword (name : String)
  /-- A keyword for a parameter that has a positional argument. -/
  | argumentRepeated (name : String)
  /-- Parameters without argument and default. -/
  | missing (names : List String)
  deriving DecidableEq

namespace BindFault

/-- The wording of a fault in a call of `func`. -/
def message (func : String) : BindFault → String
  | notIterable actual =>
    func ++ "() argument after * must be an iterable, not " ++ actual.name
  | notMapping actual =>
    func ++ "() argument after ** must be a mapping, not " ++ actual.name
  | keyNotString => "keywords must be strings"
  | keywordRepeated name =>
    func ++ "() got multiple values for keyword argument " ++ quotedName name
  | tooManyPositional takes given =>
    func ++ "() takes " ++ natText takes ++ " positional " ++
      (if takes = 1 then "argument" else "arguments") ++ " but " ++ natText given ++ " " ++
      (if given = 1 then "was" else "were") ++ " given"
  | unexpectedKeyword name =>
    func ++ "() got an unexpected keyword argument " ++ quotedName name
  | argumentRepeated name =>
    func ++ "() got multiple values for argument " ++ quotedName name
  | missing [name] => func ++ "() missing 1 required positional argument: " ++ quotedName name
  | missing names =>
    func ++ "() missing " ++ natText names.length ++ " required positional arguments: " ++
      nameList names

/-- A fault as a failure of the call. -/
def failure (func : String) (f : BindFault) : Failure where
  kind := .binding
  message := f.message func

end BindFault

/-- Arguments without splats: values by position, and values by name, no name twice. -/
structure Expanded where
  positional : List Value
  keywords : Entries Value
  deriving DecidableEq

/-- The values that a positional argument stands for. -/
def Positional.expand : Positional → Except BindFault (List Value)
  | value v => .ok [v]
  | splat (.list items) => .ok items
  | splat (.tuple items) => .ok items
  | splat v => .error (.notIterable v.kind)

/-- The named values that a keyword argument stands for, one after another; a fault stands in the
place where it comes up. -/
def Keyword.unfold : Keyword → List (Except BindFault (String × Value))
  | named name v => [.ok (name, v)]
  | splat (.dict entries) => entries.map fun
    | (.str name, v) => .ok (name, v)
    | _ => .error .keyNotString
  | splat v => [.error (.notMapping v.kind)]

namespace Arguments

/-! ## Writing arguments -/

/-- No arguments at all. -/
def empty : Arguments := {}

def isEmpty (a : Arguments) : Bool := a.positional.isEmpty && a.keywords.isEmpty

/-- Values by position, and nothing else. -/
def ofValues (vs : List Value) : Arguments := { positional := vs.map .value }

/-- Named values, and nothing else. -/
def ofEntries (es : Entries Value) : Arguments := { keywords := es.map fun e => .named e.1 e.2 }

/-- Add a positional argument. -/
def pass (a : Arguments) (v : Value) : Arguments :=
  { a with positional := a.positional ++ [.value v] }

/-- Add a splat of a list or tuple. -/
def passAll (a : Arguments) (v : Value) : Arguments :=
  { a with positional := a.positional ++ [.splat v] }

/-- Add a keyword argument. -/
def passNamed (a : Arguments) (name : String) (v : Value) : Arguments :=
  { a with keywords := a.keywords ++ [.named name v] }

/-- Add a splat of a dictionary. -/
def passAllNamed (a : Arguments) (v : Value) : Arguments :=
  { a with keywords := a.keywords ++ [.splat v] }

/-! ## Expansion -/

/-- The values of positional arguments, up to the first fault. -/
def expandPositional : List Positional → Except BindFault (List Value)
  | [] => .ok []
  | p :: ps => do
    let vs ← p.expand
    let ws ← expandPositional ps
    .ok (vs ++ ws)

/-- Named values one after another, up to the first fault or repeated name. -/
def distinct (seen : List String) :
    List (Except BindFault (String × Value)) → Except BindFault (Entries Value)
  | [] => .ok []
  | .error f :: _ => .error f
  | .ok (name, v) :: rest =>
    if name ∈ seen then .error (.keywordRepeated name)
    else do
      let es ← distinct (name :: seen) rest
      .ok ((name, v) :: es)

/-- The values by name of keyword arguments. -/
def expandKeywords (ks : List Keyword) : Except BindFault (Entries Value) :=
  distinct [] (ks.flatMap Keyword.unfold)

/-- The arguments without splats. -/
def expand (a : Arguments) : Except BindFault Expanded := do
  let positional ← expandPositional a.positional
  let keywords ← expandKeywords a.keywords
  .ok ⟨positional, keywords⟩

end Arguments

end GuardedCall
