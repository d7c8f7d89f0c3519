import GuardedCall.Guard
import GuardedCall.Json.Reader
import GuardedCall.Value.Natural

/-!
# The command line

A command that calls a guarded sum. Words that begin with two dashes are options; every other
word is an argument, written as JSON, with a name and an equals sign before it if it is passed by
keyword. A word that is no JSON stands for itself as a string.

Main definitions: `Request`, `Request.parse`, `Request.parseValue`, `sumGuard`, `sum`,
`CommandLine.run`.
-/

namespace GuardedCall

open Json Value

/-- A call that is asked for. -/
structure Invocation where
  /-- Report the steps of the call. -/
  trace : Bool := false
  policy : Policy := .strict
  arguments : Arguments := .empty
  deriving DecidableEq

/-- What a command line asks for. -/
inductive Request
  | help
  | call (invocation : Invocation)
  deriving DecidableEq

namespace Request

/-! ## Arguments -/

/-- A whole number beyond the signed range, or minus zero, which is none. -/
def isWideNumber : Json → Bool
  | .int n => !Word64.fitsSigned n
  | .float _ => true
  | _ => false

/-- A text without the blanks around it. -/
def trimmed (text : List Char) : List Char := (skipBlank (skipBlank text).reverse).reverse

/-- The value that a word stands for. A number written without point and exponent must fit into
64 bits. -/
def parseValue (word : String) : Except Failure Value :=
  let text := word.toList
  match Json.parse text with
  | .error _ => .ok (.str word)
  | .ok j =>
    if isWideNumber j && !text.any (fun c => c = '.' || c = 'e' || c = 'E') then
      .error
        { kind := .overflow
          message := "integer " ++ String.ofList (trimmed text) ++ " does not fit in 64 bits" }
    else .ok (ofJson j)

/-- A letter of the alphabet or an underscore. -/
def startsIdentifier (c : Char) : Bool := c = '_' || c.isAlpha

/-- A name that can be used for a parameter. -/
def isIdentifier : List Char → Bool
  | [] => false
  | c :: cs => startsIdentifier c && cs.all fun c => startsIdentifier c || c.isDigit

/-- The name before the first equals sign, and the text after it, if it is a name. -/
def splitName? (text : List Char) : Option (List Char × List Char) :=
  match text.span (· != '=') with
  | (name, _ :: value) => if isIdentifier name then some (name, value) else none
  | (_, []) => none

/-- Add the argument that a word stands for. -/
def pushWord (a : Arguments) (word : String) : Except Failure Arguments :=
  match splitName? word.toList with
  | some (name, value) => do
    let v ← parseValue (String.ofList value)
    .ok (a.passNamed (String.ofList name) v)
  | none => do
    let v ← parseValue word
    .ok (a.pass v)

/-! ## Options -/

/-- A word of a command line. -/
inductive Word
  | trace
  | boolIsInt
  | help
  | unknownOption
  | argument
  deriving DecidableEq

/-- What a word is. -/
def classify (word : String) : Word :=
  if word = "--trace" then .trace
  else if word = "--bool-is-int" then .boolIsInt
  else if word = "-h" ∨ word = "--help" then .help
  else if ['-', '-'].isPrefixOf word.toList then .unknownOption
  else .argument

/-- What the words of a command line add to a call. Help is given at once, whatever follows. -/
def parseFrom (i : Invocation) : List String → Except Failure Request
  | [] => .ok (.call i)
  | w :: ws =>
    match classify w with
    | .trace => parseFrom { i with trace := true } ws
    | .boolIsInt => parseFrom { i with policy := { i.policy with boolIsInt := true } } ws
    | .help => .ok .help
    | .unknownOption =>
      .error { kind := .value, message := "unrecognized option " ++ quotedName w }
    | .argument => do
      let a ← pushWord i.arguments w
      parseFrom { i with arguments := a } ws

/-- What a command line asks for. -/
def parse (words : List String) : Except Failure Request := parseFrom {} words

end Request

/-! ## The guarded sum -/

/-- Two integers, of which the second is zero by default. -/
def sumSignature : Signature where
  name := "sum"
  params := [{ name := "a", kind? := some .int },
    { name := "b", kind? := some .int, default? := some (.int 0) }]
  names_nodup := by decide
  defaults_last := by decide

/-- The guard of the sum. -/
def sumGuard (p : Policy) : Guard := { signature := sumSignature, policy := p }

/-- The sum of the two arguments, unless it takes more than 64 bits. -/
def sum (b : Bound) : Except Failure Value := do
  let x ← b.int "a"
  let y ← b.int "b"
  let n := x.toInt + y.toInt
  if Word64.fitsSigned n then .ok (.int (Int64.ofInt n))
  else .error { kind := .overflow, message := "integer overflow in sum()" }

namespace Invocation

/-- The outcome of the call that is asked for, and its events. -/
def run (i : Invocation) : Except Failure Value × List Event :=
  (sumGuard i.policy).run sum i.arguments

end Invocation

/-! ## The command -/

namespace CommandLine

/-- What a command prints, and its exit code. -/
structure Output where
  exitCode : UInt32
  stdout : String
  stderr : String
  deriving DecidableEq

/-- How the command is used. -/
def usage : String :=
  "usage: strictcall [--trace] [--bool-is-int] [ARG ...]\n\n" ++
    "Calls sum(a: int, b: int = 0). Each ARG is a JSON literal passed by position,\n" ++
    "or name=JSON passed by keyword. Text that is not valid JSON is passed as a string."

/-- The output of a call: its value, or its failure after the report. -/
def outputOf (i : Invocation) : Output :=
  let (outcome, events) := i.run
  let traced := if i.trace then report events else ""
  match outcome with
  | .ok v => { exitCode := 0, stdout := v.repr ++ "\n", stderr := traced }
  | .error f => { exitCode := 1, stdout := "", stderr := traced ++ f.display ++ "\n" }

/-- Run a command line. -/
def run (words : List String) : Output :=
  match Request.parse words with
  | .ok .help => { exitCode := 0, stdout := usage ++ "\n", stderr := "" }
  | .ok (.call i) => outputOf i
  | .error f => { exitCode := 1, stdout := "", stderr := f.display ++ "\n\n" ++ usage ++ "\n" }

end CommandLine

end GuardedCall
