import GuardedCall.Json.Basic
import GuardedCall.Json.Items

/-!
# Reading JSON

Main definitions: `read`, `parse`. A repeated name in an object keeps its first place and takes
its last value.
-/

namespace GuardedCall.Json

/-- A member of an object: its value is put under its name. -/
def memberInto (item : Reader Json) (name : String) (es : Entries Json) : Reader (Entries Json) :=
  fun text => do
    let (_, text) ← colon text
    let (v, text) ← item text
    .ok (es.put name v, text)

/-- A scalar as data. -/
def readScalar : Reader Json := fun text => do
  let (s, rest) ← scalar text
  .ok (ofScalar s, rest)

/-- A value, in which at most so many arrays and objects are nested. -/
def read : Nat → Reader Json
  | 0, text =>
    match skipBlank text with
    | '[' :: _ => .error .tooDeep
    | '\x7b' :: _ => .error .tooDeep
    | start => readScalar start
  | level + 1, text =>
    match skipBlank text with
    | '[' :: rest => do
      let (xs, rest) ← items (read level) rest
      .ok (arr xs, rest)
    | '\x7b' :: rest => do
      let (es, rest) ← members (memberInto (read level)) [] rest
      .ok (obj es, rest)
    | start => readScalar start

/-- The data that a text stands for. -/
def parse (text : List Char) : Except Fault Json := complete (read maxLevels) text

end GuardedCall.Json
