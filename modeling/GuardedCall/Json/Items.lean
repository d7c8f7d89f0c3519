import GuardedCall.Json.Scan

/-!
# Lists and objects, item by item

What stands between the items of a list and the members of an object. The loops take the reader
of an item as an argument, so that every reader of nested data shares them. They run on fuel, of
which the length of the text is enough: each round but the first reads a comma.

Main definitions: `items`, `members`, `scalarOf`, `complete`.
-/

namespace GuardedCall.Json

variable {α σ : Type}

/-! ## Between items -/

/-- Whether another item follows; if so, the text at that item, else at the closing bracket. -/
def anotherItem (first : Bool) (text : List Char) : Except Fault (Bool × List Char) :=
  match skipBlank text with
  | [] => .error .endOfList
  | ']' :: rest => .ok (false, ']' :: rest)
  | c :: rest =>
    if first then .ok (true, c :: rest)
    else if c = ',' then
      match skipBlank rest with
      | [] => .error .endOfValue
      | ']' :: _ => .error .trailingComma
      | d :: rest => .ok (true, d :: rest)
    else .error .expectedListEnd

/-- The closing bracket of a list. -/
def closeList : Reader Unit := fun text =>
  match skipBlank text with
  | [] => .error .endOfList
  | ']' :: rest => .ok ((), rest)
  | ',' :: rest =>
    match skipBlank rest with
    | ']' :: _ => .error .trailingComma
    | _ => .error .trailingText
  | _ => .error .trailingText

/-- Whether another member follows; if so, the text after the quote that opens its name, else at
the closing brace. -/
def anotherMember (first : Bool) (text : List Char) : Except Fault (Bool × List Char) :=
  match skipBlank text with
  | [] => .error .endOfObject
  | '\x7d' :: rest => .ok (false, '\x7d' :: rest)
  | c :: rest =>
    if first then
      if c = '"' then .ok (true, rest) else .error .keyNotString
    else if c = ',' then
      match skipBlank rest with
      | [] => .error .endOfValue
      | '"' :: rest => .ok (true, rest)
      | '\x7d' :: _ => .error .trailingComma
      | _ => .error .keyNotString
    else .error .expectedObjectEnd

/-- The closing brace of an object. -/
def closeObject : Reader Unit := fun text =>
  match skipBlank text with
  | [] => .error .endOfObject
  | '\x7d' :: rest => .ok ((), rest)
  | ',' :: _ => .error .trailingComma
  | _ => .error .trailingText

/-- The colon between a name and its value. -/
def colon : Reader Unit := fun text =>
  match skipBlank text with
  | [] => .error .endOfObject
  | ':' :: rest => .ok ((), rest)
  | _ => .error .expectedColon

/-! ## Loops -/

/-- The items of a list up to its closing bracket. -/
def itemsFrom (item : Reader α) : Nat → Bool → Reader (List α)
  | 0, _, _ => .error .endOfList
  | fuel + 1, first, text => do
    let (more, text) ← anotherItem first text
    if more then
      let (x, text) ← item text
      let (xs, text) ← itemsFrom item fuel false text
      .ok (x :: xs, text)
    else .ok ([], text)

/-- The items of a list after its opening bracket, and the closing one. -/
def items (item : Reader α) : Reader (List α) := fun text => do
  let (xs, text) ← itemsFrom item (text.length + 1) true text
  let (_, text) ← closeList text
  .ok (xs, text)

/-- The members of an object up to its closing brace. Each is read into a state; its reader is
given the name and starts before the colon. -/
def membersFrom (member : String → σ → Reader σ) : Nat → Bool → σ → Reader σ
  | 0, _, _, _ => .error .endOfObject
  | fuel + 1, first, s, text => do
    let (more, text) ← anotherMember first text
    if more then
      let (name, text) ← string text
      let (s, text) ← member name s text
      membersFrom member fuel false s text
    else .ok (s, text)

/-- The members of an object after its opening brace, and the closing one. -/
def members (member : String → σ → Reader σ) (s : σ) : Reader σ := fun text => do
  let (s, text) ← membersFrom member (text.length + 1) true s text
  let (_, text) ← closeObject text
  .ok (s, text)

/-! ## Whole values -/

/-- Read a scalar and pick what is wanted from it. -/
def scalarOf (form : Form) (pick : Scalar → Except Fault α) : Reader α := fun text =>
  match skipBlank text with
  | '[' :: _ => .error (.unexpected .sequence form)
  | '\x7b' :: _ => .error (.unexpected .map form)
  | start => do
    let (s, rest) ← scalar start
    let x ← pick s
    .ok (x, rest)

/-- The fault of a text that does not start with a value of the wanted form. -/
def mismatch (form : Form) : Reader α :=
  scalarOf form fun s => .error (.unexpected (.scalar s) form)

/-- Read a whole text: only blanks may follow the value. -/
def complete (reader : Reader α) (text : List Char) : Except Fault α := do
  let (x, rest) ← reader text
  match skipBlank rest with
  | [] => .ok x
  | _ => .error .trailingText

/-- How many arrays and objects may be nested. -/
def maxLevels : Nat := 127

end GuardedCall.Json
