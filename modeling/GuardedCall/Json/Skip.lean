import GuardedCall.Json.Items

/-!
# Skipping a value

A value that nobody asks for is still checked to be JSON, less strictly than one that is read:
it may be nested to any depth, its numbers may be of any size, and its surrogates unpaired.

Main definition: `skip`.
-/

namespace GuardedCall.Json

/-- What encloses the place that has been reached. -/
inductive Enclosing
  | list
  | object
  deriving DecidableEq

/-- Where in the text we are. -/
inductive Place
  /-- Before a value. -/
  | value
  /-- Behind an opening bracket. -/
  | opened
  /-- Behind a value. -/
  | behind
  deriving DecidableEq

/-- A digit and all that follow it. -/
def skipDigits (text : List Char) : Except Fault (List Char) :=
  match digits text with
  | ([], _) => .error .invalidNumber
  | (_, rest) => .ok rest

/-- An exponent, if there is one. -/
def skipExponent : List Char → Except Fault (List Char)
  | [] => .ok []
  | c :: text => if c = 'e' ∨ c = 'E' then skipDigits (exponentSign text).2 else .ok (c :: text)

/-- A fraction and an exponent, if there are any. -/
def skipFraction : List Char → Except Fault (List Char)
  | '.' :: text => do
    let rest ← skipDigits text
    skipExponent rest
  | text => skipExponent text

/-- A number after its sign. -/
def skipUnsigned : List Char → Except Fault (List Char)
  | [] => .error .invalidNumber
  | c :: text => do
    let rest ←
      if c = '0' then
        match text with
        | d :: _ => if d.isDigit then .error .invalidNumber else .ok text
        | [] => .ok text
      else skipDigits (c :: text)
    skipFraction rest

/-- A string after its opening quote. -/
def skipString : List Char → Except Fault (List Char)
  | [] => .error .endOfString
  | '"' :: text => .ok text
  | '\\' :: text =>
    match text with
    | [] => .error .endOfString
    | 'u' :: a :: b :: c :: d :: text => do
      let _ ← hexUnit a b c d
      skipString text
    | 'u' :: text => .error (shortUnit text)
    | c :: text => if (simpleEscape? c).isSome then skipString text else .error .invalidEscape
  | c :: text => if c.toNat < 32 then .error .controlCharacter else skipString text

/-- A scalar. -/
def skipScalar : List Char → Except Fault (List Char)
  | [] => .error .endOfValue
  | 'n' :: rest => Prod.snd <$> word ['u', 'l', 'l'] rest
  | 't' :: rest => Prod.snd <$> word ['r', 'u', 'e'] rest
  | 'f' :: rest => Prod.snd <$> word ['a', 'l', 's', 'e'] rest
  | '"' :: rest => skipString rest
  | '-' :: rest => skipUnsigned rest
  | c :: rest => if c.isDigit then skipUnsigned (c :: rest) else .error .expectedValue

/-- A name and its colon. -/
def skipName (text : List Char) : Except Fault (List Char) :=
  match skipBlank text with
  | [] => .error .endOfObject
  | '"' :: rest => do
    let rest ← skipString rest
    let (_, rest) ← colon rest
    .ok rest
  | _ => .error .keyNotString

/-- What stands before the next value of a list or an object: in an object, its name. -/
def skipToValue : Enclosing → List Char → Except Fault (List Char)
  | .list, text => .ok text
  | .object, text => skipName text

/-- The closing character. -/
def Enclosing.close : Enclosing → Char
  | list => ']'
  | object => '\x7d'

/-- The fault of a text that ends inside. -/
def Enclosing.ended : Enclosing → Fault
  | list => .endOfList
  | object => .endOfObject

/-- The fault of a value that neither a comma nor the closing character follows. -/
def Enclosing.unclosed : Enclosing → Fault
  | list => .expectedListEnd
  | object => .expectedObjectEnd

/-- Go on from a place inside the given lists and objects, innermost first, until all are
closed. -/
def skipFrom : Nat → Place → List Enclosing → List Char → Except Fault (List Char)
  | 0, _, _, _ => .error .endOfValue
  | fuel + 1, .value, within, text =>
    match skipBlank text with
    | '[' :: rest => skipFrom fuel .opened (.list :: within) rest
    | '\x7b' :: rest => skipFrom fuel .opened (.object :: within) rest
    | start => do
      let rest ← skipScalar start
      skipFrom fuel .behind within rest
  | _ + 1, _, [], text => .ok text
  | fuel + 1, place, e :: within, text =>
    match skipBlank text with
    | [] => .error e.ended
    | c :: rest =>
      if c = e.close then skipFrom fuel .behind within rest
      else if place = .opened then do
        let start ← skipToValue e (c :: rest)
        skipFrom fuel .value (e :: within) start
      else if c = ',' then do
        let start ← skipToValue e rest
        skipFrom fuel .value (e :: within) start
      else .error e.unclosed

/-- A value and nothing after it. Each value takes two rounds, and a closing one. -/
def skip : Reader Unit := fun text => do
  let rest ← skipFrom (2 * text.length + 2) .value [] text
  .ok ((), rest)

end GuardedCall.Json
