import GuardedCall.Decimal.Shortest

/-!
# Layouts of decimal text

Where a number is written positionally and where with an exponent, and how the exponent, the
infinities and NaN are spelled. A layout is one record, and `Layout.write` writes any number
under it.

Main definitions: `Layout`, `Layout.write`, and the layouts `Layout.literal`, `Layout.debug`.
-/

namespace GuardedCall.Decimal

/-- The decisions of one decimal format. -/
structure Layout where
  /-- Which of two equally near digit strings is written. -/
  tie : Tie
  /-- Whether the magnitude `0.d₁d₂… · 10 ^ point` is written without an exponent. -/
  positional : Int → Bool
  /-- An exponent that is not negative has a plus sign. -/
  plus : Bool
  nan : List Char
  infinity : List Char

namespace Layout

/-- Positional text, with at least one digit on either side of the point. -/
def writePositional (f : Figures) : List Char :=
  let n := f.digits.length
  match f.point with
  | .negSucc z => '0' :: '.' :: (List.replicate (z + 1) '0' ++ f.digits)
  | .ofNat 0 => '0' :: '.' :: f.digits
  | .ofNat p =>
    if p < n then f.digits.take p ++ '.' :: f.digits.drop p
    else f.digits ++ List.replicate (p - n) '0' ++ ['.', '0']

/-- One digit, the rest of them after a point if there are any, and the power of ten. -/
def writeScientific (plus : Bool) (f : Figures) : List Char :=
  let sign := if plus ∧ 0 ≤ f.point - 1 then ['+'] else []
  let tail := if f.digits.length ≤ 1 then [] else '.' :: f.digits.drop 1
  f.digits.take 1 ++ tail ++ 'e' :: (sign ++ intDigits (f.point - 1))

/-- The text of a magnitude. -/
def writeFigures (l : Layout) (f : Figures) : List Char :=
  if l.positional f.point then writePositional f else writeScientific l.plus f

/-- The text of a number. NaN has no sign; zero keeps its own. -/
def write (l : Layout) (x : Binary64) : List Char :=
  let sign := if x.negative then ['-'] else []
  if x.isNaN then l.nan
  else if x.isInfinite then sign ++ l.infinity
  else if x.units = 0 then sign ++ ['0', '.', '0']
  else sign ++ l.writeFigures (x.figures l.tie)

/-- Literals and data files: positional from `0.00001` to below `10 ^ 16`, and a signed exponent
elsewhere. -/
def literal : Layout where
  tie := .even
  positional p := -5 < p ∧ p ≤ 16
  plus := true
  nan := ['n', 'a', 'n']
  infinity := ['i', 'n', 'f']

/-- Diagnostic dumps: positional from `0.0001` to below `10 ^ 16`. -/
def debug : Layout where
  tie := .away
  positional p := -4 < p ∧ p ≤ 16
  plus := false
  nan := ['N', 'a', 'N']
  infinity := ['i', 'n', 'f']

end Layout

end GuardedCall.Decimal
