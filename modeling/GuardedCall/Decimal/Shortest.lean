import GuardedCall.Decimal.Digits
import GuardedCall.Decimal.Binary64

/-!
# The fewest digits that read back

A finite number is written with the fewest decimal digits that round to it again. Each count of
digits gives a grid of decimal fractions, and on it the two neighbours of the number. The first
grid with a neighbour that reads back wins; if both do, the nearer one is taken, and a caller says
which of two equally near ones.

Main definitions: `Figures`, `Binary64.figures`.
-/

namespace GuardedCall

namespace Decimal

/-- Which of two equally near neighbours is taken. -/
inductive Tie
  /-- The one whose last digit is even. -/
  | even
  /-- The one farther from zero. -/
  | away
  deriving DecidableEq

/-- The magnitude `0.d₁d₂d₃… · 10 ^ point`. -/
structure Figures where
  digits : List Char
  point : Int
  deriving DecidableEq

/-- `a / b` in steps of `10 ^ e`, again as a ratio. -/
def inSteps (a b : Nat) : Int → Nat × Nat
  | .ofNat e => (a, b * tenTo e)
  | .negSucc e => (a * tenTo (e + 1), b)

/-- The neighbours of `a / b` among the whole numbers, nearest first; one if it is whole. -/
def neighbours (tie : Tie) (a b : Nat) : List Nat :=
  let q := a / b
  let r := a % b
  if r = 0 then [q]
  else if 2 * r < b ∨ (2 * r = b ∧ tie = .even ∧ q % 2 = 0) then [q, q + 1]
  else [q + 1, q]

/-- The digits of `digits * 10 ^ exponent`, without zeros at the end. -/
def Figures.ofScaled (digits : Nat) (exponent : Int) : Figures where
  digits := ((natDigits digits).reverse.dropWhile (· == '0')).reverse
  point := (natDigits digits).length + exponent

end Decimal

namespace Binary64

open Decimal

/-- The power of ten just above the magnitude of a number that is not zero: the least `p` with
`|x| < 10 ^ p`. The scaling makes the least magnitude at least one. -/
def decimalPoint (x : Binary64) : Int :=
  (natDigits (x.units * tenTo 330 / unitsPerOne)).length - 330

/-- The nearest decimal fraction of `count` digits that rounds to `x`, if there is one. -/
def figuresOf? (tie : Tie) (x : Binary64) (count : Nat) : Option Figures :=
  let step := x.decimalPoint - count
  let ratio := inSteps x.units unitsPerOne step
  ((neighbours tie ratio.1 ratio.2).find? fun d => ofDecimal x.negative d step = x).map
    (Figures.ofScaled · step)

/-- All the digits of a number: one unit is `5 ^ 1074 · 10 ^ -1074`. -/
def exactFigures (x : Binary64) : Figures :=
  Figures.ofScaled (x.units * Nat.pow 5 1074) (-1074)

/-- The fewest digits that read back as `x`. Seventeen always suffice. -/
def figures (tie : Tie) (x : Binary64) : Figures :=
  ((List.range 17).findSome? fun n => figuresOf? tie x (n + 1)).getD x.exactFigures

end Binary64

end GuardedCall
