import GuardedCall.Decimal.Binary64
import GuardedCall.Decimal.Digits
import GuardedCall.Word64

/-!
# Decimals scaled by powers of ten

The quick way from a decimal to a floating point number. Its digits make a whole number as long as
64 bits hold it, and those that do not fit any more are dropped. The whole number is rounded to a
floating point number, which is then multiplied or divided by a power of ten; each step rounds.
With up to fifteen digits and an exponent of at most twenty-two only the last step rounds, so that
the result is the nearest number. Otherwise it may be a neighbour of the nearest number.

Main definitions: `Decimal.appendFitting`, `Binary64.ofScaled`.
-/

namespace GuardedCall

namespace Decimal

/-- Append digits to a number as long as 64 bits hold it: the number, and the digits left over. -/
def appendFitting (n : Nat) : List Char → Nat × List Char
  | [] => (n, [])
  | c :: cs =>
    let next := 10 * n + (c.toNat - '0'.toNat)
    if Word64.fitsUnsigned next then appendFitting next cs else (n, c :: cs)

end Decimal

namespace Binary64

/-- The product of two finite numbers, rounded to nearest. -/
def mul (x y : Binary64) : Binary64 :=
  ofRatio (x.negative != y.negative) (x.units * y.units) (unitsPerOne * unitsPerOne)

/-- The quotient of two finite numbers, rounded to nearest. The divisor is not zero. -/
def div (x y : Binary64) : Binary64 :=
  ofRatio (x.negative != y.negative) x.units y.units

/-- The greatest exponent of a power of ten in the range. -/
def maxTenExponent : Nat := 308

/-- The number nearest to a power of ten. -/
def powerOfTen (n : Nat) : Binary64 := ofRatio false (Decimal.tenTo n) 1

/-- A whole number of 64 bits, rounded, times a power of ten, rounded. A power out of the range
that makes the number larger makes it infinite, unless it is zero; one that makes it smaller is
divided by in two steps, and after two steps of the greatest power nothing is left. -/
def ofScaled (negative : Bool) (n : Nat) (exponent : Int) : Binary64 :=
  let x := ofRatio negative n 1
  match exponent with
  | .ofNat e =>
    if e ≤ maxTenExponent then x.mul (powerOfTen e)
    else if n = 0 then x
    else ofCode negative infinityCode
  | .negSucc e =>
    if e + 1 ≤ maxTenExponent then x.div (powerOfTen (e + 1))
    else if e + 1 ≤ 2 * maxTenExponent then
      (x.div (powerOfTen maxTenExponent)).div (powerOfTen (e + 1 - maxTenExponent))
    else ofCode negative 0

end Binary64

end GuardedCall
