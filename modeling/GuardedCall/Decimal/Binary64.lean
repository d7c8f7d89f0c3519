import GuardedCall.Decimal.Digits

/-!
# Binary floating point numbers of 64 bits

A number is its bit pattern, so that two numbers are equal exactly if all their bits are: a NaN
equals itself, and `0.0` differs from `-0.0`. The patterns are decoded to natural numbers, all
computing is exact on those, and a result is rounded once from a ratio of them.

The magnitude of a finite number is `significand * 2 ^ scale` units of `2 ^ -1074`, the least
positive number of the format. Every finite magnitude is therefore a whole number of units, and
the bit patterns of the magnitudes are in the order of the magnitudes.

Main definitions: `Binary64`, `Binary64.units`, `Binary64.ofRatio`, `Binary64.ofDecimal`.
-/

namespace GuardedCall

/-- A binary floating point number, as its bit pattern. -/
structure Binary64 where
  bits : UInt64
  deriving DecidableEq, Inhabited

namespace Binary64

/-! ## Decoding -/

/-- The weight of the sign bit, `2 ^ 63`. -/
def signBit : Nat := 0x8000000000000000

/-- The weight of the lowest exponent bit, and of the hidden bit of a significand: `2 ^ 52`. -/
def hiddenBit : Nat := 0x10000000000000

/-- A power of two. -/
def twoTo (n : Nat) : Nat := Nat.pow 2 n

/-- The sign bit is set. -/
def negative (x : Binary64) : Bool := signBit ≤ x.bits.toNat

/-- The exponent field, eleven bits. -/
def exponentField (x : Binary64) : Nat := x.bits.toNat / hiddenBit % 2048

/-- The fraction field, fifty-two bits. -/
def fraction (x : Binary64) : Nat := x.bits.toNat % hiddenBit

/-- Neither infinite nor NaN. -/
def isFinite (x : Binary64) : Bool := x.exponentField ≠ 2047

def isInfinite (x : Binary64) : Bool := x.exponentField = 2047 ∧ x.fraction = 0

def isNaN (x : Binary64) : Bool := x.exponentField = 2047 ∧ x.fraction ≠ 0

/-- The fraction with its hidden leading bit, which only the smallest numbers lack. -/
def significand (x : Binary64) : Nat :=
  if x.exponentField = 0 then x.fraction else hiddenBit + x.fraction

/-- The power of two that a unit of the significand weighs, counted from the least. -/
def scale (x : Binary64) : Nat := x.exponentField - 1

/-- How many units of `2 ^ -1074` make the magnitude of a finite number. -/
def units (x : Binary64) : Nat := x.significand * twoTo x.scale

/-- The number of units of `2 ^ -1074` in one. -/
def unitsPerOne : Nat := twoTo 1074

/-! ## Rounding -/

/-- The whole number nearest to `a / b`; a half goes to the even neighbour. -/
def nearestEven (a b : Nat) : Nat :=
  let q := a / b
  let r := a % b
  if 2 * r < b ∨ (2 * r = b ∧ q % 2 = 0) then q else q + 1

/-- The bit pattern of infinity, above those of all finite magnitudes. -/
def infinityCode : Nat := 2047 * hiddenBit

/-- The number with the given sign whose other bits are `code`. -/
def ofCode (negative : Bool) (code : Nat) : Binary64 :=
  ⟨UInt64.ofNat ((if negative then signBit else 0) + code)⟩

/-- The number nearest to `a / b`, ties to the even significand; beyond the range it is infinite.
The magnitude is cut to fifty-three bits, or fewer where a bit would weigh less than one unit. A
carry out of the significand moves on into the exponent field, which is the right successor. -/
def ofRatio (negative : Bool) (a b : Nat) : Binary64 :=
  let n := a * unitsPerOne
  let cut := (n / b).log2 - 52
  ofCode negative (min infinityCode (cut * hiddenBit + nearestEven n (b * twoTo cut)))

/-- The number nearest to an integer. -/
def ofInt (n : Int) : Binary64 := ofRatio (n < 0) n.natAbs 1

/-- The number nearest to `digits * 10 ^ exponent`. Exponents far outside the range are settled
without computing the power. -/
def ofDecimal (negative : Bool) (digits : Nat) : Int → Binary64
  | .ofNat e =>
    if digits = 0 then ofCode negative 0
    else if 400 < e then ofCode negative infinityCode
    else ofRatio negative (digits * Decimal.tenTo e) 1
  | .negSucc e =>
    if 400 + digits.log2 < e then ofCode negative 0
    else ofRatio negative digits (Decimal.tenTo (e + 1))

end Binary64

end GuardedCall
