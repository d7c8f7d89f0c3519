/-!
# Decimal digits

How a whole number is written in base ten, and the number that a run of digits stands for.

Main definitions: `natDigits`, `intDigits`, `ofDigits`, `tenTo`.
Main statement: `ofDigits_natDigits`, the digits of a number stand for that number.
-/

namespace GuardedCall.Decimal

/-- The decimal digits of a natural number, most significant first, with no leading zero. -/
def natDigits (n : Nat) : List Char := Nat.toDigits 10 n

/-- The decimal text of an integer: a minus sign before the digits of a negative one. -/
def intDigits : Int → List Char
  | .ofNat n => natDigits n
  | .negSucc n => '-' :: natDigits (n + 1)

/-- A power of ten. -/
def tenTo (n : Nat) : Nat := Nat.pow 10 n

/-- The digits of a natural number as a string. -/
def natText (n : Nat) : String := String.ofList (natDigits n)

/-- The number that a run of decimal digits stands for. -/
def ofDigits (ds : List Char) : Nat := Nat.ofDigitChars 10 ds 0

/-- The digits of a number stand for that number. -/
theorem ofDigits_natDigits (n : Nat) : ofDigits (natDigits n) = n :=
  Nat.ofDigitChars_toDigits (by decide) (by decide)

theorem natDigits_ne_nil (n : Nat) : natDigits n ≠ [] := Nat.toDigits_ne_nil

theorem isDigit_of_mem_natDigits {n : Nat} {c : Char} (h : c ∈ natDigits n) : c.isDigit = true :=
  Nat.isDigit_of_mem_toDigits (by decide) (by decide) h

end GuardedCall.Decimal
