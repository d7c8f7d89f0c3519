/-!
# Whole numbers of 64 bits

The ranges of the signed and the unsigned whole numbers that 64 bits hold.

Main definitions: `Word64.fitsSigned`, `Word64.fitsUnsigned`.
Main statements: `toInt_ofInt`, `fitsSigned_toInt`, a number fits exactly if it is kept.
-/

namespace GuardedCall.Word64

/-- The integer fits in 64 bits with a sign. -/
def fitsSigned (n : Int) : Bool := -0x8000000000000000 ≤ n && n < 0x8000000000000000

/-- The integer fits in 64 bits without a sign. -/
def fitsUnsigned (n : Int) : Bool := 0 ≤ n && n < 0x10000000000000000

/-- A number that fits is kept. -/
theorem toInt_ofInt {n : Int} (h : fitsSigned n = true) : (Int64.ofInt n).toInt = n := by
  simp only [fitsSigned, Bool.and_eq_true, decide_eq_true_eq] at h
  exact Int64.toInt_ofInt_of_le h.1 h.2

/-- What 64 bits hold fits. -/
theorem fitsSigned_toInt (x : Int64) : fitsSigned x.toInt = true := by
  have lower := x.le_toInt
  have upper := x.toInt_lt
  simp only [fitsSigned, Bool.and_eq_true, decide_eq_true_eq]
  omega

end GuardedCall.Word64
