import GuardedCall.Decimal.Binary64
import GuardedCall.Word64

/-!
# Numbers that round to finite ones

A code below that of infinity is that of a finite number, and a whole number of 64 bits rounds to
one: it has at most sixty-four binary digits, far fewer than the greatest finite number.

Main statement: `isFinite_ofInt`.
-/

namespace GuardedCall.Binary64

theorem isFinite_ofCode {negative : Bool} {code : Nat} (h : code < infinityCode) :
    (ofCode negative code).isFinite = true := by
  simp only [infinityCode, hiddenBit] at h
  simp only [isFinite, exponentField, ofCode, hiddenBit, UInt64.toNat_ofNat', ne_eq,
    decide_eq_true_eq, signBit]
  cases negative with
  | false =>
    rw [if_neg Bool.false_ne_true]
    omega
  | true =>
    rw [if_pos rfl]
    omega

/-- Rounding goes up by one at most. -/
theorem nearestEven_le (a b : Nat) : nearestEven a b ≤ a / b + 1 := by
  unfold nearestEven
  dsimp only
  split <;> omega

/-- What is left of a number when all but its first fifty-three binary digits are cut off. -/
theorem div_twoTo_cut_lt (n : Nat) : n / twoTo (n.log2 - 52) < twoTo 53 := by
  have hpos : 0 < 2 ^ (n.log2 - 52) := Nat.two_pow_pos _
  show n / 2 ^ (n.log2 - 52) < 2 ^ 53
  rw [Nat.div_lt_iff_lt_mul hpos, ← Nat.pow_add]
  have hlog : n < 2 ^ (n.log2 + 1) := Nat.lt_log2_self
  have hle : 2 ^ (n.log2 + 1) ≤ 2 ^ (53 + (n.log2 - 52)) :=
    Nat.pow_le_pow_right (by decide) (by omega)
  exact Nat.lt_of_lt_of_le hlog hle

theorem log2_mul_twoTo_le {a k j : Nat} (h : a < twoTo k) : (a * twoTo j).log2 ≤ k + j := by
  rcases Nat.eq_zero_or_pos (a * twoTo j) with h₀ | hpos
  · rw [h₀]
    exact Nat.zero_le _
  · have hlt : a * twoTo j < 2 ^ (k + j) := by
      rw [Nat.pow_add]
      exact Nat.mul_lt_mul_of_pos_right h (Nat.two_pow_pos j)
    exact Nat.le_of_lt ((Nat.log2_lt (Nat.ne_of_gt hpos)).2 hlt)

/-- A whole number of 64 bits, with its sign apart, rounds to a finite number. -/
theorem isFinite_ofRatio_one {negative : Bool} {a : Nat} (h : a < twoTo 64) :
    (ofRatio negative a 1).isFinite = true := by
  have hlog : (a * unitsPerOne).log2 ≤ 64 + 1074 := log2_mul_twoTo_le h
  unfold ofRatio
  generalize a * unitsPerOne = n at hlog
  dsimp only
  rw [Nat.div_one, Nat.one_mul]
  apply isFinite_ofCode
  have hround := nearestEven_le n (twoTo (n.log2 - 52))
  have hdigits := div_twoTo_cut_lt n
  have hbits : twoTo 53 = 2 * hiddenBit := rfl
  have hcode : (n.log2 - 52) * hiddenBit + nearestEven n (twoTo (n.log2 - 52)) <
      infinityCode := by
    simp only [infinityCode, hiddenBit] at hbits ⊢
    omega
  exact Nat.lt_of_le_of_lt (Nat.min_le_right _ _) hcode

/-- A whole number of 64 bits, signed or not, rounds to a finite number. -/
theorem isFinite_ofInt {n : Int} (h : Word64.fitsSigned n = true ∨ Word64.fitsUnsigned n = true) :
    (ofInt n).isFinite = true := by
  simp only [Word64.fitsSigned, Word64.fitsUnsigned, Bool.and_eq_true, decide_eq_true_eq] at h
  have hwords : twoTo 64 = 18446744073709551616 := rfl
  exact isFinite_ofRatio_one (by omega)

end GuardedCall.Binary64
