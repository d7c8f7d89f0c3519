import GuardedCall.Proofs.Decimal.Finite
import GuardedCall.Decimal.Digits

/-!
# Rounding ratios

A ratio is rounded by its value alone, a finite number is its own rounding, and what a ratio rounds
to is near it. So a ratio well below the end of the range rounds to a finite number, and one beyond
the end does not.

The units of what a ratio rounds to are the bits that are kept, times the weight of those that are
cut off (`units_ofRatio`); everything else follows from what is kept.

Main definitions: `Binary64.cut`, `Binary64.kept`, `Binary64.maxUnits`.
Main statements: `ofRatio_mul_left`, `ofRatio_units`, `isFinite_ofRatio`, `not_isFinite_ofRatio`.
-/

namespace GuardedCall.Binary64

/-! ## The nearest whole number -/

theorem twoTo_pos (n : Nat) : 0 < twoTo n := Nat.two_pow_pos n

theorem twoTo_add (m n : Nat) : twoTo (m + n) = twoTo m * twoTo n := Nat.pow_add 2 m n

theorem le_log2 {k n : Nat} (h : twoTo k ≤ n) : k ≤ n.log2 :=
  (Nat.le_log2 (Nat.ne_of_gt (Nat.lt_of_lt_of_le (twoTo_pos k) h))).2 h

theorem log2_le {k n : Nat} (h : n < twoTo (k + 1)) : n.log2 ≤ k := by
  by_cases hzero : n = 0
  · subst hzero
    exact Nat.zero_le _
  · exact Nat.le_of_lt_succ ((Nat.log2_lt hzero).2 h)

theorem twoTo_log2_le {n : Nat} (h : n ≠ 0) : twoTo n.log2 ≤ n := Nat.log2_self_le h

theorem unitsPerOne_pos : 0 < unitsPerOne := twoTo_pos 1074

/-- A ratio rounds by its value alone. -/
theorem nearestEven_mul_left {k : Nat} (hk : 0 < k) (a b : Nat) :
    nearestEven (k * a) (k * b) = nearestEven a b := by
  have hlt : 2 * (k * (a % b)) < k * b ↔ 2 * (a % b) < b := by
    rw [Nat.mul_left_comm, Nat.mul_lt_mul_left hk]
  have heq : 2 * (k * (a % b)) = k * b ↔ 2 * (a % b) = b := by
    rw [Nat.mul_left_comm, Nat.mul_right_inj (Nat.ne_of_gt hk)]
  simp only [nearestEven, Nat.mul_div_mul_left _ _ hk, Nat.mul_mod_mul_left, hlt, heq]

/-- A whole number rounds to itself. -/
theorem nearestEven_mul_self {b : Nat} (hb : 0 < b) (q : Nat) : nearestEven (q * b) b = q := by
  simp [nearestEven, Nat.mul_div_cancel q hb, hb]

theorem le_nearestEven (a b : Nat) : a / b ≤ nearestEven a b := by
  unfold nearestEven
  dsimp only
  split <;> omega

/-- Rounding goes down by a half at most. -/
theorem le_of_nearestEven {b : Nat} (hb : 0 < b) (a : Nat) :
    2 * a ≤ 2 * (b * nearestEven a b) + b := by
  have hdiv := Nat.div_add_mod a b
  have hmod := Nat.mod_lt a hb
  unfold nearestEven
  dsimp only
  split
  · omega
  · rw [Nat.mul_add]
    omega

/-- Rounding goes up by a half at most. -/
theorem nearestEven_le_half (a b : Nat) : 2 * (b * nearestEven a b) ≤ 2 * a + b := by
  have hdiv := Nat.div_add_mod a b
  unfold nearestEven
  dsimp only
  split
  · omega
  · rw [Nat.mul_add]
    omega

/-! ## What is kept of a ratio -/

/-- How many bits are cut off a ratio, counted in units. -/
def cut (a b : Nat) : Nat := (a * unitsPerOne / b).log2 - 52

/-- The bits that are kept, rounded. -/
def kept (a b : Nat) : Nat := nearestEven (a * unitsPerOne) (b * twoTo (cut a b))

variable {negative : Bool} {a b k code : Nat} {x : Binary64}

theorem ofRatio_eq_ofCode (negative : Bool) (a b : Nat) :
    ofRatio negative a b =
      ofCode negative (min infinityCode (cut a b * hiddenBit + kept a b)) := rfl

theorem cut_mul_left (hk : 0 < k) (a b : Nat) : cut (k * a) (k * b) = cut a b := by
  rw [cut, Nat.mul_assoc, Nat.mul_div_mul_left _ _ hk, cut]

theorem kept_mul_left (hk : 0 < k) (a b : Nat) : kept (k * a) (k * b) = kept a b := by
  rw [kept, cut_mul_left hk, Nat.mul_assoc, Nat.mul_assoc, nearestEven_mul_left hk, kept]

/-- A ratio is rounded by its value alone. -/
theorem ofRatio_mul_left (hk : 0 < k) (negative : Bool) (a b : Nat) :
    ofRatio negative (k * a) (k * b) = ofRatio negative a b := by
  rw [ofRatio_eq_ofCode, cut_mul_left hk, kept_mul_left hk, ofRatio_eq_ofCode]

theorem div_twoTo_cut (a b : Nat) :
    a * unitsPerOne / (b * twoTo (cut a b)) =
      a * unitsPerOne / b / twoTo ((a * unitsPerOne / b).log2 - 52) :=
  (Nat.div_div_eq_div_mul _ _ _).symm

/-- Fifty-three bits are kept, up to a carry. -/
theorem kept_le (a b : Nat) : kept a b ≤ 2 * hiddenBit := by
  have hround := nearestEven_le (a * unitsPerOne) (b * twoTo (cut a b))
  have hdigits := div_twoTo_cut_lt (a * unitsPerOne / b)
  have hbits : twoTo 53 = 2 * hiddenBit := rfl
  rw [div_twoTo_cut] at hround
  rw [kept]
  omega

/-- If bits are cut off, fifty-three are left. -/
theorem le_div_twoTo_cut (h : 0 < cut a b) :
    hiddenBit ≤ a * unitsPerOne / (b * twoTo (cut a b)) := by
  rw [div_twoTo_cut]
  generalize hm : a * unitsPerOne / b = m
  have hcut : 0 < m.log2 - 52 := by rwa [cut, hm] at h
  have hpos : m ≠ 0 := by
    rintro rfl
    simp at hcut
  have hsplit : hiddenBit * twoTo (m.log2 - 52) = twoTo m.log2 := by
    show twoTo 52 * twoTo (m.log2 - 52) = twoTo m.log2
    rw [← twoTo_add]
    congr 1
    omega
  rw [Nat.le_div_iff_mul_le (twoTo_pos _), hsplit]
  exact twoTo_log2_le hpos

/-- If bits are cut off, the first one that is kept is not zero. -/
theorem le_kept (h : 0 < cut a b) : hiddenBit ≤ kept a b :=
  Nat.le_trans (le_div_twoTo_cut h) (le_nearestEven _ _)

/-! ## Codes -/

theorem toNat_ofCode (h : code ≤ infinityCode) :
    (ofCode negative code).bits.toNat = (if negative then signBit else 0) + code := by
  simp only [infinityCode, hiddenBit] at h
  rw [ofCode, UInt64.toNat_ofNat', Nat.mod_eq_of_lt]
  rw [signBit]
  split <;> omega

theorem exponentField_ofCode (h : code ≤ infinityCode) :
    (ofCode negative code).exponentField = code / hiddenBit := by
  rw [exponentField, toNat_ofCode h]
  simp only [infinityCode, hiddenBit, signBit] at h ⊢
  split <;> omega

theorem fraction_ofCode (h : code ≤ infinityCode) :
    (ofCode negative code).fraction = code % hiddenBit := by
  rw [fraction, toNat_ofCode h]
  simp only [infinityCode, hiddenBit, signBit] at h ⊢
  split <;> omega

theorem not_isFinite_ofCode (negative : Bool) :
    (ofCode negative infinityCode).isFinite = false := by
  cases negative <;> rfl

/-- The units of a code: its last fifty-three bits, as often as the bits before them say. -/
theorem units_ofCode {c q : Nat} (hq : q ≤ 2 * hiddenBit) (hc : 0 < c → hiddenBit ≤ q)
    (h : c * hiddenBit + q ≤ infinityCode) :
    (ofCode negative (c * hiddenBit + q)).units = q * twoTo c := by
  have hhidden : 0 < hiddenBit := by decide
  rw [units, significand, scale, exponentField_ofCode h, fraction_ofCode h]
  by_cases hsmall : q < hiddenBit
  · -- a number without the hidden bit
    have hzero : c = 0 := by omega
    subst hzero
    rw [Nat.zero_mul, Nat.zero_add, Nat.div_eq_of_lt hsmall, if_pos rfl, Nat.mod_eq_of_lt hsmall]
  · by_cases hcarry : q = 2 * hiddenBit
    · subst hcarry
      have hcode : c * hiddenBit + 2 * hiddenBit = (c + 2) * hiddenBit := by rw [Nat.add_mul]
      rw [hcode, Nat.mul_div_cancel _ hhidden, Nat.mul_mod_left, if_neg (by omega)]
      show (hiddenBit + 0) * twoTo (c + 1) = 2 * hiddenBit * twoTo c
      rw [twoTo_add]
      have htwo : twoTo 1 = 2 := rfl
      rw [htwo, Nat.add_zero, Nat.mul_comm (twoTo c), ← Nat.mul_assoc, Nat.mul_comm hiddenBit]
    · have hcode : c * hiddenBit + q = (q - hiddenBit) + hiddenBit * (c + 1) := by
        rw [Nat.mul_add, Nat.mul_comm hiddenBit c]
        omega
      have hfraction : q - hiddenBit < hiddenBit := by omega
      rw [hcode, Nat.add_mul_div_left _ _ hhidden, Nat.div_eq_of_lt hfraction,
        Nat.add_mul_mod_self_left, Nat.mod_eq_of_lt hfraction, if_neg (by omega)]
      have hq : hiddenBit + (q - hiddenBit) = q := by omega
      have hscale : 0 + (c + 1) - 1 = c := by omega
      rw [hq, hscale]

/-- Nothing rounds to zero, with the sign. -/
theorem ofRatio_zero (negative : Bool) (b : Nat) : ofRatio negative 0 b = ofCode negative 0 := by
  have hcut : cut 0 b = 0 := by simp [cut]
  have hkept : kept 0 b ≤ 0 := by
    rcases Nat.eq_zero_or_pos b with rfl | hb
    · simp [kept, nearestEven]
    · simp [kept, nearestEven, hb, twoTo_pos]
  rw [ofRatio_eq_ofCode, hcut, Nat.le_zero.1 hkept]
  rfl

theorem units_ofCode_zero (negative : Bool) : (ofCode negative 0).units = 0 := by
  cases negative <;> rfl

/-! ## The range -/

/-- The units of the greatest finite number. -/
def maxUnits : Nat := (twoTo 53 - 1) * twoTo 2045

/-- The code of a ratio below the end of the range. -/
theorem code_lt_infinityCode (hb : 0 < b)
    (h : a * unitsPerOne < b * maxUnits) :
    cut a b * hiddenBit + kept a b < infinityCode := by
  have hkept := kept_le a b
  have hunits : a * unitsPerOne / b < twoTo 2098 := by
    rw [Nat.div_lt_iff_lt_mul hb, Nat.mul_comm (twoTo 2098)]
    refine Nat.lt_of_lt_of_le h (Nat.mul_le_mul_left b ?_)
    rw [twoTo_add 53 2045]
    exact Nat.mul_le_mul_right _ (Nat.sub_le _ _)
  have hlog : (a * unitsPerOne / b).log2 ≤ 2097 := log2_le hunits
  rcases Nat.lt_or_ge (cut a b) 2045 with hcut | hcut
  · simp only [infinityCode, hiddenBit] at hkept ⊢
    omega
  · have hcut : cut a b = 2045 := by
      rw [cut] at hcut ⊢
      omega
    have hround := nearestEven_le (a * unitsPerOne) (b * twoTo 2045)
    have hdiv : a * unitsPerOne / (b * twoTo 2045) < twoTo 53 - 1 := by
      rw [Nat.div_lt_iff_lt_mul (Nat.mul_pos hb (twoTo_pos _)), Nat.mul_left_comm]
      exact h
    have hbits : twoTo 53 = 2 * hiddenBit := rfl
    rw [kept, hcut]
    simp only [infinityCode, hiddenBit] at hbits ⊢
    omega

/-- A ratio below the end of the range rounds to a finite number. -/
theorem isFinite_ofRatio (hb : 0 < b)
    (h : a * unitsPerOne < b * maxUnits) :
    (ofRatio negative a b).isFinite = true := by
  rw [ofRatio_eq_ofCode]
  exact isFinite_ofCode (Nat.lt_of_le_of_lt (Nat.min_le_right _ _) (code_lt_infinityCode hb h))

/-- A ratio beyond the end of the range is infinite. -/
theorem not_isFinite_ofRatio (hb : 0 < b) (h : b * twoTo 2098 ≤ a * unitsPerOne) :
    (ofRatio negative a b).isFinite = false := by
  have hunits : twoTo 2098 ≤ a * unitsPerOne / b := by
    rw [Nat.le_div_iff_mul_le hb, Nat.mul_comm (twoTo 2098)]
    exact h
  have hlog : 2098 ≤ (a * unitsPerOne / b).log2 := le_log2 hunits
  have hcut : 2046 ≤ cut a b := by
    rw [cut]
    omega
  have hkept := le_kept (a := a) (b := b) (by omega)
  have hcode : infinityCode ≤ cut a b * hiddenBit + kept a b := by
    have hmul : 2046 * hiddenBit ≤ cut a b * hiddenBit := Nat.mul_le_mul_right _ hcut
    simp only [infinityCode, hiddenBit] at hkept hmul ⊢
    omega
  rw [ofRatio_eq_ofCode, Nat.min_eq_left hcode]
  exact not_isFinite_ofCode negative

/-- The units of what a ratio in the range rounds to. -/
theorem units_ofRatio (hb : 0 < b)
    (h : a * unitsPerOne < b * maxUnits) :
    (ofRatio negative a b).units = kept a b * twoTo (cut a b) := by
  have hcode := Nat.le_of_lt (code_lt_infinityCode hb h)
  rw [ofRatio_eq_ofCode, Nat.min_eq_right hcode]
  exact units_ofCode (kept_le a b) le_kept hcode

/-- A whole number rounds up by a quarter of it at most, and down by no more. -/
theorem units_ofRatio_one (negative : Bool) (h : a * unitsPerOne < maxUnits) :
    4 * (ofRatio negative a 1).units ≤ 5 * (a * unitsPerOne) ∧
      3 * (a * unitsPerOne) ≤ 4 * (ofRatio negative a 1).units := by
  rw [units_ofRatio Nat.one_pos (by rwa [Nat.one_mul]), kept, Nat.one_mul, Nat.mul_comm _ (twoTo _)]
  -- what is cut off weighs little
  have hweight : cut a 1 = 0 ∨ 4 * twoTo (cut a 1) ≤ a * unitsPerOne := by
    rcases Nat.eq_zero_or_pos (cut a 1) with hcut | hcut
    · exact Or.inl hcut
    · right
      have hle := le_div_twoTo_cut hcut
      rw [Nat.one_mul, Nat.le_div_iff_mul_le (twoTo_pos _)] at hle
      exact Nat.le_trans (Nat.mul_le_mul_right _ (by decide)) hle
  generalize a * unitsPerOne = n at hweight
  have hup := nearestEven_le_half n (twoTo (cut a 1))
  have hdown := le_of_nearestEven (twoTo_pos (cut a 1)) n
  rcases hweight with hcut | hweight
  · have hone : twoTo (cut a 1) = 1 := by
      rw [hcut]
      rfl
    have hwhole : nearestEven n 1 = n := by
      have hself := nearestEven_mul_self Nat.one_pos n
      rwa [Nat.mul_one] at hself
    rw [hone, hwhole]
    omega
  · omega

/-! ## Finite numbers -/

theorem significand_lt (x : Binary64) : x.significand < 2 * hiddenBit := by
  have hfraction : x.fraction < hiddenBit := Nat.mod_lt _ (by decide)
  rw [significand]
  split <;> omega

theorem hiddenBit_le_significand (h : 0 < x.scale) : hiddenBit ≤ x.significand := by
  rw [scale] at h
  rw [significand, if_neg (by omega)]
  exact Nat.le_add_right _ _

/-- The bits of a number are its sign, its scale and its significand. -/
theorem toNat_bits (x : Binary64) :
    x.bits.toNat =
      (if x.negative then signBit else 0) + (x.scale * hiddenBit + x.significand) := by
  have hbits : x.bits.toNat < 2 ^ 64 := x.bits.toNat_lt
  have hcode : x.scale * hiddenBit + x.significand = x.bits.toNat % signBit := by
    rw [scale, significand]
    by_cases hfield : x.exponentField = 0
    · rw [if_pos hfield]
      simp only [exponentField, fraction, hiddenBit, signBit] at hfield ⊢
      omega
    · rw [if_neg hfield]
      simp only [exponentField, fraction, hiddenBit, signBit] at hfield ⊢
      omega
  have hsign : x.negative = true ↔ signBit ≤ x.bits.toNat := decide_eq_true_iff
  rw [hcode]
  by_cases hnegative : x.negative = true
  · rw [if_pos hnegative]
    rw [hsign] at hnegative
    simp only [signBit] at hnegative ⊢
    omega
  · rw [if_neg hnegative]
    rw [hsign] at hnegative
    simp only [signBit] at hnegative ⊢
    omega

theorem ofCode_self (x : Binary64) :
    ofCode x.negative (x.scale * hiddenBit + x.significand) = x := by
  rw [ofCode, ← toNat_bits, UInt64.ofNat_toNat]

/-- Of a number in units nothing is cut off but its scale. -/
theorem cut_units (x : Binary64) : cut x.units unitsPerOne = x.scale := by
  rw [cut, Nat.mul_div_cancel _ unitsPerOne_pos, units]
  have hbits : 2 * hiddenBit = twoTo 53 := rfl
  have hupper : x.significand * twoTo x.scale < twoTo (52 + x.scale + 1) := by
    rw [Nat.add_right_comm, twoTo_add, ← hbits]
    exact Nat.mul_lt_mul_of_pos_right x.significand_lt (twoTo_pos _)
  have hlog := log2_le hupper
  rcases Nat.eq_zero_or_pos x.scale with hscale | hscale
  · omega
  · have hlower : twoTo (52 + x.scale) ≤ x.significand * twoTo x.scale := by
      rw [twoTo_add]
      exact Nat.mul_le_mul_right _ (hiddenBit_le_significand hscale)
    have hlog' := le_log2 hlower
    omega

theorem kept_units (x : Binary64) : kept x.units unitsPerOne = x.significand := by
  rw [kept, cut_units, Nat.mul_comm x.units, nearestEven_mul_left unitsPerOne_pos, units,
    nearestEven_mul_self (twoTo_pos _)]

/-- A finite number is its own rounding. -/
theorem ofRatio_units (hx : x.isFinite = true) :
    ofRatio x.negative x.units unitsPerOne = x := by
  have hcode : x.scale * hiddenBit + x.significand ≤ infinityCode := by
    have hlt : x.exponentField < 2048 := Nat.mod_lt _ (by decide)
    have hne : x.exponentField ≠ 2047 := by simpa [isFinite] using hx
    have hsignificand := x.significand_lt
    simp only [scale, infinityCode, hiddenBit] at hsignificand ⊢
    omega
  rw [ofRatio_eq_ofCode, cut_units, kept_units, Nat.min_eq_right hcode, ofCode_self]

end GuardedCall.Binary64
