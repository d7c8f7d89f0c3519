import GuardedCall.Decimal.Scaled
import GuardedCall.Proofs.Decimal.Rounding
import Mathlib.Tactic.Ring

/-!
# Whole numbers read the quick way

The digits that 64 bits hold make a number, and each digit left over is worth a power of ten. The
result is a few parts in ten away from the number that the digits stand for, at most, although two
of its steps round. So a whole number of up to 308 digits becomes a finite number, and one of 310
digits or more becomes infinite.

Main definition: `Binary64.ofWholeDigits`.
Main statements: `isFinite_ofWholeDigits`, `not_isFinite_ofWholeDigits`.
-/

namespace GuardedCall

namespace Decimal

variable {ds cs : List Char} {c : Char} {n : Nat}

theorem tenTo_pos (n : Nat) : 0 < tenTo n := Nat.pow_pos (by decide)

theorem tenTo_add (m n : Nat) : tenTo (m + n) = tenTo m * tenTo n := Nat.pow_add 10 m n

theorem tenTo_le {m n : Nat} (h : m ≤ n) : tenTo m ≤ tenTo n := Nat.pow_le_pow_right (by decide) h

/-- Digits behind a number. -/
theorem ofDigitChars_eq (ds : List Char) (n : Nat) :
    Nat.ofDigitChars 10 ds n = tenTo ds.length * n + ofDigits ds :=
  Nat.ofDigitChars_eq_ofDigitChars_zero

theorem ofDigits_cons (c : Char) (cs : List Char) :
    ofDigits (c :: cs) = tenTo cs.length * (c.toNat - '0'.toNat) + ofDigits cs := by
  rw [ofDigits, Nat.ofDigitChars_cons, Nat.mul_zero, Nat.zero_add]
  exact ofDigitChars_eq cs _

theorem toNat_range_of_isDigit (h : c.isDigit = true) : 48 ≤ c.toNat ∧ c.toNat ≤ 57 := by
  simpa [Char.isDigit, ← Char.toNat_val, UInt32.le_iff_toNat_le] using h

/-- A digit stands for a number below ten, which is zero for the digit zero only. -/
theorem toNat_sub_of_isDigit (h : c.isDigit = true) :
    c.toNat - '0'.toNat ≤ 9 ∧ (c ≠ '0' → 0 < c.toNat - '0'.toNat) := by
  have hrange := toNat_range_of_isDigit h
  have hzero : '0'.toNat = 48 := rfl
  refine ⟨by omega, fun hne => ?_⟩
  have hne' : c.toNat ≠ 48 := fun heq => hne (Char.toNat_inj.1 (heq.trans hzero.symm))
  omega

/-- So many digits stand for less than that power of ten. -/
theorem ofDigits_lt (h : ∀ c ∈ ds, c.isDigit = true) : ofDigits ds < tenTo ds.length := by
  induction ds with
  | nil => exact Nat.one_pos
  | cons c ds ih =>
    rw [List.forall_mem_cons] at h
    have hc := (toNat_sub_of_isDigit h.1).1
    have hcons := ofDigits_cons c ds
    have hmul : tenTo ds.length * (c.toNat - '0'.toNat) ≤ tenTo ds.length * 9 :=
      Nat.mul_le_mul_left _ hc
    have hten : tenTo (c :: ds).length = tenTo ds.length * 10 := tenTo_add ds.length 1
    have hlt := ih h.2
    omega

/-- Digits that begin with another digit than zero stand for at least that power of ten. -/
theorem le_ofDigits (hc : c.isDigit = true) (hz : c ≠ '0') :
    tenTo cs.length ≤ ofDigits (c :: cs) := by
  rw [ofDigits_cons]
  have hpos := (toNat_sub_of_isDigit hc).2 hz
  have hmul : tenTo cs.length * 1 ≤ tenTo cs.length * (c.toNat - '0'.toNat) :=
    Nat.mul_le_mul_left _ hpos
  omega

/-! ## Digits that fit -/

/-- What has been appended and what is left over stand for the same number as before. -/
theorem ofDigitChars_appendFitting (n : Nat) (ds : List Char) :
    Nat.ofDigitChars 10 (appendFitting n ds).2 (appendFitting n ds).1 =
      Nat.ofDigitChars 10 ds n := by
  induction ds generalizing n with
  | nil => rfl
  | cons c ds ih =>
    rw [appendFitting]
    split
    · rw [ih, Nat.ofDigitChars_cons]
    · rfl

theorem le_appendFitting (n : Nat) (ds : List Char) : n ≤ (appendFitting n ds).1 := by
  induction ds generalizing n with
  | nil => exact Nat.le_refl n
  | cons c ds ih =>
    rw [appendFitting]
    split
    · exact Nat.le_trans (by omega) (ih _)
    · exact Nat.le_refl n

/-- What has been appended fits. -/
theorem appendFitting_lt (h : n < Binary64.twoTo 64) :
    (appendFitting n ds).1 < Binary64.twoTo 64 := by
  induction ds generalizing n with
  | nil => exact h
  | cons c ds ih =>
    rw [appendFitting]
    split
    · rename_i hfits
      refine ih ?_
      simp only [Word64.fitsUnsigned, Bool.and_eq_true, decide_eq_true_eq] at hfits
      have hwords : Binary64.twoTo 64 = 18446744073709551616 := rfl
      omega
    · exact h

theorem suffix_appendFitting (n : Nat) (ds : List Char) : (appendFitting n ds).2 <:+ ds := by
  induction ds generalizing n with
  | nil => exact List.suffix_rfl
  | cons c ds ih =>
    rw [appendFitting]
    split
    · exact (ih _).trans (List.suffix_cons c ds)
    · exact List.suffix_rfl

/-- The digits that fit make the number, up to the digits left over. -/
theorem appendFitting_spec (h : ∀ c ∈ ds, c.isDigit = true) :
    tenTo (appendFitting 0 ds).2.length * (appendFitting 0 ds).1 ≤ ofDigits ds ∧
      ofDigits ds < tenTo (appendFitting 0 ds).2.length * ((appendFitting 0 ds).1 + 1) := by
  have hvalue : ofDigits ds = tenTo (appendFitting 0 ds).2.length * (appendFitting 0 ds).1 +
      ofDigits (appendFitting 0 ds).2 :=
    (ofDigitChars_appendFitting 0 ds).symm.trans (ofDigitChars_eq _ _)
  have hrest : ofDigits (appendFitting 0 ds).2 < tenTo (appendFitting 0 ds).2.length :=
    ofDigits_lt fun c hc => h c ((suffix_appendFitting 0 ds).subset hc)
  rw [Nat.mul_add]
  omega

/-- A first digit other than zero always fits. -/
theorem appendFitting_pos (hc : c.isDigit = true) (hz : c ≠ '0') (cs : List Char) :
    0 < (appendFitting 0 (c :: cs)).1 := by
  obtain ⟨hnine, hpos⟩ := toNat_sub_of_isDigit hc
  have hfits : Word64.fitsUnsigned ((10 * 0 + (c.toNat - '0'.toNat) : Nat) : Int) = true := by
    simp only [Word64.fitsUnsigned, Bool.and_eq_true, decide_eq_true_eq]
    omega
  rw [appendFitting]
  rw [if_pos hfits]
  have hle := le_appendFitting (10 * 0 + (c.toNat - '0'.toNat)) cs
  have hpos := hpos hz
  omega

end Decimal

namespace Binary64

open Decimal

variable {negative : Bool} {x y : Binary64} {ds cs : List Char} {c : Char} {n e : Nat}

/-! ## Products -/

theorem isFinite_mul (h : x.units * y.units < unitsPerOne * maxUnits) :
    (x.mul y).isFinite = true := by
  refine isFinite_ofRatio (Nat.mul_pos unitsPerOne_pos unitsPerOne_pos) ?_
  rw [Nat.mul_right_comm unitsPerOne]
  exact Nat.mul_lt_mul_of_pos_right h unitsPerOne_pos

theorem not_isFinite_mul (h : unitsPerOne * twoTo 2098 ≤ x.units * y.units) :
    (x.mul y).isFinite = false := by
  refine not_isFinite_ofRatio (Nat.mul_pos unitsPerOne_pos unitsPerOne_pos) ?_
  rw [Nat.mul_right_comm unitsPerOne]
  exact Nat.mul_le_mul_right _ h

/-- The two factors of a scaled number, in units, against the product that is meant. -/
theorem units_factors (negative : Bool) (hn : n < twoTo 64) (he : e ≤ maxTenExponent) :
    16 * ((ofRatio negative n 1).units * (powerOfTen e).units) ≤
        25 * (unitsPerOne * (tenTo e * n * unitsPerOne)) ∧
      9 * (unitsPerOne * (tenTo e * n * unitsPerOne)) ≤
        16 * ((ofRatio negative n 1).units * (powerOfTen e).units) := by
  have hword : n * unitsPerOne < maxUnits :=
    Nat.lt_of_lt_of_le (Nat.mul_lt_mul_of_pos_right hn unitsPerOne_pos) (by decide +kernel)
  have hpower : tenTo e * unitsPerOne < maxUnits :=
    Nat.lt_of_le_of_lt (Nat.mul_le_mul_right _ (tenTo_le he)) (by decide +kernel)
  obtain ⟨hx, hx'⟩ := units_ofRatio_one negative hword
  obtain ⟨hy, hy'⟩ := units_ofRatio_one false hpower
  have hup := Nat.mul_le_mul hx hy
  have hdown := Nat.mul_le_mul hx' hy'
  rw [powerOfTen]
  generalize (ofRatio negative n 1).units = X at hup hdown
  generalize (ofRatio false (tenTo e) 1).units = Y at hup hdown
  generalize unitsPerOne = u at hup hdown
  generalize tenTo e = t at hup hdown
  constructor
  · calc 16 * (X * Y) = 4 * X * (4 * Y) := by ring
      _ ≤ 5 * (n * u) * (5 * (t * u)) := hup
      _ = 25 * (u * (t * n * u)) := by ring
  · calc 9 * (u * (t * n * u)) = 3 * (n * u) * (3 * (t * u)) := by ring
      _ ≤ 4 * X * (4 * Y) := hdown
      _ = 16 * (X * Y) := by ring

/-! ## Whole numbers -/

/-- What digits without a point and an exponent are read as: those that fit, times a power of ten
for each that does not. -/
def ofWholeDigits (negative : Bool) (ds : List Char) : Binary64 :=
  ofScaled negative (appendFitting 0 ds).1 (appendFitting 0 ds).2.length

theorem ofScaled_natCast (negative : Bool) (n e : Nat) :
    ofScaled negative n (e : Int) =
      if e ≤ maxTenExponent then (ofRatio negative n 1).mul (powerOfTen e)
      else if n = 0 then ofRatio negative n 1
      else ofCode negative infinityCode := rfl

theorem ofWholeDigits_of_le (h : (appendFitting 0 ds).2.length ≤ maxTenExponent) :
    ofWholeDigits negative ds =
      (ofRatio negative (appendFitting 0 ds).1 1).mul
        (powerOfTen (appendFitting 0 ds).2.length) := by
  rw [ofWholeDigits, ofScaled_natCast, if_pos h]

/-- Up to 308 digits stay in the range. -/
theorem isFinite_ofWholeDigits (hds : ∀ c ∈ ds, c.isDigit = true) (h : ds.length ≤ 308) :
    (ofWholeDigits negative ds).isFinite = true := by
  have hlength := (suffix_appendFitting 0 ds).length_le
  have hexponent : (appendFitting 0 ds).2.length ≤ maxTenExponent := by
    rw [maxTenExponent]
    omega
  have hfits : (appendFitting 0 ds).1 < twoTo 64 := appendFitting_lt (twoTo_pos 64)
  obtain ⟨hvalue, -⟩ := appendFitting_spec hds
  rw [ofWholeDigits_of_le hexponent]
  apply isFinite_mul
  obtain ⟨hup, -⟩ := units_factors negative hfits hexponent
  have hproduct : tenTo (appendFitting 0 ds).2.length * (appendFitting 0 ds).1 ≤ tenTo 308 :=
    Nat.le_trans hvalue (Nat.le_of_lt (Nat.lt_of_lt_of_le (ofDigits_lt hds) (tenTo_le h)))
  -- two roundings by a quarter leave the product of 308 digits below the greatest number
  have hrange : 25 * (tenTo 308 * unitsPerOne) < 16 * maxUnits := by decide +kernel
  generalize tenTo (appendFitting 0 ds).2.length * (appendFitting 0 ds).1 = m at hup hproduct
  have hm : 25 * (unitsPerOne * (m * unitsPerOne)) ≤
      unitsPerOne * (25 * (tenTo 308 * unitsPerOne)) := by
    rw [Nat.mul_left_comm]
    exact Nat.mul_le_mul_left _ (Nat.mul_le_mul_left _ (Nat.mul_le_mul_right _ hproduct))
  have hmax : unitsPerOne * (25 * (tenTo 308 * unitsPerOne)) < unitsPerOne * (16 * maxUnits) :=
    Nat.mul_lt_mul_of_pos_left hrange unitsPerOne_pos
  rw [Nat.mul_left_comm unitsPerOne 16] at hmax
  omega

/-- Digits that begin with another digit than zero, 310 or more, leave the range. -/
theorem not_isFinite_ofWholeDigits (hds : ∀ d ∈ c :: cs, d.isDigit = true) (hz : c ≠ '0')
    (h : 310 ≤ (c :: cs).length) : (ofWholeDigits negative (c :: cs)).isFinite = false := by
  have hc : c.isDigit = true := hds c List.mem_cons_self
  have hpos := appendFitting_pos hc hz cs
  by_cases hexponent : (appendFitting 0 (c :: cs)).2.length ≤ maxTenExponent
  · have hfits : (appendFitting 0 (c :: cs)).1 < twoTo 64 := appendFitting_lt (twoTo_pos 64)
    obtain ⟨-, hvalue⟩ := appendFitting_spec hds
    rw [ofWholeDigits_of_le hexponent]
    apply not_isFinite_mul
    obtain ⟨-, hdown⟩ := units_factors negative hfits hexponent
    have hlower : tenTo 309 ≤ ofDigits (c :: cs) := by
      refine Nat.le_trans (tenTo_le ?_) (le_ofDigits hc hz)
      rw [List.length_cons] at h
      omega
    generalize (appendFitting 0 (c :: cs)).2.length = e at hvalue hdown
    generalize (appendFitting 0 (c :: cs)).1 = n at hvalue hdown hpos
    -- the digits left over are worth less than one more in the last place of those that fit
    have hproduct : tenTo 309 ≤ 2 * (tenTo e * n) := by
      have hdouble : tenTo e * (n + 1) ≤ tenTo e * (2 * n) := Nat.mul_le_mul_left _ (by omega)
      rw [Nat.mul_left_comm] at hdouble
      omega
    have hrange : 32 * twoTo 2098 ≤ 9 * (tenTo 309 * unitsPerOne) := by decide +kernel
    generalize tenTo e * n = m at hdown hproduct
    have hm : 9 * (unitsPerOne * (tenTo 309 * unitsPerOne)) ≤
        9 * (unitsPerOne * (2 * m * unitsPerOne)) :=
      Nat.mul_le_mul_left _ (Nat.mul_le_mul_left _ (Nat.mul_le_mul_right _ hproduct))
    have hmin : unitsPerOne * (32 * twoTo 2098) ≤
        unitsPerOne * (9 * (tenTo 309 * unitsPerOne)) := Nat.mul_le_mul_left _ hrange
    rw [Nat.mul_left_comm unitsPerOne 32, Nat.mul_left_comm unitsPerOne 9] at hmin
    rw [Nat.mul_assoc 2, Nat.mul_left_comm unitsPerOne 2] at hm
    omega
  · rw [ofWholeDigits, ofScaled_natCast, if_neg hexponent, if_neg (Nat.ne_of_gt hpos)]
    exact not_isFinite_ofCode negative

end Binary64

end GuardedCall
