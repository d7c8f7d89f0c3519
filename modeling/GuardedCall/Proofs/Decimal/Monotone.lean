import GuardedCall.Proofs.Decimal.ReadBack
import Mathlib.Algebra.Order.Field.Rat
import Mathlib.Data.Nat.Cast.Order.Field
import Mathlib.Tactic.Linarith

/-!
# Rounding in the order of the numbers

A greater ratio rounds to a number that is not smaller, so what lies between a number and a decimal
that rounds to it rounds to this number too. Around a number there is room: whatever differs from it
by half of a `10 ^ 16`th part of it at most rounds to it.

Main definitions: `code`, `scaled`, `magnitude`.
Main statements: `code_mono`, `nearest_of_le_magnitude`, `nearest_of_magnitude_le`,
`nearest_of_near`.
-/

namespace GuardedCall

namespace Binary64

open Decimal

variable {negative : Bool} {a b a' b' c q : Nat} {x : Binary64}

/-! ## Order -/

theorem nearestEven_mono_left (h : a ≤ a') (b : Nat) : nearestEven a b ≤ nearestEven a' b := by
  have hq : a / b ≤ a' / b := Nat.div_le_div_right h
  rcases Nat.lt_or_eq_of_le hq with hlt | heq
  · exact Nat.le_trans (nearestEven_le a b) (Nat.le_trans hlt (le_nearestEven a' b))
  · -- the whole parts agree, so the rest decides
    have hdiv := Nat.div_add_mod a b
    have hdiv' := Nat.div_add_mod a' b
    have hrest : a % b ≤ a' % b := by
      rw [heq] at hdiv
      omega
    simp only [nearestEven, heq]
    split <;> split <;> omega

/-- A greater ratio rounds to a whole number that is not smaller. -/
theorem nearestEven_mono (hb : 0 < b) (hb' : 0 < b') (h : a * b' ≤ a' * b) :
    nearestEven a b ≤ nearestEven a' b' := by
  rw [← nearestEven_mul_left hb' a b, ← nearestEven_mul_left hb a' b', Nat.mul_comm b' b,
    Nat.mul_comm b' a, Nat.mul_comm b a']
  exact nearestEven_mono_left h _

/-- The bits of what a ratio rounds to, its sign and the end of the range apart. -/
def code (a b : Nat) : Nat := cut a b * hiddenBit + kept a b

theorem ofRatio_eq_ofCode_code (negative : Bool) (a b : Nat) :
    ofRatio negative a b = ofCode negative (min infinityCode (code a b)) := rfl

theorem log2_le_log2 {m n : Nat} (h : m ≤ n) : m.log2 ≤ n.log2 := by
  by_cases hzero : m = 0
  · subst hzero
    exact Nat.zero_le _
  · exact le_log2 (Nat.le_trans (twoTo_log2_le hzero) h)

theorem div_le_div_of_mul_le (hb : 0 < b) (hb' : 0 < b') (h : a * b' ≤ a' * b) :
    a / b ≤ a' / b' := by
  rw [← Nat.mul_div_mul_right a b hb', ← Nat.mul_div_mul_right a' b' hb, Nat.mul_comm b' b]
  exact Nat.div_le_div_right h

/-- A greater ratio has a code that is not smaller. -/
theorem code_mono (hb : 0 < b) (hb' : 0 < b') (h : a * b' ≤ a' * b) : code a b ≤ code a' b' := by
  have hunits : a * unitsPerOne * b' ≤ a' * unitsPerOne * b := by
    rw [Nat.mul_right_comm, Nat.mul_right_comm a']
    exact Nat.mul_le_mul_right _ h
  have hcut : cut a b ≤ cut a' b' :=
    Nat.sub_le_sub_right (log2_le_log2 (div_le_div_of_mul_le hb hb' hunits)) 52
  rcases Nat.lt_or_eq_of_le hcut with hlt | heq
  · -- a carry out of fewer bits does not reach what is kept of more
    have hkept := kept_le a b
    have hkept' := le_kept (Nat.lt_of_le_of_lt (Nat.zero_le _) hlt)
    have hstep : (cut a b + 1) * hiddenBit ≤ cut a' b' * hiddenBit := Nat.mul_le_mul_right _ hlt
    rw [Nat.add_mul] at hstep
    rw [code, code]
    omega
  · have hkept : kept a b ≤ kept a' b' := by
      rw [kept, kept, heq]
      refine nearestEven_mono (Nat.mul_pos hb (twoTo_pos _)) (Nat.mul_pos hb' (twoTo_pos _)) ?_
      rw [← Nat.mul_assoc, ← Nat.mul_assoc]
      exact Nat.mul_le_mul_right _ hunits
    rw [code, code, heq]
    exact Nat.add_le_add_left hkept _

/-- Codes in the range are told apart by the numbers that they make. -/
theorem ofCode_inj {k k' : Nat} (hk : k ≤ infinityCode) (hk' : k' ≤ infinityCode)
    (h : ofCode negative k = ofCode negative k') : k = k' := by
  have hbits : (ofCode negative k).bits.toNat = (ofCode negative k').bits.toNat := by rw [h]
  rw [toNat_ofCode hk, toNat_ofCode hk'] at hbits
  omega

/-- What lies between two ratios that round to one number rounds to it too. -/
theorem ofRatio_eq_of_between {a₁ b₁ a₂ b₂ : Nat} (hb₁ : 0 < b₁) (hb : 0 < b) (hb₂ : 0 < b₂)
    (h₁ : ofRatio negative a₁ b₁ = x) (h₂ : ofRatio negative a₂ b₂ = x)
    (hle₁ : (a₁ : ℚ) / b₁ ≤ a / b) (hle₂ : (a : ℚ) / b ≤ a₂ / b₂) : ofRatio negative a b = x := by
  rw [div_le_div_iff₀ (by exact_mod_cast hb₁) (by exact_mod_cast hb)] at hle₁
  rw [div_le_div_iff₀ (by exact_mod_cast hb) (by exact_mod_cast hb₂)] at hle₂
  have hcode₁ := code_mono hb₁ hb (by exact_mod_cast hle₁)
  have hcode₂ := code_mono hb hb₂ (by exact_mod_cast hle₂)
  rw [ofRatio_eq_ofCode_code] at h₁ h₂ ⊢
  have hends := ofCode_inj (Nat.min_le_left _ _) (Nat.min_le_left _ _) (h₁.trans h₂.symm)
  have hmid : min infinityCode (code a b) = min infinityCode (code a₁ b₁) := by omega
  rw [hmid, h₁]

/-! ## Decimals -/

/-- The number `digits * 10 ^ exponent`. -/
def scaled (digits : Nat) (exponent : Int) : ℚ := digits * 10 ^ exponent

theorem scaled_le_scaled {d d' : Nat} (h : d ≤ d') (e : Int) : scaled d e ≤ scaled d' e :=
  mul_le_mul_of_nonneg_right (by exact_mod_cast h) (zpow_nonneg (by norm_num) e)

theorem scaled_lt_scaled {d d' : Nat} (h : d < d') (e : Int) : scaled d e < scaled d' e :=
  mul_lt_mul_of_pos_right (by exact_mod_cast h) (zpow_pos (by norm_num) e)

theorem cast_tenTo (n : Nat) : (tenTo n : ℚ) = 10 ^ n := by
  rw [tenTo]
  exact Nat.cast_pow 10 n

theorem scaled_mul_tenTo (d k : Nat) (e : Int) : scaled (d * tenTo k) e = scaled d (e + k) := by
  rw [scaled, scaled, zpow_add₀ (by norm_num), Nat.cast_mul, cast_tenTo, zpow_natCast, mul_assoc,
    mul_comm (10 ^ e)]

theorem scaled_tenTo (k : Nat) (e : Int) : scaled (tenTo k) e = 10 ^ ((k : Int) + e) := by
  rw [scaled, cast_tenTo, zpow_add₀ (by norm_num), zpow_natCast]

/-- A decimal as the ratio that is rounded for it. -/
theorem scaled_eq_div (d : Nat) (e : Int) :
    scaled d e = ((d * tenTo e.toNat : Nat) : ℚ) / (tenTo (-e).toNat : Nat) := by
  rw [Nat.cast_mul, cast_tenTo, cast_tenTo, scaled, mul_div_assoc, ← zpow_natCast, ← zpow_natCast,
    ← zpow_sub₀ (by norm_num)]
  congr 2
  omega

/-- The magnitude of a finite number. -/
def magnitude (x : Binary64) : ℚ := x.units / unitsPerOne

/-- What lies between a number and a smaller decimal that rounds to it rounds to it too. -/
theorem nearest_of_le_magnitude {d d' : Nat} {e e' : Int} (hx : x.isFinite = true)
    (h : nearest x.negative d e = x) (hle : scaled d e ≤ scaled d' e')
    (hle' : scaled d' e' ≤ x.magnitude) : nearest x.negative d' e' = x := by
  rw [scaled_eq_div] at hle hle'
  rw [scaled_eq_div] at hle
  exact ofRatio_eq_of_between (tenTo_pos _) (tenTo_pos _) unitsPerOne_pos h (ofRatio_units hx)
    hle hle'

/-- What lies between a number and a greater decimal that rounds to it rounds to it too. -/
theorem nearest_of_magnitude_le {d d' : Nat} {e e' : Int} (hx : x.isFinite = true)
    (h : nearest x.negative d e = x) (hle : scaled d' e' ≤ scaled d e)
    (hle' : x.magnitude ≤ scaled d' e') : nearest x.negative d' e' = x := by
  rw [scaled_eq_div] at hle hle'
  rw [scaled_eq_div] at hle
  exact ofRatio_eq_of_between unitsPerOne_pos (tenTo_pos _) (tenTo_pos _) (ofRatio_units hx) h
    hle' hle

/-! ## Near ratios -/

/-- What is nearer than a half to a whole number rounds to it. -/
theorem nearestEven_eq (hb : 0 < b) (hlow : 2 * (b * q) < 2 * a + b)
    (hup : 2 * a < 2 * (b * q) + b) : nearestEven a b = q := by
  have hhalf := nearestEven_le_half a b
  have hhalf' := le_of_nearestEven hb a
  rcases Nat.lt_trichotomy (nearestEven a b) q with hlt | heq | hlt
  · have hmul : b * (nearestEven a b + 1) ≤ b * q := Nat.mul_le_mul_left b hlt
    rw [Nat.mul_add] at hmul
    omega
  · exact heq
  · have hmul : b * (q + 1) ≤ b * nearestEven a b := Nat.mul_le_mul_left b hlt
    rw [Nat.mul_add] at hmul
    omega

/-- So many bits are cut off that at most fifty-three are left, and fifty-three if any are. -/
theorem cut_eq (hb : 0 < b) (hlow : 0 < c → b * (hiddenBit * twoTo c) ≤ a * unitsPerOne)
    (hup : a * unitsPerOne < b * (2 * hiddenBit * twoTo c)) : cut a b = c := by
  have hdouble : 2 * hiddenBit * twoTo c = twoTo (52 + c + 1) := by
    rw [Nat.add_right_comm, twoTo_add]
    rfl
  have hupper : a * unitsPerOne / b < twoTo (52 + c + 1) := by
    rw [Nat.div_lt_iff_lt_mul hb, Nat.mul_comm (twoTo _), ← hdouble]
    exact hup
  have hlog := log2_le hupper
  rw [cut]
  rcases Nat.eq_zero_or_pos c with hc | hc
  · omega
  · have hlower : twoTo (52 + c) ≤ a * unitsPerOne / b := by
      rw [Nat.le_div_iff_mul_le hb, Nat.mul_comm (twoTo _), twoTo_add]
      exact hlow hc
    have hlog' := le_log2 hlower
    omega

/-- The code of a ratio that is nearer than a half to the bits that are kept. -/
theorem code_eq (hb : 0 < b) (hlow : 0 < c → b * twoTo c * hiddenBit ≤ a * unitsPerOne)
    (hup : a * unitsPerOne < b * twoTo c * (2 * hiddenBit))
    (hnear : 2 * (b * twoTo c * q) < 2 * (a * unitsPerOne) + b * twoTo c)
    (hnear' : 2 * (a * unitsPerOne) < 2 * (b * twoTo c * q) + b * twoTo c) :
    code a b = c * hiddenBit + q := by
  rw [Nat.mul_assoc, Nat.mul_comm (twoTo c)] at hlow hup
  rw [code, kept, cut_eq hb hlow hup, nearestEven_eq (Nat.mul_pos hb (twoTo_pos c)) hnear hnear']

theorem code_units (x : Binary64) :
    code x.units unitsPerOne = x.scale * hiddenBit + x.significand := by
  rw [code, cut_units, kept_units]

/-- Of a number of at most fifty-three bits, half of a `10 ^ 16`th part is less than half of the
last bit. -/
theorem near_of_parts {n m w : Nat} (hn : 0 < n) (hm : m ≤ n * (2 * hiddenBit))
    (hlow : (2 * 10 ^ 16 - 1) * m ≤ 2 * 10 ^ 16 * w)
    (hup : 2 * 10 ^ 16 * w ≤ (2 * 10 ^ 16 + 1) * m) : 2 * m < 2 * w + n ∧ 2 * w < 2 * m + n := by
  simp only [hiddenBit] at hm
  omega

section Near

variable (hb : 0 < b)
  (hlow : (2 * 10 ^ 16 - 1) * (b * twoTo x.scale * x.significand) ≤ 2 * 10 ^ 16 * (a * unitsPerOne))
  (hup : 2 * 10 ^ 16 * (a * unitsPerOne) ≤ (2 * 10 ^ 16 + 1) * (b * twoTo x.scale * x.significand))

include hb hlow hup

/-- Just below a power of two there is room for one bit more. -/
theorem code_eq_of_lt_power (hscale : 0 < x.scale)
    (hbelow : a * unitsPerOne < b * twoTo x.scale * hiddenBit) :
    code a b = x.scale * hiddenBit + x.significand := by
  have hpower : x.significand = hiddenBit := by
    refine Nat.le_antisymm (Nat.le_of_not_lt fun hlt => ?_) (x.hiddenBit_le_significand hscale)
    have hnext : b * twoTo x.scale * (hiddenBit + 1) ≤ b * twoTo x.scale * x.significand :=
      Nat.mul_le_mul_left _ hlt
    generalize a * unitsPerOne = w at *
    generalize b * twoTo x.scale = n at *
    simp only [hiddenBit] at hnext hbelow
    omega
  obtain ⟨c, hc⟩ := Nat.exists_eq_succ_of_ne_zero (Nat.ne_of_gt hscale)
  have hhalf : b * twoTo x.scale * x.significand = b * twoTo c * (2 * hiddenBit) := by
    rw [hpower, hc, Nat.succ_eq_add_one, twoTo_add, ← Nat.mul_assoc, Nat.mul_assoc (b * _)]
    rfl
  have hcode : x.scale * hiddenBit + x.significand = c * hiddenBit + 2 * hiddenBit := by
    rw [hpower, hc, Nat.succ_mul, Nat.add_assoc, Nat.two_mul]
  rw [← hpower, hhalf] at hbelow
  rw [hhalf] at hlow hup
  obtain ⟨hnear, hnear'⟩ :=
    near_of_parts (Nat.mul_pos hb (twoTo_pos c)) (Nat.le_refl _) hlow hup
  rw [hcode]
  refine code_eq hb (fun _ => ?_) hbelow hnear hnear'
  generalize a * unitsPerOne = w at *
  generalize b * twoTo c = n at *
  simp only [hiddenBit] at *
  omega

/-- Above a power of two, and among the least numbers, what is kept is the significand. -/
theorem code_eq_of_power_le
    (hbelow : 0 < x.scale → b * twoTo x.scale * hiddenBit ≤ a * unitsPerOne) :
    code a b = x.scale * hiddenBit + x.significand := by
  have hlt := x.significand_lt
  have hpos : 0 < b * twoTo x.scale := Nat.mul_pos hb (twoTo_pos _)
  have hmost : b * twoTo x.scale * x.significand ≤ b * twoTo x.scale * (2 * hiddenBit - 1) :=
    Nat.mul_le_mul_left _ (Nat.le_sub_one_of_lt hlt)
  obtain ⟨hnear, hnear'⟩ :=
    near_of_parts hpos (Nat.mul_le_mul_left _ (Nat.le_of_lt hlt)) hlow hup
  refine code_eq hb hbelow ?_ hnear hnear'
  generalize a * unitsPerOne = w at *
  generalize b * twoTo x.scale = n at *
  simp only [hiddenBit] at hmost ⊢
  omega

end Near

/-- A ratio that differs from a number by half of a `10 ^ 16`th part of it at most has its code. -/
theorem code_eq_code_units (hb : 0 < b)
    (hlow : (2 * 10 ^ 16 - 1) * (b * x.units) ≤ 2 * 10 ^ 16 * (a * unitsPerOne))
    (hup : 2 * 10 ^ 16 * (a * unitsPerOne) ≤ (2 * 10 ^ 16 + 1) * (b * x.units)) :
    code a b = code x.units unitsPerOne := by
  have hmul : b * x.units = b * twoTo x.scale * x.significand := by
    rw [units, Nat.mul_comm x.significand, Nat.mul_assoc]
  rw [hmul] at hlow hup
  rw [code_units]
  by_cases hcarry : 0 < x.scale ∧ a * unitsPerOne < b * twoTo x.scale * hiddenBit
  · exact code_eq_of_lt_power hb hlow hup hcarry.1 hcarry.2
  · exact code_eq_of_power_le hb hlow hup
      fun hscale => Nat.le_of_not_lt fun hlt => hcarry ⟨hscale, hlt⟩

/-- A decimal that differs from a number by half of a `10 ^ 16`th part of it at most rounds to
it. -/
theorem nearest_of_near {d : Nat} {e : Int} (hx : x.isFinite = true)
    (h : 2 * 10 ^ 16 * |scaled d e - x.magnitude| ≤ x.magnitude) :
    nearest x.negative d e = x := by
  rw [scaled_eq_div, magnitude] at h
  rw [nearest]
  have hb : 0 < tenTo (-e).toNat := tenTo_pos _
  generalize d * tenTo e.toNat = a at *
  generalize tenTo (-e).toNat = b at *
  have hbelow := neg_abs_le ((a : ℚ) / b - x.units / unitsPerOne)
  have habove := le_abs_self ((a : ℚ) / b - x.units / unitsPerOne)
  have hlow : (2 * 10 ^ 16 - 1) * (x.units : ℚ) / unitsPerOne ≤ 2 * 10 ^ 16 * a / b := by
    rw [mul_div_assoc, mul_div_assoc]
    linarith
  have hup : 2 * 10 ^ 16 * (a : ℚ) / b ≤ (2 * 10 ^ 16 + 1) * x.units / unitsPerOne := by
    rw [mul_div_assoc, mul_div_assoc]
    linarith
  have hb' : (0 : ℚ) < b := by exact_mod_cast hb
  have hu : (0 : ℚ) < (unitsPerOne : Nat) := by exact_mod_cast unitsPerOne_pos
  rw [div_le_div_iff₀ hu hb'] at hlow
  rw [div_le_div_iff₀ hb' hu] at hup
  have hcode : code a b = code x.units unitsPerOne := by
    refine code_eq_code_units hb ?_ ?_
    · have hnat : (19999999999999999 : ℚ) * (b * x.units) ≤
          20000000000000000 * (a * unitsPerOne) := by linarith
      exact_mod_cast hnat
    · have hnat : (20000000000000000 : ℚ) * (a * unitsPerOne) ≤
          20000000000000001 * (b * x.units) := by linarith
      exact_mod_cast hnat
  rw [ofRatio_eq_ofCode_code, hcode, ← ofRatio_eq_ofCode_code, ofRatio_units hx]

end Binary64

end GuardedCall
