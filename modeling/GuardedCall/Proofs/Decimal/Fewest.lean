import GuardedCall.Proofs.Decimal.Monotone
import GuardedCall.Proofs.Json.Numerals
import Mathlib.Tactic.FieldSimp

/-!
# The figures of a number are the shortest

No figures that stand for a number are shorter than those that are found for it, and none as short
are nearer to it. Any decimal of so many digits that rounds to a number has a whole number of steps
between itself and the number, and this one is a neighbour of the number or has a neighbour between;
so a neighbour rounds to the number as well, and is found. With seventeen digits the steps are so
small that the nearer neighbour rounds to the number in any case.

Main definitions: `Binary64.candidates`, `Figures.value`, `Figures.StandsFor`,
`Figures.Shortest`.
Main statements: `ofDecimal_of_nearest`, `exists_candidate_of_nearest`,
`exists_candidate_seventeen`, `shortest_figures`.
-/

namespace GuardedCall

namespace Binary64

open Decimal

variable {negative : Bool} {a b d n : Nat} {e : Int} {tie : Tie} {x : Binary64}

/-! ## Decimals that round to a number -/

theorem digits_ne_zero_of_nearest (hunits : x.units ≠ 0) (h : nearest x.negative d e = x) :
    d ≠ 0 := by
  rintro rfl
  rw [nearest_zero] at h
  apply hunits
  rw [← h]
  exact units_ofCode_zero _

/-- A decimal with a large exponent is beyond the range. -/
theorem not_isFinite_of_large (negative : Bool) (hd : d ≠ 0) {e : Nat} (he : 400 < e) :
    (ofRatio negative (d * tenTo e) 1).isFinite = false := by
  have hrange : twoTo 2098 ≤ tenTo 401 * unitsPerOne := by decide +kernel
  have hpower : tenTo 401 ≤ d * tenTo e :=
    Nat.le_trans (tenTo_le he) (Nat.le_mul_of_pos_left _ (Nat.pos_of_ne_zero hd))
  refine not_isFinite_ofRatio Nat.one_pos ?_
  rw [Nat.one_mul]
  exact Nat.le_trans hrange (Nat.mul_le_mul_right _ hpower)

/-- A decimal with an exponent far below zero rounds to zero. -/
theorem ofRatio_of_small (negative : Bool) {e : Nat} (he : 400 + d.log2 < e) :
    ofRatio negative d (tenTo (e + 1)) = ofCode negative 0 := by
  have hunits : 2 * (d * unitsPerOne) < tenTo (e + 1) := by
    have hlt : d < twoTo (d.log2 + 1) := Nat.lt_log2_self
    have htwo : 2 * (twoTo (d.log2 + 1) * unitsPerOne) = twoTo 1076 * twoTo d.log2 := by
      have hdouble : 2 = twoTo 1 := rfl
      rw [hdouble, unitsPerOne, ← twoTo_add, ← twoTo_add, ← twoTo_add]
      congr 1
      omega
    have hpowers : twoTo d.log2 ≤ tenTo d.log2 := Nat.pow_le_pow_left (by decide) _
    have hrange : twoTo 1076 ≤ tenTo 402 := by decide +kernel
    calc 2 * (d * unitsPerOne)
        < 2 * (twoTo (d.log2 + 1) * unitsPerOne) :=
          Nat.mul_lt_mul_of_pos_left (Nat.mul_lt_mul_of_pos_right hlt unitsPerOne_pos) Nat.two_pos
      _ = twoTo 1076 * twoTo d.log2 := htwo
      _ ≤ tenTo 402 * tenTo d.log2 := Nat.mul_le_mul hrange hpowers
      _ = tenTo (402 + d.log2) := (tenTo_add _ _).symm
      _ ≤ tenTo (e + 1) := tenTo_le (by omega)
  have hcode : code d (tenTo (e + 1)) = 0 * hiddenBit + 0 := by
    have hone : tenTo (e + 1) * twoTo 0 = tenTo (e + 1) := Nat.mul_one _
    have hlt : d * unitsPerOne < tenTo (e + 1) := by omega
    refine code_eq (tenTo_pos _) (fun hc => absurd hc (Nat.lt_irrefl 0)) ?_ ?_ ?_
    · rw [hone]
      exact Nat.lt_of_lt_of_le hlt (Nat.le_mul_of_pos_right _ (by decide))
    · rw [hone, Nat.mul_zero, Nat.mul_zero]
      exact Nat.lt_of_lt_of_le (tenTo_pos _) (Nat.le_add_left _ _)
    · rw [hone, Nat.mul_zero, Nat.mul_zero, Nat.zero_add]
      exact hunits
  rw [ofRatio_eq_ofCode_code, hcode]
  rfl

/-- Where the nearest number is finite and not zero, the decimal reader gives it. -/
theorem ofDecimal_of_nearest (h : nearest negative d e = x) (hx : x.isFinite = true)
    (hunits : x.units ≠ 0) : ofDecimal negative d e = x := by
  have hzero : ofCode negative 0 ≠ x := by
    rintro rfl
    exact hunits (units_ofCode_zero negative)
  have hd : d ≠ 0 := by
    rintro rfl
    exact hzero ((nearest_zero negative e).symm.trans h)
  cases e with
  | ofNat e =>
    rw [nearest_ofNat] at h
    rw [ofDecimal, if_neg hd]
    split
    · rename_i hlarge
      have hinfinite := not_isFinite_of_large negative hd hlarge
      rw [h, hx] at hinfinite
      cases hinfinite
    · exact h
  | negSucc e =>
    rw [nearest_negSucc] at h
    rw [ofDecimal]
    split
    · rename_i hsmall
      exact absurd ((ofRatio_of_small negative hsmall).symm.trans h) hzero
    · exact h

/-! ## The power of ten above a number -/

/-- So many digits, and no fewer. -/
theorem tenTo_length_natDigits (hn : 0 < n) :
    ∃ k, (natDigits n).length = k + 1 ∧ tenTo k ≤ n ∧ n < tenTo (k + 1) := by
  obtain ⟨c, cs, hcs, hc, hd⟩ := Json.natDigits_eq_cons hn
  have hdigits (b : Char) (hb : b ∈ c :: cs) : b.isDigit = true := by
    rw [← hcs] at hb
    exact isDigit_of_mem_natDigits hb
  have hvalue : ofDigits (c :: cs) = n := by rw [← hcs, ofDigits_natDigits]
  have hlow : tenTo cs.length ≤ ofDigits (c :: cs) := le_ofDigits hd hc
  have hup := ofDigits_lt hdigits
  rw [hvalue] at hlow hup
  exact ⟨cs.length, by rw [hcs, List.length_cons], hlow, hup⟩

/-- The decimal point tells between which powers of ten a number is. -/
theorem zpow_decimalPoint (hunits : x.units ≠ 0) :
    (10 : ℚ) ^ (x.decimalPoint - 1) ≤ x.magnitude ∧ x.magnitude < 10 ^ x.decimalPoint := by
  have hleast : unitsPerOne ≤ tenTo 330 := by decide +kernel
  have hpos : 0 < x.units * tenTo 330 / unitsPerOne := by
    refine Nat.div_pos ?_ unitsPerOne_pos
    exact Nat.le_trans hleast (Nat.le_mul_of_pos_left _ (Nat.pos_of_ne_zero hunits))
  obtain ⟨k, hlength, hlow, hup⟩ := tenTo_length_natDigits hpos
  rw [Nat.le_div_iff_mul_le unitsPerOne_pos] at hlow
  rw [Nat.div_lt_iff_lt_mul unitsPerOne_pos] at hup
  have hpoint : x.decimalPoint = (k + 1 : Nat) - (330 : Nat) := by
    rw [decimalPoint, hlength]
    rfl
  have hpoint' : x.decimalPoint - 1 = (k : Nat) - (330 : Nat) := by
    rw [hpoint]
    push_cast
    ring
  have hscale : (0 : ℚ) < 10 ^ 330 := by positivity
  have hunit : (0 : ℚ) < (unitsPerOne : Nat) := by exact_mod_cast unitsPerOne_pos
  rw [hpoint', hpoint, zpow_sub₀ (by norm_num), zpow_sub₀ (by norm_num), zpow_natCast, zpow_natCast,
    zpow_natCast, magnitude]
  rw [div_le_div_iff₀ hscale hunit, div_lt_div_iff₀ hunit hscale, ← cast_tenTo, ← cast_tenTo,
    ← cast_tenTo]
  exact ⟨by exact_mod_cast hlow, by exact_mod_cast hup⟩

end Binary64

namespace Decimal

open Binary64

variable {a b d m : Nat} {e : Int} {tie : Tie} {v : ℚ}

/-! ## Neighbours -/

/-- A ratio, in steps. -/
theorem inSteps_spec (hb : 0 < b) (a : Nat) (e : Int) :
    0 < (inSteps a b e).2 ∧
      ((inSteps a b e).1 : ℚ) / (inSteps a b e).2 * 10 ^ e = a / b := by
  have hb' : (b : ℚ) ≠ 0 := by exact_mod_cast Nat.ne_of_gt hb
  cases e with
  | ofNat e =>
    refine ⟨Nat.mul_pos hb (tenTo_pos e), ?_⟩
    rw [inSteps, Nat.cast_mul, cast_tenTo, Int.ofNat_eq_natCast, zpow_natCast]
    field_simp
  | negSucc e =>
    refine ⟨hb, ?_⟩
    rw [inSteps, Nat.cast_mul, cast_tenTo, zpow_negSucc]
    field_simp

/-- The neighbours of a ratio: it is whole, or they are those on either side, nearest first. -/
theorem neighbours_cases (tie : Tie) (hb : 0 < b) (hv : v = (a : ℚ) / b) :
    (∃ q : Nat, v = q ∧ neighbours tie a b = [q]) ∨
    (∃ q : Nat, q < v ∧ v ≤ q + 1 / 2 ∧ neighbours tie a b = [q, q + 1]) ∨
    ∃ q : Nat, q + 1 / 2 ≤ v ∧ v < q + 1 ∧ neighbours tie a b = [q + 1, q] := by
  have hb' : (0 : ℚ) < b := by exact_mod_cast hb
  have hdiv : (b : ℚ) * (a / b : Nat) + (a % b : Nat) = a := by exact_mod_cast Nat.div_add_mod a b
  have hsplit : v = (a / b : Nat) + (a % b : Nat) / (b : ℚ) := by
    rw [hv, ← hdiv]
    field_simp
  have hmod := Nat.mod_lt a hb
  rw [neighbours, hsplit]
  generalize a / b = q
  generalize a % b = r at hmod
  have hlt : (r : ℚ) / b < 1 := by
    rw [div_lt_one hb']
    exact_mod_cast hmod
  by_cases hzero : r = 0
  · left
    exact ⟨q, by simp [hzero], if_pos hzero⟩
  · rw [if_neg hzero]
    have hpos : 0 < (r : ℚ) / b := div_pos (by exact_mod_cast Nat.pos_of_ne_zero hzero) hb'
    right
    split
    · rename_i hnear
      have hhalf : (r : ℚ) / b ≤ 1 / 2 := by
        have hle : 2 * r ≤ b := by omega
        have hle' : 2 * (r : ℚ) ≤ b := by exact_mod_cast hle
        rw [div_le_iff₀ hb']
        linarith
      left
      exact ⟨q, by linarith, by linarith, rfl⟩
    · rename_i hfar
      have hhalf : 1 / 2 ≤ (r : ℚ) / b := by
        have hle : b ≤ 2 * r := by omega
        have hle' : (b : ℚ) ≤ 2 * r := by exact_mod_cast hle
        rw [le_div_iff₀ hb']
        linarith
      right
      exact ⟨q, by linarith, by linarith, rfl⟩

/-- Between a ratio and a whole number there is a neighbour. -/
theorem exists_neighbour_between (tie : Tie) (hb : 0 < b) (hv : v = (a : ℚ) / b) (m : Nat) :
    ∃ d ∈ neighbours tie a b, (m : ℚ) ≤ d ∧ (d : ℚ) ≤ v ∨ v ≤ d ∧ (d : ℚ) ≤ m := by
  have hwhole (q : Nat) : (m : ℚ) ≤ q ∨ (q + 1 : Nat) ≤ (m : ℚ) := by
    exact_mod_cast Nat.lt_or_ge q m |>.symm
  rcases neighbours_cases tie hb hv with ⟨q, hq, h⟩ | ⟨q, hlow, hup, h⟩ | ⟨q, hlow, hup, h⟩
  · refine ⟨q, by simp [h], ?_⟩
    rw [hq]
    exact (le_total (m : ℚ) q).imp (fun hm => ⟨hm, le_refl _⟩) fun hm => ⟨le_refl _, hm⟩
  · rcases hwhole q with hm | hm
    · exact ⟨q, by simp [h], Or.inl ⟨hm, by linarith⟩⟩
    · exact ⟨q + 1, by simp [h], Or.inr ⟨by push_cast; linarith, hm⟩⟩
  · rcases hwhole q with hm | hm
    · exact ⟨q, by simp [h], Or.inl ⟨hm, by linarith⟩⟩
    · exact ⟨q + 1, by simp [h], Or.inr ⟨by push_cast; linarith, hm⟩⟩

/-- Neighbours are in the order of their distances. -/
theorem pairwise_neighbours (tie : Tie) (hb : 0 < b) (hv : v = (a : ℚ) / b) :
    (neighbours tie a b).Pairwise fun d d' : Nat => |(d : ℚ) - v| ≤ |(d' : ℚ) - v| := by
  rcases neighbours_cases tie hb hv with ⟨q, hq, h⟩ | ⟨q, hlow, hup, h⟩ | ⟨q, hlow, hup, h⟩
  · rw [h]
    exact List.pairwise_singleton _ _
  · rw [h, List.pairwise_pair, Nat.cast_add_one, abs_of_nonpos (by linarith),
      abs_of_nonneg (by linarith)]
    linarith
  · rw [h, List.pairwise_pair, Nat.cast_add_one, abs_of_nonneg (by linarith),
      abs_of_nonpos (by linarith)]
    linarith

/-- The first neighbour is half a step away at most. -/
theorem exists_near_neighbour (tie : Tie) (hb : 0 < b) (hv : v = (a : ℚ) / b) :
    ∃ d ∈ neighbours tie a b, |(d : ℚ) - v| ≤ 1 / 2 := by
  rcases neighbours_cases tie hb hv with ⟨q, hq, h⟩ | ⟨q, hlow, hup, h⟩ | ⟨q, hlow, hup, h⟩
  · refine ⟨q, by simp [h], ?_⟩
    rw [hq, sub_self, abs_zero]
    norm_num
  · refine ⟨q, by simp [h], ?_⟩
    rw [abs_of_nonpos (by linarith)]
    linarith
  · refine ⟨q + 1, by simp [h], ?_⟩
    rw [Nat.cast_add_one, abs_of_nonneg (by linarith)]
    linarith

/-- A neighbour is less than a step away. -/
theorem lt_of_mem_neighbours (hb : 0 < b) (hv : v = (a : ℚ) / b) (hd : d ∈ neighbours tie a b) :
    (d : ℚ) < v + 1 := by
  rcases neighbours_cases tie hb hv with ⟨q, hq, h⟩ | ⟨q, hlow, hup, h⟩ | ⟨q, hlow, hup, h⟩
  · rw [h, List.mem_singleton] at hd
    subst hd
    linarith
  · rw [h, List.mem_pair] at hd
    rcases hd with rfl | rfl
    · linarith
    · push_cast
      linarith
  · rw [h, List.mem_pair] at hd
    rcases hd with rfl | rfl
    · push_cast
      linarith
    · linarith

end Decimal

namespace Binary64

open Decimal

variable {d n D : Nat} {E : Int} {tie : Tie} {x : Binary64}

/-! ## Candidates -/

/-- The step between decimals of so many digits, as a power of ten. -/
def step (x : Binary64) (count : Nat) : Int := x.decimalPoint - count

/-- The decimals of so many digits that are tried, in steps. -/
def candidates (tie : Tie) (x : Binary64) (count : Nat) : List Nat :=
  neighbours tie (inSteps x.units unitsPerOne (x.step count)).1
    (inSteps x.units unitsPerOne (x.step count)).2

theorem figuresOf?_eq (tie : Tie) (x : Binary64) (count : Nat) :
    figuresOf? tie x count =
      ((x.candidates tie count).find? fun d => ofDecimal x.negative d (x.step count) = x).map
        (Figures.ofScaled · (x.step count)) := rfl

theorem zpow_step_pos (x : Binary64) (n : Nat) : (0 : ℚ) < 10 ^ x.step n :=
  zpow_pos (by norm_num) _

/-- The candidates are the neighbours of the magnitude, in steps. -/
theorem exists_ratio_of_step (x : Binary64) (n : Nat) (tie : Tie) :
    ∃ a b : Nat, 0 < b ∧ x.magnitude / 10 ^ x.step n = (a : ℚ) / b ∧
      x.candidates tie n = neighbours tie a b := by
  obtain ⟨hb, hratio⟩ := inSteps_spec unitsPerOne_pos x.units (x.step n)
  refine ⟨_, _, hb, ?_, rfl⟩
  rw [magnitude, ← hratio, mul_div_cancel_right₀ _ (ne_of_gt (x.zpow_step_pos n))]

theorem scaled_step_sub (x : Binary64) (n d : Nat) :
    |scaled d (x.step n) - x.magnitude| =
      |(d : ℚ) - x.magnitude / 10 ^ x.step n| * 10 ^ x.step n := by
  have hstep := x.zpow_step_pos n
  rw [scaled, ← abs_of_pos hstep, ← abs_mul, abs_of_pos hstep, sub_mul,
    div_mul_cancel₀ _ (ne_of_gt hstep)]

/-- Between a number and a decimal in steps there is a candidate. -/
theorem exists_candidate_between (tie : Tie) (x : Binary64) (n m : Nat) :
    ∃ d ∈ x.candidates tie n,
      scaled m (x.step n) ≤ scaled d (x.step n) ∧ scaled d (x.step n) ≤ x.magnitude ∨
      x.magnitude ≤ scaled d (x.step n) ∧ scaled d (x.step n) ≤ scaled m (x.step n) := by
  obtain ⟨a, b, hb, hratio, hcandidates⟩ := x.exists_ratio_of_step n tie
  obtain ⟨d, hd, hbetween⟩ := exists_neighbour_between tie hb hratio m
  rw [← hcandidates] at hd
  have hstep := x.zpow_step_pos n
  rw [le_div_iff₀ hstep, div_le_iff₀ hstep] at hbetween
  simp only [scaled, mul_le_mul_iff_left₀ hstep]
  exact ⟨d, hd, hbetween⟩

/-- The candidates are in the order of their distances. -/
theorem pairwise_candidates (tie : Tie) (x : Binary64) (n : Nat) :
    (x.candidates tie n).Pairwise fun d d' =>
      |scaled d (x.step n) - x.magnitude| ≤ |scaled d' (x.step n) - x.magnitude| := by
  obtain ⟨a, b, hb, hratio, hcandidates⟩ := x.exists_ratio_of_step n tie
  rw [hcandidates]
  refine (pairwise_neighbours tie hb hratio).imp fun h => ?_
  rw [scaled_step_sub, scaled_step_sub]
  exact mul_le_mul_of_nonneg_right h (le_of_lt (x.zpow_step_pos n))

/-- A candidate is half a step away at most. -/
theorem exists_near_candidate (tie : Tie) (x : Binary64) (n : Nat) :
    ∃ d ∈ x.candidates tie n, |scaled d (x.step n) - x.magnitude| ≤ 10 ^ x.step n / 2 := by
  obtain ⟨a, b, hb, hratio, hcandidates⟩ := x.exists_ratio_of_step n tie
  obtain ⟨d, hd, hnear⟩ := exists_near_neighbour tie hb hratio
  rw [← hcandidates] at hd
  refine ⟨d, hd, ?_⟩
  have hscaled := mul_le_mul_of_nonneg_right hnear (le_of_lt (x.zpow_step_pos n))
  rw [scaled_step_sub]
  linarith

/-- A number is less steps than the next power of ten. -/
theorem magnitude_div_lt (hunits : x.units ≠ 0) (n : Nat) :
    x.magnitude / 10 ^ x.step n < tenTo n := by
  rw [div_lt_iff₀ (x.zpow_step_pos n)]
  show _ < scaled (tenTo n) (x.step n)
  rw [scaled_tenTo, step, add_sub_cancel]
  exact (zpow_decimalPoint hunits).2

/-- A candidate has no more digits than are tried, or is the next power of ten. -/
theorem le_of_mem_candidates (hunits : x.units ≠ 0) (hd : d ∈ x.candidates tie n) :
    d ≤ tenTo n := by
  obtain ⟨a, b, hb, hratio, hcandidates⟩ := x.exists_ratio_of_step n tie
  rw [hcandidates] at hd
  have hlt := lt_of_mem_neighbours hb hratio hd
  have hmagnitude := magnitude_div_lt hunits n
  have hnext : (d : ℚ) < (tenTo n + 1 : Nat) := by
    push_cast
    linarith
  exact Nat.le_of_lt_succ (by exact_mod_cast hnext)

/-- A decimal of so many digits has a number of steps between itself and the number. -/
theorem exists_steps_between (E : Int) (hunits : x.units ≠ 0) (hn : 0 < n) (hD : D < tenTo n) :
    ∃ m : Nat,
      scaled D E ≤ scaled m (x.step n) ∧ scaled m (x.step n) ≤ x.magnitude ∨
      x.magnitude ≤ scaled m (x.step n) ∧ scaled m (x.step n) ≤ scaled D E := by
  by_cases hE : x.step n ≤ E
  · -- the decimal is a number of steps itself
    refine ⟨D * tenTo (E - x.step n).toNat, ?_⟩
    have hsum : x.step n + ((E - x.step n).toNat : Int) = E := by omega
    rw [scaled_mul_tenTo, hsum]
    exact (le_total (scaled D E) x.magnitude).imp (fun h => ⟨le_refl _, h⟩) fun h => ⟨h, le_refl _⟩
  · -- the decimal is below the first power of ten that the number has
    obtain ⟨k, rfl⟩ := Nat.exists_eq_succ_of_ne_zero (Nat.ne_of_gt hn)
    have hpoint : (k : Int) + x.step (k + 1) = x.decimalPoint - 1 := by
      rw [step]
      omega
    have hpower : scaled (tenTo k) (x.step (k + 1)) = 10 ^ (x.decimalPoint - 1) := by
      rw [scaled_tenTo, hpoint]
    refine ⟨tenTo k, Or.inl ⟨?_, ?_⟩⟩
    · have hexponent : ((k + 1 : Nat) : Int) + E ≤ x.decimalPoint - 1 := by
        rw [step] at hE
        omega
      calc scaled D E ≤ scaled (tenTo (k + 1)) E := scaled_le_scaled (Nat.le_of_lt hD) E
        _ = 10 ^ (((k + 1 : Nat) : Int) + E) := scaled_tenTo _ _
        _ ≤ 10 ^ (x.decimalPoint - 1) := zpow_le_zpow_right₀ (by norm_num) hexponent
        _ = scaled (tenTo k) (x.step (k + 1)) := hpower.symm
    · rw [hpower]
      exact (zpow_decimalPoint hunits).1

/-- It takes a digit to round to another number than zero. -/
theorem pos_of_nearest (hunits : x.units ≠ 0) (hD : D < tenTo n) (h : nearest x.negative D E = x) :
    0 < n := by
  refine Nat.pos_of_ne_zero fun hzero => digits_ne_zero_of_nearest hunits h ?_
  subst hzero
  exact Nat.lt_one_iff.1 hD

/-- If a decimal of so many digits rounds to a number, then a candidate between them does. -/
theorem exists_candidate_of_nearest (tie : Tie) (hx : x.isFinite = true) (hunits : x.units ≠ 0)
    (hD : D < tenTo n) (h : nearest x.negative D E = x) :
    ∃ d ∈ x.candidates tie n, nearest x.negative d (x.step n) = x ∧
      (scaled D E ≤ scaled d (x.step n) ∧ scaled d (x.step n) ≤ x.magnitude ∨
        x.magnitude ≤ scaled d (x.step n) ∧ scaled d (x.step n) ≤ scaled D E) := by
  obtain ⟨m, hm⟩ := exists_steps_between E hunits (pos_of_nearest hunits hD h) hD
  obtain ⟨d, hd, hbetween⟩ := x.exists_candidate_between tie n m
  refine ⟨d, hd, ?_⟩
  rcases hm with ⟨hlow, hup⟩ | ⟨hlow, hup⟩
  · have hd : scaled D E ≤ scaled d (x.step n) ∧ scaled d (x.step n) ≤ x.magnitude := by
      rcases hbetween with ⟨hle, hle'⟩ | ⟨hle, hle'⟩ <;> constructor <;> linarith
    exact ⟨nearest_of_le_magnitude hx h hd.1 hd.2, .inl hd⟩
  · have hd : x.magnitude ≤ scaled d (x.step n) ∧ scaled d (x.step n) ≤ scaled D E := by
      rcases hbetween with ⟨hle, hle'⟩ | ⟨hle, hle'⟩ <;> constructor <;> linarith
    exact ⟨nearest_of_magnitude_le hx h hd.2 hd.1, .inr hd⟩

/-- What lies between two numbers is as near to one of them as the other. -/
theorem abs_sub_le_of_between {u v w : ℚ} (h : u ≤ v ∧ v ≤ w ∨ w ≤ v ∧ v ≤ u) :
    |v - w| ≤ |u - w| := by
  rcases h with ⟨hle, hle'⟩ | ⟨hle, hle'⟩
  · rw [abs_of_nonpos (by linarith), abs_of_nonpos (by linarith)]
    linarith
  · rw [abs_of_nonneg (by linarith), abs_of_nonneg (by linarith)]
    linarith

/-- Seventeen digits suffice. -/
theorem exists_candidate_seventeen (tie : Tie) (hx : x.isFinite = true) (hunits : x.units ≠ 0) :
    ∃ d ∈ x.candidates tie 17, nearest x.negative d (x.step 17) = x := by
  obtain ⟨d, hd, hnear⟩ := x.exists_near_candidate tie 17
  refine ⟨d, hd, nearest_of_near hx ?_⟩
  have hpoint : ((16 : Nat) : Int) + x.step 17 = x.decimalPoint - 1 := by
    rw [step]
    omega
  have hsteps : (10 : ℚ) ^ 16 * 10 ^ x.step 17 ≤ x.magnitude := by
    rw [← zpow_natCast, ← zpow_add₀ (by norm_num), hpoint]
    exact (zpow_decimalPoint hunits).1
  linarith

/-! ## The search -/

/-- A candidate that rounds to the number is found, or an earlier one is. -/
theorem figuresOf?_ne_none (hx : x.isFinite = true) (hunits : x.units ≠ 0)
    (hd : d ∈ x.candidates tie n) (h : nearest x.negative d (x.step n) = x) :
    figuresOf? tie x n ≠ none := by
  rw [figuresOf?_eq, ne_eq, Option.map_eq_none_iff, List.find?_eq_none]
  intro hnone
  exact hnone d hd (decide_eq_true (ofDecimal_of_nearest h hx hunits))

/-- Of the candidates that round to the number a nearest one is found. -/
theorem found_nearest {d' : Nat} (hx : x.isFinite = true) (hunits : x.units ≠ 0)
    (hfind : ((x.candidates tie n).find? fun d => ofDecimal x.negative d (x.step n) = x) = some d)
    (hd' : d' ∈ x.candidates tie n) (h : nearest x.negative d' (x.step n) = x) :
    |scaled d (x.step n) - x.magnitude| ≤ |scaled d' (x.step n) - x.magnitude| := by
  rw [List.find?_eq_some_iff_append] at hfind
  obtain ⟨-, before, after, hcandidates, hrejected⟩ := hfind
  have horder := pairwise_candidates tie x n
  rw [hcandidates, List.pairwise_append, List.pairwise_cons] at horder
  rw [hcandidates, List.mem_append, List.mem_cons] at hd'
  rcases hd' with hd' | rfl | hd'
  · have hnot := hrejected d' hd'
    simp [ofDecimal_of_nearest h hx hunits] at hnot
  · exact le_refl _
  · exact horder.2.1.1 d' hd'

/-- The figures of a number are the first ones that are found, by the number of their digits. -/
theorem exists_figures (tie : Tie) (hx : x.isFinite = true) (hunits : x.units ≠ 0) :
    ∃ n d, 0 < n ∧ x.figures tie = Figures.ofScaled d (x.step n) ∧
      ((x.candidates tie n).find? fun d => ofDecimal x.negative d (x.step n) = x) = some d ∧
      ∀ m, 0 < m → m < n → figuresOf? tie x m = none := by
  rw [figures]
  cases hfind : (List.range 17).findSome? fun n => x.figuresOf? tie (n + 1) with
  | none =>
    obtain ⟨d, hd, h⟩ := exists_candidate_seventeen tie hx hunits
    rw [List.findSome?_eq_none_iff] at hfind
    exact absurd (hfind 16 (by simp)) (figuresOf?_ne_none hx hunits hd h)
  | some f =>
    rw [List.findSome?_eq_some_iff] at hfind
    obtain ⟨before, n, after, hrange, hf, hbefore⟩ := hfind
    rw [figuresOf?_eq, Option.map_eq_some_iff] at hf
    obtain ⟨d, hd, rfl⟩ := hf
    refine ⟨n + 1, d, Nat.succ_pos n, rfl, hd, fun m hm hlt => ?_⟩
    -- fewer digits come before in the search
    have horder : (before ++ n :: after).Pairwise (· < ·) := hrange ▸ List.pairwise_lt_range
    rw [List.pairwise_append, List.pairwise_cons] at horder
    have hn : n < 17 := List.mem_range.1 (by simp [hrange])
    have hmem : m - 1 ∈ before ++ n :: after := hrange ▸ List.mem_range.2 (by omega)
    rw [List.mem_append, List.mem_cons] at hmem
    rcases hmem with hmem | hmem | hmem
    · have hnone := hbefore _ hmem
      rwa [Nat.sub_add_cancel hm] at hnone
    · omega
    · have hafter := horder.2.1.1 _ hmem
      omega

end Binary64

namespace Decimal

open Binary64

variable {d n : Nat} {e : Int} {f g : Figures} {tie : Tie} {x : Binary64}

/-! ## Shortest figures -/

/-- The value of figures. -/
def Figures.value (f : Figures) : ℚ := scaled (ofDigits f.digits) (f.point - f.digits.length)

/-- Figures in decimal digits that round to a number. -/
structure Figures.StandsFor (f : Figures) (x : Binary64) : Prop where
  isDigit : ∀ c ∈ f.digits, c.isDigit = true
  reads : f.nearest x.negative = x

/-- The figures of a number are the shortest: none that stand for it have fewer digits, and of those
with as many none are nearer. -/
structure Figures.Shortest (f : Figures) (x : Binary64) : Prop where
  standsFor : f.StandsFor x
  fewest : ∀ g : Figures, g.StandsFor x → f.digits.length ≤ g.digits.length
  nearest : ∀ g : Figures, g.StandsFor x → g.digits.length = f.digits.length →
    |f.value - x.magnitude| ≤ |g.value - x.magnitude|

theorem Figures.StandsFor.digits_ne_nil (h : f.StandsFor x) (hunits : x.units ≠ 0) :
    f.digits ≠ [] := by
  intro hnil
  refine Binary64.digits_ne_zero_of_nearest hunits h.reads ?_
  rw [hnil]
  rfl

/-- Shortest figures begin with another digit than zero. -/
theorem Figures.Shortest.head_ne_zero {c : Char} {cs : List Char}
    (h : f.Shortest x) (hcons : f.digits = c :: cs) : c ≠ '0' := by
  rintro rfl
  have hdigits := h.standsFor.isDigit
  rw [hcons, List.forall_mem_cons] at hdigits
  have hdropped : Figures.StandsFor ⟨cs, f.point - 1⟩ x := by
    refine ⟨hdigits.2, ?_⟩
    have hreads := h.standsFor.reads
    have hvalue : ofDigits ('0' :: cs) = ofDigits cs := ofDigits_zeros_append 1 cs
    have hexponent : f.point - ('0' :: cs).length = f.point - 1 - cs.length := by
      rw [List.length_cons]
      omega
    rw [Figures.nearest, hcons, hvalue, hexponent] at hreads
    exact hreads
  have hlength := h.fewest _ hdropped
  rw [hcons, List.length_cons] at hlength
  exact absurd hlength (Nat.not_succ_le_self _)

/-- Figures have the value of the digits and the exponent that they are made of. -/
theorem value_ofScaled (d : Nat) (e : Int) : (Figures.ofScaled d e).value = scaled d e := by
  obtain ⟨k, hvalue, hexponent⟩ := exists_ofScaled d e
  rw [Figures.value, hexponent, ← scaled_mul_tenTo, ← hvalue]

theorem length_natDigits_le (hn : 0 < n) (hd : d < tenTo n) : (natDigits d).length ≤ n :=
  (Nat.length_toDigits_le_iff (by decide) hn).2 hd

theorem natDigits_tenTo_succ (k : Nat) :
    natDigits (tenTo (k + 1)) = natDigits (tenTo k) ++ ['0'] := by
  have hten : tenTo (k + 1) = tenTo k * 10 := tenTo_add k 1
  have hpos := tenTo_pos k
  have hlast : Nat.digitChar 0 = '0' := rfl
  rw [hten, Json.natDigits_of_le (by omega), Nat.mul_div_cancel _ (by decide), Nat.mul_mod_left,
    hlast]

/-- A number of so many digits makes no more figures, and neither does the next power of ten. -/
theorem length_ofScaled_le (hn : 0 < n) (hd : d ≤ tenTo n) :
    (Figures.ofScaled d e).digits.length ≤ n := by
  have hdropped (m : Nat) :
      ((natDigits m).reverse.dropWhile (· == '0')).length ≤ (natDigits m).length := by
    exact Nat.le_trans (List.dropWhile_sublist _).length_le (Nat.le_of_eq List.length_reverse)
  rw [Figures.ofScaled, List.length_reverse]
  rcases Nat.lt_or_eq_of_le hd with hlt | rfl
  · exact Nat.le_trans (hdropped d) (length_natDigits_le hn hlt)
  · -- the last digit of the power of ten is zero
    obtain ⟨k, rfl⟩ := Nat.exists_eq_succ_of_ne_zero (Nat.ne_of_gt hn)
    have hless : tenTo k < tenTo (k + 1) := Nat.pow_lt_pow_right (by decide) k.lt_succ_self
    rw [natDigits_tenTo_succ, List.reverse_append]
    exact Nat.le_trans (hdropped (tenTo k)) (length_natDigits_le hn hless)

/-- Figures with fewer digits than have been found do not stand for the number. -/
theorem Figures.StandsFor.le_length {g : Figures} (hg : g.StandsFor x) (hx : x.isFinite = true)
    (hunits : x.units ≠ 0) (hbefore : ∀ m, 0 < m → m < n → figuresOf? tie x m = none) :
    n ≤ g.digits.length := by
  refine Nat.le_of_not_lt fun hlt => ?_
  have hdigits := ofDigits_lt hg.isDigit
  obtain ⟨d, hd, hreads, -⟩ := exists_candidate_of_nearest tie hx hunits hdigits hg.reads
  exact figuresOf?_ne_none hx hunits hd hreads
    (hbefore _ (pos_of_nearest hunits hdigits hg.reads) hlt)

/-- The figures that are found for a number are the shortest. -/
theorem shortest_figures (tie : Tie) (hx : x.isFinite = true) (hunits : x.units ≠ 0) :
    (x.figures tie).Shortest x := by
  obtain ⟨n, d, hn, hfigures, hfind, hbefore⟩ := exists_figures tie hx hunits
  have hmem := List.mem_of_find?_eq_some hfind
  have hlength : (x.figures tie).digits.length ≤ n := by
    rw [hfigures]
    exact length_ofScaled_le hn (le_of_mem_candidates hunits hmem)
  refine ⟨⟨fun c => Json.isDigit_of_mem_figures, nearest_figures tie hx hunits⟩,
    fun g hg => Nat.le_trans hlength (hg.le_length hx hunits hbefore), fun g hg hsame => ?_⟩
  -- a nearer candidate would have been found before
  have hdigits : ofDigits g.digits < tenTo n :=
    Nat.lt_of_lt_of_le (ofDigits_lt hg.isDigit) (tenTo_le (hsame ▸ hlength))
  obtain ⟨d', hd', hreads, hbetween⟩ := exists_candidate_of_nearest tie hx hunits hdigits hg.reads
  rw [hfigures, value_ofScaled]
  exact le_trans (found_nearest hx hunits hfind hd' hreads) (abs_sub_le_of_between hbetween)

end Decimal

end GuardedCall
