import GuardedCall.Proofs.Decimal.Fewest

/-!
# Ties between shortest figures

Two shortest figures of a number are equally near to it only if they are neighbours, on either side
of it, and then one of them ends with an even digit. So a number has one shortest text that is
nearest, ties to even, and these are the figures that are found.

Main definition: `Figures.Canonical`.
Main statements: `Figures.Canonical.unique`, `canonical_figures`.
-/

namespace GuardedCall

namespace Decimal

open Binary64

variable {c : Char} {cs ds ds' : List Char} {f g : Figures} {x : Binary64}

/-! ## Figures and their values -/

/-- Equally many digits stand for different numbers. -/
theorem ofDigits_inj (hds : ∀ c ∈ ds, c.isDigit = true) (hds' : ∀ c ∈ ds', c.isDigit = true)
    (hlength : ds.length = ds'.length) (h : ofDigits ds = ofDigits ds') : ds = ds' := by
  induction ds generalizing ds' with
  | nil => exact (List.eq_nil_of_length_eq_zero hlength.symm).symm
  | cons c cs ih =>
    cases ds' with
    | nil => cases hlength
    | cons c' cs' =>
      rw [List.forall_mem_cons] at hds hds'
      have hlength := Nat.succ.inj hlength
      have hlt := ofDigits_lt hds.2
      have hlt' := ofDigits_lt hds'.2
      rw [ofDigits_cons, ofDigits_cons, ← hlength] at h
      rw [← hlength] at hlt'
      have hhead := congrArg (· / tenTo cs.length) h
      simp only [Nat.mul_add_div (tenTo_pos _), Nat.div_eq_of_lt hlt, Nat.div_eq_of_lt hlt',
        Nat.add_zero] at hhead
      have hrest : ofDigits cs = ofDigits cs' := by
        rw [hhead] at h
        exact Nat.add_left_cancel h
      have hrange := toNat_range_of_isDigit hds.1
      have hrange' := toNat_range_of_isDigit hds'.1
      have hzero : '0'.toNat = 48 := rfl
      have hchar : c = c' := Char.toNat_inj.1 (by omega)
      rw [hchar, ih hds.2 hds'.2 hlength hrest]

/-- Figures that begin with another digit than zero are between two powers of ten. -/
theorem Figures.zpow_point (hf : ∀ c ∈ f.digits, c.isDigit = true) (hcons : f.digits = c :: cs)
    (hc : c ≠ '0') : (10 : ℚ) ^ (f.point - 1) ≤ f.value ∧ f.value < 10 ^ f.point := by
  have hlow : tenTo cs.length ≤ ofDigits f.digits := by
    rw [hcons]
    exact le_ofDigits (hf c (by simp [hcons])) hc
  have hup := ofDigits_lt hf
  have hlow' : scaled (tenTo cs.length) (f.point - f.digits.length) ≤ f.value :=
    scaled_le_scaled hlow _
  have hup' : f.value < scaled (tenTo f.digits.length) (f.point - f.digits.length) :=
    scaled_lt_scaled hup _
  rw [scaled_tenTo] at hlow' hup'
  have hpoint : (cs.length : Int) + (f.point - f.digits.length) = f.point - 1 := by
    rw [hcons, List.length_cons]
    omega
  have hpoint' : (f.digits.length : Int) + (f.point - f.digits.length) = f.point := by omega
  rw [hpoint] at hlow'
  rw [hpoint'] at hup'
  exact ⟨hlow', hup'⟩

namespace Figures.Shortest

variable (hf : f.Shortest x) (hg : g.Shortest x) (hunits : x.units ≠ 0)

include hf hg in
theorem length_eq : f.digits.length = g.digits.length :=
  Nat.le_antisymm (hf.fewest g hg.standsFor) (hg.fewest f hf.standsFor)

include hf hg in
theorem distance_eq : |f.value - x.magnitude| = |g.value - x.magnitude| :=
  le_antisymm (hf.nearest g hg.standsFor (hf.length_eq hg).symm)
    (hg.nearest f hf.standsFor (hf.length_eq hg))

include hf hunits in
theorem zpow_point : (10 : ℚ) ^ (f.point - 1) ≤ f.value ∧ f.value < 10 ^ f.point := by
  obtain ⟨c, cs, hcons⟩ := List.exists_cons_of_ne_nil (hf.standsFor.digits_ne_nil hunits)
  exact Figures.zpow_point hf.standsFor.isDigit hcons (hf.head_ne_zero hcons)

include hf hg hunits in
theorem point_le (h : f.value ≤ g.value) : f.point ≤ g.point := by
  have hpowers : (10 : ℚ) ^ (f.point - 1) < 10 ^ g.point :=
    lt_of_le_of_lt ((hf.zpow_point hunits).1.trans h) (hg.zpow_point hunits).2
  rw [zpow_lt_zpow_iff_right₀ (by norm_num)] at hpowers
  omega

include hf hg hunits in
/-- Shortest figures of a number are told apart by their values. -/
theorem eq_of_value_eq (h : f.value = g.value) : f = g := by
  have hpoint : f.point = g.point :=
    le_antisymm (hf.point_le hg hunits h.le) (hg.point_le hf hunits h.ge)
  have hlength := hf.length_eq hg
  rw [Figures.value, Figures.value, ← hpoint, ← hlength] at h
  have hnumber : ofDigits f.digits = ofDigits g.digits := by
    rcases Nat.lt_trichotomy (ofDigits f.digits) (ofDigits g.digits) with hlt | heq | hlt
    · exact absurd h (ne_of_lt (scaled_lt_scaled hlt _))
    · exact heq
    · exact absurd h (ne_of_gt (scaled_lt_scaled hlt _))
  have hdigits := ofDigits_inj hf.standsFor.isDigit hg.standsFor.isDigit hlength hnumber
  cases f
  cases g
  simp_all

end Figures.Shortest

/-! ## Nothing between -/

/-- What lies between figures of a number on either side of it stands for the number too. -/
theorem Figures.StandsFor.of_between {h : Figures} (hx : x.isFinite = true) (hf : f.StandsFor x)
    (hg : g.StandsFor x) (hdigits : ∀ c ∈ h.digits, c.isDigit = true)
    (hlow : f.value ≤ h.value) (hup : h.value ≤ g.value) : h.StandsFor x := by
  refine ⟨hdigits, ?_⟩
  rcases le_total h.value x.magnitude with hle | hle
  · exact nearest_of_le_magnitude hx hf.reads hlow hle
  · exact nearest_of_magnitude_le hx hg.reads hup hle

/-- Between two shortest figures of a number there are no figures as short. -/
theorem Figures.Shortest.not_between {h : Figures} (hx : x.isFinite = true) (hf : f.Shortest x)
    (hg : g.Shortest x) (hdigits : ∀ c ∈ h.digits, c.isDigit = true)
    (hlength : h.digits.length = f.digits.length) (hlow : f.value < h.value) :
    g.value ≤ h.value := by
  refine le_of_not_gt fun hup => ?_
  have hstands := hf.standsFor.of_between hx hg.standsFor hdigits hlow.le hup.le
  have hnear := hf.nearest h hstands hlength
  have hsame := hf.distance_eq hg
  -- the number is in the middle, and what is between is nearer
  rcases le_total h.value x.magnitude with hle | hle
  · rw [abs_of_nonpos (by linarith), abs_of_nonpos (by linarith)] at hnear
    linarith
  · rw [hsame, abs_of_nonneg (by linarith), abs_of_nonneg (by linarith)] at hnear
    linarith

/-! ## One of two -/

/-- The shortest figures of a number, those with an even last digit if there are two. -/
structure Figures.Canonical (f : Figures) (x : Binary64) : Prop where
  shortest : f.Shortest x
  even : ∀ g : Figures, g.Shortest x → g = f ∨ ofDigits f.digits % 2 = 0

theorem length_natDigits_eq {n k : Nat} (hlow : tenTo k ≤ n) (hup : n < tenTo (k + 1)) :
    (natDigits n).length = k + 1 := by
  refine Nat.le_antisymm (length_natDigits_le (Nat.succ_pos k) hup) ?_
  refine Nat.lt_of_not_le fun hle => Nat.not_lt.2 hlow ?_
  calc n = ofDigits (natDigits n) := (ofDigits_natDigits n).symm
    _ < tenTo (natDigits n).length := ofDigits_lt fun c => isDigit_of_mem_natDigits
    _ ≤ tenTo k := tenTo_le hle

namespace Figures.Shortest

variable (hx : x.isFinite = true) (hf : f.Shortest x) (hg : g.Shortest x) (hunits : x.units ≠ 0)

include hx hf hg hunits

/-- Shortest figures with the same point differ in the last digit by one. -/
theorem ofDigits_le_of_point_eq (hpoint : f.point = g.point) :
    ofDigits g.digits ≤ ofDigits f.digits + 1 := by
  refine Nat.le_of_not_lt fun hlt => ?_
  obtain ⟨c, cs, hcons⟩ := List.exists_cons_of_ne_nil (hf.standsFor.digits_ne_nil hunits)
  have hsame := hf.length_eq hg
  have hlow : tenTo cs.length ≤ ofDigits f.digits + 1 := by
    have hfirst : tenTo cs.length ≤ ofDigits (c :: cs) :=
      le_ofDigits (hf.standsFor.isDigit c (by simp [hcons])) (hf.head_ne_zero hcons)
    rw [hcons]
    exact Nat.le_succ_of_le hfirst
  have hup : ofDigits f.digits + 1 < tenTo (cs.length + 1) := by
    have hlast := ofDigits_lt hg.standsFor.isDigit
    rw [← hsame, hcons, List.length_cons] at hlast
    exact Nat.lt_trans hlt hlast
  have hlength : (natDigits (ofDigits f.digits + 1)).length = f.digits.length := by
    rw [length_natDigits_eq hlow hup, hcons, List.length_cons]
  -- the digits that stand for one more are between
  have hvalue : (⟨natDigits (ofDigits f.digits + 1), f.point⟩ : Figures).value =
      scaled (ofDigits f.digits + 1) (f.point - f.digits.length) := by
    rw [Figures.value]
    dsimp only
    rw [ofDigits_natDigits, hlength]
  have hbelow := scaled_lt_scaled (Nat.lt_succ_self (ofDigits f.digits)) (f.point - f.digits.length)
  have habove := scaled_lt_scaled hlt (f.point - f.digits.length)
  have hbetween := hf.not_between hx hg (fun c => isDigit_of_mem_natDigits) hlength
    (by rw [hvalue]; exact hbelow)
  rw [hvalue, Figures.value, ← hpoint, ← hsame] at hbetween
  exact absurd hbetween (not_le_of_gt habove)

/-- If the points of shortest figures differ, those with the greater one are a power of ten. -/
theorem ofDigits_eq_one_of_point_lt (hpoint : f.point < g.point) : ofDigits g.digits = 1 := by
  have hone : ∀ c ∈ ['1'], c.isDigit = true := List.forall_mem_singleton.2 rfl
  have hvalue : (⟨['1'], f.point + 1⟩ : Figures).value = 10 ^ f.point := by
    have hexponent : f.point + 1 - ((['1'] : List Char).length : Int) = f.point := by simp
    have hdigit : ofDigits ['1'] = tenTo 0 := rfl
    rw [Figures.value]
    dsimp only
    rw [hexponent, hdigit, scaled_tenTo, Nat.cast_zero, zero_add]
  have hlow := (hf.zpow_point hunits).2
  have hpowers : (10 : ℚ) ^ f.point ≤ 10 ^ (g.point - 1) :=
    zpow_le_zpow_right₀ (by norm_num) (by omega)
  have hup := hpowers.trans (hg.zpow_point hunits).1
  rw [← hvalue] at hlow hup
  -- the power of ten between them has one digit, so all shortest figures have one
  have hstands := hf.standsFor.of_between hx hg.standsFor hone hlow.le hup
  have hlength : (['1'] : List Char).length = f.digits.length :=
    Nat.le_antisymm (List.length_pos_iff.2 (hf.standsFor.digits_ne_nil hunits))
      (hf.fewest _ hstands)
  have hbetween := hf.not_between hx hg hone hlength hlow
  rw [hvalue, Figures.value, ← hf.length_eq hg, ← hlength] at hbetween
  have hpos := digits_ne_zero_of_nearest hunits hg.standsFor.reads
  refine Nat.le_antisymm (Nat.le_of_not_lt fun hlt => ?_) (Nat.pos_of_ne_zero hpos)
  have habove := scaled_lt_scaled hlt (g.point - (['1'] : List Char).length)
  have hdigit : scaled 1 (g.point - (['1'] : List Char).length) = 10 ^ (g.point - 1) := by
    rw [scaled, Nat.cast_one, one_mul]
    rfl
  linarith

end Figures.Shortest

/-- A number has one canonical text. -/
theorem Figures.Canonical.unique (hx : x.isFinite = true) (hunits : x.units ≠ 0)
    (hf : f.Canonical x) (hg : g.Canonical x) : f = g := by
  have hshortest := hf.shortest
  have hshortest' := hg.shortest
  by_contra hne
  have hvalue : f.value ≠ g.value :=
    fun h => hne (hshortest.eq_of_value_eq hshortest' hunits h)
  wlog hlt : f.value < g.value generalizing f g
  · exact this hg hf hshortest' hshortest (Ne.symm hne) hvalue.symm
      (lt_of_le_of_ne (not_lt.1 hlt) hvalue.symm)
  have heven := (hf.even g hshortest').resolve_left (Ne.symm hne)
  have heven' := (hg.even f hshortest).resolve_left hne
  rcases lt_or_eq_of_le (hshortest.point_le hshortest' hunits hlt.le) with hpoint | hpoint
  · rw [hshortest.ofDigits_eq_one_of_point_lt hx hshortest' hunits hpoint] at heven'
    cases heven'
  · have hnext := hshortest.ofDigits_le_of_point_eq hx hshortest' hunits hpoint
    have hless : ofDigits f.digits < ofDigits g.digits := by
      refine Nat.lt_of_not_le fun hle => not_le_of_gt hlt ?_
      rw [Figures.value, Figures.value, ← hpoint, ← hshortest.length_eq hshortest']
      exact scaled_le_scaled hle _
    omega

end Decimal

namespace Binary64

open Decimal

variable {negative : Bool} {a b d d' : Nat} {e : Int} {v : ℚ} {x : Binary64}

/-! ## The rule for ties -/

/-- In the middle the even neighbour is the first one. -/
theorem neighbours_of_middle {q : Nat} (hb : 0 < b) (h : 2 * a = b * (2 * q + 1)) :
    neighbours .even a b = if q % 2 = 0 then [q, q + 1] else [q + 1, q] := by
  have hsplit : 2 * a = 2 * (b * q) + b := by
    rw [h, Nat.mul_add, Nat.mul_one, Nat.mul_left_comm]
  obtain ⟨r, hr⟩ : ∃ r, a = b * q + r := Nat.exists_eq_add_of_le (by omega)
  have hhalf : 2 * r = b := by omega
  have hrest : a % b = r := by
    rw [hr, Nat.mul_add_mod, Nat.mod_eq_of_lt (by omega)]
  have hwhole : a / b = q := by
    rw [hr, Nat.mul_add_div hb, Nat.div_eq_of_lt (by omega), Nat.add_zero]
  have hzero : ¬ r = 0 := by omega
  rw [neighbours, hrest, hwhole]
  simp only [hzero, if_false, hhalf, Nat.lt_irrefl, false_or, true_and]

theorem double_eq_of_middle {q : Nat} (hb : 0 < b) (hv : v = (a : ℚ) / b) (h : v = q + 1 / 2) :
    2 * a = b * (2 * q + 1) := by
  have hb' : (0 : ℚ) < b := by exact_mod_cast hb
  rw [hv, div_eq_iff (ne_of_gt hb')] at h
  have hrat : (2 : ℚ) * a = b * (2 * q + 1) := by
    rw [h]
    ring
  exact_mod_cast hrat

/-- If two are accepted, the first one is found. -/
theorem eq_of_find?_pair {p : Nat → Bool} {i j : Nat} (hfind : [i, j].find? p = some d)
    (hd' : d' ∈ [i, j]) (hp : p d' = true) (hne : d ≠ d') : d = i ∧ d' = j := by
  rw [List.mem_pair] at hd'
  rw [List.find?_cons] at hfind
  split at hfind
  · have hfirst := Option.some.inj hfind
    exact ⟨hfirst.symm, hd'.resolve_left fun h => hne (hfirst.symm.trans h.symm)⟩
  · rename_i hrejected
    have hlast : d = j := List.mem_singleton.1 (List.mem_of_find?_eq_some hfind)
    rcases hd' with rfl | rfl
    · rw [hp] at hrejected
      cases hrejected
    · exact absurd hlast hne

/-- The one of two equally near candidates that is found is even, and they are on either side of the
middle. -/
theorem found_even {p : Nat → Bool} (hb : 0 < b) (hv : v = (a : ℚ) / b)
    (hfind : (neighbours .even a b).find? p = some d) (hd' : d' ∈ neighbours .even a b)
    (hp : p d' = true) (hne : d ≠ d') (h : |(d : ℚ) - v| = |(d' : ℚ) - v|) :
    d % 2 = 0 ∧ ∃ q : Nat, v = q + 1 / 2 ∧ (d = q ∧ d' = q + 1 ∨ d = q + 1 ∧ d' = q) := by
  rcases neighbours_cases .even hb hv with ⟨q, hq, hlist⟩ | ⟨q, hlow, hup, hlist⟩ |
    ⟨q, hlow, hup, hlist⟩
  · have hd := List.mem_of_find?_eq_some hfind
    rw [hlist, List.mem_singleton] at hd hd'
    exact absurd (hd.trans hd'.symm) hne
  · rw [hlist] at hfind hd'
    obtain ⟨rfl, rfl⟩ := eq_of_find?_pair hfind hd' hp hne
    rw [Nat.cast_add_one, abs_of_nonpos (by linarith), abs_of_nonneg (by linarith)] at h
    have hmiddle : v = d + 1 / 2 := by linarith
    rw [neighbours_of_middle hb (double_eq_of_middle hb hv hmiddle)] at hlist
    refine ⟨Decidable.byContradiction fun hodd => ?_, d, hmiddle, .inl ⟨rfl, rfl⟩⟩
    rw [if_neg hodd] at hlist
    exact absurd (List.cons.inj hlist).1 (Nat.succ_ne_self d)
  · rw [hlist] at hfind hd'
    obtain ⟨rfl, rfl⟩ := eq_of_find?_pair hfind hd' hp hne
    rw [Nat.cast_add_one, abs_of_nonneg (by linarith), abs_of_nonpos (by linarith)] at h
    have hmiddle : v = d' + 1 / 2 := by linarith
    rw [neighbours_of_middle hb (double_eq_of_middle hb hv hmiddle)] at hlist
    have hodd : ¬ d' % 2 = 0 := by
      intro heven
      rw [if_pos heven] at hlist
      exact absurd (List.cons.inj hlist).1.symm (Nat.succ_ne_self d')
    exact ⟨by omega, d', hmiddle, .inr ⟨rfl, rfl⟩⟩

/-- What a finite number has been rounded from, in its units. -/
theorem units_of_ofRatio (hx : x.isFinite = true) (h : ofRatio negative a b = x) :
    x.units = kept a b * twoTo (cut a b) := by
  subst h
  rw [ofRatio_eq_ofCode] at hx ⊢
  rcases Nat.le_total (cut a b * hiddenBit + kept a b) infinityCode with hcode | hcode
  · rw [Nat.min_eq_right hcode]
    exact units_ofCode (kept_le a b) le_kept hcode
  · rw [Nat.min_eq_left hcode, not_isFinite_ofCode] at hx
    cases hx

/-- Nine steps do not round to nine and a half: above one the rounding is finer, and below one no
number is so many halves of a step. -/
theorem magnitude_ne_of_nearest (hx : x.isFinite = true) (h : nearest x.negative 9 e = x) :
    x.magnitude ≠ 19 / 2 * 10 ^ e := by
  intro hmagnitude
  have hunit : (0 : ℚ) < (unitsPerOne : Nat) := by exact_mod_cast unitsPerOne_pos
  rw [magnitude, div_eq_iff (ne_of_gt hunit)] at hmagnitude
  cases e with
  | ofNat e =>
    rw [nearest_ofNat] at h
    have hunits := units_of_ofRatio hx h
    rw [Int.ofNat_eq_natCast, zpow_natCast, ← cast_tenTo] at hmagnitude
    have hnat : 2 * x.units = 19 * (tenTo e * unitsPerOne) := by
      have hrat : (2 : ℚ) * x.units = 19 * (tenTo e * unitsPerOne) := by
        rw [hmagnitude]
        ring
      exact_mod_cast hrat
    have hround : 2 * (kept (9 * tenTo e) 1 * twoTo (cut (9 * tenTo e) 1)) ≤
        2 * (9 * (tenTo e * unitsPerOne)) + twoTo (cut (9 * tenTo e) 1) := by
      have hhalf := nearestEven_le_half (9 * tenTo e * unitsPerOne)
        (1 * twoTo (cut (9 * tenTo e) 1))
      rw [kept, Nat.mul_comm (nearestEven _ _), ← Nat.mul_assoc 9]
      simpa only [Nat.one_mul] using hhalf
    have hfine : twoTo (cut (9 * tenTo e) 1) < tenTo e * unitsPerOne := by
      rcases Nat.eq_zero_or_pos (cut (9 * tenTo e) 1) with hcut | hcut
      · have hone : twoTo 0 < unitsPerOne := by decide +kernel
        rw [hcut]
        exact Nat.lt_of_lt_of_le hone (Nat.le_mul_of_pos_left _ (tenTo_pos e))
      · have hle := le_div_twoTo_cut hcut
        have hpos := twoTo_pos (cut (9 * tenTo e) 1)
        rw [Nat.one_mul, Nat.le_div_iff_mul_le hpos, Nat.mul_assoc] at hle
        generalize tenTo e * unitsPerOne = t at hle
        generalize twoTo (cut (9 * tenTo e) 1) = w at hle hpos
        simp only [hiddenBit] at hle
        omega
    rw [hunits] at hnat
    generalize tenTo e * unitsPerOne = t at hnat hround hfine
    omega
  | negSucc e =>
    rw [zpow_negSucc, ← cast_tenTo] at hmagnitude
    have hnat : 2 * (x.units * tenTo (e + 1)) = 19 * unitsPerOne := by
      have hpower : (0 : ℚ) < tenTo (e + 1) := by exact_mod_cast tenTo_pos _
      have hrat : (2 : ℚ) * (x.units * tenTo (e + 1)) = 19 * unitsPerOne := by
        rw [hmagnitude]
        field_simp
      exact_mod_cast hrat
    have hfive : 19 * unitsPerOne % 5 ≠ 0 := by decide +kernel
    have hten : tenTo (e + 1) = tenTo e * 10 := tenTo_add e 1
    rw [← hnat, hten, ← Nat.mul_assoc, ← Nat.mul_assoc] at hfive
    omega

end Binary64

namespace Decimal

open Binary64

variable {d d' n : Nat} {x : Binary64}

/-! ## Canonical figures -/

/-- Of two candidates that are equally near to a number and round to it an even one is found, and it
is not ten for nine, which does not round to nine and a half. -/
theorem even_of_tie (hx : x.isFinite = true) (hunits : x.units ≠ 0)
    (hfind : ((x.candidates .even n).find? fun d => ofDecimal x.negative d (x.step n) = x) = some d)
    (hd' : d' ∈ x.candidates .even n) (hreads : Binary64.nearest x.negative d' (x.step n) = x)
    (hne : d ≠ d')
    (h : |scaled d (x.step n) - x.magnitude| = |scaled d' (x.step n) - x.magnitude|) :
    d % 2 = 0 ∧ (n = 1 → d ≠ tenTo 1) := by
  obtain ⟨a, b, hb, hratio, hcandidates⟩ := x.exists_ratio_of_step n .even
  have hstep := x.zpow_step_pos n
  rw [hcandidates] at hfind hd'
  rw [scaled_step_sub, scaled_step_sub] at h
  obtain ⟨heven, q, hmiddle, hsides⟩ := found_even hb hratio hfind hd'
    (decide_eq_true (ofDecimal_of_nearest hreads hx hunits)) hne
    (mul_right_cancel₀ (ne_of_gt hstep) h)
  refine ⟨heven, ?_⟩
  rintro rfl rfl
  have hten : tenTo 1 = 10 := rfl
  rw [hten] at hsides
  rcases hsides with ⟨hq, -⟩ | ⟨hq, rfl⟩
  · -- the number is less than ten steps
    have hlt := magnitude_div_lt hunits 1
    rw [hmiddle, ← hq, hten] at hlt
    norm_num at hlt
  · obtain rfl : d' = 9 := Nat.succ.inj hq.symm
    refine magnitude_ne_of_nearest hx hreads ?_
    rw [div_eq_iff (ne_of_gt hstep)] at hmiddle
    rw [hmiddle]
    norm_num

/-- An even number of so many digits that is not ten is even without zeros at the end if no digit is
lost with them. -/
theorem even_ofDigits_ofScaled {c : Char} {cs : List Char} (e : Int)
    (hdigits : ∀ c ∈ (Figures.ofScaled d e).digits, c.isDigit = true)
    (hcons : (Figures.ofScaled d e).digits = c :: cs) (hc : c ≠ '0')
    (hd : d ≤ tenTo (cs.length + 1)) (heven : d % 2 = 0) (hten : cs.length = 0 → d ≠ tenTo 1) :
    ofDigits (Figures.ofScaled d e).digits % 2 = 0 := by
  obtain ⟨k, hk, -⟩ := exists_ofScaled d e
  have hlow : tenTo cs.length ≤ ofDigits (Figures.ofScaled d e).digits := by
    rw [hcons]
    exact le_ofDigits (hdigits c (by simp [hcons])) hc
  generalize ofDigits (Figures.ofScaled d e).digits = m at hk hlow
  cases k with
  | zero =>
    have hone : tenTo 0 = 1 := rfl
    rw [hone, Nat.mul_one] at hk
    rw [← hk]
    exact heven
  | succ k =>
    -- a zero has been left out, so the number is the power of ten
    have hzero : tenTo (k + 1) = tenTo k * 10 := tenTo_add k 1
    have hnext : tenTo (cs.length + 1) = tenTo cs.length * 10 := tenTo_add cs.length 1
    have hless : m * 1 ≤ m * tenTo k := Nat.mul_le_mul_left m (tenTo_pos k)
    rw [hzero, ← Nat.mul_assoc] at hk
    have hm : m = tenTo cs.length := by omega
    have hd' : d = tenTo (cs.length + 1) := by omega
    generalize cs.length = j at *
    cases j with
    | zero => exact absurd hd' (hten rfl)
    | succ j =>
      have hlast : tenTo (j + 1) = tenTo j * 10 := tenTo_add j 1
      omega

/-- Between two numbers only the one is as far from the other as itself. -/
theorem eq_of_between {u v w : ℚ} (h : u ≤ v ∧ v ≤ w ∨ w ≤ v ∧ v ≤ u)
    (habs : |v - w| = |u - w|) : v = u := by
  rcases h with ⟨hle, hle'⟩ | ⟨hle, hle'⟩
  · rw [abs_of_nonpos (by linarith), abs_of_nonpos (by linarith)] at habs
    linarith
  · rw [abs_of_nonneg (by linarith), abs_of_nonneg (by linarith)] at habs
    linarith

/-- The figures that are found for a number are its canonical ones. -/
theorem canonical_figures (hx : x.isFinite = true) (hunits : x.units ≠ 0) :
    (x.figures .even).Canonical x := by
  have hshortest := shortest_figures .even hx hunits
  obtain ⟨n, d, hn, hfigures, hfind, hbefore⟩ := exists_figures .even hx hunits
  have hpower := le_of_mem_candidates hunits (List.mem_of_find?_eq_some hfind)
  rw [hfigures] at hshortest ⊢
  have hlength : (Figures.ofScaled d (x.step n)).digits.length = n :=
    Nat.le_antisymm (length_ofScaled_le hn hpower)
      (hshortest.standsFor.le_length hx hunits hbefore)
  refine ⟨hshortest, fun g hg => ?_⟩
  have hsame := hshortest.distance_eq hg
  rw [value_ofScaled] at hsame
  have hdigits : ofDigits g.digits < tenTo n := by
    rw [← hlength, hshortest.length_eq hg]
    exact ofDigits_lt hg.standsFor.isDigit
  -- other shortest figures are a candidate too
  obtain ⟨d', hd', hreads, hbetween⟩ :=
    exists_candidate_of_nearest .even hx hunits hdigits hg.standsFor.reads
  have hfound := found_nearest hx hunits hfind hd' hreads
  have hnear : _ ≤ |g.value - x.magnitude| := abs_sub_le_of_between hbetween
  rcases eq_or_ne d d' with rfl | hne
  · left
    refine hg.eq_of_value_eq hshortest hunits ?_
    rw [value_ofScaled]
    exact (eq_of_between hbetween hsame).symm
  · right
    obtain ⟨heven, hten⟩ := even_of_tie hx hunits hfind hd' hreads hne
      (le_antisymm hfound (hnear.trans hsame.ge))
    obtain ⟨c, cs, hcons⟩ := List.exists_cons_of_ne_nil (hshortest.standsFor.digits_ne_nil hunits)
    rw [hcons, List.length_cons] at hlength
    refine even_ofDigits_ofScaled _ hshortest.standsFor.isDigit hcons
      (hshortest.head_ne_zero hcons) ?_ heven fun hone => hten ?_
    · rw [hlength]
      exact hpower
    · rw [← hlength, hone]

end Decimal

end GuardedCall
