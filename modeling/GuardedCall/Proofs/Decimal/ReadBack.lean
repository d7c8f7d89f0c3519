import GuardedCall.Proofs.Decimal.Whole
import GuardedCall.Proofs.Json.Written
import Mathlib.Data.List.TakeWhile

/-!
# Written numbers determine themselves

The text of a floating point number is a decimal, and the number nearest to this decimal is the one
that was written: its figures are chosen so, or else are all its digits. So different numbers have
different texts, under every layout. The decimal that a text means is read off without regard to
layouts: the digits before an `e` make a whole number, those behind the point count down the power
of ten, and what follows the `e` counts up.

Main definitions: `Binary64.nearest`, `Figures.nearest`, `Decimal.decimalOf`, `Decimal.numberOf`.
Main statements: `nearest_figures`, `decimalOf_writeFigures`, `numberOf_write`, `write_inj`.
-/

namespace GuardedCall

namespace Binary64

open Decimal

variable {negative : Bool} {a b a' b' d k : Nat} {e : Int} {x : Binary64}

/-! ## The number nearest to a decimal -/

/-- Equal ratios round alike. -/
theorem ofRatio_congr (hb : 0 < b) (hb' : 0 < b') (h : a * b' = a' * b) :
    ofRatio negative a b = ofRatio negative a' b' := by
  rw [← ofRatio_mul_left hb' negative a b, ← ofRatio_mul_left hb negative a' b',
    Nat.mul_comm b' a, h, Nat.mul_comm a' b, Nat.mul_comm b' b]

/-- The number nearest to `digits * 10 ^ exponent`, whatever the exponent. -/
def nearest (negative : Bool) (digits : Nat) (exponent : Int) : Binary64 :=
  ofRatio negative (digits * tenTo exponent.toNat) (tenTo (-exponent).toNat)

/-- Zeros at the end of the digits count up the exponent. -/
theorem nearest_mul_tenTo (negative : Bool) (d k : Nat) (e : Int) :
    nearest negative (d * tenTo k) e = nearest negative d (e + k) := by
  refine ofRatio_congr (tenTo_pos _) (tenTo_pos _) ?_
  have hexponents : k + e.toNat + (-(e + k)).toNat = (e + k).toNat + (-e).toNat := by omega
  have hpowers : tenTo k * tenTo e.toNat * tenTo (-(e + k)).toNat =
      tenTo (e + k).toNat * tenTo (-e).toNat := by
    rw [← tenTo_add, ← tenTo_add, ← tenTo_add, hexponents]
  calc d * tenTo k * tenTo e.toNat * tenTo (-(e + k)).toNat
      = d * (tenTo k * tenTo e.toNat * tenTo (-(e + k)).toNat) := by ring
    _ = d * (tenTo (e + k).toNat * tenTo (-e).toNat) := by rw [hpowers]
    _ = d * tenTo (e + k).toNat * tenTo (-e).toNat := by ring

/-- Zero is not changed by an exponent. -/
theorem nearest_zero (negative : Bool) (e : Int) : nearest negative 0 e = ofCode negative 0 := by
  rw [nearest, Nat.zero_mul, ofRatio_zero]

/-- A finite number without units is zero. -/
theorem ofCode_zero_of_units (hx : x.isFinite = true) (hunits : x.units = 0) :
    ofCode x.negative 0 = x := by
  rw [← ofRatio_zero x.negative unitsPerOne, ← hunits]
  exact ofRatio_units hx

theorem nearest_ofNat (negative : Bool) (d e : Nat) :
    nearest negative d (Int.ofNat e) = ofRatio negative (d * tenTo e) 1 := by
  have hup : (Int.ofNat e).toNat = e := rfl
  have hdown : (-Int.ofNat e).toNat = 0 := by simp
  rw [nearest, hup, hdown]
  rfl

theorem nearest_negSucc (negative : Bool) (d e : Nat) :
    nearest negative d (Int.negSucc e) = ofRatio negative d (tenTo (e + 1)) := by
  have hup : tenTo (Int.negSucc e).toNat = 1 := rfl
  have hdown : (-Int.negSucc e).toNat = e + 1 := rfl
  rw [nearest, hup, hdown, Nat.mul_one]

/-- Where the decimal reader does not settle the result by the exponent alone, it is the nearest
number. -/
theorem nearest_of_ofDecimal (h : ofDecimal negative d e = x) (hx : x.isFinite = true)
    (hunits : x.units ≠ 0) : nearest negative d e = x := by
  have hzero : ofCode negative 0 ≠ x := by
    rintro rfl
    exact hunits (units_ofCode_zero negative)
  have hinfinite : ofCode negative infinityCode ≠ x := by
    rintro rfl
    rw [not_isFinite_ofCode] at hx
    cases hx
  cases e with
  | ofNat e =>
    rw [ofDecimal] at h
    split at h
    · exact absurd h hzero
    · split at h
      · exact absurd h hinfinite
      · rw [nearest_ofNat]
        exact h
  | negSucc e =>
    rw [ofDecimal] at h
    split at h
    · exact absurd h hzero
    · rw [nearest_negSucc]
      exact h

/-! ## Figures -/

end Binary64

namespace Decimal

open Binary64

/-- Digits are those without the zeros at the end, and these zeros. -/
theorem exists_zeros_at_end (ds : List Char) :
    ∃ k, ds = (ds.reverse.dropWhile (· == '0')).reverse ++ List.replicate k '0' := by
  have hzeros : ds.reverse.takeWhile (· == '0') =
      List.replicate (ds.reverse.takeWhile (· == '0')).length '0' := by
    refine List.eq_replicate_of_mem fun c hc => ?_
    simpa using List.mem_takeWhile_imp hc
  refine ⟨(ds.reverse.takeWhile (· == '0')).length, ?_⟩
  have hsplit : ds.reverse.takeWhile (· == '0') ++ ds.reverse.dropWhile (· == '0') = ds.reverse :=
    List.takeWhile_append_dropWhile
  rw [hzeros] at hsplit
  have hreverse := congrArg List.reverse hsplit
  rw [List.reverse_append, List.reverse_replicate, List.reverse_reverse] at hreverse
  exact hreverse.symm

theorem ofDigits_append_zeros (ds : List Char) (k : Nat) :
    ofDigits (ds ++ List.replicate k '0') = ofDigits ds * tenTo k := by
  rw [ofDigits, Nat.ofDigitChars_append, Nat.ofDigitChars_replicate_zero, Nat.mul_comm]
  rfl

theorem ofDigits_zeros_append (k : Nat) (ds : List Char) :
    ofDigits (List.replicate k '0' ++ ds) = ofDigits ds := by
  rw [ofDigits, Nat.ofDigitChars_append, Nat.ofDigitChars_replicate_zero, Nat.mul_zero]
  rfl

/-- The number nearest to figures. -/
def Figures.nearest (negative : Bool) (f : Figures) : Binary64 :=
  Binary64.nearest negative (ofDigits f.digits) (f.point - f.digits.length)

theorem mul_tenTo (m n : Nat) : m * tenTo n = m * Nat.pow 5 n * twoTo n := by
  have hten : tenTo n = Nat.pow 5 n * twoTo n := Nat.mul_pow 5 2 n
  rw [hten, Nat.mul_assoc]

/-- Figures are the digits that they are made of without zeros at the end, which count up the
exponent. -/
theorem exists_ofScaled (d : Nat) (e : Int) :
    ∃ k : Nat, d = ofDigits (Figures.ofScaled d e).digits * tenTo k ∧
      (Figures.ofScaled d e).point - (Figures.ofScaled d e).digits.length = e + k := by
  obtain ⟨k, hk⟩ := exists_zeros_at_end (natDigits d)
  rw [Figures.ofScaled]
  dsimp only
  generalize ((natDigits d).reverse.dropWhile (· == '0')).reverse = ds at hk
  refine ⟨k, ?_, ?_⟩
  · rw [← ofDigits_append_zeros, ← hk, ofDigits_natDigits]
  · rw [hk, List.length_append, List.length_replicate]
    omega

/-- Figures stand for the digits and the exponent that they are made of. -/
theorem nearest_ofScaled (negative : Bool) (d : Nat) (e : Int) :
    (Figures.ofScaled d e).nearest negative = Binary64.nearest negative d e := by
  obtain ⟨k, hvalue, hexponent⟩ := exists_ofScaled d e
  rw [Figures.nearest, hexponent, ← nearest_mul_tenTo, ← hvalue]

end Decimal

namespace Binary64

open Decimal

variable {x : Binary64}

/-- So many halves are as many fives in tenths. -/
theorem nearest_ofScaled_fives (negative : Bool) (u : Nat) {n : Nat} {e : Int}
    (he : e = -(n : Int)) :
    (Figures.ofScaled (u * Nat.pow 5 n) e).nearest negative = ofRatio negative u (twoTo n) := by
  rw [nearest_ofScaled, he]
  refine ofRatio_congr (tenTo_pos _) (twoTo_pos n) ?_
  have hup : tenTo (-(n : Int)).toNat = 1 := by simp [tenTo]
  have hdown : (-(-(n : Int))).toNat = n := by simp
  rw [hup, hdown, Nat.mul_one, mul_tenTo]

/-- All digits of a number stand for it. -/
theorem nearest_exactFigures (hx : x.isFinite = true) :
    x.exactFigures.nearest x.negative = x := by
  -- the exponent stays a variable: nothing is to compute its power of five
  obtain ⟨n, hn⟩ : ∃ n : Nat, n = 1074 := ⟨_, rfl⟩
  have he : (-1074 : Int) = -(n : Int) := by
    rw [hn]
    rfl
  have hunit : twoTo n = unitsPerOne := by
    rw [hn]
    rfl
  rw [exactFigures, ← hn, nearest_ofScaled_fives _ _ he, hunit, ofRatio_units hx]

/-- The number nearest to the figures of a number is this number. -/
theorem nearest_figures (tie : Tie) (hx : x.isFinite = true) (hunits : x.units ≠ 0) :
    (x.figures tie).nearest x.negative = x := by
  rw [figures]
  cases hfind : (List.range 17).findSome? fun n => x.figuresOf? tie (n + 1) with
  | none =>
    rw [Option.getD_none]
    exact nearest_exactFigures hx
  | some f =>
    rw [Option.getD_some]
    obtain ⟨n, -, hn⟩ := List.exists_of_findSome?_eq_some hfind
    rw [figuresOf?] at hn
    obtain ⟨d, hd, rfl⟩ := Option.map_eq_some_iff.1 hn
    have hread := List.find?_some hd
    rw [decide_eq_true_eq] at hread
    rw [nearest_ofScaled]
    exact nearest_of_ofDecimal hread hx hunits

end Binary64

namespace Decimal

/-! ## The decimal that a text means -/

/-- The exponent that a text means, with or without a sign. -/
def exponentOf (text : List Char) : Int :=
  let (minus, ds) := Json.exponentSign text
  if minus then -(ofDigits ds : Int) else ofDigits ds

/-- The digits and the power of ten that a text without a sign means. -/
def decimalOf (text : List Char) : Nat × Int :=
  let mantissa := text.takeWhile (· != 'e')
  let fraction := (mantissa.dropWhile (· != '.')).drop 1
  (ofDigits (mantissa.takeWhile (· != '.') ++ fraction),
    exponentOf ((text.dropWhile (· != 'e')).drop 1) - fraction.length)

/-- Whether a text has a minus sign, and what is behind it. -/
def signOf : List Char → Bool × List Char
  | '-' :: text => (true, text)
  | text => (false, text)

/-- The number nearest to the decimal that a text means. -/
def numberOf (text : List Char) : Binary64 :=
  Binary64.nearest (signOf text).1 (decimalOf (signOf text).2).1 (decimalOf (signOf text).2).2

section Split

variable {c : Char} {u v : List Char}

theorem takeWhile_ne_append (h : c ∉ u) : (u ++ c :: v).takeWhile (· != c) = u := by
  induction u with
  | nil => simp
  | cons d u ih =>
    rw [List.mem_cons, not_or] at h
    simp [Ne.symm h.1, ih h.2]

theorem dropWhile_ne_append (h : c ∉ u) : (u ++ c :: v).dropWhile (· != c) = c :: v := by
  induction u with
  | nil => simp
  | cons d u ih =>
    rw [List.mem_cons, not_or] at h
    simp [Ne.symm h.1, ih h.2]

theorem takeWhile_ne_of_notMem (h : c ∉ u) : u.takeWhile (· != c) = u := by
  rw [List.takeWhile_eq_self_iff]
  intro d hd
  have hne : d ≠ c := by
    rintro rfl
    exact h hd
  simpa using hne

theorem dropWhile_ne_of_notMem (h : c ∉ u) : u.dropWhile (· != c) = [] := by
  rw [List.dropWhile_eq_nil_iff]
  intro d hd
  have hne : d ≠ c := by
    rintro rfl
    exact h hd
  simpa using hne

theorem notMem_of_isDigit (h : ∀ d ∈ u, d.isDigit = true) (hc : c.isDigit = false) : c ∉ u := by
  intro hmem
  rw [h c hmem] at hc
  cases hc

end Split

variable {whole fraction ds rest : List Char} {negative : Bool} {f : Figures}

/-- Digits around a point. -/
theorem decimalOf_point (hw : ∀ c ∈ whole, c.isDigit = true)
    (hf : ∀ c ∈ fraction, c.isDigit = true) :
    decimalOf (whole ++ '.' :: fraction) =
      (ofDigits (whole ++ fraction), -(fraction.length : Int)) := by
  have he : 'e' ∉ whole ++ '.' :: fraction := by
    rw [List.mem_append, List.mem_cons, not_or, not_or]
    exact ⟨notMem_of_isDigit hw rfl, by decide, notMem_of_isDigit hf rfl⟩
  have hp : '.' ∉ whole := notMem_of_isDigit hw rfl
  simp only [decimalOf, takeWhile_ne_of_notMem he, dropWhile_ne_of_notMem he,
    takeWhile_ne_append hp, dropWhile_ne_append hp, List.drop_succ_cons, List.drop_zero,
    List.drop_nil]
  show (_, (0 : Int) - _) = _
  rw [Int.zero_sub]

/-- Digits before an exponent. -/
theorem decimalOf_exponent (hw : ∀ c ∈ whole, c.isDigit = true) :
    decimalOf (whole ++ 'e' :: rest) = (ofDigits whole, exponentOf rest) := by
  have he : 'e' ∉ whole := notMem_of_isDigit hw rfl
  have hp : '.' ∉ whole := notMem_of_isDigit hw rfl
  simp [decimalOf, takeWhile_ne_append he, dropWhile_ne_append he, takeWhile_ne_of_notMem hp,
    dropWhile_ne_of_notMem hp]

/-- Digits around a point before an exponent. -/
theorem decimalOf_point_exponent (hw : ∀ c ∈ whole, c.isDigit = true)
    (hf : ∀ c ∈ fraction, c.isDigit = true) :
    decimalOf (whole ++ '.' :: fraction ++ 'e' :: rest) =
      (ofDigits (whole ++ fraction), exponentOf rest - fraction.length) := by
  have he : 'e' ∉ whole ++ '.' :: fraction := by
    rw [List.mem_append, List.mem_cons, not_or, not_or]
    exact ⟨notMem_of_isDigit hw rfl, by decide, notMem_of_isDigit hf rfl⟩
  have hp : '.' ∉ whole := notMem_of_isDigit hw rfl
  simp only [decimalOf, takeWhile_ne_append he, dropWhile_ne_append he, takeWhile_ne_append hp,
    dropWhile_ne_append hp, List.drop_succ_cons, List.drop_zero]

/-! ## Written figures -/

/-- A written exponent means itself. -/
theorem exponentOf_intDigits (plus : Bool) (e : Int) :
    exponentOf ((if plus ∧ 0 ≤ e then ['+'] else []) ++ intDigits e) = e := by
  cases e with
  | negSucc n =>
    rw [if_neg (by omega)]
    show -(ofDigits (natDigits (n + 1)) : Int) = Int.negSucc n
    rw [ofDigits_natDigits, Int.negSucc_eq]
    omega
  | ofNat n =>
    by_cases hplus : plus = true
    · rw [if_pos ⟨hplus, Int.natCast_nonneg n⟩]
      show (ofDigits (natDigits n) : Int) = n
      rw [ofDigits_natDigits]
    · rw [if_neg fun h => hplus h.1, List.nil_append, intDigits]
      cases hd : natDigits n with
      | nil => exact absurd hd (natDigits_ne_nil n)
      | cons c cs =>
        have hc : c.isDigit = true := isDigit_of_mem_natDigits (hd ▸ List.mem_cons_self)
        have hp : c ≠ '+' := by
          rintro rfl
          cases hc
        have hm : c ≠ '-' := by
          rintro rfl
          cases hc
        have hvalue : ofDigits (c :: cs) = n := by rw [← hd, ofDigits_natDigits]
        simp [exponentOf, Json.exponentSign, hp, hm, hvalue]

theorem writePositional_negSucc (ds : List Char) (z : Nat) :
    Layout.writePositional ⟨ds, .negSucc z⟩ =
      '0' :: '.' :: (List.replicate (z + 1) '0' ++ ds) := rfl

theorem writePositional_zero (ds : List Char) :
    Layout.writePositional ⟨ds, .ofNat 0⟩ = '0' :: '.' :: ds := rfl

theorem writePositional_succ (ds : List Char) (p : Nat) :
    Layout.writePositional ⟨ds, .ofNat (p + 1)⟩ =
      if p + 1 < ds.length then ds.take (p + 1) ++ '.' :: ds.drop (p + 1)
      else ds ++ List.replicate (p + 1 - ds.length) '0' ++ ['.', '0'] := rfl

/-- Positional text means the figures that it is of. -/
theorem nearest_writePositional (negative : Bool) (hf : ∀ c ∈ f.digits, c.isDigit = true) :
    Binary64.nearest negative (decimalOf (Layout.writePositional f)).1
      (decimalOf (Layout.writePositional f)).2 = f.nearest negative := by
  have hzero : ∀ c ∈ ['0'], c.isDigit = true := List.forall_mem_singleton.2 rfl
  have hzeros (n : Nat) : ∀ c ∈ List.replicate n '0', c.isDigit = true := by
    intro c hc
    rw [List.eq_of_mem_replicate hc]
    rfl
  obtain ⟨ds, point⟩ := f
  dsimp only at hf
  cases point with
  | negSucc z =>
    -- zeros behind the point, before the digits
    have htail : ∀ c ∈ List.replicate (z + 1) '0' ++ ds, c.isDigit = true :=
      List.forall_mem_append.2 ⟨hzeros (z + 1), hf⟩
    have hvalue : ofDigits (['0'] ++ (List.replicate (z + 1) '0' ++ ds)) = ofDigits ds :=
      (ofDigits_zeros_append 1 _).trans (ofDigits_zeros_append (z + 1) ds)
    have hdecimal := decimalOf_point hzero htail
    rw [hvalue, List.length_append, List.length_replicate, List.singleton_append] at hdecimal
    rw [writePositional_negSucc, hdecimal, Figures.nearest]
    congr 1
    simp only [Int.negSucc_eq]
    omega
  | ofNat p =>
    cases p with
    | zero =>
      -- the digits just behind the point
      have hvalue : ofDigits (['0'] ++ ds) = ofDigits ds := ofDigits_zeros_append 1 ds
      have hdecimal := decimalOf_point hzero hf
      rw [hvalue, List.singleton_append] at hdecimal
      rw [writePositional_zero, hdecimal, Figures.nearest]
      congr 1
      simp
    | succ p =>
      rw [writePositional_succ, Figures.nearest]
      by_cases hlt : p + 1 < ds.length
      · -- the point among the digits
        have hdecimal : decimalOf (ds.take (p + 1) ++ '.' :: ds.drop (p + 1)) = _ :=
          decimalOf_point (fun c hc => hf c (List.mem_of_mem_take hc))
            (fun c hc => hf c (List.mem_of_mem_drop hc))
        rw [List.take_append_drop, List.length_drop] at hdecimal
        rw [if_pos hlt, hdecimal]
        congr 1
        simp only [Int.ofNat_eq_natCast]
        omega
      · -- zeros before the point
        have hdecimal :
            decimalOf (ds ++ List.replicate (p + 1 - ds.length) '0' ++ ['.', '0']) = _ :=
          decimalOf_point (List.forall_mem_append.2 ⟨hf, hzeros _⟩) hzero
        have hvalue : ofDigits (ds ++ List.replicate (p + 1 - ds.length) '0' ++ ['0']) =
            ofDigits ds * tenTo (p + 1 - ds.length + 1) := by
          rw [← ofDigits_append_zeros, List.append_assoc, List.replicate_succ']
        rw [hvalue, List.length_singleton] at hdecimal
        rw [if_neg hlt, hdecimal, Binary64.nearest_mul_tenTo]
        congr 1
        simp only [Int.ofNat_eq_natCast]
        omega

/-- Scientific text means the figures that it is of. -/
theorem nearest_writeScientific (negative plus : Bool) (hf : ∀ c ∈ f.digits, c.isDigit = true)
    (hne : f.digits ≠ []) :
    Binary64.nearest negative (decimalOf (Layout.writeScientific plus f)).1
      (decimalOf (Layout.writeScientific plus f)).2 = f.nearest negative := by
  obtain ⟨ds, point⟩ := f
  dsimp only at hf hne
  cases ds with
  | nil => exact absurd rfl hne
  | cons d ds =>
    rw [List.forall_mem_cons] at hf
    have hd : ∀ c ∈ [d], c.isDigit = true := by simpa using hf.1
    rw [Figures.nearest, Layout.writeScientific]
    dsimp only
    cases ds with
    | nil =>
      have hdecimal : decimalOf ([d] ++ 'e' :: ((if plus ∧ 0 ≤ point - 1 then ['+'] else []) ++
          intDigits (point - 1))) = _ := decimalOf_exponent hd
      rw [exponentOf_intDigits] at hdecimal
      have hshort : [d].length ≤ 1 := by simp
      rw [if_pos hshort, List.append_nil, List.take_succ_cons, List.take_zero, hdecimal]
      rfl
    | cons c ds =>
      have hdecimal : decimalOf ([d] ++ '.' :: (c :: ds) ++ 'e' ::
          ((if plus ∧ 0 ≤ point - 1 then ['+'] else []) ++ intDigits (point - 1))) = _ :=
        decimalOf_point_exponent hd hf.2
      rw [exponentOf_intDigits] at hdecimal
      have hlong : ¬ (d :: c :: ds).length ≤ 1 := by simp
      rw [if_neg hlong, List.take_succ_cons, List.take_zero, List.drop_succ_cons, List.drop_zero,
        hdecimal]
      congr 1
      simp only [List.length_cons]
      omega

/-- Digits come first in figures, positional or not. -/
theorem exists_writeFigures_eq_cons (l : Layout) (hf : ∀ c ∈ f.digits, c.isDigit = true)
    (hne : f.digits ≠ []) : ∃ c text, l.writeFigures f = c :: text ∧ c.isDigit = true := by
  obtain ⟨ds, point⟩ := f
  cases ds with
  | nil => exact absurd rfl hne
  | cons d ds =>
    have hd : d.isDigit = true := hf d List.mem_cons_self
    rw [Layout.writeFigures]
    split
    · cases point with
      | negSucc z => exact ⟨'0', _, rfl, rfl⟩
      | ofNat p =>
        cases p with
        | zero => exact ⟨'0', _, rfl, rfl⟩
        | succ p =>
          rw [writePositional_succ]
          split
          · exact ⟨d, _, rfl, hd⟩
          · exact ⟨d, _, rfl, hd⟩
    · exact ⟨d, _, rfl, hd⟩

theorem nearest_writeFigures (l : Layout) (negative : Bool)
    (hf : ∀ c ∈ f.digits, c.isDigit = true) (hne : f.digits ≠ []) :
    Binary64.nearest negative (decimalOf (l.writeFigures f)).1 (decimalOf (l.writeFigures f)).2 =
      f.nearest negative := by
  rw [Layout.writeFigures]
  split
  · exact nearest_writePositional negative hf
  · exact nearest_writeScientific negative l.plus hf hne

/-! ## Written numbers -/

section Numbers

variable {x y : Binary64} {l : Layout}

/-- A number that is not zero has figures. -/
theorem digits_figures_ne_nil (tie : Tie) (hx : x.isFinite = true) (hunits : x.units ≠ 0) :
    (x.figures tie).digits ≠ [] := by
  intro hnil
  have hfigures := Binary64.nearest_figures tie hx hunits
  rw [Figures.nearest, hnil] at hfigures
  have hvalue : ofDigits [] = 0 := rfl
  rw [hvalue, Binary64.nearest_zero] at hfigures
  apply hunits
  rw [← hfigures]
  exact Binary64.units_ofCode_zero x.negative

/-- The sign of a number is told from the digits behind it. -/
theorem signOf_append {body : List Char} (hbody : ∃ c text, body = c :: text ∧ c.isDigit = true)
    (negative : Bool) : signOf ((if negative then ['-'] else []) ++ body) = (negative, body) := by
  obtain ⟨c, text, rfl, hc⟩ := hbody
  cases negative with
  | true => rfl
  | false =>
    have hm : c ≠ '-' := by
      rintro rfl
      cases hc
    rw [if_neg Bool.false_ne_true, List.nil_append]
    simp [signOf, hm]

/-- A finite number is the one that its text means. -/
theorem numberOf_write (l : Layout) (hx : x.isFinite = true) : numberOf (l.write x) = x := by
  rw [Json.write_of_isFinite l hx, numberOf]
  by_cases hunits : x.units = 0
  · rw [if_pos hunits, signOf_append ⟨'0', _, rfl, rfl⟩]
    have hdecimal : decimalOf ['0', '.', '0'] = (0, -1) := by decide
    rw [hdecimal, Binary64.nearest_zero, Binary64.ofCode_zero_of_units hx hunits]
  · have hdigits : ∀ c ∈ (x.figures l.tie).digits, c.isDigit = true :=
      fun _ => Json.isDigit_of_mem_figures
    have hne := digits_figures_ne_nil l.tie hx hunits
    rw [if_neg hunits, signOf_append (exists_writeFigures_eq_cons l hdigits hne),
      nearest_writeFigures l x.negative hdigits hne, Binary64.nearest_figures l.tie hx hunits]

/-- An infinity is one of two. -/
theorem eq_of_isInfinite (hx : x.isInfinite = true) (hy : y.isInfinite = true)
    (h : x.negative = y.negative) : x = y := by
  simp only [Binary64.isInfinite, decide_eq_true_eq] at hx hy
  have hcode (z : Binary64) (hz : z.exponentField = 2047 ∧ z.fraction = 0) :
      z.scale * Binary64.hiddenBit + z.significand = Binary64.infinityCode := by
    rw [Binary64.scale, Binary64.significand, hz.1, hz.2]
    rfl
  rw [← Binary64.ofCode_self x, ← Binary64.ofCode_self y, hcode x hx, hcode y hy, h]

theorem isInfinite_of_not_isFinite (hfinite : ¬ x.isFinite = true) (hnan : x.isNaN = false) :
    x.isInfinite = true := by
  simp only [Binary64.isFinite, Binary64.isNaN, Binary64.isInfinite, decide_eq_true_eq,
    decide_eq_false_iff_not] at *
  simp_all

theorem write_of_isInfinite (l : Layout) (hx : x.isInfinite = true) :
    l.write x = (if x.negative then ['-'] else []) ++ l.infinity := by
  have hnan : x.isNaN = false := by
    simp only [Binary64.isInfinite, Binary64.isNaN, decide_eq_true_eq, decide_eq_false_iff_not]
      at hx ⊢
    rw [hx.2]
    simp
  simp only [Layout.write, hnan, hx, Bool.false_eq_true, if_false, if_true]

/-- The literal of an infinity has a letter that is in no finite number. -/
theorem infinity_mem_write (hx : x.isInfinite = true) : 'i' ∈ Layout.literal.write x := by
  rw [write_of_isInfinite _ hx]
  exact List.mem_append_right _ List.mem_cons_self

/-- **Different numbers have different literals.**  The literal of a number that is no NaN says all
its bits. -/
theorem write_inj (hx : x.isNaN = false) (hy : y.isNaN = false)
    (h : Layout.literal.write x = Layout.literal.write y) : x = y := by
  have hmixed (u v : Binary64) (hu : u.isFinite = true) (hv : v.isInfinite = true) :
      Layout.literal.write u ≠ Layout.literal.write v := by
    intro heq
    have hmem := infinity_mem_write hv
    rw [← heq] at hmem
    exact absurd (Json.isNumeral_of_mem_write hu hmem) (by decide)
  by_cases hfinite : x.isFinite = true
  · by_cases hfinite' : y.isFinite = true
    · rw [← numberOf_write Layout.literal hfinite, h, numberOf_write Layout.literal hfinite']
    · exact absurd h (hmixed x y hfinite (isInfinite_of_not_isFinite hfinite' hy))
  · have hinfinite := isInfinite_of_not_isFinite hfinite hx
    by_cases hfinite' : y.isFinite = true
    · exact absurd h.symm (hmixed y x hfinite' hinfinite)
    · have hinfinite' := isInfinite_of_not_isFinite hfinite' hy
      refine eq_of_isInfinite hinfinite hinfinite' ?_
      rw [write_of_isInfinite _ hinfinite, write_of_isInfinite _ hinfinite'] at h
      cases hsign : x.negative <;> cases hsign' : y.negative <;>
        simp [hsign, hsign', Layout.literal] at h ⊢

end Numbers

end Decimal

end GuardedCall
