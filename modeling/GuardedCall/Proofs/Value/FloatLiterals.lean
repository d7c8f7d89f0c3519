import GuardedCall.Proofs.Decimal.Ties
import GuardedCall.Value.Repr

/-!
# The layout of numbers in literals

The usual layout of a number is plain where the point stands at most three zeros before its first
digit and at most sixteen places behind it, and scientific elsewhere, with a sign and two digits at
least in the exponent. Literals have it but for small numbers: with four zeros a number is still
plain, and an exponent of one digit is left at that.

Main definitions: `Plain`, `Scientific`, `Conventional`.
Main statements: `conventional_writeFigures_iff`, `float_literals_are_conventional_unless_small`.
-/

namespace GuardedCall

open Decimal

namespace Decimal

variable {f : Figures} {text u v : List Char} {e : Int}

/-! ## Layouts as they read -/

/-- Plain decimal notation of figures: the point before the digits, among them or behind them, with
a digit on either side of it. -/
inductive Plain (f : Figures) : List Char → Prop
  | before (zeros : Nat) (hpoint : f.point = -(zeros : Int)) :
      Plain f ('0' :: '.' :: (List.replicate zeros '0' ++ f.digits))
  | among (whole fraction : List Char) (hdigits : f.digits = whole ++ fraction)
      (hwhole : whole ≠ []) (hfraction : fraction ≠ []) (hpoint : f.point = whole.length) :
      Plain f (whole ++ '.' :: fraction)
  | behind (zeros : Nat) (hpoint : f.point = f.digits.length + zeros) :
      Plain f (f.digits ++ List.replicate zeros '0' ++ ['.', '0'])

/-- Scientific notation of digits: one of them, the others behind a point if there are any, and the
exponent. -/
inductive Scientific (exponent : List Char) : List Char → List Char → Prop
  | one (d : Char) : Scientific exponent [d] (d :: 'e' :: exponent)
  | several (d : Char) (ds : List Char) (hne : ds ≠ []) :
      Scientific exponent (d :: ds) (d :: '.' :: (ds ++ 'e' :: exponent))

/-- An exponent with its sign. -/
def signed (e : Int) : List Char := (if e < 0 then '-' else '+') :: natDigits e.natAbs

/-- An exponent with its sign and two digits at least. -/
def signedPadded (e : Int) : List Char :=
  (if e < 0 then '-' else '+') :: (if e.natAbs < 10 then ['0'] else []) ++ natDigits e.natAbs

/-- The usual layout of figures. -/
def Conventional (f : Figures) (text : List Char) : Prop :=
  if -4 < f.point ∧ f.point ≤ 16 then Plain f text
  else Scientific (signedPadded (f.point - 1)) f.digits text

/-! ## Layouts told apart -/

theorem Plain.exponent_notMem (hf : ∀ c ∈ f.digits, c.isDigit = true) (h : Plain f text) :
    'e' ∉ text := by
  have hdigits : 'e' ∉ f.digits := notMem_of_isDigit hf rfl
  cases h with
  | before zeros hpoint => simp [hdigits]
  | among whole fraction hsplit =>
    rw [hsplit, List.mem_append, not_or] at hdigits
    simp [hdigits]
  | behind zeros hpoint => simp [hdigits]

theorem Scientific.exponent_mem {ds : List Char} (h : Scientific u ds text) : 'e' ∈ text := by
  cases h with
  | one d => simp
  | several d ds hne => simp

/-- The exponent is told from the text. -/
theorem Scientific.exponent_inj {ds : List Char} (h : Scientific u ds text)
    (h' : Scientific v ds text) : u = v := by
  cases h with
  | one d =>
    cases h' with
    | one d => rfl
  | several d ds hne =>
    generalize htext : d :: '.' :: (ds ++ 'e' :: u) = text at h'
    cases h' with
    | one d => exact absurd rfl hne
    | several d ds hne => simpa using htext

theorem signed_eq_signedPadded_iff (e : Int) : signed e = signedPadded e ↔ 10 ≤ e.natAbs := by
  rw [signed, signedPadded, List.cons_append, List.cons_inj_right]
  by_cases hone : e.natAbs < 10
  · rw [if_pos hone]
    refine ⟨fun heq => ?_, fun hle => absurd hone (Nat.not_lt.2 hle)⟩
    have hlength := congrArg List.length heq
    simp at hlength
  · rw [if_neg hone, List.nil_append]
    exact ⟨fun _ => Nat.le_of_not_lt hone, fun _ => rfl⟩

theorem length_signedPadded (e : Int) : 3 ≤ (signedPadded e).length := by
  have hpos : 0 < (natDigits e.natAbs).length := List.length_pos_iff.2 (natDigits_ne_nil _)
  rw [signedPadded, List.cons_append, List.length_cons, List.length_append]
  by_cases hone : e.natAbs < 10
  · rw [if_pos hone, List.length_singleton]
    omega
  · have htwo : ¬ (natDigits e.natAbs).length ≤ 1 :=
      fun hle => hone ((Nat.length_toDigits_le_iff (by decide) Nat.one_pos).1 hle)
    omega

/-! ## Written figures -/

theorem plain_writePositional (hne : f.digits ≠ []) : Plain f (Layout.writePositional f) := by
  obtain ⟨ds, point⟩ := f
  dsimp only at hne
  cases point with
  | negSucc z => exact Plain.before (z + 1) (Int.negSucc_eq z)
  | ofNat p =>
    cases p with
    | zero => exact Plain.before 0 rfl
    | succ p =>
      rw [writePositional_succ]
      by_cases hlt : p + 1 < ds.length
      · rw [if_pos hlt]
        refine Plain.among _ _ (List.take_append_drop _ _).symm ?_ ?_ ?_
        · simpa using hne
        · simpa using hlt
        · rw [List.length_take, Nat.min_eq_left (Nat.le_of_lt hlt), Int.ofNat_eq_natCast]
      · rw [if_neg hlt]
        refine Plain.behind _ ?_
        dsimp only
        rw [Int.ofNat_eq_natCast]
        omega

theorem sign_append_intDigits (e : Int) :
    (if (true = true) ∧ 0 ≤ e then ['+'] else []) ++ intDigits e = signed e := by
  cases e with
  | ofNat n =>
    have hnonneg : 0 ≤ Int.ofNat n := Int.natCast_nonneg n
    rw [if_pos ⟨rfl, hnonneg⟩, signed, if_neg (Int.not_lt.2 hnonneg)]
    rfl
  | negSucc n =>
    have hneg := Int.negSucc_lt_zero n
    rw [if_neg fun h => absurd hneg (Int.not_lt.2 h.2), signed, if_pos hneg]
    rfl

theorem scientific_writeScientific (hne : f.digits ≠ []) :
    Scientific (signed (f.point - 1)) f.digits (Layout.writeScientific true f) := by
  obtain ⟨ds, point⟩ := f
  dsimp only at hne
  rw [Layout.writeScientific]
  dsimp only
  rw [sign_append_intDigits]
  cases ds with
  | nil => exact absurd rfl hne
  | cons d ds =>
    cases ds with
    | nil => exact Scientific.one d
    | cons c ds =>
      have hlong : ¬ (d :: c :: ds).length ≤ 1 := by simp
      rw [if_neg hlong]
      exact Scientific.several d (c :: ds) (List.cons_ne_nil c ds)

/-- Literals are plain where the point stands at most four zeros before the first digit, and at most
sixteen places behind it. -/
theorem writeFigures_literal (f : Figures) :
    Layout.literal.writeFigures f =
      if -5 < f.point ∧ f.point ≤ 16 then Layout.writePositional f
      else Layout.writeScientific true f := by
  simp [Layout.writeFigures, Layout.literal]

/-- The layout of a literal is the usual one but where the point stands four to eight zeros before
the first digit. -/
theorem conventional_writeFigures_iff (hf : ∀ c ∈ f.digits, c.isDigit = true)
    (hne : f.digits ≠ []) :
    Conventional f (Layout.literal.writeFigures f) ↔ ¬ (-8 ≤ f.point ∧ f.point ≤ -4) := by
  have hplain := plain_writePositional hne
  have hscientific := scientific_writeScientific hne
  rw [writeFigures_literal, Conventional]
  by_cases husual : -4 < f.point ∧ f.point ≤ 16
  · rw [if_pos husual, if_pos (by omega)]
    exact iff_of_true hplain (by omega)
  · rw [if_neg husual]
    by_cases hpoint : f.point = -4
    · -- the one place where a literal is still plain
      rw [if_pos (by omega)]
      refine iff_of_false (fun h => ?_) (by omega)
      exact hplain.exponent_notMem hf h.exponent_mem
    · rw [if_neg (by omega)]
      have hexponent : 10 ≤ (f.point - 1).natAbs ↔ ¬ (-8 ≤ f.point ∧ f.point ≤ -4) := by omega
      rw [← hexponent, ← signed_eq_signedPadded_iff]
      exact ⟨hscientific.exponent_inj, fun h => h ▸ hscientific⟩

/-! ## Zeros in front -/

/-- Plain notation that begins with so many zeros is that of a number as small. -/
theorem Plain.point_le {x : Binary64} {zeros : Nat} (hf : f.Shortest x) (hunits : x.units ≠ 0)
    (h : Plain f ('0' :: '.' :: (List.replicate zeros '0' ++ u))) : f.point ≤ -(zeros : Int) := by
  obtain ⟨c, cs, hcons⟩ := List.exists_cons_of_ne_nil (hf.standsFor.digits_ne_nil hunits)
  have hhead := hf.head_ne_zero hcons
  generalize htext : '0' :: '.' :: (List.replicate zeros '0' ++ u) = text at h
  cases h with
  | before z hpoint =>
    suffices hle : zeros ≤ z by omega
    refine Nat.le_of_not_lt fun hlt => ?_
    obtain ⟨k, rfl⟩ := Nat.exists_eq_add_of_lt hlt
    have hzeros := (List.cons.inj (List.cons.inj htext).2).2
    rw [Nat.add_assoc, List.replicate_add, List.append_assoc, List.append_cancel_left_eq, hcons,
      List.replicate_succ, List.cons_append] at hzeros
    exact absurd (List.cons.inj hzeros).1.symm hhead
  | among whole fraction hdigits hwhole hfraction hpoint =>
    obtain ⟨w, ws, rfl⟩ := List.exists_cons_of_ne_nil hwhole
    have hsame := (List.cons.inj (hdigits.symm.trans hcons)).1
    exact absurd (hsame.symm.trans (List.cons.inj htext).1.symm) hhead
  | behind z hpoint =>
    rw [hcons] at htext
    exact absurd (List.cons.inj htext).1.symm hhead

end Decimal

/-- **Literals of numbers have the usual layout unless the numbers are small.**  Zero is `0.0`, and
any other number is written by its canonical figures: plain where the point stands at most four
zeros before the first digit and at most sixteen places behind it, and scientific elsewhere, with a
sign in the exponent but no digit more than it takes. Negative numbers, zero among them, have a
minus sign. This is the usual layout but where the point stands four to eight zeros before the first
digit. -/
theorem float_literals_are_conventional_unless_small {x : Binary64} (hx : x.isFinite = true) :
    (x.units = 0 → (Value.float x).repr.toList =
      (if x.negative then ['-'] else []) ++ ['0', '.', '0']) ∧
    (x.units ≠ 0 → ∃ (f : Figures) (text : List Char), f.Canonical x ∧
      (Value.float x).repr.toList = (if x.negative then ['-'] else []) ++ text ∧
      (-5 < f.point ∧ f.point ≤ 16 → Plain f text) ∧
      (¬ (-5 < f.point ∧ f.point ≤ 16) → Scientific (signed (f.point - 1)) f.digits text) ∧
      (Conventional f text ↔ ¬ (-8 ≤ f.point ∧ f.point ≤ -4))) := by
  have hrepr : (Value.float x).repr.toList = (if x.negative then ['-'] else []) ++
      if x.units = 0 then ['0', '.', '0'] else Layout.literal.writeFigures (x.figures .even) := by
    rw [Value.repr, String.toList_ofList, Value.reprChars]
    exact Json.write_of_isFinite Layout.literal hx
  rw [hrepr]
  refine ⟨fun hunits => by rw [if_pos hunits], fun hunits => ?_⟩
  have hcanonical := canonical_figures hx hunits
  have hstands := hcanonical.shortest.standsFor
  have hne := hstands.digits_ne_nil hunits
  refine ⟨_, _, hcanonical, by rw [if_neg hunits], fun hplain => ?_, fun hscientific => ?_,
    conventional_writeFigures_iff hstands.isDigit hne⟩
  · rw [writeFigures_literal, if_pos hplain]
    exact plain_writePositional hne
  · rw [writeFigures_literal, if_neg hscientific]
    exact scientific_writeScientific hne

/-- A half, in plain notation. -/
theorem float_literals_are_conventional_unless_small_half :
    (⟨0x3fe0000000000000⟩ : Binary64).isFinite = true ∧
      ∃ f : Figures, f.Canonical ⟨0x3fe0000000000000⟩ ∧ Plain f ['0', '.', '5'] := by
  have hfinite : (⟨0x3fe0000000000000⟩ : Binary64).isFinite = true := by decide
  have hrepr : (Value.float ⟨0x3fe0000000000000⟩).repr.toList = ['0', '.', '5'] := by
    decide +kernel
  obtain ⟨f, text, hcanonical, htext, hplain, hscientific, -⟩ :=
    (float_literals_are_conventional_unless_small hfinite).2 (by decide +kernel)
  have hbody : ['0', '.', '5'] = text := hrepr.symm.trans htext
  refine ⟨hfinite, f, hcanonical, ?_⟩
  rw [hbody]
  refine hplain (Decidable.byContradiction fun hpoint => ?_)
  have hexponent := (hscientific hpoint).exponent_mem
  rw [← hbody] at hexponent
  exact absurd hexponent (by decide)

/-- The literals of `1e-05` and `1e-07`, which have neither the usual notation nor the usual
exponent. -/
theorem small_float_literals_are_not_conventional :
    (Value.float ⟨0x3ee4f8b588e368f1⟩).repr = "0.00001" ∧
    (∀ f : Figures, f.Shortest ⟨0x3ee4f8b588e368f1⟩ →
      ¬ Conventional f ['0', '.', '0', '0', '0', '0', '1']) ∧
    (Value.float ⟨0x3e7ad7f29abcaf48⟩).repr = "1e-7" ∧
    ∀ f : Figures, f.Shortest ⟨0x3e7ad7f29abcaf48⟩ → ¬ Conventional f ['1', 'e', '-', '7'] := by
  refine ⟨by decide +kernel, fun f hf hconventional => ?_, by decide +kernel,
    fun f hf hconventional => ?_⟩
  · rw [Conventional] at hconventional
    split at hconventional
    · rename_i hpoint
      have hle : f.point ≤ -((4 : Nat) : Int) := Plain.point_le hf (by decide +kernel) hconventional
      omega
    · have hexponent := hconventional.exponent_mem
      exact absurd hexponent (by decide)
  · rw [Conventional] at hconventional
    split at hconventional
    · have hexponent := hconventional.exponent_notMem hf.standsFor.isDigit
      exact absurd (by decide) hexponent
    · generalize f.digits = ds at hconventional
      have hlength := length_signedPadded (f.point - 1)
      generalize signedPadded (f.point - 1) = exponent at hconventional hlength
      cases hconventional with
      | one d => simp at hlength

end GuardedCall
