import GuardedCall.CommandLine
import GuardedCall.Proofs.Decimal.Whole
import GuardedCall.Proofs.Json.Parsed

/-!
# Integer literals

What a word that is an integer literal is read as. A number that 64 bits hold is that number, except
for minus zero, which is taken for one that is too wide. A number that they do not hold is refused
as too wide exactly if it still becomes a finite floating point number, so with up to 308 digits;
else, so with 310 digits or more, the literal is no JSON any more, and the word stands for itself.
No integer literal becomes a floating point number.

Main definitions: `WholeDigits`, `IntegerLiteral`.
Main statements: `parse_literal`, `parseValue_of_fits`, `parseValue_of_wide`,
`integer_literals_are_exact_or_refused`.
-/

namespace GuardedCall

open Decimal Json Request Value

/-- The digits of a whole number: a zero alone, or digits that do not begin with one. -/
inductive WholeDigits : List Char → Prop
  | zero : WholeDigits ['0']
  | digits {c : Char} {cs : List Char} (hz : c ≠ '0') (h : ∀ d ∈ c :: cs, d.isDigit = true) :
    WholeDigits (c :: cs)

/-- A text that is an integer and blanks around it. -/
structure IntegerLiteral where
  before : List Char
  negative : Bool
  digits : List Char
  after : List Char
  blank_before : ∀ c ∈ before, isBlank c = true
  whole : WholeDigits digits
  blank_after : ∀ c ∈ after, isBlank c = true

namespace IntegerLiteral

/-- The sign and the digits. -/
def numeral (l : IntegerLiteral) : List Char := (if l.negative then ['-'] else []) ++ l.digits

/-- The whole text. -/
def text (l : IntegerLiteral) : String := String.ofList (l.before ++ (l.numeral ++ l.after))

/-- The number that is meant. -/
def value (l : IntegerLiteral) : Int :=
  if l.negative then -(ofDigits l.digits : Int) else ofDigits l.digits

/-- Zero with a minus sign. -/
def IsMinusZero (l : IntegerLiteral) : Prop := l.negative = true ∧ l.value = 0

/-- The number does not fit into 64 bits, or it is zero with a minus sign. -/
def IsWide (l : IntegerLiteral) : Prop := l.IsMinusZero ∨ Word64.fitsSigned l.value = false

/-- The failure of a number that is too wide. -/
def tooWide (l : IntegerLiteral) : Failure where
  kind := .overflow
  message := "integer " ++ String.ofList l.numeral ++ " does not fit in 64 bits"

end IntegerLiteral

variable {ds rest : List Char} {negative : Bool} {l : IntegerLiteral}

/-! ## The digits of a literal -/

theorem WholeDigits.isDigit (h : WholeDigits ds) : ∀ c ∈ ds, c.isDigit = true := by
  cases h with
  | zero => simp
  | digits _ h => exact h

theorem WholeDigits.ne_nil (h : WholeDigits ds) : ds ≠ [] := by
  cases h with
  | zero => exact List.cons_ne_nil _ _
  | digits _ _ => exact List.cons_ne_nil _ _

/-- A blank is neither a digit nor a mark of a number. -/
theorem not_isNumeral_of_isBlank {c : Char} (h : isBlank c = true) : isNumeral c = false := by
  simp only [isBlank, Bool.or_eq_true, decide_eq_true_eq] at h
  rcases h with ((rfl | rfl) | rfl) | rfl <;> rfl

theorem not_isBlank_of_isNumeral {c : Char} (h : isNumeral c = true) : isBlank c = false := by
  rw [← Bool.not_eq_true]
  intro hb
  rw [not_isNumeral_of_isBlank hb] at h
  cases h

theorem endsNumber_of_blank (hr : ∀ c ∈ rest, isBlank c = true) : EndsNumber rest := by
  cases rest with
  | nil => trivial
  | cons c rest => exact not_isNumeral_of_isBlank (hr c List.mem_cons_self)

theorem WholeDigits.wholePart_eq (h : WholeDigits ds) : wholePart ds = .ok (ds, []) := by
  cases h with
  | zero => rfl
  | digits hz h =>
    rw [wholePart_of_ne hz, if_pos (h _ List.mem_cons_self), Json.digits,
      List.takeWhile_eq_self_iff.2 h, List.dropWhile_eq_nil_iff.2 h]

/-- A number that 64 bits hold without a sign has no more than twenty digits. -/
theorem WholeDigits.length_le (h : WholeDigits ds) (hlt : ofDigits ds < Binary64.twoTo 64) :
    ds.length ≤ 20 := by
  cases h with
  | zero => decide
  | @digits c cs hz h =>
    have hfirst : tenTo cs.length ≤ ofDigits (c :: cs) := le_ofDigits (h c List.mem_cons_self) hz
    have hwords : Binary64.twoTo 64 ≤ tenTo 20 := by decide
    rw [List.length_cons]
    by_contra hlong
    have hlast : tenTo 20 ≤ tenTo cs.length := tenTo_le (by omega)
    omega

/-- Behind its sign a literal is a number without fraction and exponent. -/
theorem unsigned_append_blank (h : WholeDigits ds) (hr : ∀ c ∈ rest, isBlank c = true) :
    unsigned negative (ds ++ rest) =
      numberOfParts negative ds none none >>= fun n => .ok (n, rest) := by
  have hend := endsNumber_of_blank hr
  have hwhole : Json.wholePart (ds ++ rest) = .ok (ds, [] ++ rest) :=
    wholePart_append hend h.wholePart_eq
  have hfraction : fractionPart ([] ++ rest) = .ok (none, [] ++ rest) :=
    fractionPart_append hend rfl
  have hexponent : exponentPart ([] ++ rest) = .ok (none, [] ++ rest) :=
    exponentPart_append hend rfl
  rw [List.nil_append] at hwhole hfraction hexponent
  simp only [unsigned, hwhole, except_ok_bind, hfraction, hexponent]

namespace IntegerLiteral

theorem isNumeral_of_mem_numeral {c : Char} (h : c ∈ l.numeral) : isNumeral c = true := by
  rcases List.mem_append.1 h with h | h
  · split at h
    · rw [List.mem_singleton.1 h]
      rfl
    · cases h
  · exact isNumeral_of_isDigit (l.whole.isDigit c h)

theorem minus_or_isDigit_of_mem_numeral {c : Char} (h : c ∈ l.numeral) :
    c = '-' ∨ c.isDigit = true := by
  rcases List.mem_append.1 h with h | h
  · split at h
    · exact Or.inl (List.mem_singleton.1 h)
    · cases h
  · exact Or.inr (l.whole.isDigit c h)

theorem numeral_ne_nil (l : IntegerLiteral) : l.numeral ≠ [] := by
  intro h
  exact l.whole.ne_nil (List.append_eq_nil_iff.1 h).2

/-! ## The literal as JSON -/

theorem number_numeral (l : IntegerLiteral) :
    number (l.numeral ++ l.after) =
      numberOfParts l.negative l.digits none none >>= fun n => .ok (n, l.after) := by
  rw [← unsigned_append_blank l.whole l.blank_after, numeral]
  cases l.negative with
  | true => rfl
  | false =>
    rw [if_neg Bool.false_ne_true, List.nil_append]
    cases hd : l.digits with
    | nil => exact absurd hd l.whole.ne_nil
    | cons c cs =>
      refine number_of_ne ?_
      rintro rfl
      exact absurd (l.whole.isDigit '-' (hd ▸ List.mem_cons_self)) (by decide)

theorem skipBlank_text (l : IntegerLiteral) :
    skipBlank (l.before ++ (l.numeral ++ l.after)) = l.numeral ++ l.after := by
  cases hn : l.numeral with
  | nil => exact absurd hn l.numeral_ne_nil
  | cons c cs =>
    have hc : c ∈ l.numeral := hn ▸ List.mem_cons_self
    exact skipBlank_append l.blank_before (not_isBlank_of_isNumeral (isNumeral_of_mem_numeral hc)) _

/-- The data of a literal is its number, if there is one. -/
theorem parse_literal (l : IntegerLiteral) :
    Json.parse l.text.toList =
      numberOfParts l.negative l.digits none none >>= fun n => .ok (ofScalar (.number n)) := by
  have hscalar : readScalar (l.numeral ++ l.after) =
      numberOfParts l.negative l.digits none none >>= fun n =>
        .ok (ofScalar (.number n), l.after) := by
    have hnumber := l.number_numeral
    cases hn : l.numeral with
    | nil => exact absurd hn l.numeral_ne_nil
    | cons c cs =>
      have hc : c ∈ l.numeral := hn ▸ List.mem_cons_self
      rw [hn] at hnumber
      rw [List.cons_append] at hnumber ⊢
      rw [readScalar, scalar_of_numberHead (minus_or_isDigit_of_mem_numeral hc), hnumber]
      cases numberOfParts l.negative l.digits none none <;> rfl
  have hafter : skipBlank l.after = [] := List.dropWhile_eq_nil_iff.2 l.blank_after
  have hread : Json.read maxLevels (l.before ++ (l.numeral ++ l.after)) =
      readScalar (l.numeral ++ l.after) := by
    have hopen (d : Char) (hd : isNumeral d = false) (rest : List Char) :
        skipBlank (l.before ++ (l.numeral ++ l.after)) ≠ d :: rest := by
      rw [l.skipBlank_text]
      cases hn : l.numeral with
      | nil => exact absurd hn l.numeral_ne_nil
      | cons c cs =>
        intro h
        have hc : c ∈ l.numeral := hn ▸ List.mem_cons_self
        have hcd : c = d := (List.cons.inj h).1
        rw [← hcd, isNumeral_of_mem_numeral hc] at hd
        cases hd
    rw [read_scalar maxLevels (hopen '[' rfl) (hopen '\x7b' rfl), l.skipBlank_text]
  rw [text, String.toList_ofList, Json.parse, complete, hread, hscalar]
  cases numberOfParts l.negative l.digits none none with
  | error f => rfl
  | ok n =>
    simp only [except_ok_bind, hafter]

theorem trimmed_text (l : IntegerLiteral) : trimmed l.text.toList = l.numeral := by
  rw [text, String.toList_ofList, trimmed, l.skipBlank_text, List.reverse_append]
  cases hn : l.numeral.reverse with
  | nil => exact absurd (List.reverse_eq_nil_iff.1 hn) l.numeral_ne_nil
  | cons c cs =>
    have hc : c ∈ l.numeral := List.mem_reverse.1 (hn ▸ List.mem_cons_self)
    have hafter : ∀ c ∈ l.after.reverse, isBlank c = true := by
      intro c hc
      exact l.blank_after c (List.mem_reverse.1 hc)
    rw [skipBlank_append hafter (not_isBlank_of_isNumeral (isNumeral_of_mem_numeral hc)), ← hn,
      List.reverse_reverse]

/-- A literal has no mark of a floating point number. -/
theorem not_mark (l : IntegerLiteral) :
    l.text.toList.any (fun c => c = '.' || c = 'e' || c = 'E') = false := by
  rw [text, String.toList_ofList, List.any_eq_false]
  intro c hc
  have hkind : isBlank c = true ∨ c = '-' ∨ c.isDigit = true := by
    rcases List.mem_append.1 hc with hc | hc
    · exact Or.inl (l.blank_before c hc)
    · rcases List.mem_append.1 hc with hc | hc
      · exact Or.inr (minus_or_isDigit_of_mem_numeral hc)
      · exact Or.inl (l.blank_after c hc)
  simp only [Bool.or_eq_true, decide_eq_true_eq]
  rintro ((rfl | rfl) | rfl) <;> exact absurd hkind (by decide)

/-- A literal that is a number is this number, or refused if the number is too wide. -/
theorem parseValue_of_ok {n : Number}
    (h : numberOfParts l.negative l.digits none none = .ok n) :
    parseValue l.text = if isWideNumber (ofScalar (.number n)) then .error l.tooWide
      else .ok (ofJson (ofScalar (.number n))) := by
  simp only [parseValue, parse_literal, h, except_ok_bind, not_mark, Bool.not_false, Bool.and_true,
    trimmed_text]
  rfl

/-- A literal that is no number stands for itself. -/
theorem parseValue_of_error {f : Fault}
    (h : numberOfParts l.negative l.digits none none = .error f) :
    parseValue l.text = .ok (.str l.text) := by
  simp only [parseValue, parse_literal, h, except_error_bind]

end IntegerLiteral

/-! ## Which number it is -/

/-- Digits without point and exponent are a floating point number if that is finite. -/
theorem scaledFloat_whole (negative : Bool) (ds : List Char) :
    scaledFloat negative ds [] 0 =
      if (Binary64.ofWholeDigits negative ds).isFinite then
        .ok (.float (Binary64.ofWholeDigits negative ds))
      else .error .numberOutOfRange := by
  have hexponent : (0 : Int) + (appendFitting 0 ds).2.length + ([] : List Char).length -
      ([] : List Char).length = (appendFitting 0 ds).2.length := by
    simp
  simp only [scaledFloat, appendFitting, hexponent]
  rfl

namespace IntegerLiteral

theorem value_of_negative (h : l.negative = true) : l.value = -(ofDigits l.digits : Int) :=
  if_pos h

theorem value_of_not_negative (h : l.negative = false) : l.value = ofDigits l.digits := by
  rw [value, h]
  rfl

theorem numberOfParts_of_fits (h : ¬ l.IsWide) :
    numberOfParts l.negative l.digits none none = .ok (.int l.value) := by
  simp only [IsWide, IsMinusZero, not_or, not_and, Bool.not_eq_false] at h
  obtain ⟨hzero, hfits⟩ := h
  rw [numberOfParts]
  by_cases hn : l.negative = true
  · have hzero := hzero hn
    rw [value_of_negative hn] at hzero hfits ⊢
    have hpos : 0 < ofDigits l.digits := by omega
    rw [if_pos hn, if_pos ⟨hpos, hfits⟩]
  · rw [value_of_not_negative (Bool.eq_false_iff.2 hn)] at hfits ⊢
    have hunsigned : Word64.fitsUnsigned (ofDigits l.digits : Int) = true := by
      simp only [Word64.fitsSigned, Word64.fitsUnsigned, Bool.and_eq_true, decide_eq_true_eq]
        at hfits ⊢
      omega
    rw [if_neg hn, if_pos hunsigned]

/-- A wide number is taken for a floating point number, unless it fits without a sign. -/
theorem numberOfParts_of_wide (h : l.IsWide) :
    (ofDigits l.digits < Binary64.twoTo 64 ∧ Word64.fitsSigned l.value = false ∧
      numberOfParts l.negative l.digits none none = .ok (.int l.value)) ∨
    numberOfParts l.negative l.digits none none = scaledFloat l.negative l.digits [] 0 := by
  rw [numberOfParts]
  by_cases hn : l.negative = true
  · right
    have hfits : ¬ (0 < ofDigits l.digits ∧
        Word64.fitsSigned (-(ofDigits l.digits : Int)) = true) := by
      rintro ⟨hpos, hfits⟩
      rw [← value_of_negative hn] at hfits
      rcases h with ⟨-, hzero⟩ | hwide
      · rw [value_of_negative hn] at hzero
        omega
      · rw [hwide] at hfits
        cases hfits
    rw [if_pos hn, if_neg hfits, hn]
  · have hwide : Word64.fitsSigned l.value = false := by
      rcases h with ⟨hnegative, -⟩ | hwide
      · exact absurd hnegative hn
      · exact hwide
    rw [value_of_not_negative (Bool.eq_false_iff.2 hn)] at hwide ⊢
    rw [if_neg hn]
    by_cases hunsigned : Word64.fitsUnsigned (ofDigits l.digits : Int) = true
    · left
      have hlt : ofDigits l.digits < Binary64.twoTo 64 := by
        have hwords : Binary64.twoTo 64 = 18446744073709551616 := rfl
        simp only [Word64.fitsUnsigned, Bool.and_eq_true, decide_eq_true_eq] at hunsigned
        omega
      exact ⟨hlt, hwide, if_pos hunsigned⟩
    · right
      rw [if_neg hunsigned, Bool.eq_false_iff.2 hn]

/-! ## What a literal is read as -/

/-- A number that fits is read exactly. -/
theorem parseValue_of_fits (h : ¬ l.IsWide) :
    parseValue l.text = .ok (.int (Int64.ofInt l.value)) := by
  have hfits : Word64.fitsSigned l.value = true := by
    simp only [IsWide, not_or, Bool.not_eq_false] at h
    exact h.2
  rw [parseValue_of_ok (numberOfParts_of_fits h), ofScalar, isWideNumber, hfits, if_neg (by decide),
    ofJson, ofWhole, if_pos hfits]

/-- A wide number is refused as too wide as long as it becomes a finite floating point number, and
stands for itself if it does not. -/
theorem parseValue_of_wide (h : l.IsWide) :
    parseValue l.text =
      if (Binary64.ofWholeDigits l.negative l.digits).isFinite then .error l.tooWide
      else .ok (.str l.text) := by
  rcases numberOfParts_of_wide h with ⟨hlt, hfits, hparts⟩ | hparts
  · have hlength := l.whole.length_le hlt
    rw [if_pos (Binary64.isFinite_ofWholeDigits l.whole.isDigit (by omega)),
      parseValue_of_ok hparts, ofScalar, isWideNumber, hfits]
    rfl
  · rw [scaledFloat_whole] at hparts
    split at hparts
    · rename_i hfinite
      rw [if_pos hfinite, parseValue_of_ok hparts]
      rfl
    · rename_i hfinite
      rw [if_neg hfinite, parseValue_of_error hparts]

/-- With up to 308 digits a wide number is refused. -/
theorem parseValue_of_short (h : l.IsWide) (hlength : l.digits.length ≤ 308) :
    parseValue l.text = .error l.tooWide := by
  rw [parseValue_of_wide h, if_pos (Binary64.isFinite_ofWholeDigits l.whole.isDigit hlength)]

/-- With 310 digits or more a number does not fit, and stands for itself. -/
theorem parseValue_of_long (hlength : 310 ≤ l.digits.length) :
    Word64.fitsSigned l.value = false ∧ parseValue l.text = .ok (.str l.text) := by
  have hhuge : Binary64.twoTo 64 ≤ ofDigits l.digits := by
    by_contra hlt
    have hshort := l.whole.length_le (Nat.lt_of_not_le hlt)
    omega
  have hwords : Binary64.twoTo 64 = 18446744073709551616 := rfl
  have hfits : Word64.fitsSigned l.value = false := by
    rw [← Bool.not_eq_true]
    intro hfits
    simp only [Word64.fitsSigned, Bool.and_eq_true, decide_eq_true_eq] at hfits
    rw [value] at hfits
    split at hfits <;> omega
  have hinfinite : (Binary64.ofWholeDigits l.negative l.digits).isFinite = false := by
    have hwhole := l.whole
    generalize l.digits = ds at hwhole hlength
    cases hwhole with
    | zero =>
      rw [List.length_singleton] at hlength
      omega
    | digits hz hdigits => exact Binary64.not_isFinite_ofWholeDigits hdigits hz hlength
  refine ⟨hfits, ?_⟩
  rw [parseValue_of_wide (Or.inr hfits), hinfinite]
  rfl

end IntegerLiteral

/-- **Integer literals are exact or refused, unless they are very long.**  An integer with blanks
around it is read as this integer if 64 bits hold it, except for minus zero. Minus zero and an
integer that 64 bits do not hold are refused as too wide exactly if the digits, taken for a floating
point number, are still finite; else the word stands for itself. With up to 308 digits they are
finite, and with 310 digits or more they are not. No integer is read as a floating point number. -/
theorem integer_literals_are_exact_or_refused (l : IntegerLiteral) :
    (¬ l.IsMinusZero → Word64.fitsSigned l.value = true →
      parseValue l.text = .ok (.int (Int64.ofInt l.value)) ∧
        (Int64.ofInt l.value).toInt = l.value) ∧
    (l.IsMinusZero ∨ Word64.fitsSigned l.value = false →
      (l.digits.length ≤ 308 → parseValue l.text = .error l.tooWide) ∧
      (310 ≤ l.digits.length → parseValue l.text = .ok (.str l.text)) ∧
      parseValue l.text =
        if (Binary64.ofWholeDigits l.negative l.digits).isFinite then .error l.tooWide
        else .ok (.str l.text)) := by
  constructor
  · intro hzero hfits
    have hwide : ¬ l.IsWide := by
      rintro (h | h)
      · exact hzero h
      · rw [hfits] at h
        cases h
    exact ⟨IntegerLiteral.parseValue_of_fits hwide, Word64.toInt_ofInt hfits⟩
  · intro hwide
    exact ⟨fun hshort => IntegerLiteral.parseValue_of_short hwide hshort,
      fun hlong => (IntegerLiteral.parseValue_of_long hlong).2,
      IntegerLiteral.parseValue_of_wide hwide⟩

/-- The least integer that 64 bits hold, between blanks, and the one below it. -/
theorem integer_literals_are_exact_or_refused_least :
    let least : IntegerLiteral :=
      { before := [' '], negative := true, digits := "9223372036854775808".toList, after := ['\n']
        blank_before := List.forall_mem_singleton.2 rfl
        whole := .digits (by decide) (List.all_eq_true.1 (by decide))
        blank_after := List.forall_mem_singleton.2 rfl }
    let below : IntegerLiteral :=
      { before := [], negative := true, digits := "9223372036854775809".toList, after := []
        blank_before := List.forall_mem_nil _
        whole := .digits (by decide) (List.all_eq_true.1 (by decide))
        blank_after := List.forall_mem_nil _ }
    (¬ least.IsMinusZero ∧ parseValue least.text = .ok (.int (Int64.ofInt least.value))) ∧
      (Word64.fitsSigned below.value = false ∧ parseValue below.text = .error below.tooWide) := by
  intro least below
  have hzero : ¬ least.IsMinusZero := by
    rintro ⟨-, h⟩
    exact absurd h (by decide)
  have hfits : Word64.fitsSigned least.value = true := by decide
  have hwide : Word64.fitsSigned below.value = false := by decide
  exact ⟨⟨hzero, ((integer_literals_are_exact_or_refused least).1 hzero hfits).1⟩, hwide,
    ((integer_literals_are_exact_or_refused below).2 (Or.inr hwide)).1 (by decide)⟩

/-- Minus zero is zero, which fits, and is refused as too wide all the same; and four hundred nines
do not fit, and are not refused. -/
theorem minus_zero_is_refused_and_long_integers_are_not :
    let minusZero : IntegerLiteral :=
      { before := [], negative := true, digits := ['0'], after := []
        blank_before := List.forall_mem_nil _, whole := .zero
        blank_after := List.forall_mem_nil _ }
    let nines : IntegerLiteral :=
      { before := [], negative := false, digits := '9' :: List.replicate 399 '9', after := []
        blank_before := List.forall_mem_nil _
        whole := .digits (by decide) fun d hd => by
          rw [List.eq_of_mem_replicate (n := 400) hd]
          rfl
        blank_after := List.forall_mem_nil _ }
    (minusZero.text = "-0" ∧ Word64.fitsSigned minusZero.value = true ∧
      parseValue minusZero.text = .error
        { kind := .overflow, message := "integer -0 does not fit in 64 bits" }) ∧
    (Word64.fitsSigned nines.value = false ∧ parseValue nines.text = .ok (.str nines.text)) := by
  intro minusZero nines
  have hzero : minusZero.IsWide := Or.inl ⟨rfl, rfl⟩
  have hlength : 310 ≤ nines.digits.length := by
    show 310 ≤ ('9' :: List.replicate 399 '9').length
    rw [List.length_cons, List.length_replicate]
    omega
  refine ⟨⟨rfl, by decide, ?_⟩, IntegerLiteral.parseValue_of_long hlength⟩
  exact IntegerLiteral.parseValue_of_short hzero (by decide)

end GuardedCall
