import GuardedCall.Json.Scan
import GuardedCall.Proofs.FirstFault
import GuardedCall.Proofs.Json.Written
import Mathlib.Data.List.TakeWhile

/-!
# Reading numbers

A number is read as far as its characters go. A number that is read off a text of its own is read
alike where something follows it that cannot belong to it, as what may follow a value in written
data. The digits of a whole number of 64 bits are read as that number.

Main definitions: `Ends`, `EndsNumber`, `ReadsBack`.
Main statements: `number_append`, `number_intDigits`, `takesNumerals_number`.
-/

namespace GuardedCall

open Decimal

namespace Json

/-- What may follow a value: nothing, a comma, or a closing character. -/
def Ends : List Char → Prop
  | [] => True
  | c :: _ => c = ',' ∨ c = ']' ∨ c = '\x7d'

theorem ends_nil : Ends [] := trivial

theorem ends_comma (text : List Char) : Ends (',' :: text) := Or.inl rfl

theorem ends_closeList (text : List Char) : Ends (']' :: text) := Or.inr (Or.inl rfl)

theorem ends_closeObject (text : List Char) : Ends ('\x7d' :: text) := Or.inr (Or.inr rfl)

/-- What follows a value is not part of a number. -/
theorem Ends.not_isNumeral {c : Char} {text : List Char} (h : Ends (c :: text)) :
    isNumeral c = false := by
  rcases h with rfl | rfl | rfl <;> rfl

/-- What may follow a number: nothing that could belong to it. -/
def EndsNumber : List Char → Prop
  | [] => True
  | c :: _ => isNumeral c = false

/-- What may follow a value may follow a number. -/
theorem Ends.endsNumber {text : List Char} (h : Ends text) : EndsNumber text := by
  cases text with
  | nil => trivial
  | cons c text => exact h.not_isNumeral

theorem EndsNumber.not_isNumeral {c : Char} {text : List Char} (h : EndsNumber (c :: text)) :
    isNumeral c = false := h

/-- What may follow a number does not begin with a digit. -/
theorem EndsNumber.not_isDigit {c : Char} {text : List Char} (h : EndsNumber (c :: text)) :
    c.isDigit = false := by
  rw [← Bool.not_eq_true]
  intro hd
  have hc := h.not_isNumeral
  rw [isNumeral_of_isDigit hd] at hc
  cases hc

variable {text rest r ds : List Char} {negative : Bool} {n : Number}

/-! ## The parts of a number by their first character -/

variable {c : Char}

/-- A whole part that does not begin with a zero goes as far as there are digits. -/
theorem wholePart_of_ne (h : c ≠ '0') : wholePart (c :: text) =
    if c.isDigit then .ok (digits (c :: text)) else .error .invalidNumber := by
  simp [wholePart]

/-- Without a point there is no fraction. -/
theorem fractionPart_of_ne (h : c ≠ '.') : fractionPart (c :: text) = .ok (none, c :: text) := by
  simp [fractionPart, h]

/-- A number without a minus sign is read as one that is not negative. -/
theorem number_of_ne (h : c ≠ '-') : number (c :: text) = unsigned false (c :: text) := by
  simp [number, h]

/-- A whole part begins with a digit. -/
theorem wholePart_head (h : wholePart text = .ok (ds, r)) :
    ∃ c rest, text = c :: rest ∧ c.isDigit = true := by
  cases text with
  | nil => cases h
  | cons c text =>
    refine ⟨c, text, rfl, ?_⟩
    by_cases hz : c = '0'
    · subst hz
      rfl
    · rw [wholePart_of_ne hz] at h
      split at h
      · assumption
      · cases h

/-- Behind its sign a number begins with a digit. -/
theorem unsigned_head (h : unsigned negative text = .ok (n, r)) :
    ∃ c rest, text = c :: rest ∧ c.isDigit = true := by
  rw [unsigned, except_bind_eq_ok_iff] at h
  obtain ⟨⟨w, r'⟩, hw, -⟩ := h
  exact wholePart_head hw

/-- A number begins with a minus sign or a digit. -/
theorem number_head (h : number (c :: text) = .ok (n, r)) : c = '-' ∨ c.isDigit = true := by
  by_cases hm : c = '-'
  · exact Or.inl hm
  · right
    rw [number_of_ne hm] at h
    obtain ⟨d, rest, heq, hd⟩ := unsigned_head h
    cases heq
    exact hd

/-! ## Numbers before something else -/

/-- Digits end where they did, if what follows is not part of a number. -/
theorem digits_append (hr : EndsNumber rest) :
    digits (text ++ rest) = ((digits text).1, (digits text).2 ++ rest) := by
  induction text with
  | nil =>
    cases rest with
    | nil => rfl
    | cons c rest => simp [digits, hr.not_isDigit]
  | cons c text ih =>
    simp only [digits, Prod.mk.injEq] at ih ⊢
    cases hc : c.isDigit with
    | false => simp [hc]
    | true => simpa [hc] using ih

/-- Where digits must be there, they are those that come, if any do. -/
theorem someDigits_eq_ok_iff :
    someDigits text = .ok (ds, r) ↔ digits text = (ds, r) ∧ ds ≠ [] := by
  rw [someDigits]
  obtain ⟨ds', r'⟩ := digits text
  cases ds' with
  | nil => cases r' <;> simp +contextual
  | cons d ds' =>
    simp only [Except.ok.injEq, Prod.mk.injEq, iff_self_and, and_imp]
    rintro rfl -
    exact List.cons_ne_nil d ds'

theorem someDigits_append (hr : EndsNumber rest) (h : someDigits text = .ok (ds, r)) :
    someDigits (text ++ rest) = .ok (ds, r ++ rest) := by
  rw [someDigits_eq_ok_iff] at h ⊢
  rw [digits_append hr, h.1]
  exact ⟨rfl, h.2⟩

/-- What follows does not change the whole part of a number. -/
theorem wholePart_append (hr : EndsNumber rest) (h : wholePart text = .ok (ds, r)) :
    wholePart (text ++ rest) = .ok (ds, r ++ rest) := by
  cases text with
  | nil => cases h
  | cons c text =>
    by_cases hc : c = '0'
    · subst hc
      cases text with
      | nil =>
        cases h
        cases rest with
        | nil => rfl
        | cons d rest => simp [wholePart, hr.not_isDigit]
      | cons d text =>
        simp only [wholePart, List.cons_append] at h ⊢
        split at h
        · cases h
        · cases h
          rw [if_neg ‹_›]
          rfl
    · rw [wholePart_of_ne hc] at h
      rw [List.cons_append, wholePart_of_ne hc]
      split at h
      · rw [if_pos ‹_›, ← List.cons_append, digits_append hr, Except.ok.inj h]
      · cases h

/-- What follows does not change the fraction of a number, for it is no point. -/
theorem fractionPart_append {f : Option (List Char)} (hr : EndsNumber rest)
    (h : fractionPart text = .ok (f, r)) : fractionPart (text ++ rest) = .ok (f, r ++ rest) := by
  cases text with
  | nil =>
    cases h
    cases rest with
    | nil => rfl
    | cons c rest =>
      have hc : c ≠ '.' := by
        rintro rfl
        exact absurd hr.not_isNumeral (by decide)
      simp [fractionPart, hc]
  | cons c text =>
    by_cases hc : c = '.'
    · subst hc
      simp only [fractionPart, List.cons_append, except_bind_eq_ok_iff] at h ⊢
      obtain ⟨⟨ds, r'⟩, hds, h⟩ := h
      cases h
      exact ⟨_, someDigits_append hr hds, rfl⟩
    · rw [fractionPart_of_ne hc] at h
      cases h
      exact fractionPart_of_ne hc

/-- The sign of an exponent is seen from its first character. -/
theorem exponentSign_append (ht : text ≠ []) :
    exponentSign (text ++ rest) = ((exponentSign text).1, (exponentSign text).2 ++ rest) := by
  cases text with
  | nil => exact absurd rfl ht
  | cons c text =>
    by_cases hp : c = '+'
    · subst hp
      rfl
    · by_cases hm : c = '-'
      · subst hm
        rfl
      · simp [exponentSign, hp, hm]

/-- What follows does not change the exponent of a number. -/
theorem exponentPart_append {e : Option Int} (hr : EndsNumber rest)
    (h : exponentPart text = .ok (e, r)) : exponentPart (text ++ rest) = .ok (e, r ++ rest) := by
  cases text with
  | nil =>
    cases h
    cases rest with
    | nil => rfl
    | cons c rest =>
      have hc : ¬ (c = 'e' ∨ c = 'E') := by
        rintro (rfl | rfl) <;> exact absurd hr.not_isNumeral (by decide)
      simp [exponentPart, hc]
  | cons c text =>
    rw [exponentPart] at h
    rw [List.cons_append, exponentPart]
    split at h
    · rw [if_pos ‹_›]
      obtain ⟨⟨ds, r'⟩, hds, h⟩ := except_bind_eq_ok_iff.1 h
      have htext : text ≠ [] := by
        rintro rfl
        cases hds
      rw [exponentSign_append htext]
      cases h
      exact except_bind_eq_ok_iff.2 ⟨_, someDigits_append hr hds, rfl⟩
    · rw [if_neg ‹_›]
      cases h
      rfl

theorem unsigned_append (hr : EndsNumber rest) (h : unsigned negative text = .ok (n, r)) :
    unsigned negative (text ++ rest) = .ok (n, r ++ rest) := by
  simp only [unsigned, except_bind_eq_ok_iff] at h
  obtain ⟨⟨w, r₁⟩, hw, ⟨f, r₂⟩, hf, ⟨e, r₃⟩, he, m, hm, hend⟩ := h
  cases hend
  simp only [unsigned, wholePart_append hr hw, fractionPart_append hr hf, exponentPart_append hr he,
    except_ok_bind, hm]

/-- A number is read alike where something follows it. -/
theorem number_append (hr : EndsNumber rest) (h : number text = .ok (n, r)) :
    number (text ++ rest) = .ok (n, r ++ rest) := by
  cases text with
  | nil => cases h
  | cons c text =>
    by_cases hc : c = '-'
    · subst hc
      exact unsigned_append hr h
    · rw [number_of_ne hc] at h
      rw [List.cons_append, number_of_ne hc]
      exact unsigned_append hr h

/-! ## Whole numbers -/

theorem natDigits_of_lt {n : Nat} (h : n < 10) : natDigits n = [Nat.digitChar n] :=
  Nat.toDigits_of_lt_base h

/-- The last digit of a number that has several. -/
theorem natDigits_of_le {n : Nat} (h : 10 ≤ n) :
    natDigits n = natDigits (n / 10) ++ [Nat.digitChar (n % 10)] :=
  Nat.toDigits_of_base_le (by decide) h

/-- The first digit is zero for zero only. -/
theorem natDigits_eq_cons {n : Nat} (h : 0 < n) :
    ∃ c cs, natDigits n = c :: cs ∧ c ≠ '0' ∧ c.isDigit = true := by
  induction n using Nat.strongRecOn with
  | ind n ih =>
    rcases Nat.lt_or_ge n 10 with hlt | hge
    · refine ⟨_, [], natDigits_of_lt hlt, ?_, ?_⟩
      · rw [ne_eq, Nat.digitChar_eq_zero]
        omega
      · rw [Nat.isDigit_digitChar]
        exact decide_eq_true hlt
    · obtain ⟨c, cs, hcs, hc, hd⟩ := ih (n / 10) (by omega) (by omega)
      exact ⟨c, cs ++ [Nat.digitChar (n % 10)], by rw [natDigits_of_le hge, hcs]; rfl, hc, hd⟩

/-- The digits of a number are nothing but digits. -/
theorem digits_natDigits (n : Nat) : digits (natDigits n) = (natDigits n, []) := by
  have hall : ∀ c ∈ natDigits n, c.isDigit = true := fun _ => isDigit_of_mem_natDigits
  rw [digits, List.takeWhile_eq_self_iff.2 hall, List.dropWhile_eq_nil_iff.2 hall]

/-- The digits of a number are a whole part: no other number than zero begins with a zero. -/
theorem wholePart_natDigits (n : Nat) : wholePart (natDigits n) = .ok (natDigits n, []) := by
  rcases Nat.eq_zero_or_pos n with rfl | hn
  · rfl
  · obtain ⟨c, cs, hcs, hc, hd⟩ := natDigits_eq_cons hn
    rw [hcs, wholePart_of_ne hc, if_pos hd, ← hcs, digits_natDigits]

/-- The digits of a number are read without a fraction and an exponent. -/
theorem unsigned_natDigits (n : Nat) :
    unsigned negative (natDigits n) = (numberOfParts negative (natDigits n) none none).map
      fun m => (m, []) := by
  rw [unsigned, wholePart_natDigits]
  simp only [except_ok_bind, fractionPart, exponentPart]
  cases numberOfParts negative (natDigits n) none none <;> rfl

/-- A whole number of 64 bits is read off its digits. -/
theorem number_intDigits {i : Int} (h : Word64.fitsSigned i = true) :
    number (intDigits i) = .ok (.int i, []) := by
  simp only [Word64.fitsSigned, Bool.and_eq_true, decide_eq_true_eq] at h
  cases i with
  | ofNat i =>
    have hfits : Word64.fitsUnsigned (i : Int) = true := by
      simp only [Word64.fitsUnsigned, Bool.and_eq_true, decide_eq_true_eq]
      simp only [Int.ofNat_eq_natCast] at h
      omega
    have hnumber : number (natDigits i) = unsigned false (natDigits i) := by
      rcases Nat.eq_zero_or_pos i with rfl | hi
      · rfl
      · obtain ⟨c, cs, hcs, -, hd⟩ := natDigits_eq_cons hi
        rw [hcs, number_of_ne]
        rintro rfl
        cases hd
    rw [intDigits, hnumber, unsigned_natDigits]
    simp only [numberOfParts, ofDigits_natDigits, hfits, if_true, Bool.false_eq_true, if_false]
    rfl
  | negSucc i =>
    have hfits : 0 < i + 1 ∧ Word64.fitsSigned (-((i + 1 : Nat) : Int)) = true := by
      simp only [Word64.fitsSigned, Bool.and_eq_true, decide_eq_true_eq]
      simp only [Int.negSucc_eq] at h
      omega
    rw [intDigits]
    show unsigned true (natDigits (i + 1)) = _
    rw [unsigned_natDigits]
    simp only [numberOfParts, ofDigits_natDigits, if_pos hfits, if_true]
    rfl

/-! ## Floating point numbers -/

/-- A finite number is read back from its written form, with all its bits. -/
def ReadsBack (x : Binary64) : Prop :=
  x.isFinite = true → number (printFloat x) = .ok (.float x, [])

/-! ## What a number takes up -/

/-- A text is numerals and then the rest of it. -/
def TakesNumerals (text rest : List Char) : Prop :=
  ∃ s, text = s ++ rest ∧ ∀ c ∈ s, isNumeral c = true

theorem TakesNumerals.refl (text : List Char) : TakesNumerals text text :=
  ⟨[], rfl, by simp⟩

/-- Characters of numbers may be taken in two pieces. -/
theorem TakesNumerals.trans {t₁ t₂ t₃ : List Char} (h : TakesNumerals t₁ t₂)
    (h' : TakesNumerals t₂ t₃) : TakesNumerals t₁ t₃ := by
  obtain ⟨s, rfl, hs⟩ := h
  obtain ⟨s', rfl, hs'⟩ := h'
  exact ⟨s ++ s', by rw [List.append_assoc], List.forall_mem_append.2 ⟨hs, hs'⟩⟩

theorem takesNumerals_cons (hc : isNumeral c = true) (text : List Char) :
    TakesNumerals (c :: text) text :=
  ⟨[c], rfl, by simpa using hc⟩

theorem takesNumerals_digits (text : List Char) : TakesNumerals text (digits text).2 := by
  refine ⟨text.takeWhile Char.isDigit, List.takeWhile_append_dropWhile.symm, fun c hc => ?_⟩
  exact isNumeral_of_isDigit (List.mem_takeWhile_imp hc)

theorem takesNumerals_someDigits (h : someDigits text = .ok (ds, r)) : TakesNumerals text r := by
  have hdigits := takesNumerals_digits text
  rw [(someDigits_eq_ok_iff.1 h).1] at hdigits
  exact hdigits

/-- A whole part takes digits only. -/
theorem takesNumerals_wholePart (h : wholePart text = .ok (ds, r)) : TakesNumerals text r := by
  cases text with
  | nil => cases h
  | cons c text =>
    by_cases hc : c = '0'
    · subst hc
      have hrest : r = text := by
        cases text with
        | nil =>
          cases h
          rfl
        | cons d text =>
          simp only [wholePart] at h
          split at h
          · cases h
          · cases h
            rfl
      rw [hrest]
      exact takesNumerals_cons rfl text
    · rw [wholePart_of_ne hc] at h
      split at h
      · have hdigits := takesNumerals_digits (c :: text)
        rw [Except.ok.inj h] at hdigits
        exact hdigits
      · cases h

theorem takesNumerals_fractionPart {f : Option (List Char)} (h : fractionPart text = .ok (f, r)) :
    TakesNumerals text r := by
  cases text with
  | nil =>
    cases h
    exact .refl _
  | cons c text =>
    by_cases hc : c = '.'
    · subst hc
      rw [fractionPart, except_bind_eq_ok_iff] at h
      obtain ⟨⟨ds, r'⟩, hds, h⟩ := h
      cases h
      exact (takesNumerals_cons rfl text).trans (takesNumerals_someDigits hds)
    · rw [fractionPart_of_ne hc] at h
      cases h
      exact .refl _

theorem takesNumerals_exponentSign (text : List Char) :
    TakesNumerals text (exponentSign text).2 := by
  unfold exponentSign
  split
  · exact takesNumerals_cons rfl _
  · exact takesNumerals_cons rfl _
  · exact .refl _

/-- An exponent takes its mark, a sign and digits, all of which stand in numbers. -/
theorem takesNumerals_exponentPart {e : Option Int} (h : exponentPart text = .ok (e, r)) :
    TakesNumerals text r := by
  cases text with
  | nil =>
    cases h
    exact .refl _
  | cons c text =>
    rw [exponentPart] at h
    split at h
    · have hc : isNumeral c = true := by
        rename_i hc
        rcases hc with rfl | rfl <;> rfl
      obtain ⟨⟨ds, r'⟩, hds, h⟩ := except_bind_eq_ok_iff.1 h
      cases h
      exact ((takesNumerals_cons hc text).trans (takesNumerals_exponentSign text)).trans
        (takesNumerals_someDigits hds)
    · cases h
      exact .refl _

theorem takesNumerals_unsigned (h : unsigned negative text = .ok (n, r)) :
    TakesNumerals text r := by
  simp only [unsigned, except_bind_eq_ok_iff] at h
  obtain ⟨⟨w, r₁⟩, hw, ⟨f, r₂⟩, hf, ⟨e, r₃⟩, he, m, hm, hend⟩ := h
  cases hend
  exact ((takesNumerals_wholePart hw).trans (takesNumerals_fractionPart hf)).trans
    (takesNumerals_exponentPart he)

/-- A number takes up numerals only. -/
theorem takesNumerals_number (h : number text = .ok (n, r)) : TakesNumerals text r := by
  cases text with
  | nil => cases h
  | cons c text =>
    by_cases hc : c = '-'
    · subst hc
      exact (takesNumerals_cons rfl text).trans (takesNumerals_unsigned h)
    · rw [number_of_ne hc] at h
      exact takesNumerals_unsigned h

end Json

end GuardedCall
