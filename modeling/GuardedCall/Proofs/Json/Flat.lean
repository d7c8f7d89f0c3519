import GuardedCall.Json.Skip
import GuardedCall.Proofs.Decimal.Finite
import GuardedCall.Proofs.FirstFault
import GuardedCall.Proofs.Json.Nesting
import GuardedCall.Proofs.Json.Numerals

/-!
# Parts of a text that open and close nothing

A reader takes the front of a text and leaves the rest. What readers of blanks, numbers, strings
and separators take opens and closes no array and no object, whatever it is, so the text is nested
as deep from there on as the rest of it.

Main definition: `Flat`. Main statements: `flat_scalar`, `peak_anotherMember`.
-/

namespace GuardedCall.Json

open Decimal

variable {level : Nat} {text rest r t₁ t₂ t₃ : List Char} {c : Char}

/-- What stands in a text before the rest opens and closes nothing. -/
def Flat (text rest : List Char) : Prop :=
  ∀ level, peak .outside level text = peak .outside level rest

theorem Flat.refl (text : List Char) : Flat text text := fun _ => rfl

/-- What opens and closes nothing may be taken in two pieces. -/
theorem Flat.trans (h : Flat t₁ t₂) (h' : Flat t₂ t₃) : Flat t₁ t₃ :=
  fun level => (h level).trans (h' level)

theorem Flat.symm (h : Flat t₁ t₂) : Flat t₂ t₁ := fun level => (h level).symm

theorem flat_cons (h : isPlain c = true) (text : List Char) : Flat (c :: text) text :=
  fun _ => peak_plain h

/-! ## Blanks, words and numbers -/

theorem isPlain_of_isBlank (h : isBlank c = true) : isPlain c = true := by
  simp only [isBlank, Bool.or_eq_true, decide_eq_true_eq] at h
  rcases h with ((rfl | rfl) | rfl) | rfl <;> rfl

/-- Blanks open and close nothing. -/
theorem flat_skipBlank (text : List Char) : Flat text (skipBlank text) := by
  induction text with
  | nil => exact .refl _
  | cons c text ih =>
    rw [skipBlank, List.dropWhile_cons]
    split
    · rename_i hc
      exact (flat_cons (isPlain_of_isBlank hc) text).trans ih
    · exact .refl _

/-- The letters of a word open and close nothing. -/
theorem flat_word {letters : List Char} (hletters : ∀ c ∈ letters, isPlain c = true)
    (h : word letters text = .ok ((), rest)) : Flat text rest := by
  induction letters generalizing text with
  | nil =>
    cases h
    exact .refl _
  | cons l ls ih =>
    cases text with
    | nil => cases h
    | cons c text =>
      rw [word] at h
      split at h
      · rename_i hc
        subst hc
        rw [List.forall_mem_cons] at hletters
        exact (flat_cons hletters.1 text).trans (ih hletters.2 h)
      · cases h

/-- The characters of numbers open and close nothing. -/
theorem TakesNumerals.flat (h : TakesNumerals text rest) : Flat text rest := by
  obtain ⟨s, rfl, hs⟩ := h
  exact fun level => peak_append_plain fun c hc => isPlain_of_isNumeral (hs c hc)

/-! ## Strings -/

/-- A hexadecimal digit neither ends a string nor begins an escape. -/
theorem ne_quote_of_hexDigit {n : Nat} (h : hexDigit? c = some n) : c ≠ '"' ∧ c ≠ '\\' := by
  constructor <;> (rintro rfl; cases h)

/-- Four hexadecimal digits are inside a string. -/
theorem peak_hexUnit {a b c d : Char} {n : Nat} (h : hexUnit a b c d = .ok n) :
    peak .string level (a :: b :: c :: d :: text) = peak .string level text := by
  unfold hexUnit at h
  split at h
  · rename_i ha hb hc hd
    have ha := ne_quote_of_hexDigit ha
    have hb := ne_quote_of_hexDigit hb
    have hc := ne_quote_of_hexDigit hc
    have hd := ne_quote_of_hexDigit hd
    rw [peak_quoted ha.1 ha.2, peak_quoted hb.1 hb.2, peak_quoted hc.1 hc.2,
      peak_quoted hd.1 hd.2]
  · cases h

/-- A character in front of what is read leaves the rest as it is. -/
theorem of_consChar {e : Except Fault (List Char × List Char)} {cs : List Char}
    (h : consChar c e = .ok (cs, rest)) : ∃ cs', e = .ok (cs', rest) := by
  rw [consChar, except_bind_eq_ok_iff] at h
  obtain ⟨⟨cs', rest'⟩, he, h⟩ := h
  cases h
  exact ⟨cs', he⟩

/-- The characters of a string end with the quote that closes it. -/
theorem peak_stringChars {cs : List Char} (h : stringChars text = .ok (cs, rest)) (level : Nat) :
    peak .string level text = peak .outside level rest := by
  fun_induction stringChars text generalizing cs rest with
  | case1 => cases h
  | case2 text =>
    cases h
    exact peak_endQuote
  | case3 => cases h
  | case4 a b c d text ihPair ih =>
    obtain ⟨unit, hunit, h⟩ := except_bind_eq_ok_iff.1 h
    rw [peak_escape, peak_hexUnit hunit]
    split at h
    · cases h
    · split at h
      · split at h
        · cases h
        · cases h
        · obtain ⟨second, hsecond, h⟩ := except_bind_eq_ok_iff.1 h
          split at h
          · obtain ⟨cs', h⟩ := of_consChar h
            rw [peak_escape, peak_hexUnit hsecond]
            exact ihPair h
          · cases h
        · cases h
        · cases h
      · obtain ⟨cs', h⟩ := of_consChar h
        exact ih h
  | case5 => cases h
  | case6 c text _ _ e _ ih =>
    obtain ⟨cs', h⟩ := of_consChar h
    rw [peak_escape]
    exact ih h
  | case7 => cases h
  | case8 => cases h
  | case9 c text hq hb _ ih =>
    obtain ⟨cs', h⟩ := of_consChar h
    rw [peak_quoted hq hb]
    exact ih h

/-- What opens and closes inside a string does not count. -/
theorem peak_string {s : String} (h : string text = .ok (s, rest)) (level : Nat) :
    peak .string level text = peak .outside level rest := by
  obtain ⟨⟨cs, rest'⟩, hchars, h⟩ := except_bind_eq_ok_iff.1 h
  cases h
  exact peak_stringChars hchars level

/-- A string that is skipped ends like one that is read. -/
theorem peak_skipString (h : skipString text = .ok rest) (level : Nat) :
    peak .string level text = peak .outside level rest := by
  fun_induction skipString text with
  | case1 => cases h
  | case2 text =>
    cases h
    exact peak_endQuote
  | case3 => cases h
  | case4 a b c d text ih =>
    obtain ⟨unit, hunit, h⟩ := except_bind_eq_ok_iff.1 h
    rw [peak_escape, peak_hexUnit hunit]
    exact ih h
  | case5 => cases h
  | case6 c text _ _ _ ih =>
    rw [peak_escape]
    exact ih h
  | case7 => cases h
  | case8 => cases h
  | case9 c text hq hb _ ih =>
    rw [peak_quoted hq hb]
    exact ih h

/-! ## Scalars -/

/-- A number that can be read: a whole one fits in 64 bits, and another one is finite. -/
def Number.InRange : Number → Prop
  | .int i => Word64.fitsSigned i = true ∨ Word64.fitsUnsigned i = true
  | .float y => y.isFinite = true

/-- A floating point number that is read is finite. -/
theorem inRange_of_scaledFloat {negative : Bool} {whole fraction : List Char} {exponent : Int}
    {n : Number} (h : scaledFloat negative whole fraction exponent = .ok n) : n.InRange := by
  unfold scaledFloat at h
  dsimp only at h
  split at h
  · rename_i hfinite
    cases h
    exact hfinite
  · cases h

theorem inRange_of_numberOfParts {negative : Bool} {whole : List Char}
    {fraction : Option (List Char)} {exponent : Option Int} {n : Number}
    (h : numberOfParts negative whole fraction exponent = .ok n) : n.InRange := by
  unfold numberOfParts at h
  split at h
  · dsimp only at h
    split at h
    · split at h
      · rename_i hfits
        cases h
        exact .inl hfits.2
      · exact inRange_of_scaledFloat h
    · split at h
      · rename_i hfits
        cases h
        exact .inr hfits
      · exact inRange_of_scaledFloat h
  · exact inRange_of_scaledFloat h

theorem inRange_of_unsigned {negative : Bool} {n : Number}
    (h : unsigned negative text = .ok (n, rest)) : n.InRange := by
  simp only [unsigned, except_bind_eq_ok_iff] at h
  obtain ⟨_, _, _, _, _, _, m, hm, hend⟩ := h
  cases hend
  exact inRange_of_numberOfParts hm

/-- A number that is read is a finite one, or a whole one of 64 bits. -/
theorem inRange_of_number {n : Number} (h : number text = .ok (n, rest)) : n.InRange := by
  unfold number at h
  split at h <;> exact inRange_of_unsigned h

/-- What is known of a scalar that has been read. -/
def Scalar.InRange : Scalar → Prop
  | .number n => n.InRange
  | _ => True

/-- A scalar opens and closes nothing, and its numbers are in range. -/
theorem flat_scalar {s : Scalar} (h : scalar text = .ok (s, rest)) :
    Flat text rest ∧ s.InRange := by
  unfold scalar at h
  split at h
  · cases h
  · obtain ⟨⟨_, r⟩, hword, h⟩ := except_bind_eq_ok_iff.1 h
    cases h
    exact ⟨(flat_cons rfl _).trans (flat_word (isPlain_of_all rfl) hword), trivial⟩
  · obtain ⟨⟨_, r⟩, hword, h⟩ := except_bind_eq_ok_iff.1 h
    cases h
    exact ⟨(flat_cons rfl _).trans (flat_word (isPlain_of_all rfl) hword), trivial⟩
  · obtain ⟨⟨_, r⟩, hword, h⟩ := except_bind_eq_ok_iff.1 h
    cases h
    exact ⟨(flat_cons rfl _).trans (flat_word (isPlain_of_all rfl) hword), trivial⟩
  · obtain ⟨⟨_, r⟩, hstring, h⟩ := except_bind_eq_ok_iff.1 h
    cases h
    exact ⟨peak_string hstring, trivial⟩
  · split at h
    · obtain ⟨⟨n, r⟩, hnumber, h⟩ := except_bind_eq_ok_iff.1 h
      cases h
      exact ⟨(takesNumerals_number hnumber).flat, inRange_of_number hnumber⟩
    · cases h

/-! ## Between items -/

/-- The comma between items opens and closes nothing. -/
theorem flat_anotherItem {first more : Bool} (h : anotherItem first text = .ok (more, rest)) :
    Flat text rest := by
  have hblank := flat_skipBlank text
  unfold anotherItem at h
  split at h
  · cases h
  · rename_i heq
    cases h
    rw [heq] at hblank
    exact hblank
  · rename_i c t _ heq
    rw [heq] at hblank
    split at h
    · cases h
      exact hblank
    · split at h
      · rename_i hc
        subst hc
        have hcomma := (hblank.trans (flat_cons rfl t)).trans (flat_skipBlank t)
        split at h
        · cases h
        · cases h
        · rename_i heq
          cases h
          rw [heq] at hcomma
          exact hcomma
      · cases h

theorem flat_colon (h : colon text = .ok ((), rest)) : Flat text rest := by
  have hblank := flat_skipBlank text
  unfold colon at h
  split at h
  · cases h
  · rename_i heq
    cases h
    rw [heq] at hblank
    exact hblank.trans (flat_cons rfl _)
  · cases h

theorem peak_anotherMember {first : Bool} (h : anotherMember first text = .ok (true, rest))
    (level : Nat) : peak .outside level text = peak .string level rest := by
  have hblank := flat_skipBlank text
  unfold anotherMember at h
  split at h
  · cases h
  · cases h
  · rename_i c t _ heq
    rw [heq] at hblank
    split at h
    · split at h
      · rename_i hc
        subst hc
        cases h
        exact hblank level
      · cases h
    · split at h
      · rename_i hc
        subst hc
        have hcomma := (hblank.trans (flat_cons rfl t)).trans (flat_skipBlank t)
        split at h
        · cases h
        · rename_i heq
          cases h
          rw [heq] at hcomma
          exact hcomma level
        · cases h
        · cases h
      · cases h

/-- Where no member follows, nothing has been opened. -/
theorem flat_noMember {first : Bool} (h : anotherMember first text = .ok (false, rest)) :
    Flat text rest := by
  have hblank := flat_skipBlank text
  unfold anotherMember at h
  split at h
  · cases h
  · rename_i heq
    cases h
    rw [heq] at hblank
    exact hblank
  · split at h
    · split at h <;> cases h
    · split at h
      · split at h <;> cases h
      · cases h

end GuardedCall.Json
