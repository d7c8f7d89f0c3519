import GuardedCall.Proofs.Json.Strings
import GuardedCall.Text.Literal

/-!
# Reading quoted literals

A quoted literal is read back character by character: behind a backslash stands an escape, every
other character stands for itself, and the literal ends at the first quote that is not escaped. So
a literal tells where it ends and what it is of, whatever comes after it.

Main definitions: `unquote`, `unquoteBytes`.
Main statements: `unquote_flatMap_escapeChar`, `ofString_append_inj`, `ofBytes_append_inj`.
-/

namespace GuardedCall.Text.Literal

/-- The character that a letter after a backslash stands for, if it is an escape of its own. -/
def simpleEscape? : Char → Option Char
  | '\\' => some '\\'
  | 'n' => some '\n'
  | 'r' => some '\r'
  | 't' => some '\t'
  | '\'' => some '\''
  | '"' => some '"'
  | _ => none

/-- The character of two hexadecimal digits. -/
def hexChar? (a b : Char) : Option Char :=
  match Json.hexDigit? a, Json.hexDigit? b with
  | some m, some n => some (Char.ofNat (m * 16 + n))
  | _, _ => none

/-- A character before those that are read next. -/
def consRead (c : Char) (r : Option (List Char × List Char)) : Option (List Char × List Char) :=
  r.map fun p => (c :: p.1, p.2)

/-- The characters of a literal after its opening quote, up to the closing one, and the text behind
that. -/
def unquote (quote : Char) : List Char → Option (List Char × List Char)
  | [] => none
  | '\\' :: 'x' :: a :: b :: text =>
    match hexChar? a b with
    | some c => consRead c (unquote quote text)
    | none => none
  | '\\' :: e :: text =>
    match simpleEscape? e with
    | some c => consRead c (unquote quote text)
    | none => none
  | c :: text => if c = quote then some ([], text) else consRead c (unquote quote text)

variable {quote c e : Char} {cs ds text rest rest' : List Char} {b : UInt8} {bs bs' : List UInt8}

/-! ## One character -/

/-- A backslash with a letter stands for one character. -/
theorem unquote_simpleEscape (hx : e ≠ 'x') (he : simpleEscape? e = some c) :
    unquote quote ('\\' :: e :: text) = consRead c (unquote quote text) := by
  simp [unquote, hx, he]

/-- Two hexadecimal digits stand for the number that they are written for. -/
theorem hexChar?_hexPair {n : Nat} (h : n < 256) :
    hexChar? (Nat.digitChar (n / 16 % 16)) (Nat.digitChar (n % 16)) = some (Char.ofNat n) := by
  rw [hexChar?, Json.hexDigit?_digitChar (Nat.mod_lt _ (by decide)),
    Json.hexDigit?_digitChar (Nat.mod_lt _ (by decide))]
  have hvalue : n / 16 % 16 * 16 + n % 16 = n := by omega
  simp only [hvalue]

theorem unquote_hexPair {n : Nat} (h : n < 256) :
    unquote quote ('\\' :: 'x' :: (hexPair n ++ text)) =
      consRead (Char.ofNat n) (unquote quote text) := by
  show unquote quote
    ('\\' :: 'x' :: Nat.digitChar (n / 16 % 16) :: Nat.digitChar (n % 16) :: text) = _
  rw [unquote, hexChar?_hexPair h]

/-- A character that is neither a backslash nor the quote stands for itself. -/
theorem unquote_plain (hb : c ≠ '\\') (hq : c ≠ quote) :
    unquote quote (c :: text) = consRead c (unquote quote text) := by
  simp [unquote, hb, hq]

theorem unquote_quote (hb : quote ≠ '\\') : unquote quote (quote :: text) = some ([], text) := by
  simp [unquote, hb]

/-- The three ways to write a character between quotes: by a letter behind a backslash, by its
number, or as it is. -/
inductive Escaped (quote c : Char) : List Char → Prop
  | letter (e : Char) (hx : e ≠ 'x') (he : simpleEscape? e = some c) : Escaped quote c ['\\', e]
  | number (hc : c.toNat < 256) : Escaped quote c ('\\' :: 'x' :: hexPair c.toNat)
  | plain (hb : c ≠ '\\') (hq : c ≠ quote) : Escaped quote c [c]

/-- What is written for a character is read as this character. -/
theorem Escaped.unquote_append (h : Escaped quote c cs) :
    unquote quote (cs ++ text) = consRead c (unquote quote text) := by
  cases h with
  | letter e hx he => exact unquote_simpleEscape hx he
  | number hc =>
    have hread : unquote quote ('\\' :: 'x' :: (hexPair c.toNat ++ text)) = _ := unquote_hexPair hc
    rw [Char.ofNat_toNat] at hread
    exact hread
  | plain hb hq => exact unquote_plain hb hq

/-- A quote that surrounds a text is a single or a double one. -/
def IsQuote (quote : Char) : Prop := quote = '\'' ∨ quote = '"'

theorem isQuote_quoteFor (cs : List Char) : IsQuote (quoteFor cs) := by
  rw [quoteFor]
  split
  · exact Or.inr rfl
  · exact Or.inl rfl

theorem IsQuote.ne_backslash (hq : IsQuote quote) : quote ≠ '\\' := by
  rcases hq with rfl | rfl <;> decide

/-- The escapes that all literals share. -/
theorem escaped_of_escape? (hq : IsQuote quote) (h : escape? quote c = some cs) :
    Escaped quote c cs := by
  rw [escape?] at h
  split at h
  · rename_i hc
    subst hc
    cases h
    exact .letter '\\' (by decide) rfl
  split at h
  · rename_i hc
    subst hc
    cases h
    exact .letter 'n' (by decide) rfl
  split at h
  · rename_i hc
    subst hc
    cases h
    exact .letter 'r' (by decide) rfl
  split at h
  · rename_i hc
    subst hc
    cases h
    exact .letter 't' (by decide) rfl
  split at h
  · rename_i hc
    cases h
    subst hc
    rcases hq with rfl | rfl
    · exact .letter '\'' (by decide) rfl
    · exact .letter '"' (by decide) rfl
  · cases h

theorem ne_of_escape?_eq_none (h : escape? quote c = none) : c ≠ '\\' ∧ c ≠ quote := by
  rw [escape?] at h
  split at h
  · cases h
  rename_i hb
  split at h
  · cases h
  split at h
  · cases h
  split at h
  · cases h
  split at h
  · cases h
  rename_i hq
  exact ⟨hb, hq⟩

theorem toNat_lt_of_isControl (h : isControl c = true) : c.toNat < 256 := by
  simp only [isControl, Bool.or_eq_true, Bool.and_eq_true, decide_eq_true_eq] at h
  omega

theorem escaped_escapeChar (hq : IsQuote quote) (c : Char) :
    Escaped quote c (escapeChar quote c) := by
  rw [escapeChar]
  cases h : escape? quote c with
  | some cs => exact escaped_of_escape? hq h
  | none =>
    rw [Option.getD_none]
    split
    · rename_i hc
      exact .number (toNat_lt_of_isControl hc)
    · obtain ⟨hb, hc⟩ := ne_of_escape?_eq_none h
      exact .plain hb hc

/-- The character that a byte is written as. -/
def charOf (b : UInt8) : Char := Char.ofNat b.toNat

theorem toNat_charOf (b : UInt8) : (charOf b).toNat = b.toNat := by
  have hb : b.toNat < 256 := b.toNat_lt
  have hvalid : b.toNat.isValidChar := Or.inl (by omega)
  rw [charOf, Char.ofNat, dif_pos hvalid]
  rfl

theorem charOf_inj (h : charOf b = charOf b') : b = b' := by
  have hnat := congrArg Char.toNat h
  rw [toNat_charOf, toNat_charOf] at hnat
  exact UInt8.toNat.inj hnat

theorem escaped_escapeByte (hq : IsQuote quote) (b : UInt8) :
    Escaped quote (charOf b) (escapeByte quote b) := by
  rw [escapeByte]
  show Escaped quote (charOf b) ((escape? quote (charOf b)).getD _)
  cases h : escape? quote (charOf b) with
  | some cs => exact escaped_of_escape? hq h
  | none =>
    rw [Option.getD_none]
    split
    · obtain ⟨hb, hc⟩ := ne_of_escape?_eq_none h
      exact .plain hb hc
    · rw [← toNat_charOf b]
      refine .number ?_
      rw [toNat_charOf]
      exact b.toNat_lt

/-! ## Whole literals -/

section Whole

variable {α : Type} {write : α → List Char} {meaning : α → Char}

/-- Characters written one after another are read up to the quote that closes them. -/
theorem unquote_flatMap (hq : IsQuote quote) (h : ∀ x, Escaped quote (meaning x) (write x))
    (xs : List α) (rest : List Char) :
    unquote quote (xs.flatMap write ++ quote :: rest) = some (xs.map meaning, rest) := by
  induction xs with
  | nil => exact unquote_quote hq.ne_backslash
  | cons x xs ih =>
    rw [List.flatMap_cons, List.append_assoc, (h x).unquote_append, ih]
    rfl

end Whole

/-- A string literal is read back, whatever comes after it. -/
theorem unquote_ofString (cs rest : List Char) :
    ∃ text, ofString cs ++ rest = quoteFor cs :: text ∧
      unquote (quoteFor cs) text = some (cs, rest) := by
  have hq := isQuote_quoteFor cs
  refine ⟨cs.flatMap (escapeChar (quoteFor cs)) ++ quoteFor cs :: rest, ?_, ?_⟩
  · simp [ofString]
  · have hread := unquote_flatMap hq (escaped_escapeChar hq) cs rest
    rw [List.map_id'] at hread
    exact hread

/-- A literal of bytes is read back, whatever comes after it. -/
theorem unquote_ofBytes (bs : List UInt8) (rest : List Char) :
    ∃ text, ofBytes bs ++ rest = 'b' :: quoteFor (bs.map charOf) :: text ∧
      unquote (quoteFor (bs.map charOf)) text = some (bs.map charOf, rest) := by
  have hq := isQuote_quoteFor (bs.map charOf)
  refine ⟨bs.flatMap (escapeByte (quoteFor (bs.map charOf))) ++ quoteFor (bs.map charOf) :: rest,
    ?_, unquote_flatMap hq (escaped_escapeByte hq) bs rest⟩
  show 'b' :: quoteFor (bs.map charOf) ::
    (bs.flatMap (escapeByte (quoteFor (bs.map charOf))) ++ [quoteFor (bs.map charOf)]) ++ rest = _
  simp

/-- A string literal tells where it ends, and the string that it is of. -/
theorem ofString_append_inj (h : ofString cs ++ rest = ofString ds ++ rest') :
    cs = ds ∧ rest = rest' := by
  obtain ⟨text, htext, hread⟩ := unquote_ofString cs rest
  obtain ⟨text', htext', hread'⟩ := unquote_ofString ds rest'
  rw [htext, htext'] at h
  obtain ⟨hquote, rfl⟩ := List.cons.inj h
  rw [← hquote, hread] at hread'
  cases hread'
  exact ⟨rfl, rfl⟩

/-- A literal of bytes tells where it ends, and the bytes that it is of. -/
theorem ofBytes_append_inj (h : ofBytes bs ++ rest = ofBytes bs' ++ rest') :
    bs = bs' ∧ rest = rest' := by
  obtain ⟨text, htext, hread⟩ := unquote_ofBytes bs rest
  obtain ⟨text', htext', hread'⟩ := unquote_ofBytes bs' rest'
  rw [htext, htext'] at h
  obtain ⟨hquote, rfl⟩ := List.cons.inj (List.cons.inj h).2
  rw [← hquote, hread, Option.some.injEq, Prod.mk.injEq] at hread'
  exact ⟨(List.map_inj_right fun _ _ => charOf_inj).1 hread'.1, hread'.2⟩

end GuardedCall.Text.Literal
