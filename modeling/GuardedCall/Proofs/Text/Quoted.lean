import GuardedCall.Proofs.Text.Literal
import Mathlib.Tactic.SplitIfs

/-!
# Where quoted literals end, and what they are made of

A quoted literal ends at the only quote of its kind that is not escaped: every such quote inside it
stands behind a backslash that is not escaped itself, and the last backslash is never left open. All
characters of a literal of bytes are printable ASCII characters; those of a string literal are
printable ASCII characters too, or stand for themselves and are no control characters.

Main definitions: `endsInEscape`, `Quoted`, `IsControl`, `IsPrintable`.
Main statements: `quoted_ofString`, `quoted_ofBytes`, `not_isControl_of_mem_ofString`,
`isPrintable_of_mem_ofBytes`.
-/

namespace GuardedCall.Text.Literal

variable {quote c d e : Char} {cs u v text : List Char} {b : UInt8} {bs : List UInt8}

/-! ## Escaped quotes -/

/-- The next character is escaped: a text ends with a backslash that is not escaped itself. -/
def endsInEscape (text : List Char) : Bool :=
  text.foldl (fun escape c => !escape && c = '\\') false

theorem hexDigit_ne {n : Nat} (h : n < 16) :
    Nat.digitChar n ≠ '\\' ∧ Nat.digitChar n ≠ '\'' ∧ Nat.digitChar n ≠ '"' := by
  revert n
  decide

theorem mem_hexPair {n : Nat} (h : c ∈ hexPair n) : ∃ m < 16, c = Nat.digitChar m := by
  rw [hexPair, List.mem_cons, List.mem_singleton] at h
  rcases h with rfl | rfl
  · exact ⟨_, Nat.mod_lt _ (by decide), rfl⟩
  · exact ⟨_, Nat.mod_lt _ (by decide), rfl⟩

/-- What is written for a character leaves no escape open. -/
theorem Escaped.endsInEscape_append (h : Escaped quote c cs) (u : List Char) :
    endsInEscape (cs ++ u) = endsInEscape u := by
  have hclosed : endsInEscape cs = false := by
    cases h with
    | letter e hx he => rfl
    | number hc =>
      have hhigh := hexDigit_ne (Nat.mod_lt (c.toNat / 16) (by decide : 0 < 16))
      have hlow := hexDigit_ne (Nat.mod_lt c.toNat (by decide : 0 < 16))
      simp [endsInEscape, hexPair, hhigh.1, hlow.1]
    | plain hb hq => simp [endsInEscape, hb]
  rw [endsInEscape, List.foldl_append]
  exact congrArg (fun escape => u.foldl _ escape) hclosed

/-- A quote in what is written for a character is escaped. -/
theorem Escaped.endsInEscape_of_quote (hq : IsQuote quote) (h : Escaped quote c cs)
    (hcs : cs = u ++ quote :: v) : endsInEscape u = true := by
  have hmem : quote ∈ cs := by simp [hcs]
  cases h with
  | letter e hx he =>
    cases u with
    | nil => exact absurd (List.cons.inj hcs).1.symm hq.ne_backslash
    | cons d u =>
      obtain ⟨rfl, htail⟩ := List.cons.inj hcs
      cases u with
      | nil => rfl
      | cons d u => simp at htail
  | number hc =>
    have hdigit : quote ∉ hexPair c.toNat := by
      intro hdigit
      obtain ⟨m, hm, hquote⟩ := mem_hexPair hdigit
      have hne := hexDigit_ne hm
      rcases hq with rfl | rfl
      · exact hne.2.1 hquote.symm
      · exact hne.2.2 hquote.symm
    rcases hq with rfl | rfl <;> simp [hdigit] at hmem
  | plain hb hc => exact absurd (List.mem_singleton.1 hmem).symm hc

/-- A text between quotes that stands for some characters. Every such quote inside it is escaped,
and the one behind it is not; and with this one it is read completely. -/
structure Quoted (quote : Char) (body cs : List Char) : Prop where
  isQuote : IsQuote quote
  inside : ∀ u v, body = u ++ quote :: v → endsInEscape u = true
  behind : endsInEscape body = false
  reads : unquote quote (body ++ [quote]) = some (cs, [])

section Whole

variable {α : Type} {write : α → List Char} {meaning : α → Char}

theorem endsInEscape_flatMap (h : ∀ x, Escaped quote (meaning x) (write x)) (xs : List α) :
    endsInEscape (xs.flatMap write) = false := by
  induction xs with
  | nil => rfl
  | cons x xs ih => rw [List.flatMap_cons, (h x).endsInEscape_append, ih]

/-- A quote in what is written for several characters is escaped. -/
theorem endsInEscape_of_flatMap (hq : IsQuote quote)
    (h : ∀ x, Escaped quote (meaning x) (write x)) {xs : List α}
    (hxs : xs.flatMap write = u ++ quote :: v) : endsInEscape u = true := by
  induction xs generalizing u with
  | nil => simp at hxs
  | cons x xs ih =>
    rw [List.flatMap_cons] at hxs
    -- the quote is in what is written for the first character, or behind it
    rcases List.append_eq_append_iff.1 hxs with ⟨u', rfl, hrest⟩ | ⟨w, hx, hrest⟩
    · rw [(h x).endsInEscape_append]
      exact ih hrest
    · cases w with
      | nil =>
        rw [List.append_nil] at hx
        rw [← hx, ← List.append_nil (write x), (h x).endsInEscape_append]
        exact ih hrest.symm
      | cons d w =>
        obtain ⟨rfl, -⟩ := List.cons.inj hrest
        exact (h x).endsInEscape_of_quote hq hx

/-- Characters written one after another are quoted. -/
theorem quoted_flatMap (hq : IsQuote quote) (h : ∀ x, Escaped quote (meaning x) (write x))
    (xs : List α) : Quoted quote (xs.flatMap write) (xs.map meaning) where
  isQuote := hq
  inside _ _ := endsInEscape_of_flatMap hq h
  behind := endsInEscape_flatMap h xs
  reads := unquote_flatMap hq h xs []

end Whole

/-- A string literal is a quoted text for the string. -/
theorem quoted_ofString (cs : List Char) :
    ∃ quote body, ofString cs = quote :: (body ++ [quote]) ∧ Quoted quote body cs := by
  have hq := isQuote_quoteFor cs
  have hquoted := quoted_flatMap hq (escaped_escapeChar hq) cs
  rw [List.map_id'] at hquoted
  exact ⟨_, _, rfl, hquoted⟩

/-- A literal of bytes is a quoted text for characters with the numbers of the bytes. -/
theorem quoted_ofBytes (bs : List UInt8) :
    ∃ quote body, ofBytes bs = 'b' :: quote :: (body ++ [quote]) ∧
      Quoted quote body (bs.map charOf) := by
  have hq := isQuote_quoteFor (bs.map charOf)
  exact ⟨_, _, rfl, quoted_flatMap hq (escaped_escapeByte hq) bs⟩

/-! ## Printable characters -/

/-- The control characters: the first thirty-two, delete, and the thirty-two behind it. -/
def IsControl (c : Char) : Prop := c.toNat < 0x20 ∨ 0x7f ≤ c.toNat ∧ c.toNat ≤ 0x9f

/-- The printable characters of ASCII. -/
def IsPrintable (c : Char) : Prop := 0x20 ≤ c.toNat ∧ c.toNat ≤ 0x7e

instance (c : Char) : Decidable (IsPrintable c) :=
  inferInstanceAs (Decidable (0x20 ≤ c.toNat ∧ c.toNat ≤ 0x7e))

theorem isControl_iff : isControl c = true ↔ IsControl c := by
  simp only [isControl, IsControl, Bool.or_eq_true, Bool.and_eq_true, decide_eq_true_eq]
  omega

theorem IsPrintable.not_isControl (h : IsPrintable c) : ¬ IsControl c := by
  rw [IsPrintable] at h
  rw [IsControl]
  omega

theorem IsQuote.isPrintable (hq : IsQuote quote) : IsPrintable quote := by
  rcases hq with rfl | rfl <;> decide

theorem isPrintable_of_mem_hexPair {n : Nat} (h : c ∈ hexPair n) : IsPrintable c := by
  obtain ⟨m, hm, rfl⟩ := mem_hexPair h
  clear h
  revert m
  decide

/-- A character written by its number is written in printable characters. -/
theorem isPrintable_of_mem_number {n : Nat} :
    ∀ c ∈ '\\' :: 'x' :: hexPair n, IsPrintable c := by
  rw [List.forall_mem_cons, List.forall_mem_cons]
  exact ⟨by decide, by decide, fun c => isPrintable_of_mem_hexPair⟩

/-- The escapes that all literals share are written in printable characters. -/
theorem isPrintable_of_escape? (hq : IsQuote quote) (h : escape? quote c = some cs) :
    ∀ d ∈ cs, IsPrintable d := by
  have hpair (e : Char) (he : IsPrintable e) : ∀ d ∈ ['\\', e], IsPrintable d := by
    rw [List.forall_mem_cons, List.forall_mem_singleton]
    exact ⟨by decide, he⟩
  rw [escape?] at h
  split_ifs at h
  · cases h
    exact hpair _ (by decide)
  · cases h
    exact hpair _ (by decide)
  · cases h
    exact hpair _ (by decide)
  · cases h
    exact hpair _ (by decide)
  · cases h
    exact hpair _ hq.isPrintable

/-- A character of a string is written in printable characters, or it is no control character and
stands for itself. -/
theorem not_isControl_of_mem_escapeChar (hq : IsQuote quote) :
    ∀ d ∈ escapeChar quote c, ¬ IsControl d := by
  rw [escapeChar]
  cases h : escape? quote c with
  | some cs => exact fun d hd => (isPrintable_of_escape? hq h d hd).not_isControl
  | none =>
    rw [Option.getD_none]
    split
    · exact fun d hd => (isPrintable_of_mem_number d hd).not_isControl
    · rename_i hc
      rw [List.forall_mem_singleton, ← isControl_iff]
      exact hc

/-- A byte is written in printable characters. -/
theorem isPrintable_of_mem_escapeByte (hq : IsQuote quote) :
    ∀ d ∈ escapeByte quote b, IsPrintable d := by
  rw [escapeByte]
  show ∀ d ∈ (escape? quote (charOf b)).getD _, IsPrintable d
  cases h : escape? quote (charOf b) with
  | some cs => exact isPrintable_of_escape? hq h
  | none =>
    rw [Option.getD_none]
    split
    · rename_i hb
      rw [List.forall_mem_singleton]
      show IsPrintable (charOf b)
      rw [IsPrintable, toNat_charOf]
      omega
    · exact isPrintable_of_mem_number

theorem not_isControl_of_mem_ofString (h : c ∈ ofString cs) : ¬ IsControl c := by
  have hq := isQuote_quoteFor cs
  revert c
  rw [ofString]
  simp only [List.forall_mem_cons, List.forall_mem_append, List.forall_mem_flatMap]
  exact ⟨hq.isPrintable.not_isControl, fun _ _ => not_isControl_of_mem_escapeChar hq,
    hq.isPrintable.not_isControl, List.forall_mem_nil _⟩

theorem isPrintable_of_mem_ofBytes (h : c ∈ ofBytes bs) : IsPrintable c := by
  have hq := isQuote_quoteFor (bs.map fun b => Char.ofNat b.toNat)
  revert c
  rw [ofBytes]
  simp only [List.forall_mem_cons, List.forall_mem_append, List.forall_mem_flatMap]
  exact ⟨by decide, hq.isPrintable, fun _ _ => isPrintable_of_mem_escapeByte hq, hq.isPrintable,
    List.forall_mem_nil _⟩

end GuardedCall.Text.Literal
