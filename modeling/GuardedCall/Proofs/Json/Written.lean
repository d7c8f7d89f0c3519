import GuardedCall.Json.Printer
import GuardedCall.Json.Scan

/-!
# The written form of data

What the text of data is made of: items one after another, the first as it is and every other one
behind a comma; and numbers, whose text holds digits, signs, a point and an exponent mark only.

Main definitions: `separated`, `isNumeral`.
Main statements: `print_arr`, `print_obj`, `isNumeral_of_mem_write`, `mark_mem_write`.
-/

namespace GuardedCall

open Decimal Text

namespace Json

/-! ## Items -/

/-- Texts one after another, with a comma between. -/
def separated : List (List Char) → List Char
  | [] => []
  | t :: ts => t ++ ts.flatMap (',' :: ·)

/-- Texts with commas between them, as the first and then the others with a comma in front. -/
theorem intercalate_eq_separated (ts : List (List Char)) :
    [','].intercalate ts = separated ts := by
  cases ts with
  | nil => rfl
  | cons t ts =>
    induction ts generalizing t with
    | nil => simp [separated]
    | cons u us ih =>
      rw [List.intercalate_cons_cons, ih, separated, separated, List.flatMap_cons]
      simp

/-- The text of a member. -/
def printMember (e : String × Json) : List Char := printString e.1 ++ ':' :: print e.2

theorem printItems_eq_map (xs : List Json) : printItems xs = xs.map print := by
  induction xs with
  | nil => rfl
  | cons x xs ih => rw [printItems, ih, List.map_cons]

theorem printMembers_eq_map (es : List (String × Json)) :
    printMembers es = es.map printMember := by
  induction es with
  | nil => rfl
  | cons e es ih =>
    rw [printMembers, ih, List.map_cons]
    rfl

/-- An array is written as its items with commas between them. -/
theorem print_arr (xs : List Json) :
    print (.arr xs) = '[' :: (separated (xs.map print) ++ [']']) := by
  rw [print, intercalate_eq_separated, printItems_eq_map]

/-- An object is written as its members with commas between them. -/
theorem print_obj (es : List (String × Json)) :
    print (.obj es) = '\x7b' :: (separated (es.map printMember) ++ ['\x7d']) := by
  rw [print, intercalate_eq_separated, printMembers_eq_map]

/-! ## Strings -/

/-- The three ways to write a character: by a letter behind a backslash, by its number, or as it
is. -/
inductive PrintedChar (c : Char) : Prop
  | escape (letter : Char) (h : printChar c = ['\\', letter]) (hu : letter ≠ 'u')
      (he : simpleEscape? letter = some c)
  | control (h : printChar c = '\\' :: 'u' :: '0' :: '0' :: Literal.hexPair c.toNat)
      (hc : c.toNat < 32)
  | plain (h : printChar c = [c]) (hq : c ≠ '"') (hb : c ≠ '\\') (hc : ¬ c.toNat < 32)

/-- Every character is written in one of the few ways. -/
theorem printChar_cases (c : Char) : PrintedChar c := by
  by_cases hsimple : c ∈ ['"', '\\', '\x08', '\t', '\n', '\x0c', '\r']
  · simp only [List.mem_cons, List.not_mem_nil, or_false] at hsimple
    rcases hsimple with rfl | rfl | rfl | rfl | rfl | rfl | rfl <;>
      exact .escape _ rfl (by decide) rfl
  · simp only [List.mem_cons, List.not_mem_nil, or_false, not_or] at hsimple
    obtain ⟨hq, hb, h₁, h₂, h₃, h₄, h₅⟩ := hsimple
    by_cases hc : c.toNat < 32
    · exact .control (by simp [printChar, hq, hb, h₁, h₂, h₃, h₄, h₅, hc]) hc
    · exact .plain (by simp [printChar, hq, hb, h₁, h₂, h₃, h₄, h₅, hc]) hq hb hc

/-! ## Numbers -/

/-- The characters of a number. -/
def isNumeral (c : Char) : Bool :=
  c.isDigit || c = '-' || c = '+' || c = '.' || c = 'e' || c = 'E'

theorem isNumeral_of_isDigit {c : Char} (h : c.isDigit = true) : isNumeral c = true := by
  simp [isNumeral, h]

theorem isNumeral_of_mem_intDigits {n : Int} {c : Char} (h : c ∈ intDigits n) :
    isNumeral c = true := by
  cases n with
  | ofNat n => exact isNumeral_of_isDigit (isDigit_of_mem_natDigits h)
  | negSucc n =>
    rcases List.mem_cons.1 h with rfl | h
    · rfl
    · exact isNumeral_of_isDigit (isDigit_of_mem_natDigits h)

section Figures

variable {f : Figures} {c : Char}

/-- The digits of figures are digits. -/
theorem isDigit_of_mem_ofScaled {digits : Nat} {exponent : Int}
    (h : c ∈ (Figures.ofScaled digits exponent).digits) : c.isDigit = true := by
  have hmem : c ∈ natDigits digits := by
    have hdrop := (List.dropWhile_sublist _).subset (List.mem_reverse.1 h)
    exact List.mem_reverse.1 hdrop
  exact isDigit_of_mem_natDigits hmem

theorem isDigit_of_mem_figures {tie : Tie} {x : Binary64}
    (h : c ∈ (x.figures tie).digits) : c.isDigit = true := by
  rw [Binary64.figures] at h
  cases hfind : (List.range 17).findSome? fun n => x.figuresOf? tie (n + 1) with
  | none =>
    rw [hfind, Option.getD_none, Binary64.exactFigures] at h
    exact isDigit_of_mem_ofScaled h
  | some f =>
    rw [hfind, Option.getD_some] at h
    obtain ⟨n, -, hn⟩ := List.exists_of_findSome?_eq_some hfind
    rw [Binary64.figuresOf?] at hn
    obtain ⟨d, -, rfl⟩ := Option.map_eq_some_iff.1 hn
    exact isDigit_of_mem_ofScaled h

/-- A number is written in positions with characters of numbers only. -/
theorem isNumeral_of_mem_writePositional (hf : ∀ c ∈ f.digits, c.isDigit = true)
    (h : c ∈ Layout.writePositional f) : isNumeral c = true := by
  have hdigits : ∀ c ∈ f.digits, isNumeral c = true := fun c hc => isNumeral_of_isDigit (hf c hc)
  have hzeros (n : Nat) : ∀ c ∈ List.replicate n '0', isNumeral c = true := by
    intro c hc
    rw [List.eq_of_mem_replicate hc]
    rfl
  revert c
  rw [Layout.writePositional]
  split
  · simp only [List.forall_mem_cons, List.forall_mem_append]
    exact ⟨rfl, rfl, hzeros _, hdigits⟩
  · simp only [List.forall_mem_cons]
    exact ⟨rfl, rfl, hdigits⟩
  · split
    · simp only [List.forall_mem_cons, List.forall_mem_append]
      exact ⟨fun c hc => hdigits c (List.mem_of_mem_take hc), rfl,
        fun c hc => hdigits c (List.mem_of_mem_drop hc)⟩
    · simp only [List.forall_mem_append, List.forall_mem_cons]
      exact ⟨⟨hdigits, hzeros _⟩, rfl, rfl, by simp⟩

theorem isNumeral_of_mem_writeScientific {plus : Bool} (hf : ∀ c ∈ f.digits, c.isDigit = true)
    (h : c ∈ Layout.writeScientific plus f) : isNumeral c = true := by
  have hdigits : ∀ c ∈ f.digits, isNumeral c = true := fun c hc => isNumeral_of_isDigit (hf c hc)
  have hsign : ∀ c ∈ (if plus ∧ 0 ≤ f.point - 1 then ['+'] else []), isNumeral c = true := by
    split <;> simp [isNumeral]
  have htail : ∀ c ∈ (if f.digits.length ≤ 1 then [] else '.' :: f.digits.drop 1),
      isNumeral c = true := by
    split
    · simp
    · rw [List.forall_mem_cons]
      exact ⟨rfl, fun c hc => hdigits c (List.mem_of_mem_drop hc)⟩
  revert c
  simp only [Layout.writeScientific, List.forall_mem_cons, List.forall_mem_append]
  exact ⟨⟨fun c hc => hdigits c (List.mem_of_mem_take hc), htail⟩, rfl, hsign,
    fun c hc => isNumeral_of_mem_intDigits hc⟩

end Figures

/-- A finite number is written by its figures, behind its sign. -/
theorem write_of_isFinite (l : Layout) {x : Binary64} (hx : x.isFinite = true) :
    l.write x = (if x.negative then ['-'] else []) ++
      if x.units = 0 then ['0', '.', '0'] else l.writeFigures (x.figures l.tie) := by
  simp only [Binary64.isFinite, ne_eq, decide_eq_true_eq] at hx
  have hnan : x.isNaN = false := by simp [Binary64.isNaN, hx]
  have hinfinite : x.isInfinite = false := by simp [Binary64.isInfinite, hx]
  simp only [Layout.write, hnan, hinfinite, Bool.false_eq_true, if_false]
  split <;> rfl

/-- A finite number is written as a numeral. -/
theorem isNumeral_of_mem_write {l : Layout} {x : Binary64} (hx : x.isFinite = true) {c : Char}
    (h : c ∈ l.write x) : isNumeral c = true := by
  have hsign : ∀ c ∈ (if x.negative then ['-'] else []), isNumeral c = true := by
    split <;> simp [isNumeral]
  revert c
  rw [write_of_isFinite l hx, List.forall_mem_append]
  refine ⟨hsign, ?_⟩
  split
  · simp [isNumeral]
  · intro c hc
    rw [Layout.writeFigures] at hc
    split at hc
    · exact isNumeral_of_mem_writePositional (fun c => isDigit_of_mem_figures) hc
    · exact isNumeral_of_mem_writeScientific (fun c => isDigit_of_mem_figures) hc

theorem point_mem_writePositional (f : Figures) : '.' ∈ Layout.writePositional f := by
  rw [Layout.writePositional]
  split
  · simp
  · simp
  · split <;> simp

theorem exponent_mem_writeScientific (plus : Bool) (f : Figures) :
    'e' ∈ Layout.writeScientific plus f := by
  simp [Layout.writeScientific]

/-- A floating point number has a point or an exponent, so that it is no whole number. -/
theorem mark_mem_writeFigures (l : Layout) (f : Figures) :
    '.' ∈ l.writeFigures f ∨ 'e' ∈ l.writeFigures f := by
  rw [Layout.writeFigures]
  split
  · exact .inl (point_mem_writePositional f)
  · exact .inr (exponent_mem_writeScientific l.plus f)

/-- A finite number is told from a whole one by a point or an exponent. -/
theorem mark_mem_write (l : Layout) {x : Binary64} (hx : x.isFinite = true) :
    '.' ∈ l.write x ∨ 'e' ∈ l.write x := by
  rw [write_of_isFinite l hx]
  by_cases hzero : x.units = 0
  · rw [if_pos hzero]
    exact .inl (List.mem_append_right _ (by simp))
  · rw [if_neg hzero]
    exact (mark_mem_writeFigures l _).imp (List.mem_append_right _) (List.mem_append_right _)

end Json

end GuardedCall
