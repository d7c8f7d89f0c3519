import GuardedCall.Proofs.Json.Written

/-!
# How deep a text is nested

The depth of data, and the nesting of a text: how many arrays and objects are open at once where
most of them are. Brackets and braces in strings do not count, so a text is followed from left to
right by whether the place is in a string. The text of data is nested as deep as the data.

Main definitions: `Json.depth`, `Json.nesting`. Main statement: `nesting_print`.
-/

namespace GuardedCall

open Decimal Text

namespace Json

/-! ## Depth of data -/

mutual

/-- How deep arrays and objects are nested in data. -/
def depth : Json → Nat
  | arr xs => depthItems xs + 1
  | obj es => depthMembers es + 1
  | _ => 0

/-- The depth of the deepest item. -/
def depthItems : List Json → Nat
  | [] => 0
  | x :: xs => max (depth x) (depthItems xs)

/-- The depth of the deepest member. -/
def depthMembers : List (String × Json) → Nat
  | [] => 0
  | (_, x) :: es => max (depth x) (depthMembers es)

end

/-- Items are no deeper than a bound exactly if each of them is not. -/
theorem depthItems_le_iff {xs : List Json} {n : Nat} :
    depthItems xs ≤ n ↔ ∀ x ∈ xs, depth x ≤ n := by
  induction xs with
  | nil => simp [depthItems]
  | cons x xs ih => rw [depthItems, Nat.max_le, ih, List.forall_mem_cons]

/-! ## Nesting of a text -/

/-- Where a place in a text is. -/
inductive Region
  | outside
  /-- In a string. -/
  | string
  /-- In a string, behind a backslash. -/
  | escape

/-- The most arrays and objects that are open at once in a text, of which `level` are open at its
start. -/
def peak : Region → Nat → List Char → Nat
  | _, level, [] => level
  | .outside, level, c :: text =>
    if c = '"' then peak .string level text
    else if c = '[' ∨ c = '\x7b' then peak .outside (level + 1) text
    else if c = ']' ∨ c = '\x7d' then max level (peak .outside (level - 1) text)
    else peak .outside level text
  | .string, level, c :: text =>
    if c = '"' then peak .outside level text
    else if c = '\\' then peak .escape level text
    else peak .string level text
  | .escape, level, _ :: text => peak .string level text

/-- How deep arrays and objects are nested in a text. -/
def nesting (text : List Char) : Nat := peak .outside 0 text

/-- A character that neither opens or closes anything nor stands around a string. -/
def isPlain (c : Char) : Bool :=
  c ≠ '"' && c ≠ '[' && c ≠ '\x7b' && c ≠ ']' && c ≠ '\x7d'

variable {level : Nat} {c : Char} {text s : List Char}

theorem peak_quote : peak .outside level ('"' :: text) = peak .string level text := rfl

theorem peak_openList :
    peak .outside level ('[' :: text) = peak .outside (level + 1) text := rfl

theorem peak_openObject :
    peak .outside level ('\x7b' :: text) = peak .outside (level + 1) text := rfl

theorem peak_closeList : peak .outside (level + 1) (']' :: text) =
    max (level + 1) (peak .outside level text) := rfl

theorem peak_closeObject : peak .outside (level + 1) ('\x7d' :: text) =
    max (level + 1) (peak .outside level text) := rfl

theorem peak_endQuote : peak .string level ('"' :: text) = peak .outside level text := rfl

theorem peak_escape : peak .string level ('\\' :: c :: text) = peak .string level text := rfl

theorem peak_plain (h : isPlain c = true) :
    peak .outside level (c :: text) = peak .outside level text := by
  simp only [isPlain, Bool.and_eq_true, decide_eq_true_eq] at h
  obtain ⟨⟨⟨⟨h₁, h₂⟩, h₃⟩, h₄⟩, h₅⟩ := h
  rw [peak, if_neg h₁, if_neg (not_or.2 ⟨h₂, h₃⟩), if_neg (not_or.2 ⟨h₄, h₅⟩)]

/-- A closed text is checked character by character. -/
theorem isPlain_of_all (h : s.all isPlain = true) : ∀ c ∈ s, isPlain c = true :=
  List.all_eq_true.1 h

/-- Plain characters open and close nothing. -/
theorem peak_append_plain (h : ∀ c ∈ s, isPlain c = true) :
    peak .outside level (s ++ text) = peak .outside level text := by
  induction s with
  | nil => rfl
  | cons c s ih =>
    rw [List.forall_mem_cons] at h
    rw [List.cons_append, peak_plain h.1, ih h.2]

/-- Inside a string only quotes and backslashes matter. -/
theorem peak_quoted (hq : c ≠ '"') (hb : c ≠ '\\') :
    peak .string level (c :: text) = peak .string level text := by
  rw [peak, if_neg hq, if_neg hb]

/-- What is open at the start counts. -/
theorem le_peak (r : Region) (level : Nat) (text : List Char) : level ≤ peak r level text := by
  induction text generalizing r level with
  | nil => cases r <;> exact Nat.le_refl level
  | cons c text ih =>
    cases r with
    | outside =>
      rw [peak]
      split
      · exact ih _ _
      · split
        · exact Nat.le_of_succ_le (ih _ _)
        · split
          · exact Nat.le_max_left _ _
          · exact ih _ _
    | string =>
      rw [peak]
      split
      · exact ih _ _
      · split <;> exact ih _ _
    | escape => exact ih _ _

/-! ## Nesting of written data -/

/-- A hexadecimal digit ends no string and begins no escape. -/
theorem digitChar_ne_quote {n : Nat} (h : n < 16) :
    Nat.digitChar n ≠ '"' ∧ Nat.digitChar n ≠ '\\' := by
  revert n
  decide

/-- A character is written inside a string so that the string goes on. -/
theorem peak_printChar (c : Char) :
    peak .string level (printChar c ++ text) = peak .string level text := by
  cases printChar_cases c with
  | escape letter h =>
    rw [h]
    rfl
  | control h hc =>
    have hhigh := digitChar_ne_quote (Nat.mod_lt (c.toNat / 16) (by decide : 0 < 16))
    have hlow := digitChar_ne_quote (Nat.mod_lt c.toNat (by decide : 0 < 16))
    have hzero : '0' ≠ '"' ∧ '0' ≠ '\\' := by decide
    rw [h, Literal.hexPair, List.cons_append, List.cons_append, peak_escape]
    simp only [List.cons_append, List.nil_append]
    rw [peak_quoted hzero.1 hzero.2, peak_quoted hzero.1 hzero.2, peak_quoted hhigh.1 hhigh.2,
      peak_quoted hlow.1 hlow.2]
  | plain h hq hb =>
    rw [h]
    exact peak_quoted hq hb

/-- A string that is written opens and closes nothing, whatever is in it. -/
theorem peak_printString (s : String) :
    peak .outside level (printString s ++ text) = peak .outside level text := by
  have hchars (cs : List Char) : peak .string level (cs.flatMap printChar ++ '"' :: text) =
      peak .outside level text := by
    induction cs with
    | nil => rfl
    | cons c cs ih =>
      rw [List.flatMap_cons, List.append_assoc, peak_printChar, ih]
  rw [printString, List.cons_append, List.append_assoc, List.singleton_append, peak_quote, hchars]

/-- The commas between texts make no difference, nor would one in front. -/
theorem peak_separated (ts : List (List Char)) :
    peak .outside level (separated ts ++ text) =
      peak .outside level (ts.flatMap (',' :: ·) ++ text) := by
  cases ts with
  | nil => rfl
  | cons t ts =>
    have hcomma : isPlain ',' = true := rfl
    rw [separated, List.flatMap_cons, List.cons_append, List.cons_append, peak_plain hcomma]

theorem isPlain_of_isNumeral (h : isNumeral c = true) : isPlain c = true := by
  have hne : ∀ d, isNumeral d = false → c ≠ d := by
    rintro d hd rfl
    rw [h] at hd
    cases hd
  simp only [isPlain, Bool.and_eq_true, decide_eq_true_eq]
  exact ⟨⟨⟨⟨hne _ rfl, hne _ rfl⟩, hne _ rfl⟩, hne _ rfl⟩, hne _ rfl⟩

/-- A floating point number is written without anything that opens or closes. -/
theorem peak_printFloat (x : Binary64) :
    peak .outside level (printFloat x ++ text) = peak .outside level text := by
  apply peak_append_plain
  rw [printFloat]
  split
  · rename_i hx
    exact fun c hc => isPlain_of_isNumeral (isNumeral_of_mem_write hx hc)
  · exact isPlain_of_all rfl

theorem peak_intDigits (n : Int) :
    peak .outside level (intDigits n ++ text) = peak .outside level text :=
  peak_append_plain fun _ hc => isPlain_of_isNumeral (isNumeral_of_mem_intDigits hc)

/-- Data without depth does not open anything. -/
theorem max_depth_zero : max (level + 0) (peak .outside level text) = peak .outside level text :=
  Nat.max_eq_right (le_peak _ _ _)

mutual

/-- The text of data opens as many arrays and objects as the data is deep, and closes them. -/
theorem peak_print : ∀ (j : Json) (level : Nat) (text : List Char),
    peak .outside level (print j ++ text) = max (level + depth j) (peak .outside level text)
  | .null, _, _ => (peak_append_plain (isPlain_of_all rfl)).trans max_depth_zero.symm
  | .bool true, _, _ => (peak_append_plain (isPlain_of_all rfl)).trans max_depth_zero.symm
  | .bool false, _, _ => (peak_append_plain (isPlain_of_all rfl)).trans max_depth_zero.symm
  | .int n, _, _ => (peak_intDigits n).trans max_depth_zero.symm
  | .float x, _, _ => (peak_printFloat x).trans max_depth_zero.symm
  | .str s, _, _ => (peak_printString s).trans max_depth_zero.symm
  | .arr xs, level, text => by
    rw [print_arr, depth, List.cons_append, List.append_assoc, peak_openList, peak_separated,
      peak_items, List.singleton_append, peak_closeList]
    have := le_peak .outside level text
    omega
  | .obj es, level, text => by
    rw [print_obj, depth, List.cons_append, List.append_assoc, peak_openObject, peak_separated,
      peak_members, List.singleton_append, peak_closeObject]
    have := le_peak .outside level text
    omega

theorem peak_items : ∀ (xs : List Json) (level : Nat) (text : List Char),
    peak .outside level ((xs.map print).flatMap (',' :: ·) ++ text) =
      max (level + depthItems xs) (peak .outside level text)
  | [], level, text => max_depth_zero.symm
  | x :: xs, level, text => by
    have hcomma : isPlain ',' = true := rfl
    rw [List.map_cons, List.flatMap_cons, List.cons_append, List.cons_append, peak_plain hcomma,
      List.append_assoc, peak_print, peak_items, depthItems]
    omega

theorem peak_members : ∀ (es : List (String × Json)) (level : Nat) (text : List Char),
    peak .outside level ((es.map printMember).flatMap (',' :: ·) ++ text) =
      max (level + depthMembers es) (peak .outside level text)
  | [], level, text => max_depth_zero.symm
  | (name, x) :: es, level, text => by
    have hcomma : isPlain ',' = true := rfl
    have hcolon : isPlain ':' = true := rfl
    rw [List.map_cons, List.flatMap_cons, List.cons_append, List.cons_append, peak_plain hcomma,
      List.append_assoc, printMember, List.append_assoc, peak_printString, List.cons_append,
      peak_plain hcolon, peak_print, peak_members, depthMembers]
    dsimp only
    omega

end

/-- The text of data is nested as deep as the data. -/
theorem nesting_print (j : Json) : nesting (print j) = depth j := by
  have h := peak_print j 0 []
  rw [List.append_nil] at h
  rw [nesting, h, peak]
  omega

/-- Brackets in a string do not count. -/
example : nesting "[\"]]\", [\"\\\"[[\"]]".toList = 2 := by decide +kernel

end Json

end GuardedCall
