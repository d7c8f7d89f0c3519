import GuardedCall.Proofs.FirstFault
import GuardedCall.Proofs.Json.Written

/-!
# Reading strings

A written string is read back as it is, whatever its characters: each escape that is written
stands for its character, and every other character for itself.

Main statement: `string_append`.
-/

namespace GuardedCall.Json

open Text

theorem hexDigit?_digitChar {n : Nat} (h : n < 16) : hexDigit? (Nat.digitChar n) = some n := by
  revert n
  decide

/-- Two hexadecimal digits behind two zeros make the number that they are of. -/
theorem hexUnit_hexPair {n : Nat} (h : n < 256) :
    hexUnit '0' '0' (Nat.digitChar (n / 16 % 16)) (Nat.digitChar (n % 16)) = .ok n := by
  have hzero : hexDigit? '0' = some 0 := rfl
  rw [hexUnit, hzero, hexDigit?_digitChar (Nat.mod_lt _ (by decide)),
    hexDigit?_digitChar (Nat.mod_lt _ (by decide))]
  refine congrArg Except.ok ?_
  omega

/-- A letter behind a backslash stands for a character. -/
theorem stringChars_simpleEscape {c e : Char} (hu : c ≠ 'u') (he : simpleEscape? c = some e)
    (text : List Char) : stringChars ('\\' :: c :: text) = consChar e (stringChars text) := by
  simp [stringChars, hu, he]

/-- Four digits behind a backslash and a `u` stand for the character of their number, unless it is
a surrogate. -/
theorem stringChars_unit {a b c d : Char} {n : Nat} (hn : hexUnit a b c d = .ok n)
    (hlt : n < 0xD800) (text : List Char) :
    stringChars ('\\' :: 'u' :: a :: b :: c :: d :: text) =
      consChar (Char.ofNat n) (stringChars text) := by
  have htrailing : isTrailing n = false := by
    simp only [isTrailing, Bool.and_eq_false_iff, decide_eq_false_iff_not]
    omega
  have hleading : isLeading n = false := by
    simp only [isLeading, Bool.and_eq_false_iff, decide_eq_false_iff_not]
    omega
  rw [stringChars, hn, except_ok_bind, htrailing, hleading]
  rfl

theorem stringChars_plain {c : Char} (hq : c ≠ '"') (hb : c ≠ '\\') (hc : ¬ c.toNat < 32)
    (text : List Char) : stringChars (c :: text) = consChar c (stringChars text) := by
  simp [stringChars, hc]

/-- What is written for a character is read as this character. -/
theorem stringChars_printChar (c : Char) (text : List Char) :
    stringChars (printChar c ++ text) = consChar c (stringChars text) := by
  cases printChar_cases c with
  | escape letter h hu he =>
    rw [h]
    exact stringChars_simpleEscape hu he text
  | control h hc =>
    have hunit := hexUnit_hexPair (Nat.lt_trans hc (by decide : 32 < 256))
    have hchar := stringChars_unit hunit (Nat.lt_trans hc (by decide)) text
    rw [Char.ofNat_toNat] at hchar
    rw [h]
    exact hchar
  | plain h hq hb hc =>
    rw [h]
    exact stringChars_plain hq hb hc text

/-- What is written for a string is read up to its closing quote. -/
theorem stringChars_flatMap (cs text : List Char) :
    stringChars (cs.flatMap printChar ++ '"' :: text) = .ok (cs, text) := by
  induction cs with
  | nil => rfl
  | cons c cs ih =>
    rw [List.flatMap_cons, List.append_assoc, stringChars_printChar, ih]
    rfl

/-- A written string is read back, behind its opening quote. -/
theorem string_append (s : String) (text : List Char) :
    string (s.toList.flatMap printChar ++ '"' :: text) = .ok (s, text) := by
  rw [string, stringChars_flatMap, except_ok_bind]
  dsimp only
  rw [String.ofList_toList]

end GuardedCall.Json
