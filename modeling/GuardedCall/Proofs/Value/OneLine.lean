import GuardedCall.Proofs.Text.Quoted
import GuardedCall.Proofs.Value.Unambiguous

/-!
# Literals fill one line

The literal of a value has no control character in it, however deep the strings in it are nested, so
it is always a single line. The literals of strings and of bytes are read back between their quotes.

Main statements: `not_isControl_of_mem_reprChars`, `literals_read_back_on_one_line`.
-/

namespace GuardedCall

namespace Value

open Decimal Text Text.Literal

variable {c : Char} {ts : List (List Char)} {x : Binary64} {v : Value}

theorem isPrintable_of_all {t : List Char} (h : t.all (fun c => IsPrintable c) = true) :
    ∀ c ∈ t, IsPrintable c := by
  simpa using h

/-- The characters of numbers are printable. -/
theorem isPrintable_of_isNumberChar (h : isNumberChar c = true) : IsPrintable c := by
  by_cases hdigit : c.isDigit = true
  · have hrange := toNat_range_of_isDigit hdigit
    rw [IsPrintable]
    omega
  · simp only [isNumberChar, Json.isNumeral, hdigit, Bool.false_or, Bool.or_eq_true,
      decide_eq_true_eq] at h
    rcases h with (((((((rfl | rfl) | rfl) | rfl) | rfl) | rfl) | rfl) | rfl) <;> decide

/-- The literal of a number is printable, be the number finite or not. -/
theorem isPrintable_of_mem_write (h : c ∈ Layout.literal.write x) : IsPrintable c := by
  by_cases hnan : x.isNaN = true
  · have hwrite : Layout.literal.write x = ['n', 'a', 'n'] := by
      simp [Layout.write, hnan, Layout.literal]
    rw [hwrite] at h
    simp only [List.mem_cons, List.not_mem_nil, or_false] at h
    rcases h with rfl | rfl | rfl <;> decide
  · exact isPrintable_of_isNumberChar (isNumberChar_of_mem_write (by simpa using hnan) h)

/-- The characters of separated texts are those of the texts, commas and spaces. -/
theorem forall_mem_commaSeparated {P : Char → Prop} (hcomma : P ',') (hspace : P ' ')
    (h : ∀ t ∈ ts, ∀ c ∈ t, P c) : ∀ c ∈ commaSeparated ts, P c := by
  cases ts with
  | nil => exact List.forall_mem_nil _
  | cons t ts =>
    rw [List.forall_mem_cons] at h
    rw [commaSeparated_cons]
    simp only [List.forall_mem_append, List.forall_mem_flatMap, List.forall_mem_cons]
    exact ⟨h.1, fun u hu => ⟨hcomma, hspace, h.2 u hu⟩⟩

theorem not_isControl_comma : ¬ IsControl ',' := IsPrintable.not_isControl (by decide)

theorem not_isControl_space : ¬ IsControl ' ' := IsPrintable.not_isControl (by decide)

theorem not_isControl_of_mem_bracketed {l r : Char} {t : List Char} (hl : IsPrintable l)
    (hr : IsPrintable r) (h : ∀ c ∈ t, ¬ IsControl c) :
    ∀ c ∈ l :: (t ++ [r]), ¬ IsControl c := by
  simp only [List.forall_mem_cons, List.forall_mem_append]
  exact ⟨hl.not_isControl, h, hr.not_isControl, List.forall_mem_nil _⟩

/-- No control character is in the literal of a value. -/
theorem not_isControl_of_mem_reprChars (v : Value) : ∀ c ∈ v.reprChars, ¬ IsControl c := by
  -- all that is added around the parts of a value is printable
  have hprintable {t : List Char} (h : ∀ c ∈ t, IsPrintable c) : ∀ c ∈ t, ¬ IsControl c :=
    fun c hc => (h c hc).not_isControl
  induction v using Value.inductionOn with
  | null => exact hprintable (isPrintable_of_all (by rfl))
  | bool b =>
    refine hprintable (isPrintable_of_all ?_)
    cases b <;> rfl
  | int n =>
    rw [reprChars]
    exact hprintable fun c hc => isPrintable_of_isNumberChar (isNumberChar_of_mem_intDigits hc)
  | float x =>
    rw [reprChars]
    exact hprintable fun c hc => isPrintable_of_mem_write hc
  | str s =>
    rw [reprChars]
    exact fun c hc => not_isControl_of_mem_ofString hc
  | bytes bs =>
    rw [reprChars]
    exact hprintable fun c hc => isPrintable_of_mem_ofBytes hc
  | list vs ih =>
    rw [reprChars_list]
    refine not_isControl_of_mem_bracketed (by decide) (by decide) ?_
    exact forall_mem_commaSeparated not_isControl_comma not_isControl_space
      (List.forall_mem_map.2 ih)
  | tuple vs ih =>
    cases vs with
    | nil =>
      rw [reprChars_tuple_nil]
      exact not_isControl_of_mem_bracketed (by decide) (by decide) (List.forall_mem_nil _)
    | cons v vs =>
      rw [List.forall_mem_cons] at ih
      rw [reprChars_tuple_cons]
      refine not_isControl_of_mem_bracketed (by decide) (by decide) ?_
      rw [List.forall_mem_append, tupleTail]
      refine ⟨ih.1, ?_⟩
      split
      · exact List.forall_mem_singleton.2 not_isControl_comma
      · simp only [List.forall_mem_flatMap, List.forall_mem_cons]
        exact fun w hw => ⟨not_isControl_comma, not_isControl_space, ih.2 w hw⟩
  | dict es ih =>
    rw [reprChars_dict]
    refine not_isControl_of_mem_bracketed (by decide) (by decide) ?_
    refine forall_mem_commaSeparated not_isControl_comma not_isControl_space ?_
    rw [List.forall_mem_map]
    intro e he
    simp only [entryChars, List.forall_mem_append, List.forall_mem_cons]
    exact ⟨(ih e he).1, IsPrintable.not_isControl (by decide), not_isControl_space, (ih e he).2⟩

end Value

open Text.Literal in
/-- The literal of a string, and that of bytes behind its letter, stands between two quotes of one
kind, is over at the second of them and not before, and gives the string or the bytes back. No
literal has a control character in it, a line break among them, and that of bytes is printable. -/
theorem literals_read_back_on_one_line :
    (∀ s : String, ∃ quote body, (Value.str s).repr.toList = quote :: (body ++ [quote]) ∧
      Quoted quote body s.toList) ∧
    (∀ bs : List UInt8, ∃ quote body cs,
      (Value.bytes bs).repr.toList = 'b' :: quote :: (body ++ [quote]) ∧
      Quoted quote body cs ∧ cs.map Char.toNat = bs.map UInt8.toNat) ∧
    (∀ v : Value, ∀ c ∈ v.repr.toList, ¬ IsControl c ∧ c ≠ '\n' ∧ c ≠ '\r') ∧
    ∀ bs : List UInt8, ∀ c ∈ (Value.bytes bs).repr.toList, IsPrintable c := by
  refine ⟨fun s => ?_, fun bs => ?_, fun v c hc => ?_, fun bs c hc => ?_⟩
  · rw [Value.repr, String.toList_ofList, Value.reprChars]
    exact quoted_ofString s.toList
  · obtain ⟨quote, body, htext, hquoted⟩ := quoted_ofBytes bs
    refine ⟨quote, body, bs.map charOf, ?_, hquoted, ?_⟩
    · rwa [Value.repr, String.toList_ofList, Value.reprChars]
    · rw [List.map_map]
      exact List.map_congr_left fun b _ => toNat_charOf b
  · rw [Value.repr, String.toList_ofList] at hc
    have hcontrol := Value.not_isControl_of_mem_reprChars v c hc
    refine ⟨hcontrol, ?_, ?_⟩
    · rintro rfl
      exact hcontrol (Or.inl (by decide))
    · rintro rfl
      exact hcontrol (Or.inl (by decide))
  · rw [Value.repr, String.toList_ofList, Value.reprChars] at hc
    exact isPrintable_of_mem_ofBytes hc

end GuardedCall
