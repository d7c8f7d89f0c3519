import GuardedCall.CommandLine
import GuardedCall.Proofs.Natural.Kept
import Mathlib.Data.List.TakeDrop

/-!
# Calls as words

Every call of plain values can be written on a command line: an argument by position as the text of
its data, one by keyword behind its name and an equals sign, in any mixture. Words are told apart by
how they begin: the text of data is one of three bare words, or it begins with a digit, with a minus
sign before a digit, or with a quote or an opening bracket; so it is neither an option nor behind a
name.

Main definitions: `DataText`, `IsName`, `wordOf`, `namedWord`, `Writable`, `Interleaved`.
Main statements: `dataText_print`, `parseValue_wordOf`, `splitName?_named`, `parse_interleaved`,
`written_calls_read_back`.
-/

namespace GuardedCall

open Json Request Value

/-! ## How the text of data begins -/

/-- How the text of data begins. -/
inductive DataText : List Char → Prop
  | bare {text : List Char} (h : text ∈ ["null".toList, "true".toList, "false".toList]) :
    DataText text
  | digit {c : Char} (h : c.isDigit = true) (rest : List Char) : DataText (c :: rest)
  | minus {c : Char} (h : c.isDigit = true) (rest : List Char) : DataText ('-' :: c :: rest)
  | opening {c : Char} (h : c = '"' ∨ c = '[' ∨ c = '\x7b') (rest : List Char) :
    DataText (c :: rest)

variable {text name value : List Char} {w : String} {ws : List String} {i : Invocation}
  {a : Arguments} {j : Json} {v : Value}

theorem dataText_of_number {n : Number} {rest : List Char} (h : number text = .ok (n, rest)) :
    DataText text := by
  cases text with
  | nil => cases h
  | cons c text =>
    rcases number_head h with rfl | hc
    · obtain ⟨d, text, rfl, hd⟩ := unsigned_head h
      exact .minus hd text
    · exact .digit hc text

theorem dataText_print (h : j.Everywhere (Written ReadsBack)) : DataText (print j) := by
  cases j with
  | null => exact .bare (by decide)
  | bool b => exact .bare (by cases b <;> decide)
  | int n => exact dataText_of_number (number_intDigits ((Json.everywhere_leaf rfl).1 h))
  | float x =>
    have hx : x.isFinite = true ∧ ReadsBack x := (Json.everywhere_leaf rfl).1 h
    exact dataText_of_number (hx.2 hx.1)
  | str s => exact .opening (.inl rfl) _
  | arr xs => exact .opening (.inr (.inl rfl)) _
  | obj es => exact .opening (.inr (.inr rfl)) _

/-! ## Words that are arguments -/

/-- A word is an argument unless it begins with a dash that no digit follows. -/
theorem classify_eq_argument (h : ∀ c rest, w.toList = '-' :: c :: rest → c.isDigit = true) :
    classify w = .argument := by
  have hdash {o : String} {c : Char} {rest : List Char} (ho : o.toList = '-' :: c :: rest)
      (hc : c.isDigit = false) : w ≠ o := by
    rintro rfl
    exact absurd (hc.symm.trans (h c rest ho)) Bool.false_ne_true
  have hoption : ¬ ['-', '-'].isPrefixOf w.toList = true := by
    rw [List.isPrefixOf_iff_prefix]
    rintro ⟨rest, hw⟩
    exact absurd (h '-' rest hw.symm) (by decide)
  rw [classify, if_neg (hdash rfl rfl), if_neg (hdash rfl rfl), if_neg, if_neg hoption]
  exact not_or.2 ⟨hdash rfl rfl, hdash rfl rfl⟩

theorem classify_of_dataText (h : DataText w.toList) : classify w = .argument := by
  apply classify_eq_argument
  intro c rest hw
  rw [hw] at h
  cases h with
  | bare hbare => simp at hbare
  | digit hdash => exact absurd hdash (by decide)
  | minus hc => exact hc
  | opening hdash => exact absurd hdash (by decide)

/-! ## Names -/

/-- A letter of the alphabet, or an underscore. -/
def IsNameStart (c : Char) : Prop := ('A' ≤ c ∧ c ≤ 'Z') ∨ ('a' ≤ c ∧ c ≤ 'z') ∨ c = '_'

/-- A letter or an underscore, and any number of letters, underscores and digits. -/
def IsName (name : String) : Prop :=
  ∃ c cs, name.toList = c :: cs ∧ IsNameStart c ∧ ∀ d ∈ cs, IsNameStart d ∨ ('0' ≤ d ∧ d ≤ '9')

theorem startsIdentifier_iff {c : Char} : startsIdentifier c = true ↔ IsNameStart c := by
  have hupper : c.isUpper = true ↔ 'A' ≤ c ∧ c ≤ 'Z' := decide_eq_true_iff
  have hlower : c.isLower = true ↔ 'a' ≤ c ∧ c ≤ 'z' :=
    Bool.and_eq_true_iff.trans (and_congr decide_eq_true_iff decide_eq_true_iff)
  have halpha : c.isAlpha = true ↔ c.isUpper = true ∨ c.isLower = true := Bool.or_eq_true_iff
  rw [startsIdentifier, Bool.or_eq_true, decide_eq_true_eq, halpha, hupper, hlower, or_comm,
    or_assoc]
  rfl

theorem isDigit_iff {c : Char} : c.isDigit = true ↔ '0' ≤ c ∧ c ≤ '9' :=
  Bool.and_eq_true_iff.trans (and_congr decide_eq_true_iff decide_eq_true_iff)

theorem isIdentifier_iff {s : String} : isIdentifier s.toList = true ↔ IsName s := by
  rw [IsName]
  cases s.toList with
  | nil => simp [isIdentifier]
  | cons c cs => simp [isIdentifier, startsIdentifier_iff, isDigit_iff]

/-- No name begins with a digit. -/
theorem startsIdentifier_of_isDigit {c : Char} (h : c.isDigit = true) :
    startsIdentifier c = false := by
  rw [← Bool.not_eq_true, startsIdentifier_iff]
  have hle : c ≤ '9' := (isDigit_iff.1 h).2
  rintro (hupper | hlower | rfl)
  · exact absurd (Char.le_trans hupper.1 hle) (by decide)
  · exact absurd (Char.le_trans hlower.1 hle) (by decide)
  · exact absurd hle (by decide)

/-- No character of a name is an equals sign. -/
theorem ne_of_mem_identifier (hname : isIdentifier name = true) :
    ∀ c ∈ name, (c != '=') = true := by
  rintro c hc
  rw [bne_iff_ne]
  rintro rfl
  cases name with
  | nil => cases hname
  | cons d ds =>
    simp only [isIdentifier, Bool.and_eq_true, List.all_eq_true] at hname
    rcases List.mem_cons.1 hc with rfl | hc
    · exact absurd hname.1 (by decide)
    · exact absurd (hname.2 _ hc) (by decide)

/-! ## Words with a name -/

/-- A name before an equals sign is split off, whatever follows. -/
theorem splitName?_named (hname : isIdentifier name = true) (value : List Char) :
    splitName? (name ++ '=' :: value) = some (name, value) := by
  have hall := ne_of_mem_identifier hname
  rw [splitName?, List.span_eq_takeWhile_dropWhile, List.takeWhile_append_of_pos hall,
    List.dropWhile_append_of_pos hall]
  simp [hname]

theorem splitName?_of_not_identifier
    (h : isIdentifier (text.takeWhile (· != '=')) = false) : splitName? text = none := by
  rw [splitName?, List.span_eq_takeWhile_dropWhile]
  split
  · rename_i name c value heq
    rw [← (Prod.mk.inj heq).1, h]
    rfl
  · rfl

/-- A text that begins unlike a name has no name before its first equals sign. -/
theorem splitName?_of_head {c : Char} (h : startsIdentifier c = false) (rest : List Char) :
    splitName? (c :: rest) = none := by
  apply splitName?_of_not_identifier
  rw [List.takeWhile_cons]
  split
  · rw [isIdentifier, h, Bool.false_and]
  · rfl

theorem splitName?_of_dataText (h : DataText text) : splitName? text = none := by
  cases h with
  | bare hbare =>
    simp only [List.mem_cons, List.not_mem_nil, or_false] at hbare
    rcases hbare with rfl | rfl | rfl <;> rfl
  | digit hc => exact splitName?_of_head (startsIdentifier_of_isDigit hc) _
  | minus hc => exact splitName?_of_head rfl _
  | opening hc => rcases hc with rfl | rfl | rfl <;> exact splitName?_of_head rfl _

/-! ## Values as words -/

/-- The word for a value. -/
def wordOf (v : Value) : String := render (toJson v)

/-- The word for a value behind a name. -/
def namedWord (e : String × Value) : String := e.1 ++ "=" ++ wordOf e.2

/-- A value that a word can stand for: nothing is lost in its data, which does not nest too deep.
That its floating point numbers are read back is assumed of them. -/
structure Writable (v : Value) : Prop where
  plain : v.Plain
  nesting : nesting (wordOf v).toList ≤ 127
  readsBack : AllFloats ReadsBack v

theorem toList_wordOf (v : Value) : (wordOf v).toList = print (toJson v) := String.toList_ofList

theorem Writable.written (h : Writable v) : (toJson v).Everywhere (Written ReadsBack) :=
  written_toJson h.readsBack

theorem Writable.dataText (h : Writable v) : DataText (wordOf v).toList := by
  rw [toList_wordOf]
  exact dataText_print h.written

theorem Writable.parse (h : Writable v) : Json.parse (wordOf v).toList = .ok (toJson v) := by
  have hdepth := h.nesting
  rw [toList_wordOf, nesting_print] at hdepth
  rw [toList_wordOf]
  exact parse_print h.written hdepth

/-- Written data that is a wide number is a floating point number, and has the marks of one. -/
theorem any_mark_of_isWideNumber {P : Binary64 → Prop} (h : j.Everywhere (Written P))
    (hwide : isWideNumber j = true) :
    (print j).any (fun c => c = '.' || c = 'e' || c = 'E') = true := by
  cases j with
  | int n =>
    have hn : Word64.fitsSigned n = true := (Json.everywhere_leaf rfl).1 h
    rw [isWideNumber, hn] at hwide
    cases hwide
  | float x =>
    have hx : x.isFinite = true ∧ P x := (Json.everywhere_leaf rfl).1 h
    rw [print, printFloat, if_pos hx.1, List.any_eq_true]
    rcases mark_mem_write Decimal.Layout.literal hx.1 with hmark | hmark
    · exact ⟨_, hmark, rfl⟩
    · exact ⟨_, hmark, rfl⟩
  | _ => cases hwide

/-- The word for a value is read as this value: it is neither raw text nor a number that is too
wide. -/
theorem parseValue_wordOf (h : Writable v) : parseValue (wordOf v) = .ok v := by
  have hfits : ¬ (isWideNumber (toJson v) &&
      !(wordOf v).toList.any (fun c => c = '.' || c = 'e' || c = 'E')) = true := by
    rw [Bool.and_eq_true, Bool.not_eq_true', toList_wordOf]
    rintro ⟨hwide, hmark⟩
    exact absurd (hmark.symm.trans (any_mark_of_isWideNumber h.written hwide)) Bool.false_ne_true
  simp only [parseValue, h.parse, if_neg hfits, ofJson_toJson_of_plain h.plain]

theorem pushWord_wordOf (h : Writable v) : pushWord a (wordOf v) = .ok (a.pass v) := by
  simp only [pushWord, splitName?_of_dataText h.dataText, parseValue_wordOf h, except_ok_bind]

theorem toList_namedWord (e : String × Value) :
    (namedWord e).toList = e.1.toList ++ '=' :: (wordOf e.2).toList := by
  simp [namedWord, String.toList_append]

theorem pushWord_namedWord {e : String × Value} (hname : IsName e.1) (h : Writable e.2) :
    pushWord a (namedWord e) = .ok (a.passNamed e.1 e.2) := by
  have hsplit := splitName?_named (isIdentifier_iff.2 hname) (wordOf e.2).toList
  simp only [pushWord, toList_namedWord, hsplit, String.ofList_toList, parseValue_wordOf h,
    except_ok_bind]

theorem classify_namedWord {e : String × Value} (hname : IsName e.1) :
    classify (namedWord e) = .argument := by
  apply classify_eq_argument
  intro c rest hdash
  obtain ⟨d, ds, hd, hstart, -⟩ := hname
  rw [toList_namedWord, hd, List.cons_append, List.cons.injEq] at hdash
  rw [hdash.1, ← startsIdentifier_iff] at hstart
  cases hstart

/-! ## Calls as words -/

/-- Two lists mixed in any way, each in its own order. -/
inductive Interleaved {α : Type} : List α → List α → List α → Prop
  | nil : Interleaved [] [] []
  | left {xs ys zs : List α} (x : α) (h : Interleaved xs ys zs) : Interleaved (x :: xs) ys (x :: zs)
  | right {xs ys zs : List α} (y : α) (h : Interleaved xs ys zs) :
    Interleaved xs (y :: ys) (y :: zs)

/-- Arguments without splats. -/
def plainArguments (vs : List Value) (es : List (String × Value)) : Arguments where
  positional := vs.map .value
  keywords := es.map fun e => .named e.1 e.2

/-- An argument is added to those that were found before. -/
theorem parseFrom_argument (hw : classify w = .argument) (hpush : pushWord i.arguments w = .ok a) :
    parseFrom i (w :: ws) = parseFrom { i with arguments := a } ws := by
  rw [parseFrom, hw, hpush]
  rfl

/-- The words of a call are found one after another. -/
theorem parseFrom_interleaved {vs : List Value} {es : List (String × Value)}
    (hws : Interleaved (vs.map wordOf) (es.map namedWord) ws) (hvs : ∀ v ∈ vs, Writable v)
    (hes : ∀ e ∈ es, IsName e.1 ∧ Writable e.2) (i : Invocation) :
    parseFrom i ws = .ok (.call { i with arguments :=
      { positional := i.arguments.positional ++ (plainArguments vs es).positional
        keywords := i.arguments.keywords ++ (plainArguments vs es).keywords } }) := by
  -- along the mixture; the arguments found so far are those of the invocation
  generalize hxs : vs.map wordOf = xs at hws
  generalize hys : es.map namedWord = ys at hws
  induction hws generalizing vs es i with
  | nil =>
    rw [List.map_eq_nil_iff] at hxs hys
    subst hxs hys
    simp [parseFrom, plainArguments]
  | left x h ih =>
    obtain ⟨v, vs, rfl, rfl, rfl⟩ := List.map_eq_cons_iff.1 hxs
    rw [List.forall_mem_cons] at hvs
    have hword := classify_of_dataText hvs.1.dataText
    rw [parseFrom_argument hword (pushWord_wordOf hvs.1), ih hvs.2 hes _ rfl hys]
    simp [plainArguments, Arguments.pass]
  | right y h ih =>
    obtain ⟨e, es, rfl, rfl, rfl⟩ := List.map_eq_cons_iff.1 hys
    rw [List.forall_mem_cons] at hes
    have hword := classify_namedWord hes.1.1
    rw [parseFrom_argument hword (pushWord_namedWord hes.1.1 hes.1.2), ih hvs hes.2 _ hxs rfl]
    simp [plainArguments, Arguments.passNamed]

/-- **Every call of plain values can be written as words and is read back.**  The arguments by
position and by keyword are mixed in any way. No word for a value is an option or has a name, and it
is read as data, as this value. -/
theorem written_calls_read_back {vs : List Value} {es : List (String × Value)}
    (hws : Interleaved (vs.map wordOf) (es.map namedWord) ws) (hvs : ∀ v ∈ vs, Writable v)
    (hes : ∀ e ∈ es, IsName e.1 ∧ Writable e.2) :
    Request.parse ws = .ok (.call
        { trace := false
          policy := .strict
          arguments :=
            { positional := vs.map .value
              keywords := es.map fun e => .named e.1 e.2 } }) ∧
      ∀ v ∈ vs, classify (wordOf v) = .argument ∧ splitName? (wordOf v).toList = none ∧
        Json.parse (wordOf v).toList = .ok (toJson v) ∧ parseValue (wordOf v) = .ok v := by
  refine ⟨parseFrom_interleaved hws hvs hes {}, fun v hv => ?_⟩
  have h := hvs v hv
  exact ⟨classify_of_dataText h.dataText, splitName?_of_dataText h.dataText, h.parse,
    parseValue_wordOf h⟩

/-- A string that looks like an option with a value, and two floating point numbers that are whole,
one of them minus zero in a list that is passed by keyword. -/
theorem written_calls_read_back_mixed :
    let vs : List Value := [.str "--a=\"b\"", .float ⟨0x4341c37937e08000⟩]
    let es : List (String × Value) := [("_x1", .list [.null, .float ⟨0x8000000000000000⟩])]
    let ws := ["\"--a=\\\"b\\\"\"", "_x1=[null,-0.0]", "1e+16"]
    (Interleaved (vs.map wordOf) (es.map namedWord) ws ∧ (∀ v ∈ vs, Writable v) ∧
        ∀ e ∈ es, IsName e.1 ∧ Writable e.2) ∧
      Request.parse ws = .ok (.call
        { trace := false
          policy := .strict
          arguments :=
            { positional := vs.map .value
              keywords := es.map fun e => .named e.1 e.2 } }) := by
  intro vs es ws
  have hpositional : vs.map wordOf = ["\"--a=\\\"b\\\"\"", "1e+16"] := by decide +kernel
  have hkeywords : es.map namedWord = ["_x1=[null,-0.0]"] := by decide +kernel
  have hws : Interleaved (vs.map wordOf) (es.map namedWord) ws := by
    rw [hpositional, hkeywords]
    exact .left _ (.right _ (.left _ .nil))
  have hlarge : ReadsBack ⟨0x4341c37937e08000⟩ := fun _ => by decide +kernel
  have hzero : ReadsBack ⟨0x8000000000000000⟩ := fun _ => by decide +kernel
  have hvs : ∀ v ∈ vs, Writable v := by
    refine List.forall_mem_cons.2 ⟨?_, List.forall_mem_singleton.2 ?_⟩
    · exact ⟨by decide +kernel, by decide +kernel, allFloats_of_eq_nil rfl⟩
    · exact ⟨by decide +kernel, by decide +kernel, allFloats_float.2 hlarge⟩
  have hes : ∀ e ∈ es, IsName e.1 ∧ Writable e.2 := by
    refine List.forall_mem_singleton.2 ⟨isIdentifier_iff.1 rfl, by decide +kernel, ?_, ?_⟩
    · decide +kernel
    · exact List.forall_mem_singleton.2 hzero
  exact ⟨⟨hws, hvs, hes⟩, (written_calls_read_back hws hvs hes).1⟩

end GuardedCall
