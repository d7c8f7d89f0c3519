import GuardedCall.Proofs.CommandLine.Words
import GuardedCall.Proofs.Value.Unambiguous

/-!
# Displayed signatures are unambiguous

The text of a signature determines the signature, if names are identifiers and no default has a NaN
in it. A name ends before the first character that is in no name; what stands behind it tells
whether the parameter has a kind, and behind that whether it has a default; and a default, whatever
commas, brackets and quotes are in it, is read as the literal that it is. So the parameters are read
one after another, each up to a comma or the closing parenthesis.

Main definitions: `Param.chars`, `Param.Ends`, `Param.Readable`, `Signature.Readable`.
Main statements: `toList_display`, `readBefore_chars`, `displayed_signatures_are_unambiguous`.
-/

namespace GuardedCall

open Request (startsIdentifier)
open Value (NoNaN ReadBefore MayFollow Separates commaSeparated)

/-- A letter, an underscore or a digit. -/
def isNameChar (c : Char) : Bool := startsIdentifier c || c.isDigit

namespace Param

variable {p q : Param} {r s : List Char}

/-! ## The parts of a parameter -/

/-- The kind of a parameter, behind a colon. -/
def kindChars : Option Kind → List Char
  | none => []
  | some k => ':' :: ' ' :: k.name.toList

/-- The default of a parameter, behind an equals sign that may stand between blanks. -/
def defaultChars (spaced : Bool) : Option Value → List Char
  | none => []
  | some v => (if spaced then [' ', '=', ' '] else ['=']) ++ v.reprChars

/-- The characters of a parameter. -/
def chars (p : Param) : List Char :=
  p.name.toList ++ (kindChars p.kind? ++ defaultChars p.kind?.isSome p.default?)

theorem toList_display (p : Param) : p.display.toList = p.chars := by
  obtain ⟨name, kind?, default?⟩ := p
  cases kind? <;> cases default? <;>
    simp [display, chars, kindChars, defaultChars, Value.repr, String.toList_append]

/-- What follows a parameter in a signature: a comma or the closing parenthesis, and anything. -/
def Ends : List Char → Prop
  | [] => False
  | c :: _ => c ∈ [',', ')']

/-- A parameter whose name is an identifier and whose default has no NaN in it. -/
structure Readable (p : Param) : Prop where
  name : IsName p.name
  noNaN : NoNaN p

theorem Ends.mayFollow (h : Ends r) : MayFollow r := by
  cases r with
  | nil => cases h
  | cons c r =>
    simp only [Ends, List.mem_cons, List.not_mem_nil, or_false] at h
    rcases h with rfl | rfl <;> simp [MayFollow]

theorem separates_ends : Separates Ends ')' where
  comma _ := List.mem_cons_self
  behind _ := List.mem_cons_of_mem _ List.mem_cons_self
  ne_comma := by decide

/-! ## Where the parts end -/

theorem isNameChar_of_mem_name {name : String} (h : IsName name) :
    ∀ c ∈ name.toList, isNameChar c = true := by
  obtain ⟨c, cs, hname, hc, hcs⟩ := h
  rw [hname, List.forall_mem_cons]
  refine ⟨?_, fun d hd => ?_⟩
  · rw [isNameChar, startsIdentifier_iff.2 hc, Bool.true_or]
  · rw [isNameChar, Bool.or_eq_true, startsIdentifier_iff, isDigit_iff]
    exact hcs d hd

theorem isNameChar_of_mem_kindName (k : Kind) : ∀ c ∈ k.name.toList, isNameChar c = true := by
  have hall : k.name.toList.all isNameChar = true := by cases k <;> rfl
  exact List.all_eq_true.1 hall

/-- Behind the kind of a parameter there is a default, or its end. -/
theorem head_defaultChars (spaced : Bool) (default? : Option Value) (hr : Ends r) :
    ∀ c ∈ (defaultChars spaced default? ++ r).head?, c ∈ [' ', '=', ',', ')'] := by
  cases default? with
  | some v => cases spaced <;> simp [defaultChars]
  | none =>
    cases r with
    | nil => cases hr
    | cons c r =>
      simp only [Ends, List.mem_cons, List.not_mem_nil, or_false] at hr
      rcases hr with rfl | rfl <;> simp [defaultChars]

/-- Behind the name of a parameter there is a kind, a default, or its end. -/
theorem head_kindChars (kind? : Option Kind) (spaced : Bool) (default? : Option Value)
    (hr : Ends r) :
    ∀ c ∈ (kindChars kind? ++ (defaultChars spaced default? ++ r)).head?,
      c ∈ [':', ' ', '=', ',', ')'] := by
  cases kind? with
  | some k => simp [kindChars]
  | none => exact fun c hc => List.mem_cons_of_mem _ (head_defaultChars spaced default? hr c hc)

theorem isNameChar_eq_false {c : Char} (h : c ∈ [':', ' ', '=', ',', ')']) :
    isNameChar c = false := by
  have hall : [':', ' ', '=', ',', ')'].all (fun c => !isNameChar c) = true := rfl
  simpa using List.all_eq_true.1 hall c h

/-! ## Reading the parts -/

/-- A kind is read up to the default or the end. -/
theorem kindChars_inj {kind? kind?' : Option Kind} {default? default?' : Option Value}
    {spaced spaced' : Bool} (hr : Ends r) (hs : Ends s)
    (h : kindChars kind? ++ (defaultChars spaced default? ++ r) =
      kindChars kind?' ++ (defaultChars spaced' default?' ++ s)) :
    kind? = kind?' ∧ defaultChars spaced default? ++ r = defaultChars spaced' default?' ++ s := by
  have hcolon {r : List Char} (spaced : Bool) (default? : Option Value) (hr : Ends r)
      (t : List Char) : defaultChars spaced default? ++ r ≠ ':' :: t := by
    intro h
    have hhead := head_defaultChars spaced default? hr ':' (by rw [h]; rfl)
    exact absurd hhead (by decide)
  cases kind? with
  | none =>
    cases kind?' with
    | none => exact ⟨rfl, h⟩
    | some l => exact absurd h (hcolon spaced default? hr _)
  | some k =>
    cases kind?' with
    | none => exact absurd h.symm (hcolon spaced' default?' hs _)
    | some l =>
      have hend {r : List Char} (spaced : Bool) (default? : Option Value) (hr : Ends r) :
          ∀ c ∈ (defaultChars spaced default? ++ r).head?, isNameChar c = false :=
        fun c hc => isNameChar_eq_false
          (List.mem_cons_of_mem _ (head_defaultChars spaced default? hr c hc))
      obtain ⟨hname, hrest⟩ := Text.append_inj_of_all (isNameChar_of_mem_kindName k)
        (isNameChar_of_mem_kindName l) (hend spaced default? hr) (hend spaced' default?' hs)
        (List.cons.inj (List.cons.inj h).2).2
      exact ⟨by rw [Kind.name_inj (String.toList_inj.1 hname)], hrest⟩

/-- A default is read as a literal, and its absence is seen at the end. -/
theorem defaultChars_inj {default? default?' : Option Value} {spaced : Bool}
    (hd : NoNaN default?) (hd' : NoNaN default?') (hr : Ends r) (hs : Ends s)
    (h : defaultChars spaced default? ++ r = defaultChars spaced default?' ++ s) :
    default? = default?' ∧ r = s := by
  have hends {r : List Char} (hr : Ends r) (v : Value) (t : List Char) :
      r ≠ defaultChars spaced (some v) ++ t := by
    rintro rfl
    cases spaced <;> simp [defaultChars, Ends] at hr
  cases default? with
  | none =>
    cases default?' with
    | none => exact ⟨rfl, h⟩
    | some w => exact absurd h (hends hr w s)
  | some v =>
    cases default?' with
    | none => exact absurd h.symm (hends hs v r)
    | some w =>
      rw [defaultChars, defaultChars, List.append_assoc, List.append_assoc] at h
      have hv : NoNaN v := allFloats_option.1 hd v rfl
      have hw : NoNaN w := allFloats_option.1 hd' w rfl
      obtain ⟨rfl, hrs⟩ := Value.readUniquely_reprChars v hv w hw r s hr.mayFollow hs.mayFollow
        (List.append_cancel_left h)
      exact ⟨rfl, hrs⟩

/-- The text of a parameter determines the parameter and where it ends. -/
theorem readBefore_chars (hp : p.Readable) : ReadBefore Ends chars Readable p := by
  intro q hq r s hr hs h
  obtain ⟨name, kind?, default?⟩ := p
  obtain ⟨name', kind?', default?'⟩ := q
  simp only [chars, List.append_assoc] at h
  obtain ⟨hchars, hkind⟩ := Text.append_inj_of_all (isNameChar_of_mem_name hp.name)
    (isNameChar_of_mem_name hq.name)
    (fun c hc => isNameChar_eq_false (head_kindChars kind? kind?.isSome default? hr c hc))
    (fun c hc => isNameChar_eq_false (head_kindChars kind?' kind?'.isSome default?' hs c hc)) h
  have hname : name = name' := String.toList_inj.1 hchars
  obtain ⟨rfl, hdefault⟩ := kindChars_inj hr hs hkind
  have hrest : default? = default?' ∧ r = s := defaultChars_inj hp.noNaN hq.noNaN hr hs hdefault
  obtain ⟨rfl, hrs⟩ := hrest
  exact ⟨by rw [hname], hrs⟩

/-- No parameter begins like the end of a signature. -/
theorem chars_append_ne (hp : p.Readable) (t u : List Char) : p.chars ++ t ≠ ')' :: u := by
  obtain ⟨c, cs, hname, -, -⟩ := hp.name
  have hc : isNameChar c = true :=
    isNameChar_of_mem_name hp.name c (by rw [hname]; exact List.mem_cons_self)
  intro h
  rw [chars, hname] at h
  rw [(List.cons.inj h).1] at hc
  exact absurd hc (by decide)

end Param

namespace Signature

/-- A signature whose names are identifiers and whose defaults have no NaN in them. -/
structure Readable (s : Signature) : Prop where
  name : IsName s.name
  params : ∀ p ∈ s.params, IsName p.name
  noNaN : NoNaN s

variable {s : Signature}

theorem Readable.of_mem (h : s.Readable) {p : Param} (hp : p ∈ s.params) : p.Readable where
  name := h.params p hp
  noNaN := allFloats_iff_forall_mem.1 h.noNaN p hp

theorem toList_display (s : Signature) :
    s.display.toList =
      s.name.toList ++ '(' :: (commaSeparated (s.params.map Param.chars) ++ [')']) := by
  have hparams : s.params.map (String.toList ∘ Param.display) = s.params.map Param.chars :=
    List.map_congr_left fun p _ => p.toList_display
  simp [display, commaSeparated, String.toList_append, hparams]

end Signature

/-- **Displayed signatures are unambiguous.**  Signatures with identifiers for names and without
NaNs in their defaults have the same text exactly if they are the same: the name, and for each
parameter in order the name, the kind if it has one, and the default if it has one. -/
theorem displayed_signatures_are_unambiguous (s t : Signature) (hs : s.Readable)
    (ht : t.Readable) : s.display = t.display ↔ s = t := by
  constructor
  · intro h
    have hchars := congrArg String.toList h
    rw [s.toList_display, t.toList_display] at hchars
    have hopen (u : List Char) : ∀ c ∈ ('(' :: u).head?, isNameChar c = false := by
      simp +decide
    obtain ⟨hname, hrest⟩ := Text.append_inj_of_all (Param.isNameChar_of_mem_name hs.name)
      (Param.isNameChar_of_mem_name ht.name) (hopen _) (hopen _) hchars
    obtain ⟨hparams, -⟩ := Value.commaSeparated_inj Param.separates_ends
      (fun p hp => Param.chars_append_ne hp)
      (fun p hp => Param.readBefore_chars (hs.of_mem hp)) (fun p hp => hs.of_mem hp)
      (fun p hp => ht.of_mem hp) (List.cons.inj hrest).2
    obtain ⟨sname, sparams, _, _⟩ := s
    obtain ⟨tname, tparams, _, _⟩ := t
    cases String.toList_inj.1 hname
    cases hparams
    rfl
  · rintro rfl
    rfl

/-- A default with a comma and an equals sign in it, and the two parameters that it looks like. -/
theorem displayed_signatures_are_unambiguous_quotes :
    let s : Signature :=
      { name := "f", params := [{ name := "a", default? := some (.str "1, b=0.5") }]
        names_nodup := by decide, defaults_last := by decide }
    let t : Signature :=
      { name := "f"
        params := [{ name := "a", default? := some (.int 1) },
          { name := "b", default? := some (.float ⟨0x3fe0000000000000⟩) }]
        names_nodup := by decide, defaults_last := by decide }
    s.Readable ∧ t.Readable ∧ s.display ≠ t.display := by
  intro s t
  have hf : IsName "f" := isIdentifier_iff.1 rfl
  have ha : IsName "a" := isIdentifier_iff.1 rfl
  have hb : IsName "b" := isIdentifier_iff.1 rfl
  have hs : s.Readable := ⟨hf, List.forall_mem_singleton.2 ha, allFloats_of_eq_nil rfl⟩
  have ht : t.Readable :=
    ⟨hf, List.forall_mem_cons.2 ⟨ha, List.forall_mem_singleton.2 hb⟩,
      List.forall_mem_singleton.2 rfl⟩
  refine ⟨hs, ht, ?_⟩
  rw [Ne, displayed_signatures_are_unambiguous s t hs ht]
  decide

/-- A name that is no identifier can look like a parameter with a kind. -/
example :
    Param.display { name := "a: int" } = Param.display { name := "a", kind? := some .int } := by
  decide

end GuardedCall
