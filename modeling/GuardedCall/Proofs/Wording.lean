import GuardedCall.Guard
import GuardedCall.Proofs.Text.Parts

/-!
# What messages say

The message of a fault names what the fault is about: the function, and the parameters, the kinds,
the counts or the keywords in question, in order. And it tells the fault: of one function, two
faults with one message are one fault. For missing parameters this takes names without quotes in
them, since a list of quoted names can be read in two ways otherwise.

Main definitions: `SignatureFault.Told`, `BindFault.names`, `BindFault.about`, `BindFault.phrase`.
Main statements: `SignatureFault.told`, `BindFault.mentions_message`, `BindFault.message_inj`,
`Guard.mentions_mismatchFailure`.
-/

namespace GuardedCall

open Decimal Text

/-! ## Names in quotes -/

/-- There is no quote in a name. -/
def Unquoted (name : String) : Prop := '\'' ∉ name.toList

/-- A quoted name without quotes in it ends at the second quote. -/
theorem quotedName_append_inj {a b x y : String} (ha : Unquoted a) (hb : Unquoted b)
    (h : quotedName a ++ x = quotedName b ++ y) : a = b ∧ x = y := by
  have hplain {n : String} (hn : Unquoted n) : ∀ c ∈ n.toList, decide (c ≠ '\'') = true := by
    intro c hc
    rw [decide_eq_true_iff]
    rintro rfl
    exact hn hc
  have hchars := congrArg String.toList h
  simp only [quotedName, String.toList_append, List.append_assoc, List.append_cancel_left_eq]
    at hchars
  obtain ⟨hname, hrest⟩ := append_inj_of_all (hplain ha) (hplain hb) (by simp) (by simp) hchars
  exact ⟨String.toList_inj.1 hname, String.toList_inj.1 (List.append_cancel_left hrest)⟩

/-- The quotes around a name may be taken for parts of what stands before and behind it. -/
theorem append_quotedName_append (x name y : String) :
    x ++ quotedName name ++ y = x ++ "'" ++ name ++ ("'" ++ y) := by
  simp only [quotedName, String.append_assoc]

theorem quotedName_inj {a b : String} (h : quotedName a = quotedName b) : a = b := by
  rwa [quotedName, quotedName, String.append_left_inj, String.append_right_inj] at h

/-- The separator behind the first of several names depends on how many there are. -/
theorem nameList_cons (a : String) {names : List String} (h : names ≠ []) :
    nameList (a :: names) =
      quotedName a ++ ((if names.length = 1 then " and " else ", ") ++ nameList names) := by
  match names with
  | [] => exact absurd rfl h
  | [b] => exact String.append_assoc
  | b :: c :: rest =>
    have hlength : (b :: c :: rest).length ≠ 1 := by simp
    rw [if_neg hlength, ← String.append_assoc]
    rfl

/-- A list of names mentions each of them in quotes. -/
theorem mentions_nameList (names : List String) :
    Mentions (names.map quotedName) (nameList names) := by
  induction names with
  | nil => trivial
  | cons a names ih =>
    by_cases hn : names = []
    · rw [hn]
      exact mentions_self _
    · rw [nameList_cons a hn]
      exact (mentions_self _).append (ih.append_left _)

/-- Lists of as many names, without quotes in them, are told apart. -/
theorem nameList_inj {as bs : List String} (ha : ∀ n ∈ as, Unquoted n) (hb : ∀ n ∈ bs, Unquoted n)
    (hlength : as.length = bs.length) (h : nameList as = nameList bs) : as = bs := by
  induction as generalizing bs with
  | nil => exact (List.length_eq_zero_iff.1 hlength.symm).symm
  | cons a as ih =>
    cases bs with
    | nil => cases hlength
    | cons b bs =>
      rw [List.forall_mem_cons] at ha hb
      have hcount : as.length = bs.length := Nat.succ.inj hlength
      by_cases hn : as = []
      · subst hn
        have hbs : bs = [] := List.length_eq_zero_iff.1 hcount.symm
        subst hbs
        rw [quotedName_inj h]
      · have hbs : bs ≠ [] := by
          rintro rfl
          exact hn (List.length_eq_zero_iff.1 hcount)
        rw [nameList_cons a hn, nameList_cons b hbs, hcount] at h
        obtain ⟨rfl, hrest⟩ := quotedName_append_inj ha.1 hb.1 h
        rw [ih ha.2 hb.2 hcount ((String.append_right_inj _).1 hrest)]

/-! ## Faults of signatures -/

namespace SignatureFault

variable {func p q : String} {f f' : SignatureFault}

/-- A parameter whose name comes again is named. -/
theorem message_repeatedName : (repeatedName p).message func =
    "duplicate argument '" ++ p ++ "' in function definition of " ++ func ++ "()" := by
  have hopen : "duplicate argument " ++ "'" = "duplicate argument '" := by decide
  have hclose : "'" ++ " in function definition of " = "' in function definition of " := by decide
  show "duplicate argument " ++ quotedName p ++ " in function definition of " ++ func ++ "()" = _
  rw [append_quotedName_append, hopen, hclose]

/-- A parameter whose default is missing is named. -/
theorem message_defaultBefore : (defaultBefore p).message func =
    "non-default argument '" ++ p ++ "' follows default argument in " ++ func ++ "()" := by
  have hopen : "non-default argument " ++ "'" = "non-default argument '" := by decide
  have hclose : "'" ++ " follows default argument in " = "' follows default argument in " := by
    decide
  show "non-default argument " ++ quotedName p ++ " follows default argument in " ++ func ++ "()" =
    _
  rw [append_quotedName_append, hopen, hclose]

/-- The two sorts of faults begin differently. -/
theorem message_ne : (repeatedName p).message func ≠ (defaultBefore q).message func := by
  have hfree : ∀ s ∈ ["duplicate argument '", "non-default argument '"],
      ∀ t ∈ ["duplicate argument '", "non-default argument '"],
        s.toList <+: t.toList → s = t := by decide
  rw [message_repeatedName, message_defaultBefore]
  simp only [String.append_assoc]
  intro h
  exact absurd (eq_of_append_eq hfree (by decide) (by decide) h) (by decide)

/-- The message tells which parameter is wrong, and how. -/
theorem message_inj (h : f.message func = f'.message func) : f = f' := by
  cases f with
  | repeatedName p =>
    cases f' with
    | repeatedName q =>
      simp only [message_repeatedName, String.append_left_inj, String.append_right_inj] at h
      rw [h]
    | defaultBefore q => exact absurd h message_ne
  | defaultBefore p =>
    cases f' with
    | repeatedName q => exact absurd h.symm message_ne
    | defaultBefore q =>
      simp only [message_defaultBefore, String.append_left_inj, String.append_right_inj] at h
      rw [h]

/-- A failure tells of a fault in the definition of `func`: it is about a signature, it names the
parameter and says what is wrong with it. -/
structure Told (func : String) (f : SignatureFault) (failure : Failure) : Prop where
  kind : failure.kind = .signature
  mismatch : failure.mismatch = none
  repeatedName : ∀ p, f = .repeatedName p → failure.message =
    "duplicate argument '" ++ p ++ "' in function definition of " ++ func ++ "()"
  defaultBefore : ∀ p, f = .defaultBefore p → failure.message =
    "non-default argument '" ++ p ++ "' follows default argument in " ++ func ++ "()"
  /-- No other fault in the definition is told so. -/
  unique : ∀ f' : SignatureFault, (f'.failure func).message = failure.message → f' = f
  /-- The whole text says that the failure is about a signature. -/
  text : failure.display = "SignatureError: " ++ failure.message

/-- A fault is told by its own failure. -/
theorem told (func : String) (f : SignatureFault) : f.Told func (f.failure func) where
  kind := rfl
  mismatch := rfl
  repeatedName := by
    rintro p rfl
    exact message_repeatedName
  defaultBefore := by
    rintro p rfl
    exact message_defaultBefore
  unique _ h := message_inj h
  text := rfl

end SignatureFault

/-! ## Faults of calls -/

namespace BindFault

variable {func : String} {f g : BindFault}

/-- The names that a fault is about. -/
def names : BindFault → List String
  | keywordRepeated name => [name]
  | unexpectedKeyword name => [name]
  | argumentRepeated name => [name]
  | missing names => names
  | _ => []

/-- What a message in a call of `func` is about: kinds by their names, counts by their digits, and
keywords and parameters in quotes. -/
def about (func : String) : BindFault → List String
  | notIterable actual => [func, actual.name]
  | notMapping actual => [func, actual.name]
  | keyNotString => []
  | keywordRepeated name => [func, "'" ++ name ++ "'"]
  | tooManyPositional takes given => [func, natText takes, natText given]
  | unexpectedKeyword name => [func, "'" ++ name ++ "'"]
  | argumentRepeated name => [func, "'" ++ name ++ "'"]
  | missing names => func :: natText names.length :: names.map fun n => "'" ++ n ++ "'"

/-- The text on missing parameters gives their number, in one form for one and for more. -/
theorem message_missing (func : String) (names : List String) :
    (missing names).message func =
      func ++ "() missing " ++ natText names.length ++ " required positional " ++
        (if names.length = 1 then "argument" else "arguments") ++ ": " ++ nameList names := by
  have hone : "() missing 1 required positional argument: " =
      "() missing " ++ (natText 1 ++ (" required positional " ++ ("argument" ++ ": "))) := by
    decide
  have hmore : " required positional arguments: " =
      " required positional " ++ ("arguments" ++ ": ") := by
    decide
  match names with
  | [] =>
    rw [message, hmore, List.length_nil, if_neg Nat.zero_ne_one]
    · simp only [String.append_assoc]
    · intro name h
      cases h
  | [name] =>
    rw [message, hone, List.length_singleton, if_pos rfl, nameList]
    simp only [String.append_assoc]
  | first :: second :: rest =>
    have hlength : (first :: second :: rest).length ≠ 1 := by simp
    rw [if_neg hlength, BindFault.message, hmore]
    · simp only [String.append_assoc]
    · intro name h
      cases h

/-- The message names what the fault is about, in order. -/
theorem mentions_message (func : String) (f : BindFault) :
    Mentions (f.about func) (f.message func) := by
  have hfunc (text : String) : Mentions [func] (func ++ text) := (mentions_self func).append_right _
  cases f with
  | notIterable actual => exact (hfunc _).append (mentions_self _)
  | notMapping actual => exact (hfunc _).append (mentions_self _)
  | keyNotString => trivial
  | keywordRepeated name => exact (hfunc _).append (mentions_self _)
  | unexpectedKeyword name => exact (hfunc _).append (mentions_self _)
  | argumentRepeated name => exact (hfunc _).append (mentions_self _)
  | tooManyPositional takes given =>
    have htakes := (hfunc "() takes ").append (mentions_self (natText takes))
    have hbetween := ((htakes.append_right " positional ").append_right
      (if takes = 1 then "argument" else "arguments")).append_right " but "
    have hgiven := hbetween.append (mentions_self (natText given))
    exact ((hgiven.append_right " ").append_right _).append_right _
  | missing names =>
    have hcount := (hfunc "() missing ").append (mentions_self (natText names.length))
    rw [message_missing]
    exact (((hcount.append_right _).append_right _).append_right _).append (mentions_nameList names)

/-! ## Faults of calls told apart -/

/-- The words that tell the sort of a fault. -/
def phrase : BindFault → String
  | notIterable _ => "() argument after * must be an iterable, not "
  | notMapping _ => "() argument after ** must be a mapping, not "
  | keyNotString => "keywords must be strings"
  | keywordRepeated _ => "() got multiple values for keyword argument "
  | tooManyPositional _ _ => "() takes "
  | unexpectedKeyword _ => "() got an unexpected keyword argument "
  | argumentRepeated _ => "() got multiple values for argument "
  | missing _ => "() missing "

/-- The phrases behind the name of a function. -/
def phrases : List String :=
  [notIterable .null, notMapping .null, keywordRepeated "", tooManyPositional 0 0,
    unexpectedKeyword "", argumentRepeated "", missing []].map phrase

/-- What stands behind the phrase. -/
def detail : BindFault → String
  | notIterable actual => actual.name
  | notMapping actual => actual.name
  | keyNotString => ""
  | keywordRepeated name => quotedName name
  | tooManyPositional takes given =>
    natText takes ++ (" positional " ++ ((if takes = 1 then "argument" else "arguments") ++
      (" but " ++ (natText given ++ (" " ++ ((if given = 1 then "was" else "were") ++ " given"))))))
  | unexpectedKeyword name => quotedName name
  | argumentRepeated name => quotedName name
  | missing names =>
    natText names.length ++ (" required positional " ++
      ((if names.length = 1 then "argument" else "arguments") ++ (": " ++ nameList names)))

/-- A message is the name of the function, a phrase and the details, apart from the one that names
no function. -/
theorem message_eq (func : String) (h : f ≠ keyNotString) :
    f.message func = func ++ (f.phrase ++ f.detail) := by
  cases f with
  | notIterable actual => exact String.append_assoc
  | notMapping actual => exact String.append_assoc
  | keyNotString => exact absurd rfl h
  | keywordRepeated name => exact String.append_assoc
  | unexpectedKeyword name => exact String.append_assoc
  | argumentRepeated name => exact String.append_assoc
  | tooManyPositional takes given => simp only [message, phrase, detail, String.append_assoc]
  | missing names => simp only [message_missing, phrase, detail, String.append_assoc]

theorem phrase_mem (h : f ≠ keyNotString) : f.phrase ∈ phrases := by
  cases f <;> simp [phrase, phrases] at h ⊢

/-- No phrase begins another. -/
theorem eq_of_phrase_prefix :
    ∀ p ∈ phrases, ∀ q ∈ phrases, p.toList <+: q.toList → p = q := by
  decide +kernel

/-- The one message that names no function is not a message that names one. -/
theorem message_ne_keyNotString (h : f ≠ keyNotString) :
    f.message func ≠ keyNotString.message func := by
  have hopen : ∀ p ∈ phrases, '(' ∈ p.toList := by decide +kernel
  have hnone : '(' ∉ (keyNotString.message func).toList := by
    show '(' ∉ "keywords must be strings".toList
    decide
  intro heq
  refine hnone ?_
  rw [← heq, message_eq func h, String.toList_append, String.toList_append]
  exact List.mem_append_right _ (List.mem_append_left _ (hopen _ (phrase_mem h)))

/-- Two faults with one message are of one sort, and agree in the details. -/
theorem phrase_eq_and_detail_eq (h : f.message func = g.message func) :
    f.phrase = g.phrase ∧ f.detail = g.detail := by
  by_cases hf : f = keyNotString
  · by_cases hg : g = keyNotString
    · rw [hf, hg]
      exact ⟨rfl, rfl⟩
    · subst hf
      exact absurd h.symm (message_ne_keyNotString hg)
  · by_cases hg : g = keyNotString
    · subst hg
      exact absurd h (message_ne_keyNotString hf)
    · rw [message_eq func hf, message_eq func hg, String.append_right_inj] at h
      have hphrase := eq_of_append_eq eq_of_phrase_prefix (phrase_mem hf) (phrase_mem hg) h
      rw [hphrase, String.append_right_inj] at h
      exact ⟨hphrase, h⟩

/-- The digits of a number end where something else begins. -/
theorem natText_append_inj {m n : Nat} {x y : String} (hx : ∀ c ∈ x.toList.head?, c.isDigit = false)
    (hy : ∀ c ∈ y.toList.head?, c.isDigit = false) (h : natText m ++ x = natText n ++ y) :
    m = n ∧ x = y := by
  have hchars := congrArg String.toList h
  simp only [natText, String.toList_append, String.toList_ofList] at hchars
  obtain ⟨hdigits, hrest⟩ := append_inj_of_all (fun _ => isDigit_of_mem_natDigits)
    (fun _ => isDigit_of_mem_natDigits) hx hy hchars
  refine ⟨?_, String.toList_inj.1 hrest⟩
  rw [← ofDigits_natDigits m, hdigits, ofDigits_natDigits]

/-- Both numbers of positional arguments can be read in the details. -/
theorem detail_tooManyPositional_inj {takes given takes' given' : Nat}
    (h : (tooManyPositional takes given).detail = (tooManyPositional takes' given').detail) :
    takes = takes' ∧ given = given' := by
  obtain ⟨htakes, hrest⟩ := natText_append_inj (by simp) (by simp) h
  rw [htakes] at hrest
  simp only [String.append_right_inj] at hrest
  exact ⟨htakes, (natText_append_inj (by simp) (by simp) hrest).1⟩

/-- The number of missing parameters can be read in the details, and so can their names, if there
are no quotes in them. -/
theorem detail_missing_inj {as bs : List String} (ha : ∀ n ∈ as, Unquoted n)
    (hb : ∀ n ∈ bs, Unquoted n) (h : (missing as).detail = (missing bs).detail) : as = bs := by
  obtain ⟨hlength, hrest⟩ := natText_append_inj (by simp) (by simp) h
  rw [hlength] at hrest
  simp only [String.append_right_inj] at hrest
  exact nameList_inj ha hb hlength hrest

/-- Of one function, two faults with one message are one fault. -/
theorem message_inj (hf : ∀ n ∈ f.names, Unquoted n) (hg : ∀ n ∈ g.names, Unquoted n)
    (h : f.message func = g.message func) : f = g := by
  obtain ⟨hphrase, hdetail⟩ := phrase_eq_and_detail_eq h
  cases f with
  | notIterable actual =>
    cases g with
    | notIterable actual' => rw [Kind.name_inj hdetail]
    | _ => simp [phrase] at hphrase
  | notMapping actual =>
    cases g with
    | notMapping actual' => rw [Kind.name_inj hdetail]
    | _ => simp [phrase] at hphrase
  | keyNotString =>
    cases g with
    | keyNotString => rfl
    | _ => simp [phrase] at hphrase
  | keywordRepeated name =>
    cases g with
    | keywordRepeated name' => rw [quotedName_inj hdetail]
    | _ => simp [phrase] at hphrase
  | unexpectedKeyword name =>
    cases g with
    | unexpectedKeyword name' => rw [quotedName_inj hdetail]
    | _ => simp [phrase] at hphrase
  | argumentRepeated name =>
    cases g with
    | argumentRepeated name' => rw [quotedName_inj hdetail]
    | _ => simp [phrase] at hphrase
  | tooManyPositional takes given =>
    cases g with
    | tooManyPositional takes' given' =>
      obtain ⟨rfl, rfl⟩ := detail_tooManyPositional_inj hdetail
      rfl
    | _ => simp [phrase] at hphrase
  | missing names =>
    cases g with
    | missing names' => exact congrArg missing (detail_missing_inj hf hg hdetail)
    | _ => simp [phrase] at hphrase

end BindFault

/-! ## Mismatches -/

/-- The message of a mismatch names the parameter, the declared kind and the kind of the value. -/
theorem Guard.mentions_mismatchFailure (func : String) (m : Mismatch) :
    Mentions [func, "'" ++ m.param ++ "'", m.expected.name, m.actual.name]
      (mismatchFailure func m).message := by
  have hfunc := (mentions_self func).append_right "() argument "
  have hparam := hfunc.append (mentions_self (quotedName m.param))
  have hexpected := (hparam.append_right " must be ").append (mentions_self m.expected.name)
  exact (hexpected.append_right ", not ").append (mentions_self m.actual.name)

end GuardedCall
