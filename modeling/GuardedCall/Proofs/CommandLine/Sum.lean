import GuardedCall.Proofs.CommandLine.Words
import GuardedCall.Proofs.Observation
import GuardedCall.Proofs.TypedViews

/-!
# What the command answers

The command prints a sum exactly if the words ask for one that is in range: they are read without a
failure, the arguments bind to the two parameters, and both values count as integers, truth values
only if the words admit them. The sum is that of the integers, not one modulo a power of two. In all
other cases, help aside, the command fails and says why.

Main definitions: `Request.Step`, `CountsAs`, `HasSum`, `AsksFor`, `spellings`.
Main statements: `Request.parseFrom_cons_eq_ok`, `check_sumGuard`, `outcome_of_hasSum`,
`command_prints_exact_sums`.
-/

namespace GuardedCall

open Decimal Json Value

/-! ## What the words ask for -/

namespace Request

variable {w : String} {ws : List String} {i i' : Invocation} {r : Request}

/-- What a word that is no fault and asks for no help does to an invocation. -/
inductive Step (i : Invocation) (w : String) : Invocation → Prop
  | trace (h : classify w = .trace) : Step i w { i with trace := true }
  | boolIsInt (h : classify w = .boolIsInt) :
    Step i w { i with policy := { i.policy with boolIsInt := true } }
  | argument {a : Arguments} (h : classify w = .argument) (hpush : pushWord i.arguments w = .ok a) :
    Step i w { i with arguments := a }

/-- The first word asks for help, or the others are read after a step. -/
theorem parseFrom_cons_eq_ok (h : parseFrom i (w :: ws) = .ok r) :
    classify w = .help ∧ r = .help ∨ ∃ i', Step i w i' ∧ parseFrom i' ws = .ok r := by
  rw [parseFrom] at h
  cases hw : classify w with
  | trace =>
    rw [hw] at h
    exact .inr ⟨_, .trace hw, h⟩
  | boolIsInt =>
    rw [hw] at h
    exact .inr ⟨_, .boolIsInt hw, h⟩
  | help =>
    rw [hw] at h
    cases h
    exact .inl ⟨rfl, rfl⟩
  | unknownOption =>
    rw [hw] at h
    cases h
  | argument =>
    rw [hw] at h
    obtain ⟨a, hpush, h⟩ := except_bind_eq_ok_iff.1 h
    exact .inr ⟨_, .argument hw hpush, h⟩

theorem classify_eq_boolIsInt_iff : classify w = .boolIsInt ↔ w = "--bool-is-int" := by
  constructor
  · intro h
    rw [classify] at h
    split_ifs at h
    assumption
  · rintro rfl
    rfl

theorem eq_of_classify_help (h : classify w = .help) : w = "-h" ∨ w = "--help" := by
  rw [classify] at h
  split_ifs at h
  assumption

/-- A step admits truth values exactly if its word does. -/
theorem Step.boolIsInt_iff (h : Step i w i') :
    i'.policy.boolIsInt = true ↔ w = "--bool-is-int" ∨ i.policy.boolIsInt = true := by
  rw [← classify_eq_boolIsInt_iff]
  cases h with
  | trace h => simp [h]
  | boolIsInt h => simp [h]
  | argument h => simp [h]

theorem boolIsInt_iff_of_parseFrom (h : parseFrom i ws = .ok (.call i')) :
    i'.policy.boolIsInt = true ↔ "--bool-is-int" ∈ ws ∨ i.policy.boolIsInt = true := by
  induction ws generalizing i with
  | nil =>
    cases h
    simp
  | cons w ws ih =>
    -- a call is asked for, so no word was one for help
    rcases parseFrom_cons_eq_ok h with ⟨-, hhelp⟩ | ⟨i₁, hstep, h⟩
    · cases hhelp
    · rw [ih h, hstep.boolIsInt_iff, List.mem_cons, or_assoc, or_left_comm, eq_comm (a := w)]

/-- Help is given only if a word asks for it. -/
theorem help_mem_of_parseFrom (h : parseFrom i ws = .ok .help) : "-h" ∈ ws ∨ "--help" ∈ ws := by
  induction ws generalizing i with
  | nil => cases h
  | cons w ws ih =>
    rcases parseFrom_cons_eq_ok h with ⟨hhelp, -⟩ | ⟨i₁, -, h⟩
    · rcases eq_of_classify_help hhelp with rfl | rfl
      · exact .inl List.mem_cons_self
      · exact .inr List.mem_cons_self
    · exact (ih h).imp (List.mem_cons_of_mem _) (List.mem_cons_of_mem _)

end Request

/-! ## Values that count as integers -/

/-- What a value counts as: an integer as itself, and a truth value as zero or one where truth
values are admitted. -/
inductive CountsAs (truths : Prop) : Value → Int → Prop
  | int (n : Int64) : CountsAs truths (.int n) n.toInt
  | bool (h : truths) (b : Bool) : CountsAs truths (.bool b) (if b then 1 else 0)

variable {truths : Prop} {p : Policy} {v x y : Value} {k m n : Int} {a : Arguments} {b : Bound}

/-- A policy accepts for an integer what counts as one. -/
theorem accepts_int_iff :
    p.accepts .int v.kind = true ↔ ∃ n, CountsAs (p.boolIsInt = true) v n := by
  constructor
  · intro h
    cases v with
    | int n => exact ⟨_, .int n⟩
    | bool b => exact ⟨_, .bool (by simpa [Policy.accepts, kind] using h) b⟩
    | _ => simp [Policy.accepts, kind] at h
  · rintro ⟨n, hn⟩
    cases hn with
    | int n => exact Policy.accepts_self p .int
    | bool h b => simpa [Policy.accepts, kind] using h

theorem CountsAs.asInt? (h : CountsAs truths v n) : ∃ z, v.asInt? = some z ∧ z.toInt = n := by
  cases h with
  | int z => exact ⟨z, rfl, rfl⟩
  | bool h b => cases b <;> exact ⟨_, rfl, rfl⟩

/-! ## The guarded sum -/

/-- The failure of a sum that is out of range. -/
def sumOverflow : Failure := { kind := .overflow, message := "integer overflow in sum()" }

/-- The arguments bind to the two parameters, and their values count as integers with this sum. -/
def HasSum (truths : Prop) (a : Arguments) (n : Int) : Prop :=
  ∃ b x y k m, sumSignature.bind a = .ok b ∧
    (sumSignature.applyDefaults b).entries = [("a", x), ("b", y)] ∧
    CountsAs truths x k ∧ CountsAs truths y m ∧ n = k + m

/-- The sum of two values that count as integers is that of the integers, if it is in range. -/
theorem sum_of_countsAs (hb : b.entries = [("a", x), ("b", y)]) (hx : CountsAs truths x k)
    (hy : CountsAs truths y m) :
    sum b = if Word64.fitsSigned (k + m) then .ok (.int (Int64.ofInt (k + m)))
      else .error sumOverflow := by
  obtain ⟨k, hk, rfl⟩ := hx.asInt?
  obtain ⟨m, hm, rfl⟩ := hy.asInt?
  have ha : b.int "a" = .ok k := Bound.view_eq_ok (by rw [Bound.get?, hb]; rfl) hk
  have hb : b.int "b" = .ok m := Bound.view_eq_ok (by rw [Bound.get?, hb]; rfl) hm
  rw [sum, ha, hb]
  rfl

/-- Both parameters of the sum are integers. -/
theorem kind?_of_mem_params {q : Param} (hq : q ∈ sumSignature.params) : q.kind? = some .int := by
  revert q
  decide

/-- The guard of the sum lets values through that count as integers. -/
theorem check_sumGuard (h : sumSignature.bind a = .ok b) (p : Policy)
    (hb : (sumSignature.applyDefaults b).entries = [("a", x), ("b", y)])
    (hx : CountsAs (p.boolIsInt = true) x k) (hy : CountsAs (p.boolIsInt = true) y m) :
    (sumGuard p).check a = .ok (sumSignature.applyDefaults b) := by
  rw [Signature.applyDefaults_of_bind h] at hb ⊢
  have htakes {q : Param} {v : Value} (hq : q ∈ sumSignature.params)
      (hv : (q.name, v) ∈ (sumSignature.complete a).entries) : sumSignature.Takes a q v :=
    (Signature.mem_complete_iff h hq).1 hv
  have hadmits : (sumGuard p).Admits a := by
    refine ⟨⟨b, h⟩, fun q hq kind hkind => ?_⟩
    rw [kind?_of_mem_params hq] at hkind
    cases hkind
    rcases List.mem_pair.1 hq with rfl | rfl
    · exact ⟨x, htakes hq (by simp [hb]), accepts_int_iff.2 ⟨k, hx⟩⟩
    · exact ⟨y, htakes hq (by simp [hb]), accepts_int_iff.2 ⟨m, hy⟩⟩
  obtain ⟨b', hb'⟩ := Guard.exists_check_eq_ok_iff.2 hadmits
  rw [hb']
  exact congrArg _ (Guard.check_eq_ok hb').2

theorem entries_of_names (h : b.names = ["a", "b"]) :
    ∃ x y, b.entries = [("a", x), ("b", y)] := by
  obtain ⟨⟨_, x⟩, es, hes, rfl, h₁⟩ := List.map_eq_cons_iff.1 h
  obtain ⟨⟨_, y⟩, es', rfl, rfl, h₂⟩ := List.map_eq_cons_iff.1 h₁
  cases List.map_eq_nil_iff.1 h₂
  exact ⟨x, y, hes⟩

/-- The guard of the sum lets nothing else through. -/
theorem exists_hasSum_of_check (h : (sumGuard p).check a = .ok b) :
    ∃ n, HasSum (p.boolIsInt = true) a n := by
  have hcounts {q : Param} {v : Value} (hq : q ∈ (sumGuard p).signature.params)
      (hv : b.get? q.name = some v) : ∃ n, CountsAs (p.boolIsInt = true) v n := by
    obtain ⟨w, hw, haccepts⟩ := Guard.accepted_of_check h hq (kind?_of_mem_params hq)
    cases hv.symm.trans hw
    exact accepts_int_iff.1 haccepts
  obtain ⟨⟨b', hbind⟩, hb⟩ := Guard.check_eq_ok h
  have hcomplete : sumSignature.applyDefaults b' = b :=
    (Signature.applyDefaults_of_bind hbind).trans hb.symm
  have hnames : b.names = ["a", "b"] := by
    rw [hb]
    exact Signature.names_complete_of_bind hbind
  obtain ⟨x, y, hxy⟩ := entries_of_names hnames
  obtain ⟨k, hk⟩ := hcounts List.mem_cons_self (v := x) (by rw [Bound.get?, hxy]; rfl)
  obtain ⟨m, hm⟩ := hcounts (List.mem_cons_of_mem _ List.mem_cons_self) (v := y)
    (by rw [Bound.get?, hxy]; rfl)
  exact ⟨k + m, b', x, y, k, m, hbind, hcomplete ▸ hxy, hk, hm, rfl⟩

/-- A call with a sum gives it, or fails if it is out of range. -/
theorem outcome_of_hasSum (h : HasSum (p.boolIsInt = true) a n) :
    ((sumGuard p).run sum a).1 = if Word64.fitsSigned n then .ok (.int (Int64.ofInt n))
      else .error sumOverflow := by
  obtain ⟨b, x, y, k, m, hbind, hb, hx, hy, rfl⟩ := h
  rw [Guard.fst_run, check_sumGuard hbind p hb hx hy, except_ok_bind]
  exact sum_of_countsAs hb hx hy

/-- A call without a sum fails. -/
theorem outcome_of_not_hasSum (h : ∀ n, ¬ HasSum (p.boolIsInt = true) a n) :
    ∃ f, ((sumGuard p).run sum a).1 = .error f := by
  rw [Guard.fst_run]
  cases hcheck : (sumGuard p).check a with
  | error f => exact ⟨f, rfl⟩
  | ok b =>
    obtain ⟨n, hn⟩ := exists_hasSum_of_check hcheck
    exact absurd hn (h n)

/-! ## The command -/

namespace CommandLine

variable {ws : List String} {i : Invocation}

/-- The words are read without a failure, and what they ask for has this sum. Truth values count if
the words admit them. -/
def AsksFor (ws : List String) (n : Int) : Prop :=
  ∃ i, Request.parse ws = .ok (.call i) ∧ HasSum ("--bool-is-int" ∈ ws) i.arguments n

/-- The report on a call, if it is asked for. -/
def traced (i : Invocation) : String := if i.trace then report i.run.2 else ""

theorem run_of_ok (hparse : Request.parse ws = .ok (.call i)) (h : i.run.1 = .ok v) :
    run ws = { exitCode := 0, stdout := v.repr ++ "\n", stderr := traced i } := by
  simp only [run, hparse, outputOf, h]
  rfl

theorem run_of_error {f : Failure} (hparse : Request.parse ws = .ok (.call i))
    (h : i.run.1 = .error f) :
    run ws = { exitCode := 1, stdout := "", stderr := traced i ++ f.display ++ "\n" } := by
  simp only [run, hparse, outputOf, h]
  rfl

theorem ofList_intDigits (n : Int) : String.ofList (intDigits n) = toString n := by
  cases n with
  | ofNat n => rfl
  | negSucc n =>
    have hminus : toString (Int.negSucc n) = "-" ++ String.ofList (natDigits (n + 1)) := rfl
    rw [hminus, ← String.toList_inj, String.toList_append]
    simp [intDigits]

/-- An integer prints as its decimal text. -/
theorem repr_int (h : Word64.fitsSigned n = true) :
    (Value.int (Int64.ofInt n)).repr = toString n := by
  rw [Value.repr, Value.reprChars, Word64.toInt_ofInt h, ofList_intDigits]

/-- Truth values are admitted by the policy exactly if a word says so. -/
theorem truths_eq (hparse : Request.parse ws = .ok (.call i)) :
    (i.policy.boolIsInt = true) = ("--bool-is-int" ∈ ws) := by
  rw [Request.boolIsInt_iff_of_parseFrom hparse]
  simp [Policy.strict]

/-- What the command does if the words ask for a sum. -/
theorem run_of_asksFor (hparse : Request.parse ws = .ok (.call i))
    (h : HasSum ("--bool-is-int" ∈ ws) i.arguments n) :
    run ws = if Word64.fitsSigned n
      then { exitCode := 0, stdout := toString n ++ "\n", stderr := traced i }
      else { exitCode := 1, stdout := "", stderr := traced i ++ sumOverflow.display ++ "\n" } := by
  rw [← truths_eq hparse] at h
  have hrun := outcome_of_hasSum h
  by_cases hn : Word64.fitsSigned n = true
  · rw [if_pos hn] at hrun ⊢
    rw [run_of_ok hparse hrun, repr_int hn]
  · rw [if_neg hn] at hrun ⊢
    exact run_of_error hparse hrun

/-- The output of a command that fails. -/
structure Fails (o : Output) : Prop where
  exitCode : o.exitCode = 1
  stdout : o.stdout = ""
  stderr : o.stderr ≠ ""

/-- A sum in range is printed. -/
theorem prints_of_asksFor (h : AsksFor ws n) (hn : Word64.fitsSigned n = true) :
    (run ws).exitCode = 0 ∧ (run ws).stdout = toString n ++ "\n" := by
  obtain ⟨i, hparse, hsum⟩ := h
  rw [run_of_asksFor hparse hsum, if_pos hn]
  exact ⟨rfl, rfl⟩

/-- A sum out of range is an overflow. -/
theorem fails_of_asksFor (h : AsksFor ws n) (hn : ¬ Word64.fitsSigned n = true) :
    Fails (run ws) := by
  obtain ⟨i, hparse, hsum⟩ := h
  rw [run_of_asksFor hparse hsum, if_neg hn]
  exact ⟨rfl, rfl, by simp⟩

/-- The command fails if the words ask neither for help nor for a sum. -/
theorem fails_of_not_asksFor (hh : "-h" ∉ ws) (hhelp : "--help" ∉ ws)
    (h : ∀ n, ¬ AsksFor ws n) : Fails (run ws) := by
  cases hparse : Request.parse ws with
  | error f =>
    simp only [run, hparse]
    exact ⟨rfl, rfl, by simp⟩
  | ok r =>
    cases r with
    | help => exact absurd (Request.help_mem_of_parseFrom hparse) (not_or.2 ⟨hh, hhelp⟩)
    | call i =>
      have hnone : ∀ n, ¬ HasSum (i.policy.boolIsInt = true) i.arguments n := by
        rw [truths_eq hparse]
        exact fun n hn => h n ⟨i, hparse, hn⟩
      obtain ⟨f, hf⟩ := outcome_of_not_hasSum hnone
      rw [run_of_error hparse hf]
      exact ⟨rfl, rfl, by simp⟩

/-- The command fails if the words ask neither for help nor for a sum in range. -/
theorem fails_of_none (hh : "-h" ∉ ws) (hhelp : "--help" ∉ ws)
    (h : ¬ ∃ n, AsksFor ws n ∧ Word64.fitsSigned n = true) : Fails (run ws) := by
  by_cases hasks : ∃ n, AsksFor ws n
  · obtain ⟨n, hn⟩ := hasks
    exact fails_of_asksFor hn fun hfits => h ⟨n, hn, hfits⟩
  · exact fails_of_not_asksFor hh hhelp (not_exists.1 hasks)

/-! ## Decimal words -/

theorem wordOf_int (x : Int64) : wordOf (.int x) = toString x.toInt := by
  rw [wordOf, toJson, render, print, ofList_intDigits]

theorem writable_int (x : Int64) : Writable (.int x) where
  plain := (Value.everywhere_leaf rfl).2 trivial
  nesting := by
    rw [toList_wordOf, nesting_print]
    exact Nat.zero_le 127
  readsBack := allFloats_of_eq_nil rfl

/-- The ways to pass two integers as decimal texts: by position, by keyword in either order, or the
second one by keyword, behind the first or before it. -/
def spellings (x y : Int64) : List (List String) :=
  let a := toString x.toInt
  let b := toString y.toInt
  [[a, b], ["a=" ++ a, "b=" ++ b], ["b=" ++ b, "a=" ++ a], [a, "b=" ++ b], ["b=" ++ b, a]]

/-- A decimal word behind a name. -/
def namedDecimal (e : String × Int64) : String := e.1 ++ "=" ++ toString e.2.toInt

/-- Decimal words that bind to the two integers, in whatever mixture, ask for their sum. -/
theorem asks_of_bind {x y : Int64} (zs : List Int64) (es : List (String × Int64))
    (hws : Interleaved (zs.map fun z => toString z.toInt) (es.map namedDecimal) ws)
    (hnames : ∀ e ∈ es, IsName e.1)
    (hbind : sumSignature.bind
        (plainArguments (zs.map .int) (es.map fun e => (e.1, .int e.2))) =
      .ok ⟨[("a", .int x), ("b", .int y)]⟩) :
    ∃ a, Request.parse ws = .ok (.call { arguments := a }) ∧
      ∀ truths, HasSum truths a (x.toInt + y.toInt) := by
  have hpositional : (zs.map Value.int).map wordOf = zs.map fun z => toString z.toInt := by
    rw [List.map_map]
    exact List.map_congr_left fun z _ => wordOf_int z
  have hkeywords :
      (es.map fun e => (e.1, Value.int e.2)).map namedWord = es.map namedDecimal := by
    rw [List.map_map]
    refine List.map_congr_left fun e _ => ?_
    rw [Function.comp_apply, namedWord, wordOf_int, namedDecimal]
  rw [← hpositional, ← hkeywords] at hws
  have hvs : ∀ v ∈ zs.map Value.int, Writable v :=
    List.forall_mem_map.2 fun z _ => writable_int z
  have hes : ∀ e ∈ es.map fun e => (e.1, Value.int e.2), IsName e.1 ∧ Writable e.2 :=
    List.forall_mem_map.2 fun e he => ⟨hnames e he, writable_int e.2⟩
  refine ⟨_, parseFrom_interleaved hws hvs hes {}, fun truths => ?_⟩
  exact ⟨_, .int x, .int y, _, _, hbind, rfl, .int x, .int y, rfl⟩

/-- However the two integers are passed, their sum is asked for. -/
theorem asks_of_spelling {x y : Int64} (h : ws ∈ spellings x y) :
    ∃ a, Request.parse ws = .ok (.call { arguments := a }) ∧
      ∀ truths, HasSum truths a (x.toInt + y.toInt) := by
  have ha : IsName "a" := isIdentifier_iff.1 rfl
  have hb : IsName "b" := isIdentifier_iff.1 rfl
  simp only [spellings, List.mem_cons, List.not_mem_nil, or_false] at h
  rcases h with rfl | rfl | rfl | rfl | rfl
  · exact asks_of_bind [x, y] [] (.left _ (.left _ .nil)) (by simp) rfl
  · exact asks_of_bind [] [("a", x), ("b", y)] (.right _ (.right _ .nil)) (by simp [ha, hb]) rfl
  · exact asks_of_bind [] [("b", y), ("a", x)] (.right _ (.right _ .nil)) (by simp [ha, hb]) rfl
  · exact asks_of_bind [x] [("b", y)] (.left _ (.right _ .nil)) (by simp [hb]) rfl
  · exact asks_of_bind [x] [("b", y)] (.right _ (.left _ .nil)) (by simp [hb]) rfl

end CommandLine

open CommandLine

/-- **The command prints exact sums.**  Unless a word asks for help, the command succeeds if and
only if the words ask for a sum in range, which it then prints; in all other cases it prints nothing
and reports a failure. The sum of two integers of 64 bits, however they are passed, is printed if it
is in range, and is an overflow otherwise. -/
theorem command_prints_exact_sums :
    (∀ ws : List String, "-h" ∉ ws → "--help" ∉ ws →
      ((run ws).exitCode = 0 ↔ ∃ n, AsksFor ws n ∧ Word64.fitsSigned n = true) ∧
      (∀ n, AsksFor ws n → Word64.fitsSigned n = true → (run ws).stdout = toString n ++ "\n") ∧
      ((¬ ∃ n, AsksFor ws n ∧ Word64.fitsSigned n = true) → Fails (run ws))) ∧
    ∀ x y : Int64, ∀ ws ∈ spellings x y, run ws =
      if Word64.fitsSigned (x.toInt + y.toInt)
      then { exitCode := 0, stdout := toString (x.toInt + y.toInt) ++ "\n", stderr := "" }
      else
        { exitCode := 1
          stdout := ""
          stderr := "OverflowError: integer overflow in sum()\n" } := by
  refine ⟨fun ws hh hhelp => ⟨⟨fun hzero => ?_, ?_⟩, fun n hasks hn => ?_, ?_⟩,
    fun x y ws hws => ?_⟩
  · by_contra hnone
    have hone := (fails_of_none hh hhelp hnone).exitCode
    rw [hzero] at hone
    exact absurd hone (by decide)
  · rintro ⟨n, hasks, hn⟩
    exact (prints_of_asksFor hasks hn).1
  · exact (prints_of_asksFor hasks hn).2
  · exact fails_of_none hh hhelp
  · obtain ⟨a, hparse, hsum⟩ := asks_of_spelling hws
    rw [run_of_asksFor hparse (hsum _)]
    rfl

/-- A truth value that is admitted and passed by keyword before a negative number; and the greatest
integer with one, which is an overflow. -/
theorem command_prints_exact_sums_truth :
    let ws := ["--bool-is-int", "b=true", "-5"]
    ("-h" ∉ ws ∧ "--help" ∉ ws ∧ AsksFor ws (-4)) ∧
      (run ws).exitCode = 0 ∧ (run ws).stdout = "-4\n" ∧
      run ["9223372036854775807", "1"] =
        { exitCode := 1
          stdout := ""
          stderr := "OverflowError: integer overflow in sum()\n" } := by
  intro ws
  have hasks : AsksFor ws (-4) :=
    ⟨_, rfl, _, .int (-5), .bool true, _, _, rfl, rfl, .int (-5), .bool (by decide) true, rfl⟩
  have hh : "-h" ∉ ws := by decide
  have hhelp : "--help" ∉ ws := by decide
  have hsum := command_prints_exact_sums.1 ws hh hhelp
  refine ⟨⟨hh, hhelp, hasks⟩, hsum.1.2 ⟨_, hasks, rfl⟩, hsum.2.1 _ hasks rfl, ?_⟩
  exact command_prints_exact_sums.2 Int64.maxValue 1 _ List.mem_cons_self

end GuardedCall
