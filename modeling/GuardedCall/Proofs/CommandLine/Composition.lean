import GuardedCall.Proofs.CommandLine.Sum

/-!
# Command lines one after another

Reading a command line is a homomorphism. Its words are read from left to right, the first one that
asks for help or is a fault ends the reading, and until then each word adds something of its own to
the invocation: an option that stays on, or an argument behind those that are there. So what the
words add does not depend on what was found before them, and a command line made of two asks for
what the first one asks for, followed by what the second one asks for.

Main definitions: `Arguments.append`, `Invocation.append`, `Request.andThen`, `Request.behind`.
Main statements: `parseFrom_append`, `parseFrom_invocation_append`, `parse_append`,
`command_lines_compose`.
-/

namespace GuardedCall

/-! ## Invocations one after another -/

/-- The arguments of both, those of the second behind those of the first. -/
def Arguments.append (a b : Arguments) : Arguments where
  positional := a.positional ++ b.positional
  keywords := a.keywords ++ b.keywords

/-- What either policy admits. -/
def Policy.either (p q : Policy) : Policy where
  boolIsInt := p.boolIsInt || q.boolIsInt
  intIsFloat := p.intIsFloat || q.intIsFloat

/-- The options of either, and the arguments of both. -/
def Invocation.append (i j : Invocation) : Invocation where
  trace := i.trace || j.trace
  policy := i.policy.either j.policy
  arguments := i.arguments.append j.arguments

theorem Invocation.append_empty (i : Invocation) : i.append {} = i := by
  simp [append, Policy.either, Policy.strict, Arguments.append, Arguments.empty]

namespace Request

variable {i j : Invocation} {w : String} {ws xs ys : List String} {f : Failure}

/-- Help is given whatever is asked for next; a call goes on. -/
def andThen (r : Request) (next : Invocation → Except Failure Request) : Except Failure Request :=
  match r with
  | help => .ok help
  | call i => next i

/-- What is asked for, with an invocation in front of it. -/
def behind (i : Invocation) : Request → Request
  | help => help
  | call j => call (i.append j)

/-! ## One word -/

/-- A word adds its argument behind those that are there, or is the same fault anywhere. -/
theorem pushWord_append (a b : Arguments) (w : String) :
    pushWord (a.append b) w = (pushWord b w).map a.append := by
  rw [pushWord, pushWord]
  cases splitName? w.toList with
  | none =>
    cases parseValue w with
    | error f => rfl
    | ok v => simp [except_ok_bind, Except.map, Arguments.append, Arguments.pass]
  | some e =>
    obtain ⟨name, value⟩ := e
    cases hvalue : parseValue (String.ofList value) with
    | error f => simp [hvalue, except_error_bind, Except.map]
    | ok v => simp [hvalue, except_ok_bind, Except.map, Arguments.append, Arguments.passNamed]

/-! ## All words -/

/-- What words add does not depend on what was found before them. -/
theorem parseFrom_invocation_append (i j : Invocation) (ws : List String) :
    parseFrom (i.append j) ws = (parseFrom j ws).map (behind i) := by
  induction ws generalizing j with
  | nil => rfl
  | cons w ws ih =>
    rw [parseFrom, parseFrom]
    cases classify w with
    | help => rfl
    | unknownOption => rfl
    | trace =>
      have hoption : { i.append j with trace := true } = i.append { j with trace := true } := by
        simp [Invocation.append]
      exact (congrArg (parseFrom · ws) hoption).trans (ih _)
    | boolIsInt =>
      have hoption : { i.append j with policy := { (i.append j).policy with boolIsInt := true } } =
          i.append { j with policy := { j.policy with boolIsInt := true } } := by
        simp [Invocation.append, Policy.either]
      exact (congrArg (parseFrom · ws) hoption).trans (ih _)
    | argument =>
      show (pushWord (i.arguments.append j.arguments) w >>= fun a =>
        parseFrom { i.append j with arguments := a } ws) =
          (pushWord j.arguments w >>= fun a =>
            parseFrom { j with arguments := a } ws).map (behind i)
      rw [pushWord_append]
      cases pushWord j.arguments w with
      | error f => rfl
      | ok a => exact ih { j with arguments := a }

/-- Words are read one after another, until one asks for help or is a fault. -/
theorem parseFrom_append (i : Invocation) (xs ys : List String) :
    parseFrom i (xs ++ ys) = parseFrom i xs >>= fun r => r.andThen fun j => parseFrom j ys := by
  induction xs generalizing i with
  | nil => rfl
  | cons w xs ih =>
    rw [List.cons_append, parseFrom, parseFrom]
    cases classify w with
    | help => rfl
    | unknownOption => rfl
    | trace => exact ih _
    | boolIsInt => exact ih _
    | argument =>
      cases pushWord i.arguments w with
      | error f => rfl
      | ok a => exact ih { i with arguments := a }

/-- A command line made of two asks for what the first one asks for, and then for what the second
one asks for. -/
theorem parse_append (xs ys : List String) :
    parse (xs ++ ys) = parse xs >>= fun r => r.andThen fun i => (parse ys).map (behind i) := by
  have hbehind (i : Invocation) : parseFrom i ys = (parse ys).map (behind i) := by
    have hys := parseFrom_invocation_append i {} ys
    rwa [Invocation.append_empty] at hys
  rw [parse, parseFrom_append]
  simp only [hbehind]
  rfl

theorem parse_append_of_error (hxs : parse xs = .error f) (ys : List String) :
    parse (xs ++ ys) = .error f := by
  rw [parse_append, hxs]
  rfl

theorem parse_append_of_help (hxs : parse xs = .ok .help) (ys : List String) :
    parse (xs ++ ys) = .ok .help := by
  rw [parse_append, hxs]
  rfl

theorem parse_append_of_call (hxs : parse xs = .ok (.call i)) (ys : List String) :
    parse (xs ++ ys) = (parse ys).map (behind i) := by
  rw [parse_append, hxs]
  rfl

/-- No word admits integers as floating point numbers. -/
theorem Step.intIsFloat_eq {i i' : Invocation} (h : Step i w i') :
    i'.policy.intIsFloat = i.policy.intIsFloat := by
  cases h <;> rfl

theorem intIsFloat_of_parseFrom (h : parseFrom i ws = .ok (.call j)) :
    j.policy.intIsFloat = i.policy.intIsFloat := by
  induction ws generalizing i with
  | nil =>
    cases h
    rfl
  | cons w ws ih =>
    -- a call is asked for, so no word was one for help
    rcases parseFrom_cons_eq_ok h with ⟨-, hhelp⟩ | ⟨i₁, hstep, h⟩
    · cases hhelp
    · rw [ih h, hstep.intIsFloat_eq]

/-- A command line never admits integers as floating point numbers. -/
theorem intIsFloat_of_parse (h : parse ws = .ok (.call i)) : i.policy.intIsFloat = false :=
  intIsFloat_of_parseFrom h

end Request

open Request

/-- **Command lines compose.**  If the first words ask for help or have a fault, then so do all,
whatever follows. Otherwise the last words decide if they ask for help or have a fault by
themselves; and if both parts ask for a call, all words ask for the call with the options of either
and the arguments of both, those of the first words in front. -/
theorem command_lines_compose (xs ys : List String) :
    (∀ f, parse xs = .error f → parse (xs ++ ys) = .error f) ∧
      (parse xs = .ok .help → parse (xs ++ ys) = .ok .help) ∧
      ∀ i, parse xs = .ok (.call i) →
        (∀ f, parse ys = .error f → parse (xs ++ ys) = .error f) ∧
        (parse ys = .ok .help → parse (xs ++ ys) = .ok .help) ∧
        ∀ j, parse ys = .ok (.call j) →
          parse (xs ++ ys) = .ok (.call
            { trace := i.trace || j.trace
              policy :=
                { boolIsInt := i.policy.boolIsInt || j.policy.boolIsInt
                  intIsFloat := false }
              arguments :=
                { positional := i.arguments.positional ++ j.arguments.positional
                  keywords := i.arguments.keywords ++ j.arguments.keywords } }) := by
  refine ⟨fun f hxs => parse_append_of_error hxs ys, fun hxs => parse_append_of_help hxs ys,
    fun i hxs => ⟨fun f hys => ?_, fun hys => ?_, fun j hys => ?_⟩⟩
  · rw [parse_append_of_call hxs, hys]
    rfl
  · rw [parse_append_of_call hxs, hys]
    rfl
  · have hfloat : (i.policy.intIsFloat || j.policy.intIsFloat) = false := by
      rw [intIsFloat_of_parse hxs, intIsFloat_of_parse hys]
      rfl
    rw [parse_append_of_call hxs, hys, ← hfloat]
    rfl

/-- Options and arguments on both sides; and a word that is no option, behind a request for help and
before it. -/
theorem command_lines_compose_mixed :
    let i : Invocation := { trace := true, arguments := { keywords := [.named "a" (.int 1)] } }
    let j : Invocation :=
      { policy := { boolIsInt := true }
        arguments := { positional := [.value (.int 2)], keywords := [.named "b" (.bool true)] } }
    (parse ["--trace", "a=1"] = .ok (.call i) ∧
        parse ["2", "--bool-is-int", "b=true"] = .ok (.call j)) ∧
      parse (["--trace", "a=1"] ++ ["2", "--bool-is-int", "b=true"]) = .ok (.call
        { trace := true
          policy := { boolIsInt := true, intIsFloat := false }
          arguments :=
            { positional := [.value (.int 2)]
              keywords := [.named "a" (.int 1), .named "b" (.bool true)] } }) ∧
      parse (["1", "-h"] ++ ["--none"]) = .ok .help ∧
      parse (["1", "--none"] ++ ["-h"]) =
        .error { kind := .value, message := "unrecognized option '--none'" } := by
  intro i j
  have hi : parse ["--trace", "a=1"] = .ok (.call i) := by decide +kernel
  have hj : parse ["2", "--bool-is-int", "b=true"] = .ok (.call j) := by decide +kernel
  have hhelp : parse ["1", "-h"] = .ok .help := rfl
  have hnone : parse ["1", "--none"] =
      .error { kind := .value, message := "unrecognized option '--none'" } := rfl
  refine ⟨⟨hi, hj⟩, ?_, ?_, ?_⟩
  · exact ((command_lines_compose _ _).2.2 i hi).2.2 j hj
  · exact (command_lines_compose _ ["--none"]).2.1 hhelp
  · exact (command_lines_compose _ ["-h"]).1 _ hnone

end GuardedCall
