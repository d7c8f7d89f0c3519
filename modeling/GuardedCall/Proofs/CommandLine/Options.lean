import GuardedCall.Proofs.CommandLine.Composition
import GuardedCall.Proofs.Loosening

/-!
# Options do not interfere

An option can stand anywhere between the words of a command line: it adds no argument, so it might
as well stand in front. Asking for a report changes nothing but the report, which is printed before
everything else. Admitting truth values makes the guard looser, and a looser guard keeps all that
the stricter one lets through; so a sum that is printed stays as it is.

Main statements: `parse_insert`, `Looser.fst_run_eq_ok`, `options_do_not_interfere`.
-/

namespace GuardedCall

/-! ## Options among other words -/

/-- Options in front of an invocation change places with the invocations before them. -/
theorem Invocation.append_left_comm {k : Invocation} (hk : k.arguments = .empty)
    (i j : Invocation) : i.append (k.append j) = k.append (i.append j) := by
  simp [append, Policy.either, Arguments.append, hk, Arguments.empty, Bool.or_left_comm]

namespace Request

variable {zs : List String} {k : Invocation}

/-- Words that are options can as well stand in front. -/
theorem parse_insert (hzs : parse zs = .ok (.call k)) (hk : k.arguments = .empty)
    (xs ys : List String) : parse (xs ++ (zs ++ ys)) = (parse (xs ++ ys)).map (behind k) := by
  rw [parse_append xs, parse_append xs, parse_append_of_call hzs]
  cases parse xs with
  | error f => rfl
  | ok r =>
    cases r with
    | help => rfl
    | call i =>
      cases parse ys with
      | error f => rfl
      | ok r =>
        cases r with
        | help => rfl
        | call j =>
          exact congrArg (fun i => Except.ok (call i)) (Invocation.append_left_comm hk i j)

/-- A word for a report asks for one, and for nothing else. -/
theorem parse_insert_trace (xs ys : List String) :
    parse (xs ++ "--trace" :: ys) = (parse (xs ++ ys)).map (behind { trace := true }) := by
  have hword : parse ["--trace"] = .ok (.call { trace := true }) := rfl
  exact parse_insert hword rfl xs ys

/-- A word for truth values admits them, and asks for nothing else. -/
theorem parse_insert_boolIsInt (xs ys : List String) :
    parse (xs ++ "--bool-is-int" :: ys) =
      (parse (xs ++ ys)).map (behind { policy := .boolAsInt }) := by
  have hword : parse ["--bool-is-int"] = .ok (.call { policy := .boolAsInt }) := rfl
  exact parse_insert hword rfl xs ys

end Request

/-! ## Looser guards -/

namespace Guard

variable {g g' : Guard} {body : Bound → Except Failure Value} {a : Arguments} {v : Value}

/-- A guard becomes looser with its policy. -/
theorem looser_of_policy {p p' : Policy} (s : Signature) (h : p.Looser p') :
    Looser { signature := s, policy := p } { signature := s, policy := p' } where
  name := rfl
  params := List.forall₂_same.2 fun _ _ => ⟨rfl, rfl, .kept _⟩
  policy := h

/-- What a call gives under a guard, it gives under a looser one. -/
theorem Looser.fst_run_eq_ok (h : g.Looser g') (hv : (g.run body a).1 = .ok v) :
    (g'.run body a).1 = .ok v := by
  rw [fst_run] at hv ⊢
  obtain ⟨b, hb, hbody⟩ := except_bind_eq_ok_iff.1 hv
  rw [h.check_eq_ok hb]
  exact hbody

end Guard

namespace Invocation

variable {v : Value}

theorem append_trace (i : Invocation) : append { trace := true } i = { i with trace := true } := by
  simp [append, Policy.either, Policy.strict, Arguments.append, Arguments.empty]

/-- A report does not change what it is about. -/
theorem run_append_trace (i : Invocation) : (append { trace := true } i).run = i.run := by
  rw [append_trace]
  rfl

/-- What a call gives, it also gives with truth values admitted. -/
theorem run_append_boolIsInt {i : Invocation} (h : i.run.1 = .ok v) :
    (append { policy := .boolAsInt } i).run.1 = .ok v := by
  have hpolicy : i.policy.Looser (Policy.boolAsInt.either i.policy) := by
    refine ⟨fun _ => rfl, fun hfloat => ?_⟩
    simpa [Policy.either, Policy.boolAsInt] using hfloat
  have harguments : Arguments.empty.append i.arguments = i.arguments := by
    simp [Arguments.append, Arguments.empty]
  show ((sumGuard (Policy.boolAsInt.either i.policy)).run sum
    (Arguments.empty.append i.arguments)).1 = .ok v
  rw [harguments]
  exact (Guard.looser_of_policy sumSignature hpolicy).fst_run_eq_ok h

end Invocation

/-! ## The command -/

namespace CommandLine

variable {xs ys ws : List String} {i : Invocation} {f : Failure} {v : Value}

theorem run_of_parse_error (h : Request.parse ws = .error f) :
    run ws = { exitCode := 1, stdout := "", stderr := f.display ++ "\n\n" ++ usage ++ "\n" } := by
  rw [run, h]

theorem run_of_help (h : Request.parse ws = .ok .help) :
    run ws = { exitCode := 0, stdout := usage ++ "\n", stderr := "" } := by
  rw [run, h]

/-- An output is another one, up to a text printed before its failures. -/
structure AddsReport (text : String) (o o' : Output) : Prop where
  exitCode : o'.exitCode = o.exitCode
  stdout : o'.stdout = o.stdout
  stderr : o'.stderr = text ++ o.stderr

theorem addsReport_self (o : Output) : AddsReport "" o o := ⟨rfl, rfl, by simp⟩

/-- A report that is asked for comes in front, unless it has been asked for already. -/
theorem traced_append_trace (i : Invocation) :
    traced (Invocation.append { trace := true } i) =
      (if i.trace then "" else report i.run.2) ++ traced i := by
  rw [traced, traced, Invocation.run_append_trace]
  cases i.trace <;> simp [Invocation.append]

/-- Where a call is asked for, a word for a report adds it. -/
theorem addsReport_of_call (h : Request.parse (xs ++ ys) = .ok (.call i)) :
    AddsReport (if i.trace then "" else report i.run.2) (run (xs ++ ys))
      (run (xs ++ "--trace" :: ys)) := by
  have h' := Request.parse_insert_trace xs ys
  rw [h] at h'
  have hrun := congrArg Prod.fst (Invocation.run_append_trace i)
  cases houtcome : i.run.1 with
  | ok v =>
    rw [houtcome] at hrun
    rw [run_of_ok h houtcome, run_of_ok h' hrun, traced_append_trace]
    exact ⟨rfl, rfl, rfl⟩
  | error f =>
    rw [houtcome] at hrun
    rw [run_of_error h houtcome, run_of_error h' hrun, traced_append_trace]
    exact ⟨rfl, rfl, by simp [String.append_assoc]⟩

/-- A word for a report adds nothing, or the report on the call that is asked for. -/
theorem addsReport_trace (xs ys : List String) :
    ∃ text, AddsReport text (run (xs ++ ys)) (run (xs ++ "--trace" :: ys)) ∧
      (text = "" ∨ ∃ i, Request.parse (xs ++ ys) = .ok (.call i) ∧ text = report i.run.2) := by
  have hinsert := Request.parse_insert_trace xs ys
  cases h : Request.parse (xs ++ ys) with
  | error f =>
    rw [h] at hinsert
    rw [run_of_parse_error h, run_of_parse_error hinsert]
    exact ⟨"", addsReport_self _, .inl rfl⟩
  | ok r =>
    cases r with
    | help =>
      rw [h] at hinsert
      rw [run_of_help h, run_of_help hinsert]
      exact ⟨"", addsReport_self _, .inl rfl⟩
    | call i =>
      refine ⟨_, addsReport_of_call h, ?_⟩
      cases i.trace with
      | true => exact .inl rfl
      | false => exact .inr ⟨i, rfl, rfl⟩

/-- What succeeds without truth values gives the same with them. -/
theorem succeeds_boolIsInt (h : (run (xs ++ ys)).exitCode = 0) :
    (run (xs ++ "--bool-is-int" :: ys)).exitCode = 0 ∧
      (run (xs ++ "--bool-is-int" :: ys)).stdout = (run (xs ++ ys)).stdout := by
  have hinsert := Request.parse_insert_boolIsInt xs ys
  cases hparse : Request.parse (xs ++ ys) with
  | error f =>
    rw [run_of_parse_error hparse] at h
    cases h
  | ok r =>
    rw [hparse] at hinsert
    cases r with
    | help =>
      rw [run_of_help hparse, run_of_help hinsert]
      exact ⟨rfl, rfl⟩
    | call i =>
      cases houtcome : i.run.1 with
      | error f =>
        rw [run_of_error hparse houtcome] at h
        cases h
      | ok v =>
        rw [run_of_ok hparse houtcome,
          run_of_ok hinsert (Invocation.run_append_boolIsInt houtcome)]
        exact ⟨rfl, rfl⟩

end CommandLine

open CommandLine

/-- **Options do not interfere.**  Wherever a report is asked for, the exit code and the result stay
as they are, and the failures too, up to the report on the call in front of them. Wherever truth
values are admitted, a command line that succeeds still succeeds with the same result. -/
theorem options_do_not_interfere (xs ys : List String) :
    ((run (xs ++ "--trace" :: ys)).exitCode = (run (xs ++ ys)).exitCode ∧
        (run (xs ++ "--trace" :: ys)).stdout = (run (xs ++ ys)).stdout ∧
        ((run (xs ++ "--trace" :: ys)).stderr = (run (xs ++ ys)).stderr ∨
          ∃ i, Request.parse (xs ++ ys) = .ok (.call i) ∧
            (run (xs ++ "--trace" :: ys)).stderr =
              report i.run.2 ++ (run (xs ++ ys)).stderr)) ∧
      ((run (xs ++ ys)).exitCode = 0 →
        (run (xs ++ "--bool-is-int" :: ys)).exitCode = 0 ∧
          (run (xs ++ "--bool-is-int" :: ys)).stdout = (run (xs ++ ys)).stdout) := by
  refine ⟨?_, succeeds_boolIsInt⟩
  obtain ⟨text, hadds, htext⟩ := addsReport_trace xs ys
  refine ⟨hadds.exitCode, hadds.stdout, ?_⟩
  rcases htext with rfl | ⟨i, hparse, rfl⟩
  · left
    rw [hadds.stderr]
    simp
  · right
    exact ⟨i, hparse, hadds.stderr⟩

/-- A sum that succeeds, with truth values admitted between its words; and one that fails, with a
report asked for between its words. -/
theorem options_do_not_interfere_sum :
    ((run (["2"] ++ ["b=3"])).exitCode = 0 ∧
        (run (["2"] ++ "--bool-is-int" :: ["b=3"])).exitCode = 0 ∧
        (run (["2"] ++ "--bool-is-int" :: ["b=3"])).stdout = "5\n") ∧
      (run (["true"] ++ "--trace" :: ["b=3"])).exitCode = 1 ∧
      (run (["true"] ++ "--trace" :: ["b=3"])).stderr =
        "  >>> BIND sum             a=True, b=3\n" ++
        "      CHECK sum.a           int FAILED (got bool)\n" ++
        "  !!! ERROR sum            TypeError: sum() argument 'a' must be int, not bool\n" ++
        (run (["true"] ++ ["b=3"])).stderr := by
  have hsucceeds : (run (["2"] ++ ["b=3"])).exitCode = 0 := by decide +kernel
  have hsum : (run (["2"] ++ ["b=3"])).stdout = "5\n" := by decide +kernel
  have hfails : (run (["true"] ++ ["b=3"])).exitCode = 1 := by decide +kernel
  obtain ⟨hexit, hstdout⟩ := (options_do_not_interfere ["2"] ["b=3"]).2 hsucceeds
  obtain ⟨hexit', -, -⟩ := (options_do_not_interfere ["true"] ["b=3"]).1
  refine ⟨⟨hsucceeds, hexit, hstdout.trans hsum⟩, hexit'.trans hfails, ?_⟩
  decide +kernel

end GuardedCall
