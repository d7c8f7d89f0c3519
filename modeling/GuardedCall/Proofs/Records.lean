import GuardedCall.CommandLine
import GuardedCall.Proofs.Observation
import Mathlib.Data.List.DropRight

/-!
# What a recording holds

The records of one guarded call follow from the signature, what the call supplies and how it
ends: the names that are supplied, the names that take a default, the comparisons up to the first
that fails, the start of the body if none does, and the end. A recording that is used again and
again holds the records of all calls since it was last cleared, one call after another.

Main definitions: `Guard.story`, `Guard.Compares`, `Guard.Faithful`, `Use`, `Done`, `recordsAfter`.
Main statements: `map_record_eventsOf`, `foldl_apply_eq`, `recording_tells_the_story`.
-/

namespace GuardedCall

open Signature (valueOrDefault?)

namespace Signature

/-- The parameters that the caller gives a value. -/
def suppliedNames (s : Signature) (a : Arguments) : List String :=
  (s.params.filter fun p => decide (p.name ∈ (s.supply a).keys)).map Param.name

/-- The parameters that the caller gives none. -/
def defaultedNames (s : Signature) (a : Arguments) : List String :=
  (s.params.filter fun p => decide (p.name ∉ (s.supply a).keys)).map Param.name

variable {s : Signature} {a : Arguments} {b : Bound}

/-- Each parameter is either supplied or not. -/
theorem suppliedNames_append_defaultedNames_perm (s : Signature) (a : Arguments) :
    (s.suppliedNames a ++ s.defaultedNames a).Perm s.names := by
  have hnot : (fun p : Param => decide (p.name ∉ (s.supply a).keys)) =
      fun p => !decide (p.name ∈ (s.supply a).keys) := by
    funext p
    rw [decide_not]
  rw [suppliedNames, defaultedNames, ← List.map_append, hnot]
  exact (List.filter_append_perm _ _).map Param.name

theorem names_of_bind (h : s.bind a = .ok b) : b.names = s.suppliedNames a := by
  obtain ⟨-, -, rfl⟩ := bind_eq_ok_iff.1 h
  exact names_arrange s _

/-- The defaults that are reported are those of the parameters that are not supplied. -/
theorem keys_defaulted_of_bind (h : s.bind a = .ok b) :
    (s.defaulted b).keys = s.defaultedNames a := by
  obtain ⟨-, hall, rfl⟩ := bind_eq_ok_iff.1 h
  rw [defaulted_eq_tabulate, keys_tabulate, defaultedNames]
  refine congrArg (List.map Param.name) (List.filter_congr fun p hp => ?_)
  have hcontains := contains_arrange_iff hp (s.supply a)
  by_cases hm : p.name ∈ (s.supply a).keys
  · rw [if_pos (hcontains.2 hm)]
    simp [hm]
  · have hdefault : p.default?.isSome = true := (hall p hp).resolve_right hm
    rw [if_neg fun hc => hm (hcontains.1 hc), hdefault]
    simp [hm]

/-- The parameters that are not supplied are those that end with a default of their own. -/
theorem mem_defaultedNames_iff (h : s.bind a = .ok b) {p : Param} (hp : p ∈ s.params) :
    p.name ∈ s.defaultedNames a ↔
      ∃ v, p.default? = some v ∧ (s.complete a).get? p.name = some v ∧
        (p.name, v) ∉ s.supply a := by
  have hmem : p.name ∈ s.defaultedNames a ↔ p.name ∉ (s.supply a).keys := by
    rw [defaultedNames, List.mem_map]
    constructor
    · rintro ⟨q, hq, hname⟩
      rw [← hname]
      simpa using (List.mem_filter.1 hq).2
    · intro hn
      exact ⟨p, List.mem_filter.2 ⟨hp, by simpa using hn⟩, rfl⟩
  rw [hmem, get?_complete hp, valueOrDefault?]
  constructor
  · intro hn
    obtain ⟨v, hv⟩ := Option.isSome_iff_exists.1 (isSome_valueOrDefault?_of_bind h hp)
    rw [valueOrDefault?, Entries.get?_eq_none_iff.2 hn, Option.none_or] at hv
    refine ⟨v, hv, ?_, fun hs => hn (Entries.mem_keys_of_mem hs)⟩
    rw [Entries.get?_eq_none_iff.2 hn]
    exact hv
  · rintro ⟨v, hv, hget, hs⟩ hn
    -- a value that the caller supplies would be the one in the end
    obtain ⟨w, hw⟩ := Option.isSome_iff_exists.1 (Entries.get?_isSome_iff.2 hn)
    rw [hw] at hget
    cases hget
    exact hs (Entries.mem_of_get?_eq_some hw)

end Signature

/-! ## The records of one call -/

namespace Guard

/-- The record of a comparison. -/
def checkRecord (g : Guard) (c : Mismatch × Bool) : Record :=
  .check g.name c.1.param c.1.expected c.1.actual c.2

/-- The record of the end of a call. -/
def outcomeRecord (g : Guard) : Except Failure Value → Record
  | .ok v => .returned g.name v.repr
  | .error f => .failed g.name f

/-- The records of a call that ends in `o`. -/
def story (g : Guard) (a : Arguments) (o : Except Failure Value) : List Record :=
  match g.signature.bind a with
  | .error _ => [g.outcomeRecord o]
  | .ok _ =>
    .bind g.name (g.signature.suppliedNames a) ::
      ((g.signature.defaultedNames a).map (.default g.name) ++
        (compared (g.comparisons a)).map g.checkRecord ++
        (match firstMismatch (g.comparisons a) with
          | none => [.invoke g.name, g.outcomeRecord o]
          | some _ => [g.outcomeRecord o]))

variable {g : Guard} {a : Arguments} {b : Bound}

theorem record_outcomeEvent (g : Guard) (o : Except Failure Value) :
    (g.outcomeEvent o).record = g.outcomeRecord o := by
  cases o <;> rfl

/-- What is recorded of the events of a call is its story. -/
theorem map_record_eventsOf (g : Guard) (a : Arguments) (o : Except Failure Value) :
    (g.eventsOf a o).map Event.record = g.story a o := by
  rw [eventsOf, story]
  cases h : g.signature.bind a with
  | error f =>
    rw [prepare_of_fault h, check_of_fault h]
    simp [record_outcomeEvent]
  | ok b =>
    have hdefaults : ((g.signature.defaulted b).map fun e => Event.default g.name e.1 e.2).map
        Event.record = (g.signature.defaultedNames a).map (Record.default g.name) := by
      rw [← Signature.keys_defaulted_of_bind h, Entries.keys, List.map_map, List.map_map]
      rfl
    have hchecks : ((compared (g.comparisons a)).map g.checkEvent).map Event.record =
        (compared (g.comparisons a)).map g.checkRecord := by
      rw [List.map_map]
      rfl
    have hbind : (Event.bind g.name b).record =
        .bind g.name (g.signature.suppliedNames a) := by
      rw [← Signature.names_of_bind h]
      rfl
    rw [prepare_of_bind h, check_of_bind h]
    cases firstMismatch (g.comparisons a) with
    | none =>
      have hinvoke : (Event.invoke g.name).record = .invoke g.name := rfl
      simp [hdefaults, hchecks, hbind, hinvoke, record_outcomeEvent]
    | some m => simp [hdefaults, hchecks, hbind, record_outcomeEvent]

/-- Observing events one after another keeps the records of all of them. -/
theorem foldl_observe (events : List Event) (r : Recording) :
    events.foldl Recording.observe r = ⟨r.records ++ events.map Event.record⟩ := by
  induction events generalizing r with
  | nil => simp
  | cons e events ih =>
    rw [List.foldl_cons, ih, Recording.observe, List.map_cons, List.append_assoc]
    rfl

/-- A recorded call is the call, and the recording gains its story. -/
theorem run_callTold_observe {m : Type → Type} [Monad m] [LawfulMonad m] (g : Guard)
    (body : Bound → m (Except Failure Value)) (a : Arguments) (r : Recording) :
    (g.callTold Recording.observe body a).run r =
      (fun o => (o, ⟨r.records ++ g.story a o⟩)) <$> g.call body a := by
  rw [run_callTold]
  simp only [foldl_observe, map_record_eventsOf]

/-! ## What the story says of the call -/

/-- Of comparisons of which one fails after others that do not, it is the last that is made. -/
theorem compared_of_mismatch {passed : List (Mismatch × Bool)} (h : ∀ c ∈ passed, c.2 = true)
    (mm : Mismatch) (rest : List (Mismatch × Bool)) :
    compared (passed ++ (mm, false) :: rest) = passed ++ [(mm, false)] ∧
      firstMismatch (passed ++ (mm, false) :: rest) = some mm := by
  have hpassed : passed.find? (!·.2) = none := find?_failed_eq_none_iff.2 h
  constructor
  · rw [compared, List.takeWhile_append_of_pos h, List.find?_append, hpassed]
    simp
  · rw [firstMismatch, List.find?_append, hpassed]
    rfl

/-- If no comparison fails, all are made. -/
theorem compared_of_accepted {cs : List (Mismatch × Bool)} (h : ∀ c ∈ cs, c.2 = true) :
    compared cs = cs := by
  rw [compared, find?_failed_eq_none_iff.2 h, List.takeWhile_eq_self_iff.2 h, Option.toList_none,
    List.append_nil]

/-- The comparison for a parameter: its declared kind and the kind of the value that it takes, and
whether the policy accepts the one for the other. -/
inductive Compares (g : Guard) (a : Arguments) (p : Param) : Mismatch × Bool → Prop
  | of_takes {k : Kind} {v : Value} (hk : p.kind? = some k) (hv : g.signature.Takes a p v) :
      Compares g a p (⟨p.name, k, v.kind⟩, g.policy.accepts k v.kind)

/-- If the arguments bind, a comparison is made for each declared kind, in order. -/
theorem forall₂_comparisons (h : g.signature.bind a = .ok b) :
    List.Forall₂ (g.Compares a) (g.signature.params.filter fun p => p.kind?.isSome)
      (g.comparisons a) := by
  obtain ⟨hfits, -, -⟩ := Signature.bind_eq_ok_iff.1 h
  have hparams : ∀ ps : List Param, (∀ p ∈ ps, p ∈ g.signature.params) →
      List.Forall₂ (g.Compares a) (ps.filter fun p => p.kind?.isSome)
        (ps.filterMap (g.checkOf (g.signature.complete a))) := by
    intro ps hps
    induction ps with
    | nil => exact .nil
    | cons p ps ih =>
      rw [List.forall_mem_cons] at hps
      rw [List.filterMap_cons, List.filter_cons]
      cases hk : p.kind? with
      | none =>
        have hcheck : g.checkOf (g.signature.complete a) p = none := by
          rw [checkOf, hk]
        rw [hcheck]
        exact ih hps.2
      | some k =>
        obtain ⟨v, hv⟩ := Option.isSome_iff_exists.1
          (Signature.isSome_valueOrDefault?_of_bind h hps.1)
        have htakes : g.signature.Takes a p v := (Signature.takes_iff hfits.distinct).2 hv
        rw [checkOf_complete hps.1 hk hv]
        exact .cons (.of_takes hk htakes) (ih hps.2)
  exact hparams _ fun p hp => hp

theorem isInvoke_outcomeRecord (g : Guard) (o : Except Failure Value) :
    (g.outcomeRecord o).isInvoke = false := by
  cases o <;> rfl

/-- The start of the body is in the story exactly if the check succeeds. -/
theorem any_isInvoke_story (g : Guard) (a : Arguments) (o : Except Failure Value) :
    (g.story a o).any Record.isInvoke = true ↔ ∃ b, g.check a = .ok b := by
  rw [story]
  cases h : g.signature.bind a with
  | error f =>
    rw [check_of_fault h]
    simp [isInvoke_outcomeRecord]
  | ok b =>
    have hdefaults : (g.signature.defaultedNames a).any
        (Record.isInvoke ∘ Record.default g.name) = false := by
      simp [Record.isInvoke]
    have hchecks : (compared (g.comparisons a)).any (Record.isInvoke ∘ g.checkRecord) = false := by
      simp [checkRecord, Record.isInvoke]
    rw [check_of_bind h]
    cases firstMismatch (g.comparisons a) with
    | none => simp [Record.isInvoke]
    | some m =>
      simp only [List.any_cons, List.any_append, List.any_map, hdefaults, hchecks,
        isInvoke_outcomeRecord]
      simp [Record.isInvoke]

/-- The records before any comparison. -/
def opening (g : Guard) (a : Arguments) : List Record :=
  .bind g.name (g.signature.suppliedNames a) ::
    (g.signature.defaultedNames a).map (.default g.name)

/-- What is told of a call in each of the three ways that it can go. -/
structure Faithful {m : Type → Type} [Monad m] (g : Guard)
    (body : Bound → m (Except Failure Value)) (a : Arguments) : Prop where
  /-- The arguments do not bind: the failure is all that is told. -/
  unbound : ∀ f, g.signature.bind a = .error f →
    g.call body a = pure (.error (f.failure g.name)) ∧
      g.story a (.error (f.failure g.name)) = [.failed g.name (f.failure g.name)]
  /-- A kind is not accepted: its comparison is the last thing before the failure, which is about
  the same parameter and kinds. -/
  mismatched : ∀ b passed mm rest, g.signature.bind a = .ok b →
    g.comparisons a = passed ++ (mm, false) :: rest → (∀ c ∈ passed, c.2 = true) →
      ∃ f, f.mismatch = some mm ∧ g.call body a = pure (.error f) ∧
        g.story a (.error f) = g.opening a ++ passed.map g.checkRecord ++
          [.check g.name mm.param mm.expected mm.actual false, .failed g.name f]
  /-- All kinds are accepted: the body runs after all comparisons, and the end is as it says. -/
  ran : ∀ b, g.signature.bind a = .ok b → (∀ c ∈ g.comparisons a, c.2 = true) →
    g.call body a = body (g.signature.complete a) ∧
      ∀ o, g.story a o = g.opening a ++ (g.comparisons a).map g.checkRecord ++
        [.invoke g.name, g.outcomeRecord o]
  /-- The body is told to start exactly if the check succeeds. -/
  invoked : ∀ o, (g.story a o).any Record.isInvoke = true ↔ ∃ b, g.check a = .ok b
  /-- There is a comparison for each declared kind, with the kind of the value that the parameter
  takes, and it passes as the policy says. -/
  annotated : ∀ b, g.signature.bind a = .ok b →
    List.Forall₂ (g.Compares a) (g.signature.params.filter fun p => p.kind?.isSome)
      (g.comparisons a)
  /-- Each parameter is told either as supplied or as left to its default. -/
  partition : (g.signature.suppliedNames a ++ g.signature.defaultedNames a).Perm g.signature.names
  /-- The parameters that are told to take their defaults are those that end with it. -/
  fromDefault : ∀ b, g.signature.bind a = .ok b → ∀ p ∈ g.signature.params,
    p.name ∈ g.signature.defaultedNames a ↔
      ∃ v, p.default? = some v ∧ (g.signature.complete a).get? p.name = some v ∧
        (p.name, v) ∉ g.signature.supply a

theorem faithful {m : Type → Type} [Monad m] [LawfulMonad m] (g : Guard)
    (body : Bound → m (Except Failure Value)) (a : Arguments) : g.Faithful body a where
  unbound f h := by
    rw [call_eq_check, check_of_fault h, story, h]
    exact ⟨rfl, rfl⟩
  mismatched b passed mm rest h hcs hpassed := by
    obtain ⟨hcompared, hfirst⟩ := compared_of_mismatch hpassed mm rest
    refine ⟨mismatchFailure g.name mm, rfl, ?_, ?_⟩
    · rw [call_eq_check, check_of_bind h, hcs, hfirst]
    · rw [story, h, hcs, hcompared, hfirst]
      simp [opening, checkRecord, outcomeRecord]
  ran b h hall := by
    have hfirst := firstMismatch_eq_none_iff.2 hall
    constructor
    · rw [call_eq_check, check_of_bind h, hfirst]
    · intro o
      rw [story, h, compared_of_accepted hall, hfirst]
      simp [opening]
  invoked o := any_isInvoke_story g a o
  annotated b h := forall₂_comparisons h
  partition := Signature.suppliedNames_append_defaultedNames_perm g.signature a
  fromDefault _ h _ hp := Signature.mem_defaultedNames_iff h hp

end Guard

/-! ## The records of many calls -/

/-- What is done with a recording: a call is told to it, or it is cleared. -/
inductive Use (m : Type → Type)
  | call (g : Guard) (body : Bound → m (Except Failure Value)) (a : Arguments)
  | clear

/-- What has been done with a recording, and how the calls ended. -/
inductive Done
  | called (g : Guard) (a : Arguments) (outcome : Except Failure Value)
  | cleared

namespace Done

def isCalled : Done → Bool
  | called _ _ _ => true
  | cleared => false

/-- What is told of a call. -/
def records : Done → List Record
  | called g a o => g.story a o
  | cleared => []

/-- What is recorded after one more use. -/
def apply (before : List Record) : Done → List Record
  | called g a o => before ++ g.story a o
  | cleared => []

end Done

/-- The records of all calls since the recording was last cleared, after those that were there
from the start if it never was. -/
def recordsAfter (start : List Record) (ds : List Done) : List Record :=
  (if ds.all Done.isCalled then start else []) ++ (ds.rtakeWhile Done.isCalled).flatMap Done.records

/-- Going through all uses leaves the records since the last clearing. -/
theorem foldl_apply_eq (start : List Record) (ds : List Done) :
    ds.foldl Done.apply start = recordsAfter start ds := by
  induction ds using List.reverseRecOn with
  | nil => simp [recordsAfter]
  | append_singleton ds d ih =>
    rw [List.foldl_append, ih, recordsAfter, recordsAfter]
    cases d with
    | called g a o =>
      rw [List.rtakeWhile_concat_pos _ _ _ rfl]
      simp [Done.apply, Done.isCalled, Done.records]
    | cleared =>
      rw [List.rtakeWhile_concat_neg _ _ _ (by decide)]
      simp [Done.apply, Done.isCalled]

namespace Use

variable {m : Type → Type} [Monad m]

/-- Do what a use says without any recording. -/
def perform : Use m → m Done
  | call g body a => Done.called g a <$> g.call body a
  | clear => pure .cleared

/-- Do what a use says with a recording. -/
def performTold : Use m → StateT Recording m Done
  | call g body a => Done.called g a <$> g.callTold Recording.observe body a
  | clear => do
    modify Recording.clear
    pure .cleared

variable [LawfulMonad m]

/-- One use changes the recording by what was done. -/
theorem run_performTold (u : Use m) (r : Recording) :
    u.performTold.run r = (fun d => (d, ⟨d.apply r.records⟩)) <$> u.perform := by
  cases u with
  | call g body a =>
    rw [performTold, perform, StateT.run_map, Guard.run_callTold_observe]
    simp only [← comp_map]
    rfl
  | clear =>
    rw [performTold, perform, map_pure, StateT.run_bind, StateT.run_modify, pure_bind,
      StateT.run_pure]
    rfl

/-- Uses one after another change the recording by all that was done. -/
theorem run_mapM_performTold (us : List (Use m)) (r : Recording) :
    (us.mapM performTold).run r =
      (fun ds => (ds, ⟨recordsAfter r.records ds⟩)) <$> us.mapM perform := by
  simp only [← foldl_apply_eq]
  induction us generalizing r with
  | nil =>
    rw [List.mapM_nil, List.mapM_nil, map_pure]
    rfl
  | cons u us ih =>
    rw [List.mapM_cons, List.mapM_cons, StateT.run_bind, run_performTold]
    simp [ih]

end Use

/-- **A recording tells the story of every call.**  An observer, whatever it does, leaves the
outcome of a call as it is. A recording gains exactly the story of the call, which is faithful to
what the call does; and after any number of calls and clearings, which go as they would without
it, it holds the stories of all calls since it was last cleared, one after another. -/
theorem recording_tells_the_story {m : Type → Type} [Monad m] [LawfulMonad m] :
    (∀ (g : Guard) (body : Bound → m (Except Failure Value)) (a : Arguments),
      (∀ {σ : Type} (tell : σ → Event → σ) (t : σ),
        Prod.fst <$> (g.callTold tell body a).run t = g.call body a) ∧
      (∀ r : Recording, (g.callTold Recording.observe body a).run r =
        (fun o => (o, ⟨r.records ++ g.story a o⟩)) <$> g.call body a) ∧
      g.Faithful body a) ∧
    ∀ (us : List (Use m)) (r : Recording), (us.mapM Use.performTold).run r =
      (fun ds => (ds, ⟨recordsAfter r.records ds⟩)) <$> us.mapM Use.perform := by
  refine ⟨fun g body a => ⟨?_, ?_, g.faithful body a⟩, Use.run_mapM_performTold⟩
  · intro σ tell t
    exact g.fst_run_callTold tell body a t
  · exact g.run_callTold_observe body a

/-- A sum that is recorded and cleared away again; then a call that does not bind, one that takes a
default and runs, and one whose argument is refused, of which all is told. -/
theorem recording_tells_the_story_sum :
    let g := sumGuard .strict
    let us : List (Use Id) :=
      [.call g sum (Arguments.empty.pass (.int 1)), .clear, .call g sum Arguments.empty,
        .call g sum (Arguments.empty.pass (.int 1)),
        .call g sum (Arguments.empty.pass (.bool true))]
    ((us.mapM Use.performTold).run {}).2.records =
      [.failed "sum" ((BindFault.missing ["a"]).failure "sum"),
        .bind "sum" ["a"], .default "sum" "b", .check "sum" "a" .int .int true,
        .check "sum" "b" .int .int true, .invoke "sum", .returned "sum" "1",
        .bind "sum" ["a"], .default "sum" "b", .check "sum" "a" .int .bool false,
        .failed "sum" (Guard.mismatchFailure "sum" ⟨"a", .int, .bool⟩)] := by
  intro g us
  rw [recording_tells_the_story.2 us {}]
  rfl

end GuardedCall
