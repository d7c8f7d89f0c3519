import GuardedCall.Printer
import GuardedCall.Proofs.BindFault
import GuardedCall.Proofs.Records
import GuardedCall.Proofs.Value.OneLine

/-!
# What a printer prints

A printer that is told a guarded call prints one entry for each event that a recording of the call
keeps, in the same order; a printer of failures prints those of the failed checks and of the failed
call, which are none exactly if the call succeeds. An entry is a line of its own as long as the
names in it are, and a message that the body writes: literals of values have no line breaks, and the
guard adds none.

Main definitions: `OneLine`, `IsLine`, `Event.shown`, `Record.isFailure`, `Guard.NamesOnOneLine`.
Main statements: `names_of_bind_eq_error`, `isLine_entry_of_mem_eventsOf`,
`reportFailures_eventsOf_eq_empty_iff`, `printers_keep_pace_with_recordings`.
-/

namespace GuardedCall

/-! ## Texts without line breaks -/

/-- There is no line break in a text. -/
def OneLine (s : String) : Prop := '\n' ∉ s.toList

instance (s : String) : Decidable (OneLine s) := inferInstanceAs (Decidable ('\n' ∉ s.toList))

/-- A text is one line with its end. -/
def IsLine (text : String) : Prop := ∃ s, text = s ++ "\n" ∧ OneLine s

namespace OneLine

variable {s t : String}

@[simp] theorem append_iff : OneLine (s ++ t) ↔ OneLine s ∧ OneLine t := by
  simp [OneLine, String.toList_append]

theorem ofList {cs : List Char} (h : '\n' ∉ cs) : OneLine (String.ofList cs) := by
  rwa [OneLine, String.toList_ofList]

/-- The literal of a value has no line break, whatever strings are in the value. -/
@[simp] theorem repr (v : Value) : OneLine v.repr := by
  refine ofList fun h => Value.not_isControl_of_mem_reprChars v _ h ?_
  exact Or.inl (by decide)

@[simp] theorem kindName (k : Kind) : OneLine k.name := by
  cases k <;> decide

@[simp] theorem failureKindName (k : FailureKind) : OneLine k.name := by
  cases k <;> decide

@[simp] theorem natText (n : Nat) : OneLine (Decimal.natText n) := by
  refine ofList fun h => ?_
  have hdigit := Decimal.isDigit_of_mem_natDigits h
  exact absurd hdigit (by decide)

@[simp] theorem padded_iff {width : Nat} : OneLine (Event.padded width s) ↔ OneLine s := by
  have hblanks : OneLine (String.ofList (List.replicate (width - s.length) ' ')) := by
    refine ofList fun h => ?_
    exact absurd (List.eq_of_mem_replicate h) (by decide)
  rw [Event.padded, append_iff, and_iff_left hblanks]

theorem intercalate {ts : List String} (hs : OneLine s) (hts : ∀ t ∈ ts, OneLine t) :
    OneLine (s.intercalate ts) := by
  induction ts with
  | nil => simp [OneLine]
  | cons t ts ih =>
    rw [List.forall_mem_cons] at hts
    cases ts with
    | nil => simpa using hts.1
    | cons u ts =>
      rw [String.intercalate_cons_cons, append_iff, append_iff]
      exact ⟨⟨hts.1, hs⟩, ih hts.2⟩

@[simp] theorem quotedName_iff : OneLine (quotedName s) ↔ OneLine s := by
  have hquote : OneLine "'" := by decide
  simp [quotedName, hquote]

theorem nameList {names : List String} (h : ∀ n ∈ names, OneLine n) : OneLine (nameList names) := by
  fun_induction GuardedCall.nameList names with
  | case1 => decide
  | case2 a => simpa using h
  | case3 a b =>
    have hand : OneLine " and " := by decide
    simpa [hand] using h
  | case4 a names hb hc ih =>
    rw [List.forall_mem_cons] at h
    have hcomma : OneLine ", " := by decide
    simp [hcomma, h.1, ih h.2]

end OneLine

namespace Event

/-- The texts that the line of an event shows as they are. -/
def shown : Event → List String
  | bind func bound => func :: bound.names
  | default func param _ => [func, param]
  | check func param _ _ _ => [func, param]
  | invoke func => [func]
  | returned func _ => [func]
  | failed func failure => [func, failure.message]

/-- The line of an event is one line if all that it shows as it is has no line break; all else in it
are literals, kinds and blanks. -/
theorem oneLine_line (e : Event) (h : ∀ t ∈ e.shown, OneLine t) : OneLine e.line := by
  unfold line
  cases e with
  | bind func b =>
    rw [shown, List.forall_mem_cons, Bound.names, Entries.keys, List.forall_mem_map] at h
    have hlist : OneLine (", ".intercalate (b.entries.map fun e => e.1 ++ "=" ++ e.2.repr)) := by
      refine OneLine.intercalate (by decide) (List.forall_mem_map.2 fun e he => ?_)
      rw [OneLine.append_iff, OneLine.append_iff]
      exact ⟨⟨h.2 e he, by decide⟩, OneLine.repr e.2⟩
    simp +decide [h.1, hlist]
  | default func param v =>
    simp only [shown, List.forall_mem_cons] at h
    simp +decide [h]
  | check func param expected actual passed =>
    simp only [shown, List.forall_mem_cons] at h
    cases passed <;> simp +decide [h]
  | invoke func =>
    simp only [shown, List.forall_mem_cons] at h
    simp +decide [h]
  | returned func v =>
    simp only [shown, List.forall_mem_cons] at h
    simp +decide [h]
  | failed func failure =>
    simp only [shown, List.forall_mem_cons] at h
    simp +decide [Failure.display, h]

end Event

/-! ## Messages of the guard -/

namespace BindFault

theorem oneLine_message {func : String} {f : BindFault} (hfunc : OneLine func)
    (h : ∀ n ∈ f.names, OneLine n) : OneLine (f.message func) := by
  cases f with
  | missing names =>
    have hlist : OneLine (nameList names) := OneLine.nameList h
    rw [message_missing]
    split <;> simp +decide [hfunc, hlist]
  | tooManyPositional takes given =>
    rw [message]
    split <;> split <;> simp +decide [hfunc]
  | _ => simp_all +decide [message, names]

end BindFault

namespace Signature

variable {s : Signature} {a : Arguments} {f : BindFault}

/-- What a call does not bind for is about parameters or about keywords of the call. -/
theorem names_of_bind_eq_error (h : s.bind a = .error f) :
    ∀ n ∈ f.names, n ∈ s.names ∨ n ∈ a.named.keys := by
  intro n hn
  obtain ⟨-, c, hc, -, hf⟩ := (bind_eq_error_iff.1 h).exists_mem
  simp only [faultClasses, List.mem_cons, List.not_mem_nil, or_false] at hc
  -- the classes of faults in their order: only the second and the fourth name keywords of the call
  rcases hc with rfl | rfl | rfl | rfl | rfl
  · obtain ⟨-, p, -, -, hp⟩ := FirstIn.exists_mem hf
    cases hp
    cases hn
  · obtain ⟨_, p, hparts, -, -, hp⟩ := FirstIn.exists_mem hf
    cases hp with
    | notMapping v => cases hn
    | keyNotString key v hkey => cases hn
    | repeated name v hseen =>
      rw [List.mem_singleton.1 hn]
      exact Or.inr (Entries.mem_keys_of_mem (List.mem_filterMap.2 ⟨_, hparts, rfl⟩))
  · obtain ⟨-, rfl⟩ := hf
    cases hn
  · obtain ⟨-, e, he, -, hfault⟩ := FirstIn.exists_mem hf
    cases hfault with
    | unexpected hname =>
      rw [List.mem_singleton.1 hn]
      exact Or.inr (Entries.mem_keys_of_mem he)
    | repeated hname htaken =>
      rw [List.mem_singleton.1 hn]
      exact Or.inl hname
  · obtain ⟨-, rfl⟩ := hf
    obtain ⟨p, hp, rfl⟩ := List.mem_map.1 hn
    exact Or.inl (List.mem_map_of_mem (List.mem_of_mem_drop (List.mem_of_mem_filter hp)))

end Signature

namespace Guard

variable {g : Guard} {a : Arguments} {b : Bound} {o : Except Failure Value}

/-- The names that come up in a guarded call have no line breaks: those of the function and of its
parameters, and those that the call passes values under, the string keys of splats included. -/
structure NamesOnOneLine (g : Guard) (a : Arguments) : Prop where
  func : OneLine g.name
  params : ∀ p ∈ g.signature.params, OneLine p.name
  keywords : ∀ n ∈ a.named.keys, OneLine n

/-- A comparison is about a parameter. -/
theorem param_of_mem_comparisons {c : Mismatch × Bool} (h : c ∈ g.comparisons a) :
    ∃ p ∈ g.signature.params, c.1.param = p.name := by
  obtain ⟨p, hp, hc⟩ := List.mem_filterMap.1 h
  refine ⟨p, hp, ?_⟩
  rw [checkOf] at hc
  split at hc
  · cases hc
    rfl
  · cases hc

theorem mem_of_mem_compared {c : Mismatch × Bool} {cs : List (Mismatch × Bool)}
    (h : c ∈ compared cs) : c ∈ cs := by
  rw [compared, List.mem_append, Option.mem_toList] at h
  rcases h with h | h
  · exact (List.takeWhile_sublist _).mem h
  · exact List.mem_of_find?_eq_some h

/-- The guard writes its own messages on one line. -/
theorem NamesOnOneLine.message (h : g.NamesOnOneLine a) {f : Failure} (hf : g.check a = .error f) :
    OneLine f.message := by
  cases hb : g.signature.bind a with
  | error fault =>
    rw [check_of_fault hb] at hf
    cases hf
    refine BindFault.oneLine_message h.func fun n hn => ?_
    rcases Signature.names_of_bind_eq_error hb n hn with hn | hn
    · obtain ⟨p, hp, rfl⟩ := List.mem_map.1 hn
      exact h.params p hp
    · exact h.keywords n hn
  | ok b =>
    rw [check_of_bind hb] at hf
    cases hm : firstMismatch (g.comparisons a) with
    | none =>
      rw [hm] at hf
      cases hf
    | some mm =>
      rw [hm] at hf
      cases hf
      obtain ⟨c, hc, rfl⟩ := Option.map_eq_some_iff.1 hm
      obtain ⟨p, hp, hname⟩ := param_of_mem_comparisons (List.mem_of_find?_eq_some hc)
      simp +decide [mismatchFailure, hname, h.func, h.params p hp]

/-! ## Lines of events -/

/-- A name under which a value stands in the order of the signature is that of a parameter. -/
theorem NamesOnOneLine.of_mem_tabulate (h : g.NamesOnOneLine a) {f : Param → Option Value}
    {e : String × Value} (he : e ∈ Signature.tabulate g.signature.params f) : OneLine e.1 := by
  obtain ⟨p, hp, hname⟩ := Signature.param_of_mem_tabulate he
  rw [hname]
  exact h.params p hp

/-- The events before the body show nothing but names. -/
theorem NamesOnOneLine.shown_of_mem_prepare (h : g.NamesOnOneLine a) :
    ∀ e ∈ (g.prepare a).1, ∀ t ∈ e.shown, OneLine t := by
  cases hb : g.signature.bind a with
  | error f =>
    rw [prepare_of_fault hb]
    exact List.forall_mem_nil _
  | ok b =>
    rw [prepare_of_bind hb]
    simp only [List.forall_mem_cons, List.forall_mem_append, List.forall_mem_map]
    refine ⟨List.forall_mem_cons.2 ⟨h.func, fun n hn => ?_⟩, fun e he => ?_, fun c hc => ?_⟩
    · obtain ⟨-, -, rfl⟩ := Signature.bind_eq_ok_iff.1 hb
      obtain ⟨e, he, rfl⟩ := List.mem_map.1 hn
      exact h.of_mem_tabulate he
    · rw [Signature.defaulted_eq_tabulate] at he
      exact List.forall_mem_cons.2 ⟨h.func, List.forall_mem_singleton.2 (h.of_mem_tabulate he)⟩
    · obtain ⟨p, hp, hname⟩ := param_of_mem_comparisons (mem_of_mem_compared hc)
      rw [checkEvent, hname]
      exact List.forall_mem_cons.2 ⟨h.func, List.forall_mem_singleton.2 (h.params p hp)⟩

/-- Every event of a call is reported on a line of its own; apart from the names, only the message
of a failure of the body might break it. -/
theorem isLine_entry_of_mem_eventsOf (h : g.NamesOnOneLine a)
    (ho : ∀ f, o = .error f → g.check a ≠ .error f → OneLine f.message) :
    ∀ e ∈ g.eventsOf a o, IsLine e.entry := by
  have hinvoke : ∀ t ∈ (Event.invoke g.name).shown, OneLine t := List.forall_mem_singleton.2 h.func
  have hend : ∀ t ∈ (g.outcomeEvent o).shown, OneLine t := by
    cases o with
    | ok v => exact List.forall_mem_singleton.2 h.func
    | error f =>
      have hmessage : OneLine f.message := by
        by_cases hf : g.check a = .error f
        · exact h.message hf
        · exact ho f rfl hf
      exact List.forall_mem_cons.2 ⟨h.func, List.forall_mem_singleton.2 hmessage⟩
  have hshown : ∀ e ∈ g.eventsOf a o, ∀ t ∈ e.shown, OneLine t := by
    simp only [eventsOf, List.forall_mem_append, List.forall_mem_singleton]
    refine ⟨⟨h.shown_of_mem_prepare, ?_⟩, hend⟩
    split
    · exact List.forall_mem_nil _
    · exact List.forall_mem_singleton.2 hinvoke
  exact fun e he => ⟨e.line, rfl, e.oneLine_line (hshown e he)⟩

end Guard

/-! ## Failures -/

/-- A record of a failed check, or of the failure of the call. -/
def Record.isFailure : Record → Bool
  | check _ _ _ _ passed => !passed
  | failed _ _ => true
  | _ => false

theorem Event.isFailure_record (e : Event) : e.record.isFailure = e.isFailure := by
  cases e <;> rfl

theorem report_eq_empty_iff {events : List Event} : report events = "" ↔ events = [] := by
  cases events with
  | nil => simp [report]
  | cons e events => simp [report, Event.entry, String.append_eq_empty_iff]

namespace Guard

variable {g : Guard} {a : Arguments} {b : Bound} {o : Except Failure Value}

/-- Nothing that happens before the body is a failure, if the guard lets the call through. -/
theorem isFailure_of_mem_prepare (hb : g.check a = .ok b) :
    ∀ e ∈ (g.prepare a).1, e.isFailure = false := by
  cases hbind : g.signature.bind a with
  | error f =>
    rw [check_of_fault hbind] at hb
    cases hb
  | ok bound =>
    rw [check_of_bind hbind] at hb
    cases hm : firstMismatch (g.comparisons a) with
    | some m =>
      rw [hm] at hb
      cases hb
    | none =>
      have hall := firstMismatch_eq_none_iff.1 hm
      rw [prepare_of_bind hbind]
      simp only [List.forall_mem_cons, List.forall_mem_append, List.forall_mem_map]
      refine ⟨rfl, fun _ _ => rfl, fun c hc => ?_⟩
      rw [checkEvent, Event.isFailure, hall c (mem_of_mem_compared hc)]
      rfl

/-- There is no failure to report on a call exactly if it succeeds. -/
theorem reportFailures_eventsOf_eq_empty_iff (h : ∀ f, g.check a = .error f → o = .error f) :
    reportFailures (g.eventsOf a o) = "" ↔ o.isOk = true := by
  rw [reportFailures, report_eq_empty_iff, List.filter_eq_nil_iff]
  cases o with
  | error f =>
    -- the failure of the call is the last event
    have hlast : g.outcomeEvent (.error f) ∈ g.eventsOf a (.error f) :=
      List.mem_append_right _ (List.mem_singleton_self _)
    refine iff_of_false (fun hnone => hnone _ hlast rfl) ?_
    simp [Except.isOk, Except.toBool]
  | ok v =>
    refine iff_of_true ?_ rfl
    cases hcheck : g.check a with
    | error f => cases h f hcheck
    | ok b =>
      simp only [eventsOf, hcheck, List.forall_mem_append, List.forall_mem_singleton]
      refine ⟨⟨fun e he => ?_, by simp [Event.isFailure]⟩,
        by simp [outcomeEvent, Event.isFailure]⟩
      simp [isFailure_of_mem_prepare hcheck e he]

variable {m : Type → Type} [Monad m] [LawfulMonad m]

/-- A call that is told to a printer is the call, and the printer prints the report on its events,
or that on the failures among them. -/
theorem run_callTold_tell (g : Guard) (p : Printer) (body : Bound → m (Except Failure Value))
    (a : Arguments) (printed : String) :
    (g.callTold p.tell body a).run printed =
      (fun o => (o, printed ++ if p.failuresOnly then reportFailures (g.eventsOf a o)
        else report (g.eventsOf a o))) <$> g.call body a := by
  rw [run_callTold]
  simp only [Printer.foldl_tell]

/-- A printer of failures prints nothing about a call that succeeds, and something about any
other. -/
theorem silent_iff_isOk (g : Guard) (body : Bound → m (Except Failure Value)) (a : Arguments)
    (printed : String) :
    (fun q => (q.1, decide (q.2 = printed))) <$>
        (g.callTold (Printer.tell { failuresOnly := true }) body a).run printed =
      (fun o => (o, o.isOk)) <$> g.call body a := by
  have hsilent {o : Except Failure Value} (h : ∀ f, g.check a = .error f → o = .error f) :
      decide (printed ++ reportFailures (g.eventsOf a o) = printed) = o.isOk := by
    rw [Bool.eq_iff_iff, decide_eq_true_iff, String.append_eq_left_iff,
      reportFailures_eventsOf_eq_empty_iff h]
  rw [run_callTold_tell, ← comp_map, call_eq_check]
  cases hcheck : g.check a with
  | error f =>
    rw [map_pure, map_pure]
    refine congrArg (fun ok => pure (_, ok)) (hsilent fun f' hf' => ?_)
    rw [hcheck] at hf'
    exact congrArg Except.error (Except.error.inj hf')
  | ok b =>
    refine congrArg (fun F => F <$> body b) (funext fun o => ?_)
    refine congrArg (fun ok => (o, ok)) (hsilent fun f hf => ?_)
    rw [hcheck] at hf
    cases hf

end Guard

/-- **Printers keep pace with recordings.**  What a printer prints about a call is one entry for
each event that a recording of the call keeps, in the same order; what a printer of failures prints
are the entries of the failed checks and of the failure of the call, and this is nothing exactly if
the call succeeds. Each entry is a line of its own if the names of the function, of its parameters
and of the keywords in the call are on one line, and the message with which the body fails, if it
does; whatever the values are. -/
theorem printers_keep_pace_with_recordings {m : Type → Type} [Monad m] [LawfulMonad m] (g : Guard)
    (body : Bound → m (Except Failure Value)) (a : Arguments) :
    (∀ r : Recording, (g.callTold Recording.observe body a).run r =
      (fun o => (o, ⟨r.records ++ (g.eventsOf a o).map Event.record⟩)) <$> g.call body a) ∧
    (∀ printed, (g.callTold (Printer.tell {}) body a).run printed =
      (fun o => (o, printed ++ String.join ((g.eventsOf a o).map Event.entry))) <$>
        g.call body a) ∧
    (∀ printed, (g.callTold (Printer.tell { failuresOnly := true }) body a).run printed =
      (fun o => (o, printed ++ String.join
        (((g.eventsOf a o).filter fun e => e.record.isFailure).map Event.entry))) <$>
        g.call body a) ∧
    (∀ printed, (fun q => (q.1, decide (q.2 = printed))) <$>
        (g.callTold (Printer.tell { failuresOnly := true }) body a).run printed =
      (fun o => (o, o.isOk)) <$> g.call body a) ∧
    (g.NamesOnOneLine a → ∀ o, (∀ f, o = .error f → g.check a ≠ .error f → OneLine f.message) →
      ∀ e ∈ g.eventsOf a o, IsLine e.entry) := by
  refine ⟨fun r => ?_, fun printed => ?_, fun printed => ?_, g.silent_iff_isOk body a,
    fun h o ho => Guard.isLine_entry_of_mem_eventsOf h ho⟩
  · rw [Guard.run_callTold]
    simp only [Guard.foldl_observe]
  · exact g.run_callTold_tell {} body a printed
  · simp only [Event.isFailure_record]
    exact g.run_callTold_tell { failuresOnly := true } body a printed

/-- A body that fails, called with a string of two lines: three lines are printed, of which the last
is about a failure. -/
theorem printers_keep_pace_with_recordings_text :
    let g : Guard :=
      { signature :=
          { name := "f", params := [{ name := "x" }], names_nodup := by decide
            defaults_last := by decide } }
    let o : Except Failure Value := .error { kind := .runtime, message := "no" }
    let a := Arguments.empty.pass (.str "1\n2")
    ((g.callTold (m := Id) (Printer.tell {}) (fun _ => o) a).run "").2 =
        "  >>> BIND f               x='1\\n2'\n" ++ "  >>> CALL f\n" ++
          "  !!! ERROR f              RuntimeError: no\n" ∧
      ((g.callTold (m := Id) (Printer.tell { failuresOnly := true }) (fun _ => o) a).run "").2 =
        "  !!! ERROR f              RuntimeError: no\n" ∧
      ∀ e ∈ g.eventsOf a o, IsLine e.entry := by
  intro g o a
  obtain ⟨-, hall, hfailures, -, hlines⟩ :=
    printers_keep_pace_with_recordings (m := Id) g (fun _ => o) a
  have hnames : g.NamesOnOneLine a :=
    ⟨by decide, List.forall_mem_singleton.2 (by decide), List.forall_mem_nil _⟩
  have hmessage : ∀ f, o = .error f → g.check a ≠ .error f → OneLine f.message := by
    intro f hf _
    rw [← Except.error.inj hf]
    decide
  refine ⟨?_, ?_, hlines hnames o hmessage⟩
  · rw [hall]
    decide +kernel
  · rw [hfailures]
    decide +kernel

end GuardedCall
