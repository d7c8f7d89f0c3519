import GuardedCall.Recording
import GuardedCall.Proofs.Preparation

/-!
# Observed calls

An observer is told the events of a guarded call one after another, and changes nothing but its
own state. So an observed call is the call itself, together with a state that has gone through all
events: those before the body, the start of the body if it runs, and the end.

Main definition: `Guard.eventsOf`. Main statements: `run_callTold`, `fst_run`.
-/

namespace GuardedCall.Guard

/-- All events of a call that ends in `o`. -/
def eventsOf (g : Guard) (a : Arguments) (o : Except Failure Value) : List Event :=
  (g.prepare a).1 ++ (match g.check a with
    | .error _ => []
    | .ok _ => [.invoke g.name]) ++ [g.outcomeEvent o]

variable {m : Type → Type} [Monad m] [LawfulMonad m] {σ : Type}

/-- Events that are told one after another change the state one after another. -/
theorem run_forM_tell (tell : σ → Event → σ) (events : List Event) (t : σ) :
    (events.forM fun e => (modify fun s => tell s e : StateT σ m Unit)).run t =
      pure ((), events.foldl tell t) := by
  induction events generalizing t with
  | nil => rfl
  | cons e events ih =>
    show ((modify fun s => tell s e : StateT σ m Unit) >>= fun _ =>
      events.forM fun e => (modify fun s => tell s e : StateT σ m Unit)).run t = _
    rw [StateT.run_bind, StateT.run_modify, pure_bind, ih, List.foldl_cons]

/-- An observed call is the call, and the observer has been told its events. -/
theorem run_callTold (g : Guard) (tell : σ → Event → σ) (body : Bound → m (Except Failure Value))
    (a : Arguments) (t : σ) :
    (g.callTold tell body a).run t =
      (fun o => (o, (g.eventsOf a o).foldl tell t)) <$> g.call body a := by
  rw [call_eq_check, callTold, callObserved, check]
  simp only [StateT.run_bind, run_forM_tell, pure_bind, eventsOf, check, List.foldl_append]
  cases (g.prepare a).2 with
  | error f => simp
  | ok b => simp

/-- Whatever an observer does, the outcome is that of the call. -/
theorem fst_run_callTold (g : Guard) (tell : σ → Event → σ)
    (body : Bound → m (Except Failure Value)) (a : Arguments) (t : σ) :
    Prod.fst <$> (g.callTold tell body a).run t = g.call body a := by
  rw [run_callTold, ← comp_map]
  exact id_map _

/-- The outcome of a recorded run is the check and then the body. -/
theorem fst_run (g : Guard) (body : Bound → Except Failure Value) (a : Arguments) :
    (g.run body a).1 = g.check a >>= body := by
  have hfst := fst_run_callTold (m := Id) g (fun events e => events ++ [e])
    (fun b => pure (body b)) a []
  rw [call_eq_check] at hfst
  refine Eq.trans hfst ?_
  cases g.check a with
  | error f => rfl
  | ok b => rfl

end GuardedCall.Guard
