import Mathlib.Logic.Function.Basic
import Rjr.Lib.Heap
import Rjr.Lib.Machine

/-!
# EventMachine adapter

`lib/rjr/util/em_adapter.rb`. The adapter starts a thread for the reactor unless `@reactor_thread`
names one, and that thread clears `@reactor_thread` when `EventMachine.run` has returned or raised.
Both happen under `@em_lock`, each in one step. The thread ends some time after it has released the
lock. `halt` and the loop at the end of `start` look at `EventMachine.reactor_running?` without a
lock.

Of EventMachine this much is assumed: `run` enters the loop, or returns at once if a loop runs
already; the loop ends when it is told to stop, or with an exception; and `reactor_running?` tells
whether a thread is in the loop. What is called through `method_missing` is not part of the model.
-/

namespace Rjr

/-- Where a thread that `start` has created is. -/
inductive ReactorPhase where
  /-- Before `EventMachine.run`. -/
  | created
  /-- In `EventMachine.run`. -/
  | looping
  /-- Before the `synchronize` of its `ensure`. -/
  | returned
  /-- After the `synchronize` of its `ensure`. -/
  | cleared
  /-- The thread has ended, or was not created yet. -/
  | ended
  deriving DecidableEq, Repr

/-- Whether a thread was created and has not cleared `@reactor_thread`. -/
def ReactorPhase.active : ReactorPhase → Bool
  | .created | .looping | .returned => true
  | .cleared | .ended => false

/-- Where a thread that uses the adapter is. -/
inductive CallerPhase where
  /-- In no method of the adapter. -/
  | outside
  /-- In `sleep 0.01 until EventMachine.reactor_running?`. -/
  | starting
  /-- In `halt`, before `EventMachine.stop_event_loop`. -/
  | halting
  /-- In `th.join`. -/
  | joining (thread : Nat)
  deriving DecidableEq, Repr

/-- `EMAdapter`, EventMachine and the threads that use them. -/
structure EMAdapter where
  /-- `@reactor_thread`. -/
  reactorThread : Option Nat
  /-- Every thread that `start` has created. -/
  reactors : Heap ReactorPhase
  /-- The thread that is in EventMachine's loop. -/
  loop : Option Nat
  /-- Whether the loop was told to stop. -/
  stopping : Bool
  /-- The other threads. -/
  callers : Nat → CallerPhase

/-- What the threads can do. -/
inductive EMAction where
  /-- `start`, up to its loop. -/
  | start (caller : Nat)
  /-- One turn of the loop in `start`. -/
  | await (caller : Nat)
  /-- `halt` looks at `EventMachine.reactor_running?`. -/
  | halt (caller : Nat)
  /-- `EventMachine.stop_event_loop`; without a loop it raises. -/
  | stop (caller : Nat)
  /-- `join`, up to `th.join`. -/
  | join (caller : Nat)
  /-- `th.join` returns. -/
  | joined (caller : Nat)
  /-- A thread enters `EventMachine.run`. -/
  | enter (thread : Nat)
  /-- The loop ends because it was told to. -/
  | leave
  /-- `EventMachine.run` raises. -/
  | crash
  /-- `@em_lock.synchronize { @reactor_thread = nil }`. -/
  | clear (thread : Nat)
  /-- A thread that has done so ends. -/
  | exit (thread : Nat)

namespace EMAdapter

/-- `initialize`. -/
def new : EMAdapter where
  reactorThread := none
  reactors := Heap.new .ended
  loop := none
  stopping := false
  callers _ := .outside

/-- `EventMachine.reactor_running?`. -/
def running (adapter : EMAdapter) : Bool := adapter.loop.isSome

/-- A caller moves on. -/
def moveCaller (adapter : EMAdapter) (caller : Nat) (phase : CallerPhase) : EMAdapter :=
  { adapter with callers := Function.update adapter.callers caller phase }

/-- A thread that was created moves on. -/
def moveReactor (adapter : EMAdapter) (thread : Nat) (phase : ReactorPhase) : EMAdapter :=
  { adapter with reactors := adapter.reactors.write thread phase }

/-- The locked part of `start`. -/
def launch (adapter : EMAdapter) : EMAdapter :=
  match adapter.reactorThread with
  | some _ => adapter
  | none =>
    let created := adapter.reactors.alloc .created
    { adapter with reactors := created.2, reactorThread := some created.1 }

/-- A thread enters `EventMachine.run`, which returns at once if the loop is already running. -/
def enter (adapter : EMAdapter) (thread : Nat) : EMAdapter :=
  if adapter.running then adapter.moveReactor thread .returned
  else { adapter.moveReactor thread .looping with loop := some thread, stopping := false }

/-- The loop ends. -/
def endLoop (adapter : EMAdapter) (thread : Nat) : EMAdapter :=
  { adapter.moveReactor thread .returned with loop := none }

/-- The steps. -/
def step (adapter : EMAdapter) : EMAction → Option EMAdapter
  | .start caller =>
    match adapter.callers caller with
    | .outside => some (adapter.launch.moveCaller caller .starting)
    | _ => none
  | .await caller =>
    match adapter.callers caller with
    | .starting =>
      if adapter.running then some (adapter.moveCaller caller .outside) else some adapter
    | _ => none
  | .halt caller =>
    match adapter.callers caller with
    | .outside =>
      if adapter.running then some (adapter.moveCaller caller .halting) else some adapter
    | _ => none
  | .stop caller =>
    match adapter.callers caller with
    | .halting => some { adapter.moveCaller caller .outside with
        stopping := adapter.stopping || adapter.running }
    | _ => none
  | .join caller =>
    match adapter.callers caller, adapter.reactorThread with
    | .outside, some thread => some (adapter.moveCaller caller (.joining thread))
    | .outside, none => some adapter
    | _, _ => none
  | .joined caller =>
    match adapter.callers caller with
    | .joining thread =>
      match adapter.reactors.read thread with
      | .ended => some (adapter.moveCaller caller .outside)
      | _ => none
    | _ => none
  | .enter thread =>
    match adapter.reactors.read thread with
    | .created => some (adapter.enter thread)
    | _ => none
  | .leave =>
    match adapter.loop with
    | some thread => if adapter.stopping then some (adapter.endLoop thread) else none
    | none => none
  | .crash => adapter.loop.map adapter.endLoop
  | .clear thread =>
    match adapter.reactors.read thread with
    | .returned => some { adapter.moveReactor thread .cleared with reactorThread := none }
    | _ => none
  | .exit thread =>
    match adapter.reactors.read thread with
    | .cleared => some (adapter.moveReactor thread .ended)
    | _ => none

/-- The adapter and its threads, in any interleaving. -/
def machine : Machine EMAdapter EMAction := ⟨step⟩

/-! ## What a step can do -/

/-- Everything an action can do. -/
inductive Transition (adapter : EMAdapter) : EMAction → EMAdapter → Prop where
  /-- A thread has called `start`. -/
  | start (caller : Nat) (outside : adapter.callers caller = .outside) :
      Transition adapter (.start caller) (adapter.launch.moveCaller caller .starting)
  /-- A thread goes on in a method of the adapter. It leaves `start` only when the loop runs. -/
  | call {action : EMAction} (caller : Nat) (phase : CallerPhase) (stopping : Bool)
      (waits : adapter.callers caller = .starting → adapter.running = true) :
      Transition adapter action { adapter.moveCaller caller phase with stopping := stopping }
  /-- Nothing changes. -/
  | same {action : EMAction} : Transition adapter action adapter
  /-- A thread that was created enters `EventMachine.run`. -/
  | enter (thread : Nat) (created : adapter.reactors.read thread = .created) :
      Transition adapter (.enter thread) (adapter.enter thread)
  /-- The loop ends. -/
  | ended {action : EMAction} (thread : Nat) (running : adapter.loop = some thread) :
      Transition adapter action (adapter.endLoop thread)
  /-- A thread whose loop has ended clears `@reactor_thread`. -/
  | clear (thread : Nat) (returned : adapter.reactors.read thread = .returned) :
      Transition adapter (.clear thread)
        { adapter.moveReactor thread .cleared with reactorThread := none }
  /-- A thread that has cleared `@reactor_thread` ends. -/
  | exit (thread : Nat) (cleared : adapter.reactors.read thread = .cleared) :
      Transition adapter (.exit thread) (adapter.moveReactor thread .ended)

/-- Every step is one of the transitions. -/
theorem transition_of_step {adapter next : EMAdapter} {action : EMAction}
    (stepped : machine.step adapter action = some next) : Transition adapter action next := by
  cases action with
  | start caller =>
    simp only [machine, step] at stepped
    split at stepped
    · rename_i outside
      cases stepped
      exact .start caller outside
    · cases stepped
  | await caller =>
    simp only [machine, step] at stepped
    split at stepped
    · split at stepped
      · rename_i running
        cases stepped
        exact .call caller .outside adapter.stopping fun _ => running
      · cases stepped
        exact .same
    · cases stepped
  | halt caller =>
    simp only [machine, step] at stepped
    split at stepped
    · split at stepped
      · rename_i running
        cases stepped
        exact .call caller .halting adapter.stopping fun _ => running
      · cases stepped
        exact .same
    · cases stepped
  | stop caller =>
    simp only [machine, step] at stepped
    split at stepped
    · rename_i halting
      cases stepped
      exact .call caller .outside _ fun starting => by rw [halting] at starting; cases starting
    · cases stepped
  | join caller =>
    simp only [machine, step] at stepped
    split at stepped
    · rename_i thread outside named
      cases stepped
      exact .call caller (.joining thread) adapter.stopping
        fun starting => by rw [outside] at starting; cases starting
    · cases stepped
      exact .same
    · cases stepped
  | joined caller =>
    simp only [machine, step] at stepped
    split at stepped
    · rename_i thread joining
      split at stepped
      · cases stepped
        exact .call caller .outside adapter.stopping
          fun starting => by rw [joining] at starting; cases starting
      · cases stepped
    · cases stepped
  | enter thread =>
    simp only [machine, step] at stepped
    split at stepped
    · rename_i created
      cases stepped
      exact .enter thread created
    · cases stepped
  | leave =>
    simp only [machine, step] at stepped
    split at stepped
    · rename_i thread running
      split at stepped
      · cases stepped
        exact .ended thread running
      · cases stepped
    · cases stepped
  | crash =>
    obtain ⟨thread, running, rfl⟩ := Option.map_eq_some_iff.mp stepped
    exact .ended thread running
  | clear thread =>
    simp only [machine, step] at stepped
    split at stepped
    · rename_i returned
      cases stepped
      exact .clear thread returned
    · cases stepped
  | exit thread =>
    simp only [machine, step] at stepped
    split at stepped
    · rename_i cleared
      cases stepped
      exact .exit thread cleared
    · cases stepped

end EMAdapter

end Rjr
