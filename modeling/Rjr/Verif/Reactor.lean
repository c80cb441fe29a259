import Rjr.Lib.Simulation
import Rjr.Util.EMAdapter

/-!
# The reactor thread

However threads start, halt and join the reactor, at most one reactor thread at a time has not
cleared `@reactor_thread`, it is the one that is named there, and it never finds EventMachine's loop
running already. A thread that has cleared the name may still be about to end when the next one is
created.

`start` takes a thread that is named for one that runs. If the loop has ended and its thread has
not cleared `@reactor_thread` yet, `start` creates no thread and then waits for a loop that nobody
will begin: it returns only if some other call of `start` comes later.
-/

namespace Rjr.Verif.Reactor

open EMAdapter

variable {adapter next : EMAdapter}

/-! ## One reactor -/

/-- The threads are in order. -/
structure Single (adapter : EMAdapter) : Prop where
  /-- The thread that has not cleared the name is the one that is named. -/
  named : ∀ thread, (adapter.reactors.read thread).active = true ↔
    adapter.reactorThread = some thread
  /-- The thread that is looping is the one EventMachine knows. -/
  looping : ∀ thread, adapter.reactors.read thread = .looping ↔ adapter.loop = some thread
  /-- Threads that were not created have not begun. -/
  fresh : ∀ thread, adapter.reactors.next ≤ thread → adapter.reactors.read thread = .ended

/-- Nothing has begun. -/
theorem single_new : Single new where
  named _ := ⟨nofun, nofun⟩
  looping _ := ⟨nofun, nofun⟩
  fresh _ _ := rfl

/-- Threads that only call the adapter change nothing. -/
theorem Single.of_same (single : Single adapter) (reactors : next.reactors = adapter.reactors)
    (reactorThread : next.reactorThread = adapter.reactorThread)
    (loop : next.loop = adapter.loop) : Single next where
  named := by rw [reactors, reactorThread]; exact single.named
  looping := by rw [reactors, loop]; exact single.looping
  fresh := by rw [reactors]; exact single.fresh

/-- Two threads that have not cleared the name are the same. -/
theorem Single.unique (single : Single adapter) {first second : Nat}
    (one : (adapter.reactors.read first).active = true)
    (other : (adapter.reactors.read second).active = true) : first = second :=
  Option.some.inj (((single.named first).mp one).symm.trans ((single.named second).mp other))

/-- The thread in the loop is named. -/
theorem Single.loop_named (single : Single adapter) {thread : Nat}
    (running : adapter.loop = some thread) : adapter.reactorThread = some thread :=
  (single.named thread).mp (by rw [(single.looping thread).mpr running]; rfl)

/-- While a thread is before or after the loop, there is no loop. -/
theorem Single.no_loop (single : Single adapter) {thread : Nat}
    (begun : (adapter.reactors.read thread).active = true)
    (apart : adapter.reactors.read thread ≠ .looping) : adapter.loop = none := by
  cases running : adapter.loop with
  | none => rfl
  | some other =>
    have looping := (single.looping other).mpr running
    have same := single.unique begun (by rw [looping]; rfl)
    rw [← same] at looping
    exact absurd looping apart

/-- A thread that was created finds no loop. -/
theorem Single.not_running (single : Single adapter) {thread : Nat}
    (created : adapter.reactors.read thread = .created) : adapter.running = false := by
  have none := single.no_loop (by rw [created]; rfl) (by rw [created]; decide)
  rw [running, none]
  rfl

/-- The locked part of `start` creates a thread only if none is named. -/
theorem single_launch (single : Single adapter) : Single adapter.launch := by
  unfold launch
  split
  · exact single
  · rename_i unnamed
    have others : ∀ thread, (adapter.reactors.read thread).active = false := by
      intro thread
      rw [Bool.eq_false_iff]
      intro begun
      have named := (single.named thread).mp begun
      rw [unnamed] at named
      cases named
    refine ⟨fun thread => ?_, fun thread => ?_, fun thread beyond => ?_⟩
    · change ((adapter.reactors.alloc .created).2.read thread).active = true ↔
        some adapter.reactors.next = some thread
      rw [Heap.read_alloc_eq, Option.some.injEq]
      split
      · rename_i own
        exact iff_of_true rfl own.symm
      · rename_i other
        rw [others thread]
        exact iff_of_false Bool.false_ne_true fun own => other own.symm
    · change (adapter.reactors.alloc .created).2.read thread = .looping ↔
        adapter.loop = some thread
      rw [Heap.read_alloc_eq, ← single.looping thread]
      split
      · rename_i own
        rw [own, single.fresh _ (Nat.le_refl _)]
        exact iff_of_false nofun nofun
      · exact Iff.rfl
    · change (adapter.reactors.alloc .created).2.read thread = .ended
      rw [Heap.read_alloc_eq, if_neg (Nat.ne_of_gt beyond)]
      exact single.fresh thread (Nat.le_of_succ_le beyond)

/-- The named thread moves on. -/
theorem single_move (single : Single adapter) {thread : Nat} {phase : ReactorPhase}
    (named : adapter.reactorThread = some thread)
    (reactors : next.reactors = adapter.reactors.write thread phase)
    (reactorThread : next.reactorThread = if phase.active then some thread else none)
    (loop : next.loop = if phase = .looping then some thread else none) : Single next where
  named other := by
    rw [reactors, reactorThread, Heap.read_write]
    by_cases own : other = thread
    · rw [if_pos own, own]
      cases phase.active <;> simp
    · rw [if_neg own, single.named other, named]
      have differs : some thread ≠ some other := fun same => own (Option.some.inj same).symm
      split
      · exact Iff.rfl
      · exact iff_of_false differs nofun
  looping other := by
    rw [reactors, loop, Heap.read_write]
    by_cases own : other = thread
    · rw [if_pos own, own]
      split
      · rename_i looping
        exact iff_of_true looping rfl
      · rename_i differs
        exact iff_of_false differs nofun
    · rw [if_neg own, single.looping other]
      have differs : some thread ≠ some other := fun same => own (Option.some.inj same).symm
      have apart : adapter.loop ≠ some other := by
        intro running
        have also := single.loop_named running
        rw [named] at also
        exact differs also
      split
      · exact iff_of_false apart differs
      · exact iff_of_false apart nofun
  fresh other beyond := by
    rw [reactors] at beyond ⊢
    have begun := (single.named thread).mpr named
    have differs : other ≠ thread := by
      rintro rfl
      rw [single.fresh other beyond] at begun
      cases begun
    rw [Heap.read_write, if_neg differs]
    exact single.fresh other beyond

/-- A thread that has cleared the name ends. -/
theorem single_exit (single : Single adapter) {thread : Nat}
    (cleared : adapter.reactors.read thread = .cleared) :
    Single (adapter.moveReactor thread .ended) where
  named other := by
    change ((adapter.reactors.write thread .ended).read other).active = true ↔
      adapter.reactorThread = some other
    rw [← single.named other, Heap.read_write]
    split
    · rename_i own
      rw [own, cleared]
      rfl
    · exact Iff.rfl
  looping other := by
    change (adapter.reactors.write thread .ended).read other = .looping ↔
      adapter.loop = some other
    rw [← single.looping other, Heap.read_write]
    split
    · rename_i own
      rw [own, cleared]
      exact iff_of_false nofun nofun
    · exact Iff.rfl
  fresh other beyond := by
    rw [moveReactor, Heap.read_write]
    split
    · rfl
    · exact single.fresh other beyond

/-- Every step keeps the threads in order. -/
theorem single_step (adapter : EMAdapter) (action : EMAction) (next : EMAdapter)
    (single : Single adapter) (stepped : machine.step adapter action = some next) :
    Single next := by
  have transition := transition_of_step stepped
  cases transition with
  | start caller outside => exact (single_launch single).of_same rfl rfl rfl
  | call caller phase stopping waits => exact single.of_same rfl rfl rfl
  | same => exact single
  | enter thread created =>
    have named := (single.named thread).mp (by rw [created]; rfl)
    rw [EMAdapter.enter, single.not_running created]
    exact single_move single named rfl named rfl
  | ended thread running =>
    have named := single.loop_named running
    exact single_move single named rfl named rfl
  | clear thread returned =>
    have named := (single.named thread).mp (by rw [returned]; rfl)
    have idle := single.no_loop (by rw [returned]; rfl) (by rw [returned]; decide)
    exact single_move single named rfl rfl idle
  | exit thread cleared => exact single_exit single cleared

/-- The threads are in order after every run. -/
theorem single_run {actions : List EMAction} {final : EMAdapter}
    (ran : machine.run EMAdapter.new actions = some final) : Single final :=
  machine.run_invariant Single single_step actions EMAdapter.new final single_new ran

/-- At any time at most one thread was created and has not cleared `@reactor_thread`, and it is the
one that is named there; a thread that enters `EventMachine.run` finds no loop running; and the
loop is run by the thread that is named. -/
theorem one_reactor (actions : List EMAction) (final : EMAdapter)
    (ran : machine.run EMAdapter.new actions = some final) :
    (∀ thread, (final.reactors.read thread).active = true ↔
      final.reactorThread = some thread) ∧
      (∀ thread, final.reactors.read thread = .created → final.running = false) ∧
      ∀ thread, final.loop = some thread → final.reactorThread = some thread := by
  have single := single_run ran
  exact ⟨single.named, fun thread created => single.not_running created,
    fun thread running => single.loop_named running⟩

/-- A reactor is halted and another one started, before the thread of the first has ended. -/
def succeeded : List EMAction :=
  [.start 0, .enter 0, .await 0, .halt 0, .stop 0, .leave, .clear 0, .start 1]

/-- Two threads have not ended, and the second finds no loop. -/
theorem succeeded_one_reactor : ∃ final : EMAdapter,
    machine.run EMAdapter.new succeeded = some final ∧ final.reactors.read 0 = .cleared ∧
      final.reactors.read 1 = .created ∧ final.running = false :=
  ⟨_, rfl, rfl, rfl, (one_reactor succeeded _ rfl).2.1 1 rfl⟩

/-! ## Starting -/

/-- Nobody calls `start`. -/
def NoStart : EMAction → Prop
  | .start _ => False
  | _ => True

/-- No thread will run the loop. -/
structure Overlooked (adapter : EMAdapter) (caller : Nat) : Prop where
  /-- No thread is on its way to the loop. -/
  reactors : ∀ thread, adapter.reactors.read thread ≠ .created ∧
    adapter.reactors.read thread ≠ .looping
  /-- The loop does not run. -/
  loop : adapter.loop = none
  /-- The caller waits for it. -/
  starting : adapter.callers caller = .starting

/-- Without another `start`, it stays so. -/
theorem overlooked_step (caller : Nat) (adapter : EMAdapter) (action : EMAction)
    (next : EMAdapter) (overlooked : Overlooked adapter caller) (unstarted : NoStart action)
    (stepped : machine.step adapter action = some next) : Overlooked next caller := by
  have transition := transition_of_step stepped
  cases transition with
  | start other outside => exact absurd unstarted id
  | call other phase stopping waits =>
    refine ⟨overlooked.reactors, overlooked.loop, ?_⟩
    -- a thread that waits moves on only while the loop runs
    have differs : caller ≠ other := by
      rintro rfl
      have running := waits overlooked.starting
      rw [EMAdapter.running, overlooked.loop] at running
      cases running
    change Function.update adapter.callers other phase caller = _
    rw [Function.update_of_ne differs]
    exact overlooked.starting
  | same => exact overlooked
  | enter thread created => exact absurd created (overlooked.reactors thread).1
  | ended thread running =>
    rw [overlooked.loop] at running
    cases running
  | clear thread returned =>
    refine ⟨fun other => ?_, overlooked.loop, overlooked.starting⟩
    change (adapter.reactors.write thread .cleared).read other ≠ _ ∧
      (adapter.reactors.write thread .cleared).read other ≠ _
    rw [Heap.read_write]
    split
    · exact ⟨nofun, nofun⟩
    · exact overlooked.reactors other
  | exit thread cleared =>
    refine ⟨fun other => ?_, overlooked.loop, overlooked.starting⟩
    rw [moveReactor, Heap.read_write]
    split
    · exact ⟨nofun, nofun⟩
    · exact overlooked.reactors other

/-- A thread that waits in `start` can return, without another `start`, exactly if some thread is
on its way to the loop or in it. -/
theorem start_returns_iff (actions : List EMAction) (adapter : EMAdapter)
    (ran : machine.run EMAdapter.new actions = some adapter) (caller : Nat)
    (starting : adapter.callers caller = .starting) :
    machine.Reaches NoStart adapter (fun final => final.callers caller = .outside) ↔
      ∃ thread, adapter.reactors.read thread = .created ∨
        adapter.reactors.read thread = .looping := by
  have single := single_run ran
  constructor
  · rintro ⟨later, final, unstarted, went, outside⟩
    by_contra absent
    have reactors : ∀ thread, adapter.reactors.read thread ≠ .created ∧
        adapter.reactors.read thread ≠ .looping :=
      fun thread => ⟨fun created => absent ⟨thread, .inl created⟩,
        fun looping => absent ⟨thread, .inr looping⟩⟩
    have idle : adapter.loop = none := by
      cases running : adapter.loop with
      | none => rfl
      | some thread => exact absurd ⟨thread, .inr ((single.looping thread).mpr running)⟩ absent
    have overlooked := machine.run_invariant_of (Overlooked · caller) NoStart
      (overlooked_step caller) later adapter final ⟨reactors, idle, starting⟩ unstarted went
    rw [overlooked.starting] at outside
    cases outside
  · -- the loop is entered if necessary, and the caller sees it
    have seen : ∀ other : EMAdapter, other.callers caller = .starting → other.running = true →
        machine.Reaches NoStart other (fun final => final.callers caller = .outside) := by
      intro other waits runs
      have stepped :
          machine.step other (.await caller) = some (other.moveCaller caller .outside) := by
        simp only [machine, step, waits, runs, ↓reduceIte]
      refine Machine.reaches_step stepped trivial ?_
      simp only [moveCaller, Function.update_self]
    rintro ⟨thread, created | looping⟩
    · have stepped : machine.step adapter (.enter thread) = some (adapter.enter thread) := by
        simp only [machine, step, created]
      have idle := single.not_running created
      refine .after stepped trivial (seen _ ?_ ?_)
      · rw [EMAdapter.enter, idle]
        exact starting
      · rw [EMAdapter.enter, idle]
        rfl
    · refine seen adapter starting ?_
      rw [running, (single.looping thread).mp looping]
      rfl

/-- Thread `0` starts the reactor and halts it; thread `1` starts it again after the loop has ended
and before `@reactor_thread` is cleared. -/
def restarted : List EMAction :=
  [.start 0, .enter 0, .await 0, .halt 0, .stop 0, .leave, .start 1]

/-- The loop of thread `0` has ended, the thread is still named, and thread `1` waits. -/
theorem restarted_run : ∃ adapter : EMAdapter,
    machine.run EMAdapter.new restarted = some adapter ∧ adapter.callers 1 = .starting ∧
      adapter.reactorThread = some 0 ∧ adapter.reactors.read 0 = .returned :=
  ⟨_, rfl, rfl, rfl, rfl⟩

/-- Thread `1` never returns from `start`, unless somebody calls it again. -/
theorem restarted_waits : ∃ adapter : EMAdapter,
    machine.run EMAdapter.new restarted = some adapter ∧ adapter.callers 1 = .starting ∧
      ¬ machine.Reaches NoStart adapter (fun final => final.callers 1 = .outside) := by
  obtain ⟨adapter, ran, starting, named, returned⟩ := restarted_run
  refine ⟨adapter, ran, starting, fun reaches => ?_⟩
  obtain ⟨thread, ready⟩ := (start_returns_iff restarted adapter ran 1 starting).mp reaches
  have begun : (adapter.reactors.read thread).active = true := by
    rcases ready with created | looping
    · rw [created]
      rfl
    · rw [looping]
      rfl
  have same := ((single_run ran).named thread).mp begun
  rw [named] at same
  rw [← Option.some.inj same, returned] at ready
  rcases ready with created | looping
  · cases created
  · cases looping

end Rjr.Verif.Reactor
