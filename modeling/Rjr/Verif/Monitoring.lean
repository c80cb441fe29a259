import Mathlib.Data.List.Perm.Subperm
import Rjr.Verif.JobLifecycle

/-!
# Monitoring of running jobs

The manager of the thread pool should kill a worker only because of the job that worker is
executing. It finds the worker through the job record, where `exec` leaves it when the handler
raises: the record of a job that raised names a worker that has gone on to other jobs, and no
completion is ever recorded. Once the timeout has passed, the manager kills that worker, whatever
it is doing. In a pool that is started and not stopped this is the only way a worker is killed for
a job that is not its own.
-/

namespace Rjr.Verif.Monitoring

open ThreadPool JobLifecycle

/-! ## The jobs under observation -/

/-- The jobs in the hands of a manager. -/
def inPass : ManagerPhase → List Nat
  | .scanning readd | .popping readd => readd
  | .examining work readd => work :: readd
  | .refilling works => works
  | .testing | .resting | .sleeping _ | .checking | .killing _ | .exited => []

/-- The jobs under observation: in `@running_queue` or in the hands of the manager. -/
def monitored (pool : ThreadPool) : List Nat :=
  pool.runningQueue ++ inPass (pool.managers.read 0).phase

/-- A pool that was started and not stopped: it has one manager, which kills nobody but the
workers of expired jobs. -/
structure Unstopped (pool : ThreadPool) : Prop where
  /-- `@terminate` is not set. -/
  running : pool.terminate = false
  /-- There is no other manager. -/
  single : ∀ id, id ≠ 0 → (pool.managers.read id).phase = .exited
  /-- The manager has not begun to kill all workers. -/
  peaceful : ∀ index, (pool.managers.read 0).phase ≠ .killing index

/-- The job has been announced. -/
def announced : Stage → Bool
  | .queued _ | .executing _ | .completed | .raised | .abandoned => true
  | .unborn | .waiting | .popped _ => false

/-- A job stays announced. -/
theorem announced_arrow {before after : Stage} (arrow : Arrow before after)
    (was : announced before = true) : announced after = true := by
  cases arrow with
  | push | pop => cases was
  | announce | begin | complete | raise | kill => rfl

/-- The pool as `start` leaves it. -/
def started (numThreads timeout : Option Nat) : ThreadPool :=
  (ThreadPool.new numThreads timeout).start

/-- A started pool has one manager and nothing to observe. -/
theorem unstopped_started (numThreads timeout : Option Nat) :
    Unstopped (started numThreads timeout) ∧ monitored (started numThreads timeout) = [] := by
  obtain ⟨terminate, managers, queue, _⟩ := launchWorkers_frame (numThreads.getD 20)
    { ThreadPool.new numThreads timeout with terminate := false }
  have manager : (started numThreads timeout).managers =
      ((Heap.new ⟨.exited, false⟩ : Heap Manager).alloc ⟨.testing, false⟩).2 := by
    change ((launchWorkers (numThreads.getD 20)
      { ThreadPool.new numThreads timeout with terminate := false }).managers.alloc _).2 = _
    rw [managers]
    rfl
  refine ⟨⟨terminate, ?_, ?_⟩, ?_⟩
  · intro id other
    rw [manager, Heap.read_alloc_eq]
    exact congrArg Manager.phase (if_neg other)
  · rw [manager]
    nofun
  · rw [monitored, manager]
    exact List.append_eq_nil_iff.mpr ⟨queue, rfl⟩

section Manager

variable {pool : ThreadPool} (unstopped : Unstopped pool)

include unstopped

/-- The manager of an unstopped pool moves on. -/
theorem unstopped_moveManager {phase : ManagerPhase} (peaceful : ∀ index, phase ≠ .killing index) :
    Unstopped (pool.moveManager 0 phase) where
  running := unstopped.running
  single id other := by
    change ((pool.managers.write 0 _).read id).phase = _
    rw [Heap.read_write, if_neg other]
    exact unstopped.single id other
  peaceful := by
    change ∀ index, ((pool.managers.write 0 _).read 0).phase ≠ _
    rw [Heap.read_write_same]
    exact peaceful

omit unstopped in
/-- What is observed after the manager has moved on. -/
theorem monitored_moveManager (phase : ManagerPhase) :
    monitored (pool.moveManager 0 phase) = pool.runningQueue ++ inPass phase := by
  rw [monitored]
  change _ ++ inPass ((pool.managers.write 0 _).read 0).phase = _
  rw [Heap.read_write_same]
  rfl

omit unstopped in
/-- After `check_workers` the manager has no job in its hands and kills nobody. -/
theorem afterCheck_done (id : Nat) :
    inPass (pool.afterCheck id) = [] ∧ ∀ index, pool.afterCheck id ≠ .killing index := by
  unfold afterCheck
  split
  · exact ⟨rfl, nofun⟩
  · exact ⟨rfl, nofun⟩

/-- `start` on a running pool does nothing. -/
theorem start_unstopped : pool.start = pool := by
  rw [start, unstopped.running]
  rfl

/-- Only the manager with reference 0 takes steps. -/
theorem manager_zero {id : Nat} {next : ThreadPool} (managed : ManagerTransition pool id next) :
    id = 0 := by
  by_contra other
  have exited := unstopped.single id other
  cases managed <;> simp_all

/-- Examining a job keeps the others under observation. -/
theorem monitors_examine (limit work : Nat) (readd : List Nat)
    (phase : (pool.managers.read 0).phase = .examining work readd) :
    Unstopped (pool.examine 0 limit work readd) ∧
      (monitored (pool.examine 0 limit work readd)).Subperm (monitored pool) := by
  have before : monitored pool = pool.runningQueue ++ (work :: readd) := by
    rw [monitored, phase]
    rfl
  have dropped : (pool.runningQueue ++ readd).Subperm (monitored pool) := by
    rw [before]
    exact ((List.sublist_cons_self work readd).append_left _).subperm
  have examined := examined_examine pool 0 limit work readd
  generalize pool.examine 0 limit work readd = next at examined
  cases examined with
  | replaced thread expired named =>
    have replaced : Unstopped (pool.replaceWorker thread) :=
      ⟨unstopped.running, unstopped.single, unstopped.peaceful⟩
    refine ⟨unstopped_moveManager replaced nofun, ?_⟩
    rw [monitored_moveManager]
    exact dropped
  | failed =>
    refine ⟨unstopped_moveManager unstopped nofun, ?_⟩
    rw [monitored_moveManager, before]
    exact (List.append_sublist_append_left _ |>.mpr (List.nil_sublist _)).subperm
  | dropped =>
    refine ⟨unstopped_moveManager unstopped nofun, ?_⟩
    rw [monitored_moveManager]
    exact dropped
  | kept =>
    refine ⟨unstopped_moveManager unstopped nofun, ?_⟩
    rw [monitored_moveManager, before]
    exact (List.perm_append_comm.append_left _).subperm

/-- A step of the manager observes no other jobs than before. -/
theorem monitors_manager {next : ThreadPool} (managed : ManagerTransition pool 0 next) :
    Unstopped next ∧ (monitored next).Subperm (monitored pool) := by
  have moves : ∀ phase, (∀ index, phase ≠ .killing index) →
      (pool.runningQueue ++ inPass phase).Perm (monitored pool) →
      Unstopped (pool.moveManager 0 phase) ∧
        (monitored (pool.moveManager 0 phase)).Subperm (monitored pool) := by
    intro phase peaceful same
    refine ⟨unstopped_moveManager unstopped peaceful, ?_⟩
    rw [monitored_moveManager]
    exact same.subperm
  cases managed with
  | quit phase stopped =>
    rw [unstopped.running] at stopped
    cases stopped
  | rest limit phase running timeout => exact moves _ nofun (by rw [monitored, phase]; rfl)
  | sleep limit phase timeout => exact moves _ nofun (by rw [monitored, phase]; rfl)
  | yield phase running timeout => exact ⟨unstopped, List.Subperm.refl _⟩
  | wake wakeAt phase due => exact moves _ nofun (by rw [monitored, phase]; rfl)
  | sweep phase stopped =>
    rw [unstopped.running] at stopped
    cases stopped
  | pass limit phase running timeout => exact moves _ nofun (by rw [monitored, phase]; rfl)
  | skip phase running timeout =>
    exact moves _ (afterCheck_done 0).2 (by rw [monitored, phase, (afterCheck_done 0).1]; rfl)
  | kill index thread phase listed => exact absurd phase (unstopped.peaceful index)
  | swept index phase beyond => exact absurd phase (unstopped.peaceful index)
  | more readd phase nonempty => exact moves _ nofun (by rw [monitored, phase]; rfl)
  | drained readd phase => exact moves _ nofun (by rw [monitored, phase]; rfl)
  | pop work rest readd phase queue =>
    have taken : Unstopped { pool with runningQueue := rest } :=
      ⟨unstopped.running, unstopped.single, unstopped.peaceful⟩
    refine ⟨unstopped_moveManager taken nofun, ?_⟩
    change (monitored ({ pool with runningQueue := rest }.moveManager 0 _)).Subperm _
    rw [monitored_moveManager, monitored, phase, queue]
    exact List.perm_middle.subperm
  | examine limit work readd phase timeout =>
    exact monitors_examine unstopped limit work readd phase
  | refilled phase =>
    exact moves _ (afterCheck_done 0).2 (by rw [monitored, phase, (afterCheck_done 0).1]; rfl)
  | refill work rest phase =>
    have added : Unstopped { pool with runningQueue := pool.runningQueue ++ [work] } :=
      ⟨unstopped.running, unstopped.single, unstopped.peaceful⟩
    refine ⟨unstopped_moveManager added nofun, ?_⟩
    change (monitored ({ pool with runningQueue := pool.runningQueue ++ [work] }.moveManager 0
      _)).Subperm _
    rw [monitored_moveManager, monitored, phase, List.append_assoc]
    exact List.Subperm.refl _

/-- A step of an unstopped pool puts at most one job under observation: one that its worker
announces. -/
theorem monitors_transition {action : PoolAction} {next : ThreadPool} (allowed : action ≠ .stop)
    (transition : Transition pool action next) :
    Unstopped next ∧ ((monitored next).Subperm (monitored pool) ∨
      ∃ thread work, pool.threads.read thread = .popped work ∧
        next.threads.read thread = .queued work ∧
        (monitored next).Perm (work :: monitored pool)) := by
  cases transition with
  | start =>
    rw [start_unstopped unstopped]
    exact ⟨unstopped, .inl (List.Subperm.refl _)⟩
  | stop => exact absurd rfl allowed
  | announce thread work popped =>
    refine ⟨⟨unstopped.running, unstopped.single, unstopped.peaceful⟩,
      .inr ⟨thread, work, popped, Heap.read_write_same _ _ _, ?_⟩⟩
    change (pool.runningQueue ++ [work] ++ _).Perm _
    rw [List.append_assoc]
    exact List.perm_middle
  | manage id next managed =>
    obtain rfl := manager_zero unstopped managed
    obtain ⟨unstoppedNext, fewer⟩ := monitors_manager unstopped managed
    exact ⟨unstoppedNext, .inl fewer⟩
  | push | pop | begin | complete | returns | raises | tick =>
    exact ⟨⟨unstopped.running, unstopped.single, unstopped.peaceful⟩,
      .inl (List.Subperm.refl _)⟩

end Manager

/-- The jobs under observation have been announced, and none is observed twice. -/
structure Monitored (pool : ThreadPool) (stage : Nat → Stage) : Prop where
  /-- The pool was not stopped. -/
  unstopped : Unstopped pool
  /-- No job is observed twice. -/
  nodup : (monitored pool).Nodup
  /-- Every observed job was announced. -/
  announced : ∀ work ∈ monitored pool, announced (stage work) = true

section Kills

variable {pool next : ThreadPool} {stage after : Nat → Stage} {action : PoolAction}

/-- Observation goes on as the jobs follow their lifecycle. -/
theorem monitored_transition (tracked : Tracked pool stage) (before : Monitored pool stage)
    (allowed : action ≠ .stop) (transition : Transition pool action next)
    (follows : Follows next stage after) : Monitored next after := by
  have still : ∀ work ∈ monitored pool, Monitoring.announced (after work) = true := by
    intro work inside
    have was := before.announced work inside
    rcases follows.moved work with same | arrow
    · rw [same]
      exact was
    · exact announced_arrow arrow was
  obtain ⟨unstopped, fewer | ⟨thread, work, popped, queued, added⟩⟩ :=
    monitors_transition before.unstopped allowed transition
  · refine ⟨unstopped, ?_, fun work inside => still work (fewer.subset inside)⟩
    obtain ⟨kept, perm, sublist⟩ := fewer
    exact perm.nodup_iff.mp (before.nodup.sublist sublist)
  · have isPopped : stage work = .popped thread :=
      stage_held tracked (congrArg (held thread) popped)
    have isQueued : after work = .queued thread :=
      stage_held follows.tracked (congrArg (held thread) queued)
    have new : work ∉ monitored pool := by
      intro inside
      have was := before.announced work inside
      rw [isPopped] at was
      cases was
    refine ⟨unstopped, added.nodup_iff.mpr (List.nodup_cons.mpr ⟨new, before.nodup⟩), ?_⟩
    intro other inside
    rcases List.mem_cons.mp (added.mem_iff.mp inside) with rfl | inside
    · rw [isQueued]
      rfl
    · exact still other inside

/-- A worker that moves on is not dead, nor does another one die. -/
theorem alive_moveWorker {thread other : Nat} {phase : WorkerPhase} (lives : phase ≠ .dead)
    (alive : pool.threads.read other ≠ .dead) :
    (pool.threads.write thread phase).read other ≠ .dead := by
  rw [Heap.read_write]
  split
  · exact lives
  · exact alive

/-- The threads after one was replaced. -/
theorem read_replaceWorker (victim other : Nat) :
    (pool.replaceWorker victim).threads.read other =
      if other = pool.threads.next then .idle
      else if other = victim then .dead else pool.threads.read other := rfl

/-- The manager examines a job that has expired and names a thread. -/
structure Expires (pool : ThreadPool) (action : PoolAction) (work thread : Nat)
    (readd : List Nat) : Prop where
  /-- It is a step of the manager. -/
  manages : action = .manage 0
  /-- The manager is at the job. -/
  phase : (pool.managers.read 0).phase = .examining work readd
  /-- The job has expired. -/
  expired : ∃ limit, pool.timeout = some limit ∧
    (pool.jobs.read work).expired limit pool.clock = true
  /-- The job names the thread. -/
  named : (pool.jobs.read work).thread = some thread

/-- What `check_workers` does with an expired job. -/
theorem examine_expired {id limit work thread : Nat} {readd : List Nat}
    (expired : (pool.jobs.read work).expired limit pool.clock = true)
    (named : (pool.jobs.read work).thread = some thread) :
    pool.examine id limit work readd =
      (pool.replaceWorker thread).moveManager id (.scanning readd) := by
  simp only [examine, expired, named, ↓reduceIte]

/-- The locked part of `check_workers` leaves the threads alone unless the job has expired. -/
theorem examine_spares {id limit work : Nat} {readd : List Nat}
    (spared : (pool.jobs.read work).expired limit pool.clock = false ∨
      (pool.jobs.read work).thread = none) :
    (pool.examine id limit work readd).threads = pool.threads := by
  have examined := examined_examine pool id limit work readd
  generalize pool.examine id limit work readd = next at examined
  cases examined with
  | replaced thread expired named =>
    rcases spared with young | unnamed
    · rw [expired] at young
      cases young
    · rw [named] at unnamed
      cases unnamed
  | failed | dropped | kept => rfl

/-- The manager's step on an expired job replaces the thread it names. -/
theorem expires_replaces {work thread : Nat} {readd : List Nat}
    (transition : Transition pool action next) (expires : Expires pool action work thread readd) :
    next = (pool.replaceWorker thread).moveManager 0 (.scanning readd) := by
  obtain ⟨rfl, isExamining, ⟨limit, isTimeout, expired⟩, named⟩ := expires
  cases transition with
  | manage id next managed =>
    cases managed with
    | examine limit' work' readd' phase timeout =>
      rw [isExamining] at phase
      rw [isTimeout] at timeout
      cases phase
      cases timeout
      exact examine_expired expired named
    | quit phase | rest _ phase | sleep _ phase | yield phase | wake _ phase | sweep phase
    | pass _ phase | skip phase | kill _ _ phase | swept _ phase | more _ phase
    | drained _ phase | pop _ _ _ phase | refilled phase | refill _ _ phase =>
      rw [isExamining] at phase
      cases phase

/-- A thread is killed only when the manager examines an expired job that names it. -/
theorem expires_of_killed (unstopped : Unstopped pool) (allowed : action ≠ .stop)
    (transition : Transition pool action next) {thread : Nat}
    (alive : pool.threads.read thread ≠ .dead) (dead : next.threads.read thread = .dead) :
    ∃ work readd, Expires pool action work thread readd := by
  cases transition with
  | start =>
    rw [start_unstopped unstopped] at dead
    exact absurd dead alive
  | stop => exact absurd rfl allowed
  | push | tick => exact absurd dead alive
  | pop | announce | begin | complete | returns | raises =>
    exact absurd dead (alive_moveWorker nofun alive)
  | manage id next managed =>
    obtain rfl := manager_zero unstopped managed
    cases managed with
    | kill index thread phase listed => exact absurd phase (unstopped.peaceful index)
    | examine limit work readd phase timeout =>
      cases expired : (pool.jobs.read work).expired limit pool.clock with
      | false =>
        rw [examine_spares (.inl expired)] at dead
        exact absurd dead alive
      | true =>
        cases named : (pool.jobs.read work).thread with
        | none =>
          rw [examine_spares (.inr named)] at dead
          exact absurd dead alive
        | some victim =>
          rw [examine_expired expired named] at dead
          have isVictim : thread = victim := by
            change (pool.replaceWorker victim).threads.read thread = .dead at dead
            rw [read_replaceWorker] at dead
            by_contra other
            rw [if_neg other] at dead
            split at dead
            · cases dead
            · exact alive dead
          exact ⟨work, readd, rfl, phase, ⟨limit, timeout, expired⟩, isVictim ▸ named⟩
    | quit | rest | sleep | yield | wake | sweep | pass | skip | swept | more | drained | pop
    | refilled | refill => exact absurd dead alive

end Kills

/-! ## Killing the culprit only -/

/-- The job a worker has. -/
def work? : WorkerPhase → Option Nat
  | .popped work | .queued work | .running work | .returned work => some work
  | .idle | .dead => none

/-- A worker is executing a job: it is in the `exec` of the job, past the start. -/
def Executes (phase : WorkerPhase) (work : Nat) : Prop :=
  phase = .running work ∨ phase = .returned work

/-- A job has been running for longer than `@timeout`. -/
def Overran (pool : ThreadPool) (work : Nat) : Prop :=
  ∃ limit begun, pool.timeout = some limit ∧ (pool.jobs.read work).timeStarted = some begun ∧
    limit < pool.clock - begun

/-- A job is waiting, or a worker has it. -/
def Pending (pool : ThreadPool) (work : Nat) : Prop :=
  work ∈ pool.workQueue ∨ ∃ thread, work? (pool.threads.read thread) = some work

/-- A step kills a thread only if `check_workers` is examining the very job the thread executes,
and the job has overrun; and a job that stops being pending is completed, or its handler has
raised, or it has overrun. -/
def CulpritOnly (pool : ThreadPool) (action : PoolAction) (next : ThreadPool) : Prop :=
  (∀ thread, pool.threads.read thread ≠ .dead → next.threads.read thread = .dead →
    ∃ id work readd, action = .manage id ∧
      (pool.managers.read id).phase = .examining work readd ∧
      Executes (pool.threads.read thread) work ∧ Overran pool work) ∧
  ∀ work, Pending pool work → ¬ Pending next work →
    (next.jobs.read work).completed = true ∨ work ∈ next.raised ∨ Overran pool work

/-- No `check_workers` finds a job expired whose handler has raised and whose thread lives. -/
def NoneRaised (pool : ThreadPool) (action : PoolAction) (_next : ThreadPool) : Prop :=
  ∀ id work readd limit thread, action = .manage id →
    (pool.managers.read id).phase = .examining work readd → pool.timeout = some limit →
    (pool.jobs.read work).expired limit pool.clock = true →
    (pool.jobs.read work).thread = some thread → pool.threads.read thread ≠ .dead →
    work ∉ pool.raised

/-- A pool that has so far killed culprits only: no job under observation has lost its worker. -/
structure Sound (pool : ThreadPool) (stage : Nat → Stage) : Prop where
  /-- Every job is in its stage. -/
  tracked : Tracked pool stage
  /-- The announced jobs are observed. -/
  watch : Monitored pool stage
  /-- No observed job is abandoned. -/
  intact : ∀ work ∈ monitored pool, stage work ≠ .abandoned

/-- A started pool is sound. -/
theorem sound_started (numThreads timeout : Option Nat) :
    Sound (started numThreads timeout) fun _ => .unborn := by
  obtain ⟨unstopped, nothing⟩ := unstopped_started numThreads timeout
  refine ⟨tracked_start (tracked_new numThreads timeout), ⟨unstopped, ?_, ?_⟩, ?_⟩
  · rw [nothing]
    exact List.nodup_nil
  · rw [nothing]
    nofun
  · rw [nothing]
    nofun

/-- A worker has a job in some stage exactly when it has the job. -/
theorem work?_eq_some_iff (thread : Nat) (phase : WorkerPhase) (work : Nat) :
    work? phase = some work ↔ ∃ current, held thread phase = some (work, current) := by
  cases phase <;> simp [work?, held]

/-- A worker has a job in execution exactly when it executes it. -/
theorem executes_iff (thread : Nat) (phase : WorkerPhase) (work : Nat) :
    Executes phase work ↔ held thread phase = some (work, .executing thread) := by
  cases phase <;> simp [Executes, held]

/-- The pending jobs are those that wait or have an owner. -/
theorem pending_iff {pool : ThreadPool} {stage : Nat → Stage} (tracked : Tracked pool stage)
    (work : Nat) :
    Pending pool work ↔ stage work = .waiting ∨ ∃ thread, (stage work).owner = some thread := by
  unfold Pending
  rw [tracked.waiting]
  apply or_congr_right
  apply exists_congr
  intro thread
  rw [work?_eq_some_iff thread]
  constructor
  · rintro ⟨current, has⟩
    obtain ⟨rfl, owned⟩ := (tracked.threads thread work current).mp has
    exact owned
  · intro owned
    exact ⟨stage work, (tracked.threads thread work (stage work)).mpr ⟨rfl, owned⟩⟩

/-- An expired job was started and not completed, and has overrun. -/
theorem expired_started {job : ThreadPoolJob} {limit now : Nat}
    (expired : job.expired limit now = true) :
    (∃ begun, job.timeStarted = some begun ∧ limit < now - begun) ∧ job.timeCompleted = none := by
  unfold ThreadPoolJob.expired at expired
  split at expired
  · cases expired
  · rename_i begun isBegun
    simp only [Bool.and_eq_true, Option.isNone_iff_eq_none, decide_eq_true_eq] at expired
    exact ⟨⟨begun, isBegun, expired.2⟩, expired.1⟩

section Culprits

variable {pool next : ThreadPool} {stage : Nat → Stage} {action : PoolAction}
  (sound : Sound pool stage)

include sound

/-- An expired job that has not raised is executed by the thread it names. -/
theorem executing_of_expires {work thread : Nat} {readd : List Nat}
    (expires : Expires pool action work thread readd) (quiet : work ∉ pool.raised) :
    stage work = .executing thread := by
  obtain ⟨limit, _, expired⟩ := expires.expired
  obtain ⟨⟨begun, isBegun, _⟩, uncompleted⟩ := expired_started expired
  have inside : work ∈ monitored pool := by
    rw [monitored, expires.phase]
    exact List.mem_append_right _ List.mem_cons_self
  have wasAnnounced := sound.watch.announced work inside
  have kept := sound.intact work inside
  have record := sound.tracked.jobs work
  cases current : stage work with
  | unborn | waiting | popped =>
    rw [current] at wasAnnounced
    cases wasAnnounced
  | queued =>
    rw [current] at record
    rw [show pool.jobs.read work = ThreadPoolJob.new from record] at isBegun
    cases isBegun
  | executing owner =>
    rw [current] at record
    have same := record.1.symm.trans expires.named
    cases same
    rfl
  | completed =>
    rw [current] at record
    simp [Fits, ThreadPoolJob.completed, uncompleted] at record
  | raised => exact absurd ((sound.tracked.raised work).mpr current) quiet
  | abandoned => exact absurd current kept

/-- Where no raised job expires, every killed thread was executing an expired job. -/
theorem executing_of_killed (allowed : action ≠ .stop) (transition : Transition pool action next)
    (unraised : NoneRaised pool action next) {thread : Nat}
    (alive : pool.threads.read thread ≠ .dead) (dead : next.threads.read thread = .dead) :
    ∃ work readd, Expires pool action work thread readd ∧ stage work = .executing thread := by
  obtain ⟨work, readd, expires⟩ :=
    expires_of_killed sound.watch.unstopped allowed transition alive dead
  obtain ⟨limit, timeout, expired⟩ := expires.expired
  have quiet := unraised 0 work readd limit thread expires.manages expires.phase timeout expired
    expires.named alive
  exact ⟨work, readd, expires, executing_of_expires sound expires quiet⟩

/-- A job that loses its worker, where no raised job expires, is the expired one. -/
theorem expires_of_abandoned (allowed : action ≠ .stop) (transition : Transition pool action next)
    (unraised : NoneRaised pool action next) {work thread : Nat}
    (owned : (stage work).owner = some thread) (dead : next.threads.read thread = .dead) :
    ∃ readd, Expires pool action work thread readd := by
  have has := (sound.tracked.threads thread work (stage work)).mpr ⟨rfl, owned⟩
  have alive : pool.threads.read thread ≠ .dead := by
    intro isDead
    rw [isDead] at has
    cases has
  obtain ⟨culprit, readd, expires, executing⟩ :=
    executing_of_killed sound allowed transition unraised alive dead
  have hasCulprit := (sound.tracked.threads thread culprit _).mpr ⟨executing, rfl⟩
  rw [has] at hasCulprit
  have same : work = culprit := congrArg Prod.fst (Option.some.inj hasCulprit)
  exact ⟨readd, same ▸ expires⟩

omit sound in
/-- An expired job has overrun. -/
theorem overran_of_expires {work thread : Nat} {readd : List Nat}
    (expires : Expires pool action work thread readd) : Overran pool work := by
  obtain ⟨limit, timeout, expired⟩ := expires.expired
  obtain ⟨⟨begun, isBegun, late⟩, _⟩ := expired_started expired
  exact ⟨limit, begun, timeout, isBegun, late⟩

/-- An observed job was not abandoned before the step. -/
theorem not_abandoned (allowed : action ≠ .stop) (transition : Transition pool action next)
    {work : Nat} (inside : work ∈ monitored next) : stage work ≠ .abandoned := by
  obtain ⟨_, fewer | ⟨thread, new, popped, _, added⟩⟩ :=
    monitors_transition sound.watch.unstopped allowed transition
  · exact sound.intact work (fewer.subset inside)
  · rcases List.mem_cons.mp (added.mem_iff.mp inside) with rfl | inside
    · rw [stage_held sound.tracked (congrArg (held thread) popped)]
      nofun
    · exact sound.intact work inside

/-- The expired job is no longer observed. -/
theorem expires_unmonitored (transition : Transition pool action next) {work thread : Nat}
    {readd : List Nat} (expires : Expires pool action work thread readd) :
    work ∉ monitored next := by
  have distinct := sound.watch.nodup
  rw [monitored, expires.phase] at distinct
  have outside : work ∉ pool.runningQueue ++ readd :=
    (List.nodup_cons.mp (List.perm_middle.nodup_iff.mp distinct)).1
  rw [expires_replaces transition expires, monitored_moveManager]
  exact outside

/-- A step that meets the condition keeps the pool sound. -/
theorem sound_transition (allowed : action ≠ .stop) (transition : Transition pool action next)
    (unraised : NoneRaised pool action next) : ∃ after, Sound next after := by
  obtain ⟨after, follows⟩ := follows_transition sound.tracked transition
  have watch := monitored_transition sound.tracked sound.watch allowed transition follows
  refine ⟨after, follows.tracked, watch, ?_⟩
  intro work inside isAbandoned
  rcases follows.moved work with same | arrow
  · exact not_abandoned sound allowed transition inside (same ▸ isAbandoned)
  · rw [isAbandoned] at arrow
    generalize isBefore : stage work = before at arrow
    cases arrow with
    | kill _ thread owned =>
      rw [← isBefore] at owned
      have dead := follows.killed work thread owned isAbandoned
      obtain ⟨readd, expires⟩ := expires_of_abandoned sound allowed transition unraised owned dead
      exact expires_unmonitored sound transition expires inside

/-- **A step kills the culprit only exactly when no raised job expires in it.** -/
theorem culpritOnly_iff (allowed : action ≠ .stop) (transition : Transition pool action next) :
    CulpritOnly pool action next ↔ NoneRaised pool action next := by
  constructor
  · rintro ⟨kills, _⟩ id work readd limit thread rfl phase timeout expired named alive hasRaised
    obtain rfl : id = 0 := by
      cases transition with
      | manage id next managed => exact manager_zero sound.watch.unstopped managed
    have replaced := expires_replaces transition ⟨rfl, phase, ⟨limit, timeout, expired⟩, named⟩
    have known : thread ≠ pool.threads.next := Nat.ne_of_lt (launched sound.tracked alive)
    have dead : next.threads.read thread = .dead := by
      rw [replaced]
      change (pool.replaceWorker thread).threads.read thread = _
      rw [read_replaceWorker, if_neg known, if_pos rfl]
    obtain ⟨id, culprit, others, manages, examining, executes, _⟩ := kills thread alive dead
    cases manages
    rw [phase] at examining
    cases examining
    have executing := stage_held sound.tracked ((executes_iff thread _ work).mp executes)
    rw [(sound.tracked.raised work).mp hasRaised] at executing
    cases executing
  · intro unraised
    refine ⟨?_, ?_⟩
    · intro thread alive dead
      obtain ⟨work, readd, expires, executing⟩ :=
        executing_of_killed sound allowed transition unraised alive dead
      have has := (sound.tracked.threads thread work _).mpr ⟨executing, rfl⟩
      exact ⟨0, work, readd, expires.manages, expires.phase, (executes_iff thread _ work).mpr has,
        overran_of_expires expires⟩
    · intro work pending finished
      obtain ⟨after, follows⟩ := follows_transition sound.tracked transition
      rw [pending_iff sound.tracked] at pending
      rw [pending_iff follows.tracked] at finished
      rcases follows.moved work with same | arrow
      · rw [same] at finished
        exact absurd pending finished
      · have record := follows.tracked.jobs work
        have report := follows.tracked.raised work
        generalize isBefore : stage work = before at arrow
        generalize isAfter : after work = now at arrow finished record report
        cases arrow with
        | push => exact absurd (.inl rfl) finished
        | pop thread | announce thread | begin thread =>
          exact absurd (.inr ⟨thread, rfl⟩) finished
        | complete => exact .inl record
        | raise => exact .inr (.inl (report.mpr rfl))
        | kill _ thread owned =>
          rw [← isBefore] at owned
          have dead := follows.killed work thread owned isAfter
          obtain ⟨readd, expires⟩ :=
            expires_of_abandoned sound allowed transition unraised owned dead
          exact .inr (.inr (overran_of_expires expires))

end Culprits

/-- **Only culprits are killed along a run exactly when no raised job expires in it.** For every
configuration and every interleaving of `<<`, workers and manager of a pool that is started and
not stopped: `check_workers` kills a thread only for the job the thread is executing, after that
job has overrun, and only such jobs are abandoned, if and only if no `check_workers` comes to a job
whose handler has raised, whose thread is alive and whose timeout has passed. -/
theorem culprits_only_iff (numThreads timeout : Option Nat) (actions : List PoolAction) :
    unstopped.Along CulpritOnly (started numThreads timeout) actions ↔
      unstopped.Along NoneRaised (started numThreads timeout) actions := by
  apply Machine.along_iff unstopped fun pool => ∃ stage, Sound pool stage
  · rintro pool action next ⟨stage, sound⟩ stepped
    obtain ⟨allowed, stepped⟩ := Machine.restrict_step stepped
    exact culpritOnly_iff sound allowed (transition_of_step stepped)
  · rintro pool action next ⟨stage, sound⟩ stepped unraised
    obtain ⟨allowed, stepped⟩ := Machine.restrict_step stepped
    exact sound_transition sound allowed (transition_of_step stepped) unraised
  · exact ⟨_, sound_started numThreads timeout⟩

/-- One worker and a timeout of 1. The first job raises at once, the worker waits for the second
job and starts it at time 2; then the manager wakes up and takes the first job to examine. -/
def overtime : List PoolAction :=
  [.manage 0, .manage 0, .push, .work 0, .work 0, .work 0, .raises 0, .tick, .tick, .push, .work 0,
    .work 0, .work 0, .manage 0, .manage 0, .manage 0, .manage 0]

/-- The worker is killed at time 2 for the first job, while it executes the second one, which was
started at time 2 and is abandoned. -/
theorem innocent_killed :
    ∃ pool next, unstopped.run (started (some 1) (some 1)) overtime = some pool ∧
      unstopped.step pool (.manage 0) = some next ∧
      (pool.managers.read 0).phase = .examining 0 [] ∧
      pool.threads.read 0 = .running 1 ∧ next.threads.read 0 = .dead ∧
      pool.clock = 2 ∧ (pool.jobs.read 1).timeStarted = some 2 ∧
      ¬ unstopped.Along CulpritOnly (started (some 1) (some 1)) (overtime ++ [.manage 0]) := by
  refine ⟨_, _, rfl, rfl, by decide, by decide, by decide, by decide, by decide, ?_⟩
  intro along
  have last := unstopped.along_rest _ _ _ _ _ along rfl _ rfl
  obtain ⟨id, work, readd, manages, phase, executes, _⟩ := last.1.1 0 (by decide) (by decide)
  cases manages
  cases phase
  rcases executes with running | returned
  · cases running
  · cases returned

end Rjr.Verif.Monitoring
