import Rjr.Lib.Census
import Rjr.Verif.Monitoring

/-!
# Observation of running jobs

A job that hangs is found by `check_workers` only as long as it is in `@running_queue`. A pass
takes all jobs out of the queue, looks at them one at a time and puts back those that go on, while
workers add to the same queue. No job is lost on the way: from the moment it is started until it is
completed or its worker is killed, it is in the queue or in the hands of a manager, once. This
holds in every run of a pool, stopped and started again at any time and with any number of
managers.
-/

namespace Rjr.Verif.Observation

open ThreadPool JobLifecycle Monitoring

/-- How often a job is in `@running_queue`, being examined or in `readd`. -/
def observed (pool : ThreadPool) (work : Nat) : Nat :=
  pool.runningQueue.count work +
    pool.managers.total fun manager => (inPass manager.phase).count work

/-- A job has been started and not completed, and its worker was not killed. -/
structure Unfinished (pool : ThreadPool) (work : Nat) : Prop where
  /-- It was marked as started. -/
  started : (pool.jobs.read work).timeStarted.isSome = true
  /-- It was not marked as completed. -/
  uncompleted : (pool.jobs.read work).timeCompleted = none
  /-- Its worker was not killed. -/
  alive : ∀ thread, (pool.jobs.read work).thread = some thread →
    pool.threads.read thread ≠ .dead

/-- A job is completed or has expired. -/
def Finished (pool : ThreadPool) (work : Nat) : Prop :=
  (pool.jobs.read work).completed = true ∨ ∃ limit, pool.timeout = some limit ∧
    (pool.jobs.read work).expired limit pool.clock = true

/-- After a step every unfinished job is observed exactly once, and the step has dropped finished
jobs only. -/
def Watches (pool : ThreadPool) (_action : PoolAction) (next : ThreadPool) : Prop :=
  (∀ work, Unfinished next work → observed next work = 1) ∧
    ∀ work, observed next work < observed pool work → Finished pool work

/-! ## Threads -/

/-- No thread that was launched and killed comes back to life. -/
structure Buried (before after : Heap WorkerPhase) : Prop where
  /-- Threads are only added. -/
  grows : before.next ≤ after.next
  /-- The dead stay dead. -/
  dead : ∀ thread, thread < before.next → before.read thread = .dead → after.read thread = .dead

/-- Besides, no thread has announced a job. -/
structure Quiet (before after : Heap WorkerPhase) : Prop extends Buried before after where
  /-- A job that is announced was so before. -/
  queued : ∀ thread work, after.read thread = .queued work → before.read thread = .queued work

/-- Nothing happens. -/
theorem quiet_refl (threads : Heap WorkerPhase) : Quiet threads threads where
  grows := Nat.le_refl _
  dead _ _ dead := dead
  queued _ _ queued := queued

/-- One quiet step after the other. -/
theorem Quiet.trans {first second third : Heap WorkerPhase} (before : Quiet first second)
    (after : Quiet second third) : Quiet first third where
  grows := Nat.le_trans before.grows after.grows
  dead thread known dead :=
    after.dead thread (Nat.lt_of_lt_of_le known before.grows) (before.dead thread known dead)
  queued thread work queued := before.queued thread work (after.queued thread work queued)

section Threads

variable {threads : Heap WorkerPhase} {thread : Nat} {phase : WorkerPhase}

/-- A thread moves on, and if it is dead it stays so. -/
theorem buried_write (still : threads.read thread = .dead → phase = .dead) :
    Buried threads (threads.write thread phase) where
  grows := Nat.le_refl _
  dead other _ dead := by
    rw [Heap.read_write]
    split
    · rename_i isThread
      exact still (isThread ▸ dead)
    · exact dead

/-- A thread moves on, and not to announce a job. -/
theorem quiet_write (still : threads.read thread = .dead → phase = .dead)
    (silent : ∀ work, phase ≠ .queued work) : Quiet threads (threads.write thread phase) where
  toBuried := buried_write still
  queued other work queued := by
    rw [Heap.read_write] at queued
    split at queued
    · exact absurd queued (silent work)
    · exact queued

/-- A thread that is alive can move on. -/
theorem alive_still {current : WorkerPhase} (isCurrent : threads.read thread = current)
    (alive : current ≠ .dead) : threads.read thread = .dead → phase = .dead :=
  fun dead => absurd (isCurrent.symm.trans dead) alive

/-- A thread is launched. -/
theorem quiet_alloc : Quiet threads (threads.alloc .idle).2 where
  grows := Nat.le_succ _
  dead other known dead := by
    rw [Heap.read_alloc_eq, if_neg (Nat.ne_of_lt known)]
    exact dead
  queued other work queued := by
    rw [Heap.read_alloc_eq] at queued
    split at queued
    · cases queued
    · exact queued

end Threads

/-- A crew is launched. -/
theorem quiet_launchWorkers (count : Nat) : ∀ pool : ThreadPool,
    Quiet pool.threads (launchWorkers count pool).threads := by
  induction count with
  | zero => exact fun _ => quiet_refl _
  | succ count ih => exact fun pool => quiet_alloc.trans (ih pool.launchWorker)

/-- The thread of an expired job is replaced. -/
theorem quiet_replaceWorker (pool : ThreadPool) (thread : Nat) :
    Quiet pool.threads (pool.replaceWorker thread).threads :=
  (quiet_write (fun _ => rfl) nofun).trans quiet_alloc

/-! ## Managers -/

/-- A manager that takes a step is running, and the step moves no other manager. -/
theorem manager_awake {pool next : ThreadPool} {id : Nat}
    (managed : ManagerTransition pool id next) :
    (pool.managers.read id).phase ≠ .exited ∧
      (next.managers = pool.managers ∨
        ∃ manager, next.managers = pool.managers.write id manager) := by
  cases managed with
  | yield phase running timeout => exact ⟨by rw [phase]; nofun, .inl rfl⟩
  | examine limit work readd phase timeout =>
    refine ⟨by rw [phase]; nofun, .inr ?_⟩
    have examined := examined_examine pool id limit work readd
    generalize pool.examine id limit work readd = next at examined
    cases examined with
    | replaced | failed | dropped | kept => exact ⟨_, rfl⟩
  | quit phase | rest _ phase | sleep _ phase | wake _ phase | sweep phase | pass _ phase
  | skip phase | kill _ _ phase | swept _ phase | more _ phase | drained _ phase
  | pop _ _ _ phase | refilled phase | refill _ _ phase =>
    exact ⟨by rw [phase]; nofun, .inr ⟨_, rfl⟩⟩

/-- `start` adds a manager, or nothing. -/
theorem managers_start (pool : ThreadPool) :
    pool.start.managers = pool.managers ∨
      pool.start.managers = (pool.managers.alloc ⟨.testing, false⟩).2 := by
  unfold ThreadPool.start
  split
  · refine .inr ?_
    have frame := launchWorkers_frame pool.numThreads { pool with terminate := false }
    change ((launchWorkers pool.numThreads _).managers.alloc _).2 = _
    rw [frame.2.1]
  · exact .inl rfl

/-- Managers are launched before they run. -/
theorem fresh_transition {pool next : ThreadPool} {action : PoolAction}
    (transition : Transition pool action next) (fresh : Fresh pool.managers) :
    Fresh next.managers := by
  cases transition with
  | start =>
    rcases managers_start pool with same | launched
    · rw [same]
      exact fresh
    · rw [launched]
      intro id beyond
      rw [Heap.read_alloc_eq, if_neg (Nat.ne_of_gt beyond)]
      exact fresh id (Nat.le_of_succ_le beyond)
  | stop =>
    rcases stop_cases pool with same | ⟨id, wakeAt, last, isSleeping, woken⟩
    · rw [same]
      exact fresh
    · rw [woken]
      exact fresh.write (by rw [isSleeping]; nofun) _
  | manage id next managed =>
    obtain ⟨awake, same | ⟨manager, moved⟩⟩ := manager_awake managed
    · rw [same]
      exact fresh
    · rw [moved]
      exact fresh.write awake manager
  | push | pop | announce | begin | complete | returns | raises | tick => exact fresh

/-! ## What a step observes -/

/-- A job is completed, or its worker was killed. -/
def Settled (pool : ThreadPool) (work : Nat) : Prop :=
  (pool.jobs.read work).completed = true ∨ ∃ thread, (pool.jobs.read work).thread = some thread ∧
    thread < pool.threads.next ∧ pool.threads.read thread = .dead

/-- What a step does to the jobs under observation, and to the threads. -/
inductive Observes (pool next : ThreadPool) : Prop where
  /-- They stay the same. -/
  | kept (same : ∀ work, observed next work = observed pool work)
      (quiet : Quiet pool.threads next.threads)
  /-- A worker announces one. -/
  | added (thread work : Nat) (popped : pool.threads.read thread = .popped work)
      (queued : next.threads.read thread = .queued work)
      (one : ∀ other, observed next other = observed pool other + [work].count other)
      (only : ∀ other job, next.threads.read other = .queued job →
        other = thread ∨ pool.threads.read other = .queued job)
      (buried : Buried pool.threads next.threads)
  /-- A manager drops one that is finished. -/
  | dropped (work : Nat)
      (one : ∀ other, observed pool other = observed next other + [work].count other)
      (finished : Finished pool work) (settled : Settled next work)
      (quiet : Quiet pool.threads next.threads)

/-- In any case the dead stay dead. -/
theorem Observes.buried {pool next : ThreadPool} (observes : Observes pool next) :
    Buried pool.threads next.threads := by
  cases observes with
  | kept same quiet => exact quiet.toBuried
  | added thread work popped queued one only buried => exact buried
  | dropped work one finished settled quiet => exact quiet.toBuried

/-- One entry does not count for another job. -/
theorem count_other {work entry : Nat} (differs : work ≠ entry) : [entry].count work = 0 :=
  List.count_eq_zero_of_not_mem (by simpa using differs)

section Passes

variable {pool next : ThreadPool} {id : Nat} {manager : Manager}

/-- A manager moves on: what it and `@running_queue` have is exchanged. -/
theorem observed_move (known : id < pool.managers.next)
    (managers : next.managers = pool.managers.write id manager) (work : Nat) :
    observed next work +
        (pool.runningQueue ++ inPass (pool.managers.read id).phase).count work =
      observed pool work + (next.runningQueue ++ inPass manager.phase).count work := by
  have exchange := pool.managers.total_write
    (fun manager => (inPass manager.phase).count work) known manager
  unfold observed
  rw [managers, List.count_append, List.count_append]
  omega

/-- A manager moves on with the jobs it and `@running_queue` have. -/
theorem observes_kept (known : id < pool.managers.next)
    (managers : next.managers = pool.managers.write id manager)
    (perm : (next.runningQueue ++ inPass manager.phase).Perm
      (pool.runningQueue ++ inPass (pool.managers.read id).phase))
    (quiet : Quiet pool.threads next.threads) : Observes pool next := by
  refine .kept (fun work => ?_) quiet
  have exchange := observed_move known managers work
  rw [perm.count_eq] at exchange
  omega

/-- A manager drops one of the jobs. -/
theorem observed_dropped {dropped : Nat} (known : id < pool.managers.next)
    (managers : next.managers = pool.managers.write id manager)
    (perm : (pool.runningQueue ++ inPass (pool.managers.read id).phase).Perm
      ([dropped] ++ (next.runningQueue ++ inPass manager.phase))) (work : Nat) :
    observed pool work = observed next work + [dropped].count work := by
  have exchange := observed_move known managers work
  rw [perm.count_eq, List.count_append] at exchange
  omega

end Passes

/-- A job that was started and not completed names a thread that was launched. -/
def Recorded (pool : ThreadPool) : Prop :=
  ∀ work, (pool.jobs.read work).timeStarted.isSome = true →
    (pool.jobs.read work).timeCompleted = none →
      ∃ thread, (pool.jobs.read work).thread = some thread ∧ thread < pool.threads.next

section Steps

variable {pool next : ThreadPool} {id : Nat} (fresh : Fresh pool.managers)
  (recorded : Recorded pool)

include fresh recorded

/-- `check_workers` keeps the job it examines, or drops it because it is finished. -/
theorem observes_examine {limit work : Nat} {readd : List Nat}
    (phase : (pool.managers.read id).phase = .examining work readd)
    (timeout : pool.timeout = some limit) : Observes pool (pool.examine id limit work readd) := by
  have known : id < pool.managers.next := fresh.known (by rw [phase]; nofun)
  have before : (pool.runningQueue ++ inPass (pool.managers.read id).phase).Perm
      ([work] ++ (pool.runningQueue ++ readd)) := by
    rw [phase]
    exact List.perm_middle
  have named : (pool.jobs.read work).expired limit pool.clock = true →
      ∃ thread, (pool.jobs.read work).thread = some thread ∧ thread < pool.threads.next := by
    intro expired
    obtain ⟨⟨begun, isBegun, _⟩, uncompleted⟩ := expired_started expired
    exact recorded work (by rw [isBegun]; rfl) uncompleted
  have examined := examined_examine pool id limit work readd
  generalize pool.examine id limit work readd = next at examined
  cases examined with
  | replaced thread expired isThread =>
    obtain ⟨other, isOther, launched⟩ := named expired
    cases isThread.symm.trans isOther
    have dead : (pool.replaceWorker thread).threads.read thread = .dead := by
      rw [read_replaceWorker, if_neg (Nat.ne_of_lt launched), if_pos rfl]
    exact .dropped work (observed_dropped known rfl before) (.inr ⟨limit, timeout, expired⟩)
      (.inr ⟨thread, isThread, Nat.lt_succ_of_lt launched, dead⟩)
      (quiet_replaceWorker pool thread)
  | failed expired unnamed =>
    -- `nil.kill` would end the manager and lose all of `readd`, but the record names a thread.
    obtain ⟨thread, isThread, _⟩ := named expired
    cases unnamed.symm.trans isThread
  | dropped young completed =>
    exact .dropped work (observed_dropped known rfl before) (.inl completed) (.inl completed)
      (quiet_refl _)
  | kept =>
    refine observes_kept known rfl ?_ (quiet_refl _)
    rw [phase]
    exact List.perm_append_comm.append_left _

/-- A step of a manager loses no job that is not finished. -/
theorem observes_manager (managed : ManagerTransition pool id next) : Observes pool next := by
  have known : id < pool.managers.next := fresh.known (manager_awake managed).1
  have done : inPass (pool.afterCheck id) = [] := (afterCheck_done id).1
  cases managed with
  | yield phase running timeout => exact .kept (fun _ => rfl) (quiet_refl _)
  | kill index thread phase listed =>
    refine observes_kept known rfl ?_ (quiet_write (fun _ => rfl) nofun)
    rw [phase]
    exact List.Perm.refl _
  | skip phase | swept _ phase | refilled phase =>
    refine observes_kept known rfl ?_ (quiet_refl _)
    rw [phase]
    change (pool.runningQueue ++ inPass (pool.afterCheck id)).Perm _
    rw [done]
    exact List.Perm.refl _
  | pop work rest readd phase queue =>
    refine observes_kept known rfl ?_ (quiet_refl _)
    rw [phase, queue]
    exact List.perm_middle
  | examine limit work readd phase timeout => exact observes_examine fresh recorded phase timeout
  | refill work rest phase =>
    refine observes_kept known rfl ?_ (quiet_refl _)
    rw [phase, List.append_assoc]
    exact List.Perm.refl _
  | quit phase | rest _ phase | sleep _ phase | wake _ phase | sweep phase | pass _ phase
  | more _ phase | drained _ phase =>
    refine observes_kept known rfl ?_ (quiet_refl _)
    rw [phase]
    exact List.Perm.refl _

omit fresh recorded in
/-- `start` observes nothing new. -/
theorem observes_start : Observes pool pool.start := by
  have queue : pool.start.runningQueue = pool.runningQueue := by
    unfold ThreadPool.start
    split
    · exact (launchWorkers_frame pool.numThreads { pool with terminate := false }).2.2.1
    · rfl
  have quiet : Quiet pool.threads pool.start.threads := by
    unfold ThreadPool.start
    split
    · exact quiet_launchWorkers pool.numThreads { pool with terminate := false }
    · exact quiet_refl _
  refine .kept (fun work => ?_) quiet
  unfold observed
  rw [queue]
  rcases managers_start pool with same | launched
  · rw [same]
  · rw [launched, Heap.total_alloc]
    rfl

omit recorded in
/-- `stop` observes nothing new. -/
theorem observes_stop : Observes pool pool.stop := by
  rcases stop_cases pool with same | ⟨id, wakeAt, last, isSleeping, woken⟩
  · rw [same]
    exact .kept (fun _ => rfl) (quiet_refl _)
  · rw [woken]
    refine observes_kept (fresh.known (by rw [isSleeping]; nofun)) rfl ?_ (quiet_refl _)
    rw [isSleeping]
    exact List.Perm.refl _

/-- **A step adds a job to those observed when its worker announces it, and drops a job only when
it is finished.** -/
theorem observes_transition {action : PoolAction} (transition : Transition pool action next) :
    Observes pool next := by
  cases transition with
  | start => exact observes_start
  | stop => exact observes_stop fresh
  | push | tick => exact .kept (fun _ => rfl) (quiet_refl _)
  | pop thread work rest idle queue =>
    exact .kept (fun _ => rfl) (quiet_write (alive_still idle nofun) nofun)
  | announce thread work popped =>
    refine .added thread work popped (Heap.read_write_same _ _ _) ?_ ?_
      (buried_write (alive_still popped nofun))
    · intro other
      unfold observed
      change (pool.runningQueue ++ [work]).count other + _ = _
      rw [List.count_append]
      exact Nat.add_right_comm _ _ _
    · intro other job queued
      by_cases isThread : other = thread
      · exact .inl isThread
      · exact .inr ((if_neg isThread).symm.trans queued)
  | begin thread work queued =>
    exact .kept (fun _ => rfl) (quiet_write (alive_still queued nofun) nofun)
  | complete thread work returned =>
    exact .kept (fun _ => rfl) (quiet_write (alive_still returned nofun) nofun)
  | returns thread work running | raises thread work running =>
    exact .kept (fun _ => rfl) (quiet_write (alive_still running nofun) nofun)
  | manage id next managed => exact observes_manager fresh recorded managed

end Steps

/-! ## The invariant -/

/-- A job is on its way: it was announced and not started, or it was started. The stage of an
abandoned job does not tell whether it was started, but its record does. -/
def Underway (pool : ThreadPool) (stage : Nat → Stage) (work : Nat) : Prop :=
  (∃ thread, stage work = .queued thread) ∨ (pool.jobs.read work).timeStarted.isSome = true

/-- The jobs on their way are observed, once, until they are settled. -/
structure Watched (pool : ThreadPool) (stage : Nat → Stage) : Prop where
  /-- Every job is in its stage. -/
  tracked : Tracked pool stage
  /-- Managers that were not launched are not running. -/
  fresh : Fresh pool.managers
  /-- A job that is running names its thread. -/
  recorded : Recorded pool
  /-- Every observed job was announced. -/
  announced : ∀ work, observed pool work ≠ 0 → announced (stage work) = true
  /-- No job on its way is missed. -/
  present : ∀ work, Underway pool stage work → observed pool work = 1 ∨ Settled pool work

/-- A new pool has nothing to observe. -/
theorem watched_new (numThreads timeout : Option Nat) :
    Watched (ThreadPool.new numThreads timeout) fun _ => .unborn where
  tracked := tracked_new numThreads timeout
  fresh _ _ := rfl
  recorded := nofun
  announced work inside := absurd rfl inside
  present work underway := by
    rcases underway with ⟨thread, isQueued⟩ | started
    · cases isQueued
    · cases started

/-- A job that was not started is not settled. -/
theorem not_settled {pool : ThreadPool} {work : Nat}
    (record : pool.jobs.read work = ThreadPoolJob.new) : ¬ Settled pool work := by
  unfold Settled
  rw [record]
  rintro (completed | ⟨thread, named, _⟩)
  · cases completed
  · cases named

section Invariant

variable {pool next : ThreadPool} {stage after : Nat → Stage} {action : PoolAction}

/-- A job that was announced and not started has a new record. -/
theorem record_queued (tracked : Tracked pool stage) {thread work : Nat}
    (queued : pool.threads.read thread = .queued work) :
    stage work = .queued thread ∧ pool.jobs.read work = ThreadPoolJob.new := by
  have isQueued := stage_held tracked (congrArg (held thread) queued)
  have record := tracked.jobs work
  rw [isQueued] at record
  exact ⟨isQueued, record⟩

/-- A job whose handler has returned was started. -/
theorem record_returned (tracked : Tracked pool stage) {thread work : Nat}
    (returned : pool.threads.read thread = .returned work) :
    (pool.jobs.read work).timeStarted.isSome = true := by
  have isExecuting := stage_held tracked (congrArg (held thread) returned)
  have record := tracked.jobs work
  rw [isExecuting] at record
  exact record.2.1

/-- The phase of a worker that has popped a job. -/
theorem held_popped {phase : WorkerPhase} {thread work : Nat}
    (has : held thread phase = some (work, .popped thread)) : phase = .popped work := by
  cases phase <;> simp_all [held]

/-- The phase of a worker that has announced its job. -/
theorem held_queued {phase : WorkerPhase} {thread work : Nat}
    (has : held thread phase = some (work, .queued thread)) : phase = .queued work := by
  cases phase <;> simp_all [held]

/-- A settled job stays settled. -/
theorem settled_transition (tracked : Tracked pool stage)
    (transition : Transition pool action next) (buried : Buried pool.threads next.threads)
    {work : Nat} (settled : Settled pool work) : Settled next work := by
  have record := record_transition transition work
  unfold Settled
  generalize next.jobs.read work = job at record
  cases record with
  | same =>
    rcases settled with completed | ⟨thread, named, launched, dead⟩
    · exact .inl completed
    · exact .inr ⟨thread, named, Nat.lt_of_lt_of_le launched buried.grows,
        buried.dead thread launched dead⟩
  | created isNew =>
    have blank := tracked.jobs work
    rw [tracked.unborn work (Nat.le_of_eq isNew.symm)] at blank
    exact absurd settled (not_settled blank)
  | started thread queued => exact absurd settled (not_settled (record_queued tracked queued).2)
  | completed thread returned =>
    have started := record_returned tracked returned
    exact .inl (by simp [ThreadPoolJob.completed, ThreadPoolJob.markCompleted, started])

/-- The records keep naming launched threads. -/
theorem recorded_transition (tracked : Tracked pool stage) (recorded : Recorded pool)
    (transition : Transition pool action next) (buried : Buried pool.threads next.threads) :
    Recorded next := by
  intro work
  have record := record_transition transition work
  generalize next.jobs.read work = job at record
  intro started uncompleted
  cases record with
  | same =>
    obtain ⟨thread, named, launched⟩ := recorded work started uncompleted
    exact ⟨thread, named, Nat.lt_of_lt_of_le launched buried.grows⟩
  | created isNew => cases started
  | started thread queued =>
    have alive : pool.threads.read thread ≠ .dead := by
      rw [queued]
      nofun
    exact ⟨thread, rfl, Nat.lt_of_lt_of_le (launched tracked alive) buried.grows⟩
  | completed thread returned => cases uncompleted

/-- A job that is no longer observed was finished. -/
theorem finished_of_dropped (observes : Observes pool next) {work : Nat}
    (fewer : observed next work < observed pool work) : Finished pool work := by
  cases observes with
  | kept same quiet => exact absurd (same work) (Nat.ne_of_lt fewer)
  | added thread new popped queued one only buried =>
    have more := one work
    omega
  | dropped old one finished settled quiet =>
    by_cases isOld : work = old
    · exact isOld ▸ finished
    · have unchanged := one work
      rw [count_other isOld] at unchanged
      omega

variable (watched : Watched pool stage)

include watched

/-- A job that a worker has popped is not observed yet. -/
theorem unobserved_popped {thread work : Nat}
    (popped : pool.threads.read thread = .popped work) : observed pool work = 0 := by
  by_contra inside
  have was := watched.announced work inside
  rw [stage_held watched.tracked (congrArg (held thread) popped)] at was
  cases was

/-- The observed jobs have been announced. -/
theorem announced_transition (follows : Follows next stage after)
    (observes : Observes pool next) (work : Nat) (inside : observed next work ≠ 0) :
    announced (after work) = true := by
  have still : observed pool work ≠ 0 → Monitoring.announced (after work) = true := by
    intro was
    rcases follows.moved work with same | arrow
    · rw [same]
      exact watched.announced work was
    · exact announced_arrow arrow (watched.announced work was)
  cases observes with
  | kept same quiet => exact still (same work ▸ inside)
  | added thread new popped queued one only buried =>
    by_cases isNew : work = new
    · rw [isNew, stage_held follows.tracked (congrArg (held thread) queued)]
      rfl
    · have unchanged := one work
      rw [count_other isNew] at unchanged
      exact still (by omega)
  | dropped old one finished settled quiet =>
    have fewer := one work
    exact still (by omega)

/-- A job on its way was so before the step, or has been announced in it. -/
theorem underway_before (transition : Transition pool action next)
    (follows : Follows next stage after) {work : Nat} (underway : Underway next after work) :
    Underway pool stage work ∨ ∃ thread, pool.threads.read thread = .popped work ∧
      next.threads.read thread = .queued work := by
  rcases underway with ⟨thread, isQueued⟩ | started
  · rcases follows.moved work with same | arrow
    · exact .inl (.inl ⟨thread, same ▸ isQueued⟩)
    · have has := (follows.tracked.threads thread work _).mpr ⟨isQueued, rfl⟩
      rw [isQueued] at arrow
      generalize isBefore : stage work = before at arrow
      -- Only the announcement of a popped job leads to this stage.
      cases arrow with
      | announce =>
        have had := (watched.tracked.threads thread work _).mpr ⟨isBefore, rfl⟩
        exact .inr ⟨thread, held_popped had, held_queued has⟩
  · refine .inl ?_
    have record := record_transition transition work
    generalize next.jobs.read work = job at record started
    cases record with
    | same => exact .inr started
    | created isNew => cases started
    | started thread queued => exact .inl ⟨thread, (record_queued watched.tracked queued).1⟩
    | completed thread returned => exact .inr (record_returned watched.tracked returned)

/-- A job that is observed once stays so, or is settled. -/
theorem observed_once {work : Nat} (observes : Observes pool next)
    (one : observed pool work = 1) : observed next work = 1 ∨ Settled next work := by
  cases observes with
  | kept same quiet => exact .inl (same work ▸ one)
  | added thread new popped queued more only buried =>
    have differs : work ≠ new := by
      rintro rfl
      rw [unobserved_popped watched popped] at one
      cases one
    have unchanged := more work
    rw [count_other differs] at unchanged
    exact .inl (unchanged.trans one)
  | dropped old fewer finished settled quiet =>
    by_cases isOld : work = old
    · exact .inr (isOld ▸ settled)
    · have unchanged := fewer work
      rw [count_other isOld] at unchanged
      exact .inl (unchanged.symm.trans one)

/-- A job that a worker announces is observed once. -/
theorem observed_announced {thread work : Nat} (observes : Observes pool next)
    (popped : pool.threads.read thread = .popped work)
    (queued : next.threads.read thread = .queued work) : observed next work = 1 := by
  have silent : pool.threads.read thread ≠ .queued work := by
    rw [popped]
    nofun
  cases observes with
  | kept same quiet => exact absurd (quiet.queued thread work queued) silent
  | added announcer new _ isQueued more only buried =>
    -- One worker announces a job in a step, so it is this one.
    obtain rfl := (only thread work queued).resolve_right silent
    cases queued.symm.trans isQueued
    rw [more work, unobserved_popped watched popped, List.count_singleton_self]
  | dropped old fewer finished settled quiet =>
    exact absurd (quiet.queued thread work queued) silent

/-- The jobs on their way stay observed. -/
theorem watched_transition (transition : Transition pool action next) :
    ∃ after, Watched next after := by
  obtain ⟨after, follows⟩ := follows_transition watched.tracked transition
  have observes := observes_transition watched.fresh watched.recorded transition
  refine ⟨after, follows.tracked, fresh_transition transition watched.fresh,
    recorded_transition watched.tracked watched.recorded transition observes.buried,
    announced_transition watched follows observes, ?_⟩
  intro work underway
  rcases underway_before watched transition follows underway with was | ⟨thread, popped, queued⟩
  · rcases watched.present work was with one | settled
    · exact observed_once watched observes one
    · exact .inr (settled_transition watched.tracked transition observes.buried settled)
  · exact .inl (observed_announced watched observes popped queued)

/-- Every unfinished job of a watched pool is observed. -/
theorem observed_unfinished {work : Nat} (unfinished : Unfinished pool work) :
    observed pool work = 1 := by
  rcases watched.present work (.inr unfinished.started) with one | settled
  · exact one
  · rcases settled with completed | ⟨thread, named, _, dead⟩
    · simp [ThreadPoolJob.completed, unfinished.uncompleted] at completed
    · exact absurd dead (unfinished.alive thread named)

end Invariant

/-- **No running job escapes monitoring.** In every run of a pool, for every configuration and
every interleaving of its user, workers and managers: after each step, every job that was marked
as started and not as completed and whose worker was not killed is in `@running_queue` or in the
hands of a `check_workers` in progress, exactly once; and a step takes a job out of these only if
it is completed or has expired. -/
theorem running_jobs_observed (numThreads timeout : Option Nat) (actions : List PoolAction) :
    machine.Along Watches (ThreadPool.new numThreads timeout) actions := by
  apply Machine.along_of_invariant machine fun pool => ∃ stage, Watched pool stage
  · rintro pool action next ⟨stage, watched⟩ stepped
    have transition := transition_of_step stepped
    obtain ⟨after, watchedNext⟩ := watched_transition watched transition
    have observes := observes_transition watched.fresh watched.recorded transition
    exact ⟨fun work => observed_unfinished watchedNext, fun work => finished_of_dropped observes⟩
  · rintro pool action next ⟨stage, watched⟩ stepped
    exact watched_transition watched (transition_of_step stepped)
  · exact ⟨_, watched_new numThreads timeout⟩

/-- While a manager examines the job of one worker and another worker announces its own,
`@running_queue` has one of the two jobs and the manager the other. -/
example :
    (machine.run (ThreadPool.new (some 2) (some 1)) [.start, .push, .push, .work 0, .work 0,
      .work 0, .manage 0, .manage 0, .tick, .manage 0, .manage 0, .manage 0, .manage 0, .work 1,
      .work 1]).map (fun pool => (pool.runningQueue, (pool.managers.read 0).phase,
        observed pool 0, observed pool 1)) = some ([1], .examining 0 [], 1, 1) := by
  decide

end Rjr.Verif.Observation
