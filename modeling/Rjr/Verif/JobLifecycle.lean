import Mathlib.Data.List.Nodup
import Mathlib.Logic.Function.Basic
import Rjr.Util.ThreadPool

/-!
# The lifecycle of a job

A job of the thread pool waits, is taken by one worker, announced, executed, and then completed or
reported as raised; it is abandoned when its worker is killed. This is the abstract view of the
pool: one stage for each job. The pool, with its queues, threads and job records, follows it, from
every state and in every interleaving. That a job has one stage and a stage at most one worker is
what the queues and threads of the pool agree on.
-/

namespace Rjr.Verif.JobLifecycle

open ThreadPool

/-- The stages of a job. -/
inductive Stage where
  /-- It was not pushed yet. -/
  | unborn
  /-- It is in `@work_queue`. -/
  | waiting
  /-- A worker has taken it. -/
  | popped (thread : Nat)
  /-- Its worker has announced it. -/
  | queued (thread : Nat)
  /-- Its worker has started it and not completed it. -/
  | executing (thread : Nat)
  /-- It is completed. -/
  | completed
  /-- Its handler has raised. -/
  | raised
  /-- Its worker was killed. -/
  | abandoned
  deriving DecidableEq

/-- The worker that has the job. -/
def Stage.owner : Stage → Option Nat
  | .popped thread | .queued thread | .executing thread => some thread
  | .unborn | .waiting | .completed | .raised | .abandoned => none

/-- The arrows of the lifecycle. -/
inductive Arrow : Stage → Stage → Prop where
  /-- `<<`. -/
  | push : Arrow .unborn .waiting
  /-- `@work_queue.pop`. -/
  | pop (thread : Nat) : Arrow .waiting (.popped thread)
  /-- `@running_queue << work`. -/
  | announce (thread : Nat) : Arrow (.popped thread) (.queued thread)
  /-- The job is marked as started. -/
  | begin (thread : Nat) : Arrow (.queued thread) (.executing thread)
  /-- The job is marked as completed. -/
  | complete (thread : Nat) : Arrow (.executing thread) .completed
  /-- The handler raises. -/
  | raise (thread : Nat) : Arrow (.executing thread) .raised
  /-- The worker is killed. -/
  | kill (stage : Stage) (thread : Nat) (owned : stage.owner = some thread) : Arrow stage .abandoned

/-- The job a worker has, and the stage it is in. -/
def held (thread : Nat) : WorkerPhase → Option (Nat × Stage)
  | .popped work => some (work, .popped thread)
  | .queued work => some (work, .queued thread)
  | .running work | .returned work => some (work, .executing thread)
  | .idle | .dead => none

/-- A job record fits a stage. -/
def Fits (job : ThreadPoolJob) : Stage → Prop
  | .unborn | .waiting | .popped _ | .queued _ => job = ThreadPoolJob.new
  | .executing thread =>
    job.thread = some thread ∧ job.timeStarted.isSome = true ∧ job.timeCompleted = none
  | .completed => job.completed = true
  | .raised => job.thread.isSome = true ∧ job.timeStarted.isSome = true ∧ job.timeCompleted = none
  | .abandoned => True

/-- The pool has every job in its stage. -/
structure Tracked (pool : ThreadPool) (stage : Nat → Stage) : Prop where
  /-- The workers have the jobs that are owned. -/
  threads : ∀ thread work current, held thread (pool.threads.read thread) = some (work, current) ↔
    stage work = current ∧ current.owner = some thread
  /-- `@work_queue` has the jobs that wait. -/
  waiting : ∀ work, work ∈ pool.workQueue ↔ stage work = .waiting
  /-- No job waits twice. -/
  nodup : pool.workQueue.Nodup
  /-- The records fit. -/
  jobs : ∀ work, Fits (pool.jobs.read work) (stage work)
  /-- The jobs that raised are reported. -/
  raised : ∀ work, work ∈ pool.raised ↔ stage work = .raised
  /-- A job that was not created is not pushed. -/
  unborn : ∀ work, pool.jobs.next ≤ work → stage work = .unborn
  /-- A thread that was not launched does nothing. -/
  fresh : ∀ thread, pool.threads.next ≤ thread → pool.threads.read thread = .dead

/-- A new pool has no jobs. -/
theorem tracked_new (numThreads timeout : Option Nat) :
    Tracked (ThreadPool.new numThreads timeout) fun _ => .unborn where
  threads thread work current := by
    constructor
    · nofun
    · rintro ⟨rfl, owned⟩
      cases owned
  waiting work := by simp [ThreadPool.new]
  nodup := List.nodup_nil
  jobs work := rfl
  raised work := by simp [ThreadPool.new]
  unborn _ _ := rfl
  fresh _ _ := rfl

/-- Only the jobs, the workers, `@work_queue` and the reports matter. -/
theorem Tracked.congr {pool next : ThreadPool} {stage : Nat → Stage} (tracked : Tracked pool stage)
    (jobs : next.jobs = pool.jobs) (threads : next.threads = pool.threads)
    (workQueue : next.workQueue = pool.workQueue) (raised : next.raised = pool.raised) :
    Tracked next stage where
  threads := by rw [threads]; exact tracked.threads
  waiting := by rw [workQueue]; exact tracked.waiting
  nodup := by rw [workQueue]; exact tracked.nodup
  jobs := by rw [jobs]; exact tracked.jobs
  raised := by rw [raised]; exact tracked.raised
  unborn := by rw [jobs]; exact tracked.unborn
  fresh := by rw [threads]; exact tracked.fresh

/-- Moving a job between stages other than a given one does not change which jobs are in it. -/
theorem update_eq_iff {stage : Nat → Stage} {work : Nat} {after target : Stage}
    (was : stage work ≠ target) (now : after ≠ target) (other : Nat) :
    Function.update stage work after other = target ↔ stage other = target := by
  rw [Function.update_apply]
  split
  · rename_i isWork
    rw [isWork]
    exact iff_of_false now was
  · rfl

/-- A job that does not come to raise adds no report. -/
theorem not_reported {reports : List Nat} {work : Nat} {after : Stage} (quiet : after ≠ .raised) :
    ∀ other, other ∈ reports ↔ other ∈ reports ∨ (other = work ∧ after = .raised) :=
  fun _ => ⟨.inl, fun either => either.resolve_right fun both => quiet both.2⟩

section Moves

variable {pool : ThreadPool} {stage : Nat → Stage} (tracked : Tracked pool stage)

include tracked

/-- A thread that does something was launched. -/
theorem launched {thread : Nat} (alive : pool.threads.read thread ≠ .dead) :
    thread < pool.threads.next := by
  rcases Nat.lt_or_ge thread pool.threads.next with below | beyond
  · exact below
  · exact absurd (tracked.fresh thread beyond) alive

/-- The stage of the job a worker has. -/
theorem stage_held {thread work : Nat} {current : Stage}
    (has : held thread (pool.threads.read thread) = some (work, current)) :
    stage work = current := ((tracked.threads thread work current).mp has).1

/-- A job that is not unborn was created. -/
theorem created {work : Nat} (born : stage work ≠ .unborn) : work < pool.jobs.next := by
  rcases Nat.lt_or_ge work pool.jobs.next with below | beyond
  · exact below
  · exact absurd (tracked.unborn work beyond) born

/-- Jobs that were not created stay unborn when one that was moves on. -/
theorem unborn_move {work : Nat} (born : stage work ≠ .unborn) (after : Stage) :
    ∀ other, pool.jobs.next ≤ other → Function.update stage work after other = .unborn := by
  intro other beyond
  have below := created tracked born
  have isOther : other ≠ work := Nat.ne_of_gt (Nat.lt_of_lt_of_le below beyond)
  rw [Function.update_of_ne isOther]
  exact tracked.unborn other beyond

/-- A worker moves on and has the same job in the same stage. -/
theorem threads_same {thread : Nat} {phase : WorkerPhase}
    (same : held thread phase = held thread (pool.threads.read thread)) :
    ∀ other work current,
      held other ((pool.threads.write thread phase).read other) = some (work, current) ↔
        stage work = current ∧ current.owner = some other := by
  intro other work current
  rw [Heap.read_write]
  split
  · rename_i isThread
    rw [isThread, same]
    exact tracked.threads thread work current
  · exact tracked.threads other work current

/-- A worker moves on, and with it the one job it had, takes or gives up. -/
theorem threads_move {thread work : Nat} {phase : WorkerPhase} {after : Stage}
    (before : ∀ other current, held thread (pool.threads.read thread) = some (other, current) →
      other = work)
    (mine : ∀ other, (stage work).owner = some other → other = thread)
    (moved : (held thread phase = some (work, after) ∧ after.owner = some thread) ∨
      (held thread phase = none ∧ after.owner = none)) :
    ∀ other job current,
      held other ((pool.threads.write thread phase).read other) = some (job, current) ↔
        Function.update stage work after job = current ∧ current.owner = some other := by
  intro other job current
  rw [Heap.read_write, Function.update_apply]
  by_cases isThread : other = thread <;> by_cases isWork : job = work
  · rw [if_pos isThread, if_pos isWork, isThread, isWork]
    rcases moved with ⟨has, owned⟩ | ⟨without, free⟩
    · rw [has]
      constructor
      · rintro ⟨⟩
        exact ⟨rfl, owned⟩
      · rintro ⟨rfl, _⟩
        rfl
    · rw [without]
      constructor
      · nofun
      · rintro ⟨rfl, owned⟩
        rw [free] at owned
        cases owned
  · -- The worker had no other job, and takes no other.
    rw [if_pos isThread, if_neg isWork, isThread]
    constructor
    · intro has
      rcases moved with ⟨now, _⟩ | ⟨without, _⟩
      · rw [now] at has
        cases has
        exact absurd rfl isWork
      · rw [without] at has
        cases has
    · intro owned
      exact absurd (before job current ((tracked.threads thread job current).mpr owned)) isWork
  · -- No other worker had the job, or has it now.
    rw [if_neg isThread, if_pos isWork, isWork]
    constructor
    · intro has
      obtain ⟨rfl, owned⟩ := (tracked.threads other work current).mp has
      exact absurd (mine other owned) isThread
    · rintro ⟨rfl, owned⟩
      rcases moved with ⟨_, now⟩ | ⟨_, free⟩
      · rw [now] at owned
        cases owned
        exact absurd rfl isThread
      · rw [free] at owned
        cases owned
  · rw [if_neg isThread, if_neg isWork]
    exact tracked.threads other job current

/-- Threads that were not launched stay as they were when a launched one moves on. -/
theorem fresh_move {thread : Nat} (alive : pool.threads.read thread ≠ .dead)
    (phase : WorkerPhase) : ∀ other, (pool.threads.write thread phase).next ≤ other →
      (pool.threads.write thread phase).read other = .dead := by
  intro other beyond
  have below := launched tracked alive
  have differs : other ≠ thread := Nat.ne_of_gt (Nat.lt_of_lt_of_le below beyond)
  rw [Heap.read_write, if_neg differs]
  exact tracked.fresh other beyond

/-- A worker and the job it has take one step of the lifecycle. -/
theorem tracked_owned {next : ThreadPool} {thread work : Nat} {phase : WorkerPhase}
    {current after : Stage}
    (has : held thread (pool.threads.read thread) = some (work, current))
    (arrow : Arrow current after)
    (moved : (held thread phase = some (work, after) ∧ after.owner = some thread) ∨
      (held thread phase = none ∧ after.owner = none))
    (threads : next.threads = pool.threads.write thread phase)
    (workQueue : next.workQueue = pool.workQueue) (count : next.jobs.next = pool.jobs.next)
    (fits : Fits (next.jobs.read work) after)
    (others : ∀ other, other ≠ work → next.jobs.read other = pool.jobs.read other)
    (raised : ∀ other, other ∈ next.raised ↔
      other ∈ pool.raised ∨ (other = work ∧ after = .raised)) :
    Tracked next (Function.update stage work after) := by
  obtain ⟨isCurrent, owned⟩ := (tracked.threads thread work current).mp has
  have alive : pool.threads.read thread ≠ .dead := by
    intro dead
    rw [dead] at has
    cases has
  -- A job with an owner has left `@work_queue`, and its arrows do not lead back there.
  have busy : current ≠ .unborn ∧ current ≠ .waiting ∧ current ≠ .raised := by
    refine ⟨?_, ?_, ?_⟩ <;> rintro rfl <;> cases owned
  have begun : after ≠ .unborn ∧ after ≠ .waiting := by
    cases arrow with
    | push => cases owned
    | pop | announce | begin | complete | raise | kill => exact ⟨nofun, nofun⟩
  constructor
  · rw [threads]
    apply threads_move tracked _ _ moved
    · intro other stageOf hasOther
      rw [has] at hasOther
      cases hasOther
      rfl
    · intro other ownedByOther
      rw [isCurrent, owned] at ownedByOther
      cases ownedByOther
      rfl
  · intro other
    rw [workQueue, tracked.waiting, update_eq_iff (isCurrent ▸ busy.2.1) begun.2]
  · rw [workQueue]
    exact tracked.nodup
  · intro other
    rw [Function.update_apply]
    split
    · rename_i isWork
      rw [isWork]
      exact fits
    · rename_i isOther
      rw [others other isOther]
      exact tracked.jobs other
  · intro other
    rw [raised, tracked.raised, Function.update_apply]
    split
    · rename_i isWork
      rw [isWork, isCurrent]
      exact ⟨fun either => either.resolve_left busy.2.2 |>.2, fun now => .inr ⟨rfl, now⟩⟩
    · rename_i isOther
      exact ⟨fun either => either.resolve_right fun both => isOther both.1, .inl⟩
  · rw [count]
    exact unborn_move tracked (isCurrent ▸ busy.1) after
  · rw [threads]
    exact fresh_move tracked alive phase

/-- `<<`: the next job waits. -/
theorem tracked_push :
    Tracked pool.push (Function.update stage pool.jobs.next .waiting) := by
  have isNew : stage pool.jobs.next = .unborn := tracked.unborn _ (Nat.le_refl _)
  have absent : pool.jobs.next ∉ pool.workQueue := by
    rw [tracked.waiting, isNew]
    nofun
  constructor
  · intro thread work current
    rw [Function.update_apply]
    split
    · rename_i isWork
      have free := tracked.threads thread work current
      rw [isWork, isNew] at free
      rw [isWork]
      refine free.trans ⟨?_, ?_⟩
      · rintro ⟨rfl, owned⟩
        cases owned
      · rintro ⟨rfl, owned⟩
        cases owned
    · exact tracked.threads thread work current
  · intro work
    change work ∈ pool.workQueue ++ [pool.jobs.next] ↔ _
    rw [List.mem_append, List.mem_singleton, tracked.waiting, Function.update_apply]
    split
    · rename_i isWork
      exact iff_of_true (.inr isWork) rfl
    · rename_i isOther
      exact ⟨fun either => either.resolve_right isOther, .inl⟩
  · exact List.nodup_append'.mpr ⟨tracked.nodup, List.nodup_singleton _,
      List.disjoint_singleton.mpr absent⟩
  · intro work
    change Fits ((pool.jobs.alloc ThreadPoolJob.new).2.read work) _
    rw [Heap.read_alloc_eq, Function.update_apply]
    split
    · rfl
    · exact tracked.jobs work
  · intro work
    change work ∈ pool.raised ↔ _
    have quiet : stage pool.jobs.next ≠ .raised := by
      rw [isNew]
      nofun
    exact (tracked.raised work).trans (update_eq_iff quiet (by nofun) work).symm
  · intro work beyond
    have isOther : work ≠ pool.jobs.next := Nat.ne_of_gt beyond
    rw [Function.update_of_ne isOther]
    exact tracked.unborn work (Nat.le_of_succ_le beyond)
  · exact tracked.fresh

/-- `@work_queue.pop`: the oldest job gets a worker. -/
theorem tracked_pop {thread work : Nat} {rest : List Nat}
    (idle : pool.threads.read thread = .idle) (queue : pool.workQueue = work :: rest) :
    Tracked { pool.moveWorker thread (.popped work) with workQueue := rest }
      (Function.update stage work (.popped thread)) := by
  have isWaiting : stage work = .waiting :=
    (tracked.waiting work).mp (queue ▸ List.mem_cons_self)
  have distinct := tracked.nodup
  rw [queue, List.nodup_cons] at distinct
  constructor
  · apply threads_move tracked _ _ (.inl ⟨rfl, rfl⟩)
    · intro other current has
      rw [idle] at has
      cases has
    · intro other owned
      rw [isWaiting] at owned
      cases owned
  · intro other
    change other ∈ rest ↔ _
    rw [Function.update_apply]
    split
    · rename_i isWork
      rw [isWork]
      exact iff_of_false distinct.1 nofun
    · rename_i isOther
      rw [← tracked.waiting, queue, List.mem_cons]
      exact ⟨.inr, fun either => either.resolve_left isOther⟩
  · exact distinct.2
  · intro other
    have fits := tracked.jobs other
    rw [Function.update_apply]
    split
    · rename_i isWork
      rw [isWork, isWaiting] at fits
      rw [isWork]
      exact fits
    · exact fits
  · intro other
    change other ∈ pool.raised ↔ _
    have quiet : stage work ≠ .raised := by
      rw [isWaiting]
      nofun
    exact (tracked.raised other).trans (update_eq_iff quiet (by nofun) other).symm
  · exact unborn_move tracked (by rw [isWaiting]; nofun) _
  · exact fresh_move tracked (by rw [idle]; nofun) _

/-- `launch_worker`: the new thread has no job. -/
theorem tracked_launchWorker : Tracked pool.launchWorker stage := by
  have dead : pool.threads.read pool.threads.next = .dead := tracked.fresh _ (Nat.le_refl _)
  constructor
  · intro thread work current
    rw [← tracked.threads]
    change held thread ((pool.threads.alloc .idle).2.read thread) = _ ↔ _
    rw [Heap.read_alloc_eq]
    split
    · rename_i isNew
      rw [isNew, dead]
      rfl
    · rfl
  · exact tracked.waiting
  · exact tracked.nodup
  · exact tracked.jobs
  · exact tracked.raised
  · exact tracked.unborn
  · intro thread beyond
    have isOther : thread ≠ pool.threads.next := Nat.ne_of_gt beyond
    change (pool.threads.alloc .idle).2.read thread = _
    rw [Heap.read_alloc_eq, if_neg isOther]
    exact tracked.fresh thread (Nat.le_of_succ_le beyond)

omit tracked in
/-- Launching any number of workers keeps the jobs in their stages. -/
theorem tracked_launchWorkers (count : Nat) : ∀ pool : ThreadPool,
    Tracked pool stage → Tracked (launchWorkers count pool) stage := by
  induction count with
  | zero => exact fun _ tracked => tracked
  | succ count ih => exact fun pool tracked => ih pool.launchWorker (tracked_launchWorker tracked)

/-- `start` keeps the jobs in their stages. -/
theorem tracked_start : Tracked pool.start stage := by
  unfold start
  split
  · have ready : Tracked { pool with terminate := false } stage := tracked.congr rfl rfl rfl rfl
    exact (tracked_launchWorkers pool.numThreads _ ready).congr rfl rfl rfl rfl
  · exact tracked

end Moves

/-! ## The pool follows the lifecycle -/

/-- The stages after a step of the pool: each job takes at most one arrow, and only a job whose
worker is dead is abandoned. -/
structure Follows (next : ThreadPool) (stage after : Nat → Stage) : Prop where
  /-- The pool has every job in its stage. -/
  tracked : Tracked next after
  /-- Jobs move along arrows. -/
  moved : ∀ work, after work = stage work ∨ Arrow (stage work) (after work)
  /-- A job is abandoned because its worker was killed. -/
  killed : ∀ work thread, (stage work).owner = some thread → after work = .abandoned →
    next.threads.read thread = .dead

/-- A step after which every job is in the stage it was in. -/
theorem follows_stay {next : ThreadPool} {stage : Nat → Stage} (tracked : Tracked next stage) :
    Follows next stage stage where
  tracked := tracked
  moved _ := .inl rfl
  killed work thread owned isAbandoned := by
    rw [isAbandoned] at owned
    cases owned

/-- A step in which one job takes an arrow; if it is abandoned, its worker is dead. -/
theorem follows_arrow {next : ThreadPool} {stage : Nat → Stage} {work : Nat} {after : Stage}
    (tracked : Tracked next (Function.update stage work after)) (arrow : Arrow (stage work) after)
    (dead : after = .abandoned → ∀ thread, (stage work).owner = some thread →
      next.threads.read thread = .dead) :
    Follows next stage (Function.update stage work after) where
  tracked := tracked
  moved other := by
    rw [Function.update_apply]
    split
    · rename_i isWork
      exact .inr (isWork ▸ arrow)
    · exact .inl rfl
  killed other thread owned isAbandoned := by
    rw [Function.update_apply] at isAbandoned
    split at isAbandoned
    · rename_i isWork
      exact dead isAbandoned thread (isWork ▸ owned)
    · rw [isAbandoned] at owned
      cases owned

section Steps

variable {pool : ThreadPool} {stage : Nat → Stage} (tracked : Tracked pool stage)

include tracked

/-- `t.kill`: the job of the thread, if it has one, is abandoned. -/
theorem follows_kill (thread : Nat) : ∃ after, Follows (pool.kill thread) stage after := by
  cases has : held thread (pool.threads.read thread) with
  | none =>
    refine ⟨stage, follows_stay ⟨?_, tracked.waiting, tracked.nodup, tracked.jobs, tracked.raised,
      tracked.unborn, ?_⟩⟩
    · exact threads_same tracked (has ▸ rfl)
    · intro other beyond
      change (pool.threads.write thread .dead).read other = _
      rw [Heap.read_write]
      split
      · rfl
      · exact tracked.fresh other beyond
  | some job =>
    obtain ⟨work, current⟩ := job
    obtain ⟨isCurrent, owned⟩ := (tracked.threads thread work current).mp has
    have arrow : Arrow current .abandoned := .kill current thread owned
    refine ⟨_, follows_arrow ?_ (isCurrent ▸ arrow) ?_⟩
    · exact tracked_owned tracked has arrow (.inr ⟨rfl, rfl⟩) rfl rfl rfl trivial
        (fun _ _ => rfl) (not_reported nofun)
    · intro _ owner ownedByOwner
      rw [isCurrent, owned] at ownedByOwner
      cases ownedByOwner
      exact Heap.read_write_same _ _ _

/-- A thread that has a job was launched. -/
theorem owner_launched {work thread : Nat} (owned : (stage work).owner = some thread) :
    thread < pool.threads.next := by
  have has := (tracked.threads thread work (stage work)).mpr ⟨rfl, owned⟩
  apply launched tracked
  intro dead
  rw [dead] at has
  cases has

/-- `check_workers` replaces the thread of an expired job. -/
theorem follows_replaceWorker (thread : Nat) :
    ∃ after, Follows (pool.replaceWorker thread) stage after := by
  obtain ⟨after, follows⟩ := follows_kill tracked thread
  have killedTracked : Tracked { pool.kill thread with
      workerThreads := (pool.kill thread).workerThreads.filter (· ≠ thread) } after :=
    follows.tracked.congr rfl rfl rfl rfl
  refine ⟨after, tracked_launchWorker killedTracked, follows.moved, ?_⟩
  intro work owner owned isAbandoned
  have known : owner ≠ (pool.kill thread).threads.next :=
    Nat.ne_of_lt (owner_launched tracked owned)
  change ((pool.kill thread).threads.alloc .idle).2.read owner = _
  rw [Heap.read_alloc_eq, if_neg known]
  exact follows.killed work owner owned isAbandoned

/-- A worker announces its job. -/
theorem follows_announce {thread work : Nat} (popped : pool.threads.read thread = .popped work) :
    Follows { pool.moveWorker thread (.queued work) with
        runningQueue := pool.runningQueue ++ [work] }
      stage (Function.update stage work (.queued thread)) := by
  have has : held thread (pool.threads.read thread) = some (work, .popped thread) :=
    congrArg (held thread) popped
  have isPopped := stage_held tracked has
  have record := tracked.jobs work
  rw [isPopped] at record
  refine follows_arrow ?_ (isPopped ▸ .announce thread) nofun
  exact tracked_owned tracked has (.announce thread) (.inl ⟨rfl, rfl⟩) rfl rfl rfl record
    (fun _ _ => rfl) (not_reported nofun)

/-- A worker marks its job as started. -/
theorem follows_begin {thread work : Nat} (queued : pool.threads.read thread = .queued work) :
    Follows { pool.moveWorker thread (.running work) with
        jobs := pool.jobs.write work ((pool.jobs.read work).markStarted thread pool.clock) }
      stage (Function.update stage work (.executing thread)) := by
  have has : held thread (pool.threads.read thread) = some (work, .queued thread) :=
    congrArg (held thread) queued
  have isQueued := stage_held tracked has
  have record : pool.jobs.read work = ThreadPoolJob.new := by
    have fits := tracked.jobs work
    rw [isQueued] at fits
    exact fits
  refine follows_arrow ?_ (isQueued ▸ .begin thread) nofun
  refine tracked_owned tracked has (.begin thread) (.inl ⟨rfl, rfl⟩) rfl rfl rfl ?_ ?_ ?_
  · rw [Heap.read_write_same, record]
    exact ⟨rfl, rfl, rfl⟩
  · intro other isOther
    rw [Heap.read_write, if_neg isOther]
  · exact not_reported nofun

/-- A worker marks its job as completed. -/
theorem follows_complete {thread work : Nat}
    (returned : pool.threads.read thread = .returned work) :
    Follows { pool.moveWorker thread .idle with
        jobs := pool.jobs.write work ((pool.jobs.read work).markCompleted pool.clock) }
      stage (Function.update stage work .completed) := by
  have has : held thread (pool.threads.read thread) = some (work, .executing thread) :=
    congrArg (held thread) returned
  have isExecuting := stage_held tracked has
  have record := tracked.jobs work
  rw [isExecuting] at record
  refine follows_arrow ?_ (isExecuting ▸ .complete thread) nofun
  refine tracked_owned tracked has (.complete thread) (.inr ⟨rfl, rfl⟩) rfl rfl rfl ?_ ?_ ?_
  · rw [Heap.read_write_same]
    simp [Fits, ThreadPoolJob.completed, ThreadPoolJob.markCompleted, record.2.1]
  · intro other isOther
    rw [Heap.read_write, if_neg isOther]
  · exact not_reported nofun

/-- A handler raises. -/
theorem follows_raise {thread work : Nat} (running : pool.threads.read thread = .running work) :
    Follows { pool.moveWorker thread .idle with raised := pool.raised ++ [work] }
      stage (Function.update stage work .raised) := by
  have has : held thread (pool.threads.read thread) = some (work, .executing thread) :=
    congrArg (held thread) running
  have isExecuting := stage_held tracked has
  have record := tracked.jobs work
  rw [isExecuting] at record
  refine follows_arrow ?_ (isExecuting ▸ .raise thread) nofun
  refine tracked_owned tracked has (.raise thread) (.inr ⟨rfl, rfl⟩) rfl rfl rfl ?_ ?_ ?_
  · exact ⟨record.1 ▸ rfl, record.2⟩
  · exact fun _ _ => rfl
  · intro other
    rw [List.mem_append, List.mem_singleton]
    simp

/-- A handler returns: its job is not completed yet. -/
theorem tracked_return {thread work : Nat} (running : pool.threads.read thread = .running work) :
    Tracked (pool.moveWorker thread (.returned work)) stage where
  threads := threads_same tracked (by rw [running]; rfl)
  waiting := tracked.waiting
  nodup := tracked.nodup
  jobs := tracked.jobs
  raised := tracked.raised
  unborn := tracked.unborn
  fresh := fresh_move tracked (by rw [running]; nofun) _

/-- The locked part of `check_workers`. -/
theorem follows_examine (id limit work : Nat) (readd : List Nat) :
    ∃ after, Follows (pool.examine id limit work readd) stage after := by
  have examined := examined_examine pool id limit work readd
  generalize pool.examine id limit work readd = next at examined
  cases examined with
  | replaced thread expired named =>
    obtain ⟨after, follows⟩ := follows_replaceWorker tracked thread
    exact ⟨after, follows.tracked.congr rfl rfl rfl rfl, follows.moved, follows.killed⟩
  | failed | dropped | kept => exact ⟨stage, follows_stay (tracked.congr rfl rfl rfl rfl)⟩

/-- A manager moves jobs only by killing their workers. -/
theorem follows_manager {id : Nat} {next : ThreadPool}
    (managed : ManagerTransition pool id next) : ∃ after, Follows next stage after := by
  cases managed with
  | kill index thread phase listed =>
    obtain ⟨after, follows⟩ := follows_kill tracked thread
    exact ⟨after, follows.tracked.congr rfl rfl rfl rfl, follows.moved, follows.killed⟩
  | examine limit work readd phase timeout => exact follows_examine tracked id limit work readd
  | quit | rest | sleep | yield | wake | sweep | pass | skip | swept | more | drained | pop
  | refilled | refill => exact ⟨stage, follows_stay (tracked.congr rfl rfl rfl rfl)⟩

/-- `stop` moves no job. -/
theorem tracked_stop : Tracked pool.stop stage := by
  rcases stop_cases pool with same | ⟨id, wakeAt, last, _, woken⟩
  · rw [same]
    exact tracked.congr rfl rfl rfl rfl
  · rw [woken]
    exact tracked.congr rfl rfl rfl rfl

/-- **The pool follows the lifecycle.** Whatever a user, a worker or a manager does, every job
takes at most one arrow, and a job is abandoned only with its worker. -/
theorem follows_transition {action : PoolAction} {next : ThreadPool}
    (transition : Transition pool action next) : ∃ after, Follows next stage after := by
  cases transition with
  | start => exact ⟨stage, follows_stay (tracked_start tracked)⟩
  | stop => exact ⟨stage, follows_stay (tracked_stop tracked)⟩
  | push =>
    have isNew : stage pool.jobs.next = .unborn := tracked.unborn _ (Nat.le_refl _)
    exact ⟨_, follows_arrow (tracked_push tracked) (isNew ▸ .push) nofun⟩
  | pop thread work rest idle queue =>
    have isWaiting : stage work = .waiting :=
      (tracked.waiting work).mp (queue ▸ List.mem_cons_self)
    exact ⟨_, follows_arrow (tracked_pop tracked idle queue) (isWaiting ▸ .pop thread) nofun⟩
  | announce thread work popped => exact ⟨_, follows_announce tracked popped⟩
  | begin thread work queued => exact ⟨_, follows_begin tracked queued⟩
  | complete thread work returned => exact ⟨_, follows_complete tracked returned⟩
  | returns thread work running => exact ⟨stage, follows_stay (tracked_return tracked running)⟩
  | raises thread work running => exact ⟨_, follows_raise tracked running⟩
  | manage id next managed => exact follows_manager tracked managed
  | tick => exact ⟨stage, follows_stay (tracked.congr rfl rfl rfl rfl)⟩

end Steps

end Rjr.Verif.JobLifecycle
