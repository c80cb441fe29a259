import Rjr.Lib.Heap
import Rjr.Lib.Machine

/-!
# Thread pool

`lib/rjr/util/thread_pool.rb`. Workers take jobs from `@work_queue`, announce them on
`@running_queue` and execute them; a manager wakes up every `@timeout` and kills the thread of
each announced job that has been running for longer. Jobs, worker threads and manager threads are
objects, known by reference. The parts of `exec` and `check_workers` that hold `@thread_lock` are
one step each, as is every other access to what threads share, so a list of actions is an
interleaving. The `wakeup` of a `stop` between the manager's test of `@terminate` and its `sleep` is
lost, and the manager sleeps for its whole timeout. A job is handed to the pool once; a handler
returns or raises at any time.
-/

namespace Rjr

/-- `ThreadPoolJob`. -/
structure ThreadPoolJob where
  /-- Time the job started, if it has. -/
  timeStarted : Option Nat
  /-- Time the job completed, if it has. -/
  timeCompleted : Option Nat
  /-- Thread running the job. -/
  thread : Option Nat
  deriving DecidableEq, Repr

namespace ThreadPoolJob

/-- A new job. -/
def new : ThreadPoolJob := ⟨none, none, none⟩

/-- `completed?`. -/
def completed (job : ThreadPoolJob) : Bool := job.timeStarted.isSome && job.timeCompleted.isSome

/-- `expired?(timeout)`, at a time. -/
def expired (job : ThreadPoolJob) (timeout now : Nat) : Bool :=
  match job.timeStarted with
  | none => false
  | some started => job.timeCompleted.isNone && decide (timeout < now - started)

/-- The locked part of `exec` before the handler is called. -/
def markStarted (job : ThreadPoolJob) (thread now : Nat) : ThreadPoolJob :=
  { job with thread := some thread, timeStarted := some now }

/-- The locked part of `exec` after the handler has returned. -/
def markCompleted (job : ThreadPoolJob) (now : Nat) : ThreadPoolJob :=
  { job with timeCompleted := some now, thread := none }

end ThreadPoolJob

/-- Where a worker thread is in its loop. -/
inductive WorkerPhase where
  /-- It was not launched yet, or it was killed. -/
  | dead
  /-- At `@work_queue.pop`. -/
  | idle
  /-- It has popped a job. -/
  | popped (work : Nat)
  /-- It has put the job on `@running_queue`. -/
  | queued (work : Nat)
  /-- It has marked the job as started and runs the handler. -/
  | running (work : Nat)
  /-- The handler has returned; the job is not marked as completed. -/
  | returned (work : Nat)
  deriving DecidableEq, Repr

/-- Where a manager thread is in its loop, and in `check_workers`. -/
inductive ManagerPhase where
  /-- At `until @terminate`. -/
  | testing
  /-- At `sleep @timeout`, which has not begun. -/
  | resting
  /-- In `sleep @timeout`, up to a time. -/
  | sleeping (wakeAt : Nat)
  /-- At the start of `check_workers`. -/
  | checking
  /-- In `@worker_threads.each { |t| t.kill }`, at an index. -/
  | killing (index : Nat)
  /-- At `@running_queue.size > 0`. -/
  | scanning (readd : List Nat)
  /-- At `@running_queue.pop`. -/
  | popping (readd : List Nat)
  /-- At the lock, with the job to examine. -/
  | examining (work : Nat) (readd : List Nat)
  /-- In `readd.each { |work| @running_queue << work }`, with the jobs left. -/
  | refilling (works : List Nat)
  /-- The thread has ended, or was not launched yet. -/
  | exited
  deriving DecidableEq, Repr

/-- A manager thread. -/
structure Manager where
  /-- Where it is. -/
  phase : ManagerPhase
  /-- Whether it has left its loop, so that this `check_workers` is its last. -/
  last : Bool
  deriving DecidableEq, Repr

/-- `ThreadPool`, with its threads. -/
structure ThreadPool where
  /-- `@num_threads`. -/
  numThreads : Nat
  /-- `@timeout`. -/
  timeout : Option Nat
  /-- `@terminate`. -/
  terminate : Bool
  /-- Every job. -/
  jobs : Heap ThreadPoolJob
  /-- `@work_queue`, oldest first. -/
  workQueue : List Nat
  /-- `@running_queue`, oldest first. -/
  runningQueue : List Nat
  /-- Every worker thread. -/
  threads : Heap WorkerPhase
  /-- `@worker_threads`. -/
  workerThreads : List Nat
  /-- Every manager thread. -/
  managers : Heap Manager
  /-- `@manager_thread`. -/
  managerThread : Option Nat
  /-- The jobs reported by `puts "Thread raised Fatal Exception #{e}"`. -/
  raised : List Nat
  /-- `Time.now`. -/
  clock : Nat

/-- What the threads of a pool and its user can do. -/
inductive PoolAction where
  /-- `start`. -/
  | start
  /-- `stop`. -/
  | stop
  /-- `<<` with a new job. -/
  | push
  /-- A worker goes on to the call of its handler, or from its return. -/
  | work (thread : Nat)
  /-- The handler a worker runs returns. -/
  | returns (thread : Nat)
  /-- The handler a worker runs raises. -/
  | raises (thread : Nat)
  /-- A manager goes on. -/
  | manage (manager : Nat)
  /-- Time passes. -/
  | tick
  deriving DecidableEq, Repr

namespace ThreadPool

/-- `initialize`, for the configured `num_threads` and `timeout`. -/
def new (numThreads timeout : Option Nat) : ThreadPool where
  numThreads := numThreads.getD 20
  timeout := some (timeout.getD 10)
  terminate := true
  jobs := Heap.new ThreadPoolJob.new
  workQueue := []
  runningQueue := []
  threads := Heap.new .dead
  workerThreads := []
  managers := Heap.new ⟨.exited, false⟩
  managerThread := none
  raised := []
  clock := 0

/-- `launch_worker`. -/
def launchWorker (pool : ThreadPool) : ThreadPool :=
  let launched := pool.threads.alloc .idle
  { pool with threads := launched.2, workerThreads := pool.workerThreads ++ [launched.1] }

/-- `0.upto(@num_threads-1) { |i| launch_worker }`. -/
def launchWorkers : Nat → ThreadPool → ThreadPool
  | 0, pool => pool
  | count + 1, pool => launchWorkers count pool.launchWorker

/-- `launch_manager`. -/
def launchManager (pool : ThreadPool) : ThreadPool :=
  let launched := pool.managers.alloc ⟨.testing, false⟩
  { pool with managers := launched.2, managerThread := some launched.1 }

/-- `start`. -/
def start (pool : ThreadPool) : ThreadPool :=
  if pool.terminate then
    (launchWorkers pool.numThreads { pool with terminate := false }).launchManager
  else pool

/-- `@manager_thread.wakeup if @manager_thread`. -/
def wakeup (pool : ThreadPool) : ThreadPool :=
  match pool.managerThread with
  | none => pool
  | some id =>
    match pool.managers.read id with
    | ⟨.sleeping _, last⟩ => { pool with managers := pool.managers.write id ⟨.checking, last⟩ }
    | _ => pool

/-- `stop`. -/
def stop (pool : ThreadPool) : ThreadPool := wakeup { pool with terminate := true }

/-- `<<`, with a new job. -/
def push (pool : ThreadPool) : ThreadPool :=
  let created := pool.jobs.alloc ThreadPoolJob.new
  { pool with jobs := created.2, workQueue := pool.workQueue ++ [created.1] }

/-! ## Workers -/

/-- A worker moves on. -/
def moveWorker (pool : ThreadPool) (thread : Nat) (phase : WorkerPhase) : ThreadPool :=
  { pool with threads := pool.threads.write thread phase }

/-- The steps of the loop in `launch_worker` around the handler. -/
def workerStep (pool : ThreadPool) (thread : Nat) : Option ThreadPool :=
  match pool.threads.read thread with
  | .idle =>
    match pool.workQueue with
    | [] => none
    | work :: rest => some { pool.moveWorker thread (.popped work) with workQueue := rest }
  | .popped work =>
    some { pool.moveWorker thread (.queued work) with runningQueue := pool.runningQueue ++ [work] }
  | .queued work =>
    let job := (pool.jobs.read work).markStarted thread pool.clock
    some { pool.moveWorker thread (.running work) with jobs := pool.jobs.write work job }
  | .returned work =>
    let job := (pool.jobs.read work).markCompleted pool.clock
    some { pool.moveWorker thread .idle with jobs := pool.jobs.write work job }
  | .running _ | .dead => none

/-- The handler returns. -/
def handlerReturns (pool : ThreadPool) (thread : Nat) : Option ThreadPool :=
  match pool.threads.read thread with
  | .running work => some (pool.moveWorker thread (.returned work))
  | _ => none

/-- The handler raises: `exec` is left, the exception is reported and the worker goes on. -/
def handlerRaises (pool : ThreadPool) (thread : Nat) : Option ThreadPool :=
  match pool.threads.read thread with
  | .running work => some { pool.moveWorker thread .idle with raised := pool.raised ++ [work] }
  | _ => none

/-! ## The manager -/

/-- A manager moves on. -/
def moveManager (pool : ThreadPool) (id : Nat) (phase : ManagerPhase) : ThreadPool :=
  { pool with managers := pool.managers.write id ⟨phase, (pool.managers.read id).last⟩ }

/-- A manager leaves its loop, for a last `check_workers`. -/
def leaveLoop (pool : ThreadPool) (id : Nat) : ThreadPool :=
  { pool with managers := pool.managers.write id ⟨.checking, true⟩ }

/-- Where a manager goes on after `check_workers`. -/
def afterCheck (pool : ThreadPool) (id : Nat) : ManagerPhase :=
  if (pool.managers.read id).last then .exited else .testing

/-- `t.kill`. -/
def kill (pool : ThreadPool) (thread : Nat) : ThreadPool := pool.moveWorker thread .dead

/-- What `check_workers` does with the thread of an expired job. -/
def replaceWorker (pool : ThreadPool) (thread : Nat) : ThreadPool :=
  let killed := pool.kill thread
  { killed with workerThreads := killed.workerThreads.filter (· ≠ thread) }.launchWorker

/-- The locked part of `check_workers` for one job. `nil.kill` ends the manager. -/
def examine (pool : ThreadPool) (id limit work : Nat) (readd : List Nat) : ThreadPool :=
  let job := pool.jobs.read work
  if job.expired limit pool.clock then
    match job.thread with
    | some thread => (pool.replaceWorker thread).moveManager id (.scanning readd)
    | none => pool.moveManager id .exited
  else if job.completed then pool.moveManager id (.scanning readd)
  else pool.moveManager id (.scanning (readd ++ [work]))

/-- The steps of the loop in `launch_manager` and of `check_workers`. -/
def managerStep (pool : ThreadPool) (id : Nat) : Option ThreadPool :=
  match (pool.managers.read id).phase with
  | .testing =>
    if pool.terminate then some (pool.leaveLoop id)
    else
      match pool.timeout with
      | some _ => some (pool.moveManager id .resting)
      | none => some pool
  | .resting =>
    pool.timeout.map fun limit => pool.moveManager id (.sleeping (pool.clock + limit))
  | .sleeping wakeAt => if wakeAt ≤ pool.clock then some (pool.moveManager id .checking) else none
  | .checking =>
    if pool.terminate then some (pool.moveManager id (.killing 0))
    else
      match pool.timeout with
      | some _ => some (pool.moveManager id (.scanning []))
      | none => some (pool.moveManager id (pool.afterCheck id))
  | .killing index =>
    match pool.workerThreads[index]? with
    | some thread => some ((pool.kill thread).moveManager id (.killing (index + 1)))
    | none => some { pool.moveManager id (pool.afterCheck id) with workerThreads := [] }
  | .scanning readd =>
    if pool.runningQueue.length > 0 then some (pool.moveManager id (.popping readd))
    else some (pool.moveManager id (.refilling readd))
  | .popping readd =>
    match pool.runningQueue with
    | [] => none
    | work :: rest => some { pool.moveManager id (.examining work readd) with runningQueue := rest }
  | .examining work readd => pool.timeout.map fun limit => pool.examine id limit work readd
  | .refilling [] => some (pool.moveManager id (pool.afterCheck id))
  | .refilling (work :: rest) =>
    some { pool.moveManager id (.refilling rest) with runningQueue := pool.runningQueue ++ [work] }
  | .exited => none

/-- Every action, where it is possible. -/
def step (pool : ThreadPool) : PoolAction → Option ThreadPool
  | .start => some pool.start
  | .stop => some pool.stop
  | .push => some pool.push
  | .work thread => pool.workerStep thread
  | .returns thread => pool.handlerReturns thread
  | .raises thread => pool.handlerRaises thread
  | .manage id => pool.managerStep id
  | .tick => some { pool with clock := pool.clock + 1 }

/-- The pool, its threads and its user, in any interleaving. -/
def machine : Machine ThreadPool PoolAction := ⟨step⟩

/-- The interleavings in which nobody calls `stop`. -/
def unstopped : Machine ThreadPool PoolAction := machine.restrict (· ≠ .stop)

/-! ## What a step can do -/

/-- Everything a step of a manager can do. -/
inductive ManagerTransition (pool : ThreadPool) (id : Nat) : ThreadPool → Prop where
  /-- It leaves its loop. -/
  | quit (phase : (pool.managers.read id).phase = .testing) (stopped : pool.terminate = true) :
      ManagerTransition pool id (pool.leaveLoop id)
  /-- It is about to sleep. -/
  | rest (limit : Nat) (phase : (pool.managers.read id).phase = .testing)
      (running : pool.terminate = false) (timeout : pool.timeout = some limit) :
      ManagerTransition pool id (pool.moveManager id .resting)
  /-- It falls asleep, whatever `@terminate` is by now. -/
  | sleep (limit : Nat) (phase : (pool.managers.read id).phase = .resting)
      (timeout : pool.timeout = some limit) :
      ManagerTransition pool id (pool.moveManager id (.sleeping (pool.clock + limit)))
  /-- It yields. -/
  | yield (phase : (pool.managers.read id).phase = .testing) (running : pool.terminate = false)
      (timeout : pool.timeout = none) : ManagerTransition pool id pool
  /-- It wakes up. -/
  | wake (wakeAt : Nat) (phase : (pool.managers.read id).phase = .sleeping wakeAt)
      (due : wakeAt ≤ pool.clock) : ManagerTransition pool id (pool.moveManager id .checking)
  /-- It begins to kill all workers. -/
  | sweep (phase : (pool.managers.read id).phase = .checking) (stopped : pool.terminate = true) :
      ManagerTransition pool id (pool.moveManager id (.killing 0))
  /-- It begins a pass. -/
  | pass (limit : Nat) (phase : (pool.managers.read id).phase = .checking)
      (running : pool.terminate = false) (timeout : pool.timeout = some limit) :
      ManagerTransition pool id (pool.moveManager id (.scanning []))
  /-- There is nothing to check. -/
  | skip (phase : (pool.managers.read id).phase = .checking) (running : pool.terminate = false)
      (timeout : pool.timeout = none) :
      ManagerTransition pool id (pool.moveManager id (pool.afterCheck id))
  /-- It kills one of all workers. -/
  | kill (index thread : Nat) (phase : (pool.managers.read id).phase = .killing index)
      (listed : pool.workerThreads[index]? = some thread) :
      ManagerTransition pool id ((pool.kill thread).moveManager id (.killing (index + 1)))
  /-- All workers were killed. -/
  | swept (index : Nat) (phase : (pool.managers.read id).phase = .killing index)
      (beyond : pool.workerThreads[index]? = none) :
      ManagerTransition pool id
        { pool.moveManager id (pool.afterCheck id) with workerThreads := [] }
  /-- There are more jobs to examine. -/
  | more (readd : List Nat) (phase : (pool.managers.read id).phase = .scanning readd)
      (nonempty : pool.runningQueue.length > 0) :
      ManagerTransition pool id (pool.moveManager id (.popping readd))
  /-- All jobs were examined. -/
  | drained (readd : List Nat) (phase : (pool.managers.read id).phase = .scanning readd) :
      ManagerTransition pool id (pool.moveManager id (.refilling readd))
  /-- It takes a job to examine. -/
  | pop (work : Nat) (rest readd : List Nat)
      (phase : (pool.managers.read id).phase = .popping readd)
      (queue : pool.runningQueue = work :: rest) :
      ManagerTransition pool id
        { pool.moveManager id (.examining work readd) with runningQueue := rest }
  /-- It examines a job. -/
  | examine (limit work : Nat) (readd : List Nat)
      (phase : (pool.managers.read id).phase = .examining work readd)
      (timeout : pool.timeout = some limit) :
      ManagerTransition pool id (pool.examine id limit work readd)
  /-- All jobs to be monitored further are back. -/
  | refilled (phase : (pool.managers.read id).phase = .refilling []) :
      ManagerTransition pool id (pool.moveManager id (pool.afterCheck id))
  /-- It puts back a job. -/
  | refill (work : Nat) (rest : List Nat)
      (phase : (pool.managers.read id).phase = .refilling (work :: rest)) :
      ManagerTransition pool id
        { pool.moveManager id (.refilling rest) with
          runningQueue := pool.runningQueue ++ [work] }

/-- Every step of a manager is one of these. -/
theorem managerTransition_of_step {pool next : ThreadPool} {id : Nat}
    (stepped : pool.managerStep id = some next) : ManagerTransition pool id next := by
  cases phase : (pool.managers.read id).phase with
  | testing =>
    cases terminate : pool.terminate with
    | true =>
      simp only [managerStep, phase, terminate, ↓reduceIte, Option.some.injEq] at stepped
      exact stepped ▸ .quit phase terminate
    | false =>
      cases timeout : pool.timeout with
      | some limit =>
        simp only [managerStep, phase, terminate, timeout, Bool.false_eq_true, ↓reduceIte,
          Option.some.injEq] at stepped
        exact stepped ▸ .rest limit phase terminate timeout
      | none =>
        simp only [managerStep, phase, terminate, timeout, Bool.false_eq_true, ↓reduceIte,
          Option.some.injEq] at stepped
        exact stepped ▸ .yield phase terminate timeout
  | resting =>
    simp only [managerStep, phase, Option.map_eq_some_iff] at stepped
    obtain ⟨limit, timeout, rfl⟩ := stepped
    exact .sleep limit phase timeout
  | sleeping wakeAt =>
    simp only [managerStep, phase, Option.ite_none_right_eq_some, Option.some.injEq] at stepped
    exact stepped.2 ▸ .wake wakeAt phase stepped.1
  | checking =>
    cases terminate : pool.terminate with
    | true =>
      simp only [managerStep, phase, terminate, ↓reduceIte, Option.some.injEq] at stepped
      exact stepped ▸ .sweep phase terminate
    | false =>
      cases timeout : pool.timeout with
      | some limit =>
        simp only [managerStep, phase, terminate, timeout, Bool.false_eq_true, ↓reduceIte,
          Option.some.injEq] at stepped
        exact stepped ▸ .pass limit phase terminate timeout
      | none =>
        simp only [managerStep, phase, terminate, timeout, Bool.false_eq_true, ↓reduceIte,
          Option.some.injEq] at stepped
        exact stepped ▸ .skip phase terminate timeout
  | killing index =>
    cases listed : pool.workerThreads[index]? with
    | some thread =>
      simp only [managerStep, phase, listed, Option.some.injEq] at stepped
      exact stepped ▸ .kill index thread phase listed
    | none =>
      simp only [managerStep, phase, listed, Option.some.injEq] at stepped
      exact stepped ▸ .swept index phase listed
  | scanning readd =>
    by_cases nonempty : pool.runningQueue.length > 0
    · simp only [managerStep, phase, nonempty, ↓reduceIte, Option.some.injEq] at stepped
      exact stepped ▸ .more readd phase nonempty
    · simp only [managerStep, phase, nonempty, ↓reduceIte, Option.some.injEq] at stepped
      exact stepped ▸ .drained readd phase
  | popping readd =>
    cases queue : pool.runningQueue with
    | nil => simp [managerStep, phase, queue] at stepped
    | cons work rest =>
      simp only [managerStep, phase, queue, Option.some.injEq] at stepped
      exact stepped ▸ .pop work rest readd phase queue
  | examining work readd =>
    simp only [managerStep, phase, Option.map_eq_some_iff] at stepped
    obtain ⟨limit, timeout, rfl⟩ := stepped
    exact .examine limit work readd phase timeout
  | refilling works =>
    cases works with
    | nil =>
      simp only [managerStep, phase, Option.some.injEq] at stepped
      exact stepped ▸ .refilled phase
    | cons work rest =>
      simp only [managerStep, phase, Option.some.injEq] at stepped
      exact stepped ▸ .refill work rest phase
  | exited => simp [managerStep, phase] at stepped

/-- Everything an action can do. -/
inductive Transition (pool : ThreadPool) : PoolAction → ThreadPool → Prop where
  /-- `start`. -/
  | start : Transition pool .start pool.start
  /-- `stop`. -/
  | stop : Transition pool .stop pool.stop
  /-- A new job waits. -/
  | push : Transition pool .push pool.push
  /-- A worker takes the oldest job. -/
  | pop (thread work : Nat) (rest : List Nat) (idle : pool.threads.read thread = .idle)
      (queue : pool.workQueue = work :: rest) :
      Transition pool (.work thread)
        { pool.moveWorker thread (.popped work) with workQueue := rest }
  /-- A worker announces its job. -/
  | announce (thread work : Nat) (popped : pool.threads.read thread = .popped work) :
      Transition pool (.work thread)
        { pool.moveWorker thread (.queued work) with
          runningQueue := pool.runningQueue ++ [work] }
  /-- A worker marks its job as started. -/
  | begin (thread work : Nat) (queued : pool.threads.read thread = .queued work) :
      Transition pool (.work thread)
        { pool.moveWorker thread (.running work) with
          jobs := pool.jobs.write work ((pool.jobs.read work).markStarted thread pool.clock) }
  /-- A worker marks its job as completed. -/
  | complete (thread work : Nat) (returned : pool.threads.read thread = .returned work) :
      Transition pool (.work thread)
        { pool.moveWorker thread .idle with
          jobs := pool.jobs.write work ((pool.jobs.read work).markCompleted pool.clock) }
  /-- A handler returns. -/
  | returns (thread work : Nat) (running : pool.threads.read thread = .running work) :
      Transition pool (.returns thread) (pool.moveWorker thread (.returned work))
  /-- A handler raises. -/
  | raises (thread work : Nat) (running : pool.threads.read thread = .running work) :
      Transition pool (.raises thread)
        { pool.moveWorker thread .idle with raised := pool.raised ++ [work] }
  /-- A manager goes on. -/
  | manage (id : Nat) (next : ThreadPool) (managed : ManagerTransition pool id next) :
      Transition pool (.manage id) next
  /-- Time passes. -/
  | tick : Transition pool .tick { pool with clock := pool.clock + 1 }

/-- A worker's step is one of four. -/
theorem transition_workerStep {pool next : ThreadPool} {thread : Nat}
    (stepped : pool.workerStep thread = some next) : Transition pool (.work thread) next := by
  cases phase : pool.threads.read thread with
  | idle =>
    cases queue : pool.workQueue with
    | nil => simp [workerStep, phase, queue] at stepped
    | cons work rest =>
      simp only [workerStep, phase, queue, Option.some.injEq] at stepped
      exact stepped ▸ .pop thread work rest phase queue
  | popped work =>
    simp only [workerStep, phase, Option.some.injEq] at stepped
    exact stepped ▸ .announce thread work phase
  | queued work =>
    simp only [workerStep, phase, Option.some.injEq] at stepped
    exact stepped ▸ .begin thread work phase
  | returned work =>
    simp only [workerStep, phase, Option.some.injEq] at stepped
    exact stepped ▸ .complete thread work phase
  | running work => simp [workerStep, phase] at stepped
  | dead => simp [workerStep, phase] at stepped

/-- The end of a handler is in the handler of its thread. -/
theorem handler_running {pool next : ThreadPool} {thread : Nat} {after : Nat → ThreadPool}
    (stepped : (match pool.threads.read thread with
      | .running work => some (after work)
      | _ => none) = some next) :
    ∃ work, pool.threads.read thread = .running work ∧ after work = next := by
  cases phase : pool.threads.read thread <;> simp_all

/-- Every step is one of the transitions. -/
theorem transition_of_step {pool next : ThreadPool} {action : PoolAction}
    (stepped : machine.step pool action = some next) : Transition pool action next := by
  cases action with
  | start => exact Option.some.inj stepped ▸ .start
  | stop => exact Option.some.inj stepped ▸ .stop
  | push => exact Option.some.inj stepped ▸ .push
  | work thread => exact transition_workerStep stepped
  | returns thread =>
    obtain ⟨work, running, rfl⟩ := handler_running stepped
    exact .returns thread work running
  | raises thread =>
    obtain ⟨work, running, rfl⟩ := handler_running stepped
    exact .raises thread work running
  | manage id => exact .manage id next (managerTransition_of_step stepped)
  | tick => exact Option.some.inj stepped ▸ .tick

/-- Everything the locked part of `check_workers` can do with a job. -/
inductive Examined (pool : ThreadPool) (id limit work : Nat) (readd : List Nat) :
    ThreadPool → Prop where
  /-- The job has expired: its thread is replaced. -/
  | replaced (thread : Nat) (expired : (pool.jobs.read work).expired limit pool.clock = true)
      (named : (pool.jobs.read work).thread = some thread) :
      Examined pool id limit work readd
        ((pool.replaceWorker thread).moveManager id (.scanning readd))
  /-- The job has expired and names no thread: `nil.kill` raises. -/
  | failed (expired : (pool.jobs.read work).expired limit pool.clock = true)
      (unnamed : (pool.jobs.read work).thread = none) :
      Examined pool id limit work readd (pool.moveManager id .exited)
  /-- The job is completed. -/
  | dropped (young : (pool.jobs.read work).expired limit pool.clock = false)
      (completed : (pool.jobs.read work).completed = true) :
      Examined pool id limit work readd (pool.moveManager id (.scanning readd))
  /-- The job goes on. -/
  | kept (young : (pool.jobs.read work).expired limit pool.clock = false)
      (uncompleted : (pool.jobs.read work).completed = false) :
      Examined pool id limit work readd (pool.moveManager id (.scanning (readd ++ [work])))

/-- The locked part of `check_workers` does one of these. -/
theorem examined_examine (pool : ThreadPool) (id limit work : Nat) (readd : List Nat) :
    Examined pool id limit work readd (pool.examine id limit work readd) := by
  cases expired : (pool.jobs.read work).expired limit pool.clock with
  | true =>
    cases named : (pool.jobs.read work).thread with
    | some thread =>
      simp only [examine, expired, named, ↓reduceIte]
      exact .replaced thread expired named
    | none =>
      simp only [examine, expired, named, ↓reduceIte]
      exact .failed expired named
  | false =>
    cases completed : (pool.jobs.read work).completed with
    | true =>
      simp only [examine, expired, completed, Bool.false_eq_true, ↓reduceIte]
      exact .dropped expired completed
    | false =>
      simp only [examine, expired, completed, Bool.false_eq_true, ↓reduceIte]
      exact .kept expired completed

/-- Everything `stop` can do: raise the flag, and wake up the manager if it is asleep. -/
theorem stop_cases (pool : ThreadPool) :
    pool.stop = { pool with terminate := true } ∨ ∃ id wakeAt last,
      pool.managers.read id = ⟨.sleeping wakeAt, last⟩ ∧
        pool.stop = { pool with
          terminate := true, managers := pool.managers.write id ⟨.checking, last⟩ } := by
  unfold stop wakeup
  split
  · exact .inl rfl
  · rename_i id _
    split
    · rename_i wakeAt last isSleeping
      exact .inr ⟨id, wakeAt, last, isSleeping, rfl⟩
    · exact .inl rfl

/-- Launching workers changes nothing but the threads. -/
theorem launchWorkers_frame (count : Nat) : ∀ pool : ThreadPool,
    (launchWorkers count pool).terminate = pool.terminate ∧
      (launchWorkers count pool).managers = pool.managers ∧
      (launchWorkers count pool).runningQueue = pool.runningQueue ∧
      (launchWorkers count pool).jobs = pool.jobs ∧
      (launchWorkers count pool).numThreads = pool.numThreads := by
  induction count with
  | zero => exact fun _ => ⟨rfl, rfl, rfl, rfl, rfl⟩
  | succ count ih => exact fun pool => ih pool.launchWorker

/-! ## Job records -/

/-- What the record of a job is after a step. -/
inductive Record (pool : ThreadPool) (work : Nat) : ThreadPoolJob → Prop where
  /-- What it was. -/
  | same : Record pool work (pool.jobs.read work)
  /-- That of a new job. -/
  | created (isNew : work = pool.jobs.next) : Record pool work ThreadPoolJob.new
  /-- Its worker has marked it as started. -/
  | started (thread : Nat) (queued : pool.threads.read thread = .queued work) :
      Record pool work ((pool.jobs.read work).markStarted thread pool.clock)
  /-- Its worker has marked it as completed. -/
  | completed (thread : Nat) (returned : pool.threads.read thread = .returned work) :
      Record pool work ((pool.jobs.read work).markCompleted pool.clock)

/-- Records that were not touched. -/
theorem record_of_jobs {pool next : ThreadPool} (jobs : next.jobs = pool.jobs) (work : Nat) :
    Record pool work (next.jobs.read work) := by
  rw [jobs]
  exact .same

/-- One record was written. -/
theorem record_of_write {pool : ThreadPool} {written : Nat} {job : ThreadPoolJob}
    (record : Record pool written job) (work : Nat) :
    Record pool work ((pool.jobs.write written job).read work) := by
  rw [Heap.read_write]
  split
  · rename_i isWritten
    exact isWritten ▸ record
  · exact .same

/-- A step of a manager leaves the records as they are. -/
theorem manager_jobs {pool next : ThreadPool} {id : Nat}
    (managed : ManagerTransition pool id next) : next.jobs = pool.jobs := by
  cases managed with
  | examine limit work readd phase timeout =>
    have examined := examined_examine pool id limit work readd
    generalize pool.examine id limit work readd = next at examined
    cases examined with
    | replaced | failed | dropped | kept => rfl
  | quit | rest | sleep | yield | wake | sweep | pass | skip | kill | swept | more | drained
  | pop | refilled | refill => rfl

/-- The record of a job after a step. -/
theorem record_transition {pool next : ThreadPool} {action : PoolAction}
    (transition : Transition pool action next) (work : Nat) :
    Record pool work (next.jobs.read work) := by
  cases transition with
  | start =>
    apply record_of_jobs
    unfold start
    split
    · exact (launchWorkers_frame pool.numThreads { pool with terminate := false }).2.2.2.1
    · rfl
  | stop =>
    apply record_of_jobs
    rcases stop_cases pool with same | ⟨id, wakeAt, last, _, woken⟩
    · rw [same]
    · rw [woken]
  | push =>
    change Record pool work ((pool.jobs.alloc ThreadPoolJob.new).2.read work)
    rw [Heap.read_alloc_eq]
    split
    · rename_i isNew
      exact .created isNew
    · exact .same
  | begin thread started queued => exact record_of_write (.started thread queued) work
  | complete thread completed returned => exact record_of_write (.completed thread returned) work
  | manage id next managed => exact record_of_jobs (manager_jobs managed) work
  | pop | announce | returns | raises | tick => exact .same

/-! ## Launched managers -/

/-- Managers that were not launched are not running. -/
def Fresh (managers : Heap Manager) : Prop :=
  ∀ id, managers.next ≤ id → (managers.read id).phase = .exited

/-- A manager that is running was launched. -/
theorem Fresh.known {managers : Heap Manager} (fresh : Fresh managers) {id : Nat}
    (awake : (managers.read id).phase ≠ .exited) : id < managers.next := by
  rcases Nat.lt_or_ge id managers.next with below | beyond
  · exact below
  · exact absurd (fresh id beyond) awake

/-- A running manager moves on. -/
theorem Fresh.write {managers : Heap Manager} (fresh : Fresh managers) {id : Nat}
    (awake : (managers.read id).phase ≠ .exited) (manager : Manager) :
    Fresh (managers.write id manager) := by
  intro other beyond
  have differs : other ≠ id := Nat.ne_of_gt (Nat.lt_of_lt_of_le (fresh.known awake) beyond)
  rw [Heap.read_write, if_neg differs]
  exact fresh other beyond

end ThreadPool

end Rjr
