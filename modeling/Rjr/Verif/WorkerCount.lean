import Rjr.Verif.Monitoring

/-!
# The number of workers

A running thread pool should have `@num_threads` workers and one manager. The manager replaces a
worker for every expired job, not for every dead thread, so a job that names a thread which was
replaced already, or was killed before a restart, adds a worker. `stop` only raises a flag: a
`start` that comes before the manager has ended launches a second crew and a second manager beside
the first. These two are the only ways the number goes wrong.
-/

namespace Rjr.Verif.WorkerCount

open ThreadPool Monitoring

/-- A pass of `check_workers` is under way. -/
def underWay : ManagerPhase → Bool
  | .killing _ | .scanning _ | .popping _ | .examining _ _ | .refilling _ => true
  | .testing | .resting | .sleeping _ | .checking | .exited => false

/-- The pool has as many workers as it should, all distinct and alive, and one manager. -/
structure Staffed (pool : ThreadPool) : Prop where
  /-- There are as many workers as configured. -/
  count : pool.workerThreads.length = pool.numThreads
  /-- They are distinct. -/
  distinct : pool.workerThreads.Nodup
  /-- None of them was killed. -/
  alive : ∀ thread ∈ pool.workerThreads, pool.threads.read thread ≠ .dead
  /-- Exactly one manager is running. -/
  manager : ∃! id, (pool.managers.read id).phase ≠ .exited

/-- After a step the pool is staffed, if it is not stopped and no pass is under way. -/
def StaysStaffed (_pool : ThreadPool) (_action : PoolAction) (next : ThreadPool) : Prop :=
  next.terminate = false → (∀ id, underWay (next.managers.read id).phase = false) → Staffed next

/-- A step that keeps the crew together: the pool is started again only after its manager has
ended, and no expired job is examined whose thread is dead already. -/
structure Orderly (pool : ThreadPool) (action : PoolAction) (_next : ThreadPool) : Prop where
  /-- A stopped pool is started when no manager is left. -/
  restart : action = .start → pool.terminate = true →
    ∀ id, (pool.managers.read id).phase = .exited
  /-- The thread of an expired job that is examined is alive. -/
  replace : ∀ id work readd limit thread, action = .manage id →
    (pool.managers.read id).phase = .examining work readd → pool.timeout = some limit →
      (pool.jobs.read work).expired limit pool.clock = true →
        (pool.jobs.read work).thread = some thread → pool.threads.read thread ≠ .dead

/-! ## Workers -/

/-- The live workers are listed, once each. -/
structure Listed (pool : ThreadPool) : Prop where
  /-- No thread is listed twice. -/
  distinct : pool.workerThreads.Nodup
  /-- Every live thread is listed. -/
  alive : ∀ thread, pool.threads.read thread ≠ .dead → thread ∈ pool.workerThreads
  /-- Listed threads were launched. -/
  launched : ∀ thread ∈ pool.workerThreads, thread < pool.threads.next

/-- Every listed worker is alive. -/
def AllAlive (pool : ThreadPool) : Prop :=
  ∀ thread ∈ pool.workerThreads, pool.threads.read thread ≠ .dead

section Workers

variable {pool : ThreadPool}

/-- A launched worker is listed. -/
theorem listed_launchWorker (listed : Listed pool) : Listed pool.launchWorker := by
  have fresh : pool.threads.next ∉ pool.workerThreads :=
    fun inside => Nat.lt_irrefl _ (listed.launched _ inside)
  constructor
  · exact listed.distinct.append (List.nodup_singleton _) (List.disjoint_singleton.mpr fresh)
  · intro thread lives
    change (pool.threads.alloc .idle).2.read thread ≠ .dead at lives
    change thread ∈ pool.workerThreads ++ [pool.threads.next]
    rw [Heap.read_alloc_eq] at lives
    by_cases same : thread = pool.threads.next
    · simp [same]
    · rw [if_neg same] at lives
      exact List.mem_append_left _ (listed.alive thread lives)
  · intro thread inside
    change thread ∈ pool.workerThreads ++ [pool.threads.next] at inside
    change thread < pool.threads.next + 1
    rcases List.mem_append.mp inside with old | new
    · have below := listed.launched thread old
      omega
    · rw [List.mem_singleton.mp new]
      omega

/-- A launched worker is alive, as are the others. -/
theorem allAlive_launchWorker (allAlive : AllAlive pool) : AllAlive pool.launchWorker := by
  intro thread inside
  change thread ∈ pool.workerThreads ++ [pool.threads.next] at inside
  change (pool.threads.alloc .idle).2.read thread ≠ .dead
  rw [Heap.read_alloc_eq]
  by_cases same : thread = pool.threads.next
  · rw [if_pos same]
    nofun
  · rw [if_neg same]
    rcases List.mem_append.mp inside with old | new
    · exact allAlive thread old
    · exact absurd (List.mem_singleton.mp new) same

/-- Launching a crew lists so many more workers, all alive. -/
theorem launchWorkers_listed (count : Nat) : ∀ pool : ThreadPool, Listed pool → AllAlive pool →
    Listed (launchWorkers count pool) ∧ AllAlive (launchWorkers count pool) ∧
      (launchWorkers count pool).workerThreads.length = pool.workerThreads.length + count := by
  induction count with
  | zero => exact fun pool listed allAlive => ⟨listed, allAlive, rfl⟩
  | succ count ih =>
    intro pool listed allAlive
    obtain ⟨after, alive, length⟩ := ih pool.launchWorker (listed_launchWorker listed)
      (allAlive_launchWorker allAlive)
    have one : pool.launchWorker.workerThreads.length = pool.workerThreads.length + 1 :=
      List.length_append
    exact ⟨after, alive, by rw [launchWorkers, length, one]; omega⟩

/-- The pool after the thread of an expired job was killed and taken off the list. -/
def dismiss (pool : ThreadPool) (thread : Nat) : ThreadPool :=
  { pool.kill thread with
    workerThreads := (pool.kill thread).workerThreads.filter (· ≠ thread) }

/-- A dismissed worker is dead and not listed. -/
theorem listed_dismiss (listed : Listed pool) (thread : Nat) : Listed (dismiss pool thread) := by
  constructor
  · exact listed.distinct.filter _
  · intro other lives
    change (pool.threads.write thread .dead).read other ≠ .dead at lives
    rw [Heap.read_write] at lives
    by_cases same : other = thread
    · rw [if_pos same] at lives
      exact absurd rfl lives
    · rw [if_neg same] at lives
      exact List.mem_filter.mpr ⟨listed.alive other lives, by simpa using same⟩
  · intro other inside
    exact listed.launched other (List.mem_filter.mp inside).1

/-- The other workers stay alive. -/
theorem allAlive_dismiss (allAlive : AllAlive pool) (thread : Nat) :
    AllAlive (dismiss pool thread) := by
  intro other inside
  obtain ⟨old, differs⟩ := List.mem_filter.mp inside
  change (pool.threads.write thread .dead).read other ≠ .dead
  rw [Heap.read_write, if_neg (by simpa using differs)]
  exact allAlive other old

/-- One listed worker fewer. -/
theorem length_dismiss (listed : Listed pool) (thread : Nat)
    (lives : pool.threads.read thread ≠ .dead) :
    (dismiss pool thread).workerThreads.length + 1 = pool.workerThreads.length := by
  have inside := listed.alive thread lives
  have erased : (dismiss pool thread).workerThreads = pool.workerThreads.erase thread := by
    rw [listed.distinct.erase_eq_filter]
    change pool.workerThreads.filter _ = _
    congr 1
    funext other
    by_cases same : other = thread <;> simp [same]
  rw [erased, List.length_erase_of_mem inside]
  have positive := List.length_pos_of_mem inside
  omega

end Workers

/-! ## The crew -/

/-- A job that has started and not completed names a thread. -/
def Named (jobs : Heap ThreadPoolJob) : Prop :=
  ∀ work, (jobs.read work).timeStarted.isSome = true → (jobs.read work).timeCompleted = none →
    (jobs.read work).thread.isSome = true

/-- The workers and the managers of a pool whose steps have all been orderly. -/
structure Crew (pool : ThreadPool) : Prop where
  /-- The live workers are listed, once each. -/
  listed : Listed pool
  /-- A job that has started and not completed names a thread. -/
  named : Named pool.jobs
  /-- At most one manager is running. -/
  single : ∀ id other, (pool.managers.read id).phase ≠ .exited →
    (pool.managers.read other).phase ≠ .exited → id = other
  /-- Managers that were not launched are not running. -/
  fresh : ∀ id, pool.managers.next ≤ id → (pool.managers.read id).phase = .exited
  /-- A manager that has left its loop is in its last check, of a stopped pool. -/
  last : ∀ id, (pool.managers.read id).phase ≠ .exited → (pool.managers.read id).last = true →
    pool.terminate = true ∧ ((pool.managers.read id).phase = .checking ∨
      ∃ index, (pool.managers.read id).phase = .killing index)
  /-- A manager that kills all workers of a stopped pool has killed those before its index. -/
  swept : ∀ id index, (pool.managers.read id).phase = .killing index →
    pool.terminate = true ∧
      ∀ thread ∈ pool.workerThreads.take index, pool.threads.read thread = .dead
  /-- Without a manager the pool is stopped, and it has no workers. -/
  resting : (∀ id, (pool.managers.read id).phase = .exited) →
    pool.terminate = true ∧ pool.workerThreads = []
  /-- A pool that is not stopped has all its workers. -/
  running : pool.terminate = false →
    pool.workerThreads.length = pool.numThreads ∧ AllAlive pool

/-- A crew staffs a pool that is not stopped. -/
theorem Crew.staffed {pool : ThreadPool} (crew : Crew pool) (running : pool.terminate = false) :
    Staffed pool where
  count := (crew.running running).1
  distinct := crew.listed.distinct
  alive := (crew.running running).2
  manager := by
    have some : ∃ id, (pool.managers.read id).phase ≠ .exited := by
      by_contra none
      push Not at none
      have stopped := (crew.resting none).1
      rw [running] at stopped
      cases stopped
    obtain ⟨id, active⟩ := some
    exact ⟨id, active, fun other also => crew.single other id also active⟩

/-- A new pool has no workers and no manager. -/
theorem crew_new (numThreads timeout : Option Nat) : Crew (ThreadPool.new numThreads timeout) where
  listed := ⟨List.nodup_nil, fun _ lives => absurd rfl lives, nofun⟩
  named _ started _ := by cases started
  single _ _ active _ := absurd rfl active
  fresh _ _ := rfl
  last _ active _ := absurd rfl active
  swept _ _ killing := by cases killing
  resting _ := ⟨rfl, rfl⟩
  running stopped := by cases stopped

/-- A manager in this phase kills nobody and has not ended. -/
def calm : ManagerPhase → Bool
  | .killing _ | .exited => false
  | _ => true

/-- A calm phase that only a manager in its loop is in; the check may also be the last one. -/
def looping : ManagerPhase → Bool
  | .checking => false
  | phase => calm phase

/-- A calm phase is neither the end nor a killing. -/
theorem calm_ne {phase : ManagerPhase} (calmly : calm phase = true) :
    phase ≠ .exited ∧ ∀ index, phase ≠ .killing index := by
  constructor
  · rintro rfl
    cases calmly
  · rintro index rfl
    cases calmly

/-- A phase of the loop is calm, and it is not the check. -/
theorem looping_calm {phase : ManagerPhase} (loops : looping phase = true) :
    phase ≠ .checking ∧ calm phase = true := by
  cases phase <;> simp_all [looping, calm]

section Steps

variable {pool next : ThreadPool} (crew : Crew pool)

include crew

/-- A step that neither launches nor kills a thread keeps the crew. -/
theorem crew_same (dead : ∀ thread, next.threads.read thread = .dead ↔
      pool.threads.read thread = .dead)
    (bound : next.threads.next = pool.threads.next)
    (workerThreads : next.workerThreads = pool.workerThreads)
    (managers : next.managers = pool.managers) (terminate : next.terminate = pool.terminate)
    (numThreads : next.numThreads = pool.numThreads) (named : Named next.jobs) : Crew next where
  listed := by
    refine ⟨by rw [workerThreads]; exact crew.listed.distinct, ?_, ?_⟩
    · intro thread lives
      rw [workerThreads]
      exact crew.listed.alive thread fun was => lives ((dead thread).mpr was)
    · rw [workerThreads, bound]
      exact crew.listed.launched
  named := named
  single := by rw [managers]; exact crew.single
  fresh := by rw [managers]; exact crew.fresh
  last := by rw [managers, terminate]; exact crew.last
  swept := by
    rw [managers, terminate, workerThreads]
    intro id index killing
    obtain ⟨stopped, killed⟩ := crew.swept id index killing
    exact ⟨stopped, fun thread inside => (dead thread).mpr (killed thread inside)⟩
  resting := by rw [managers, terminate, workerThreads]; exact crew.resting
  running := by
    rw [terminate, numThreads, workerThreads]
    intro running
    obtain ⟨count, alive⟩ := crew.running running
    refine ⟨count, ?_⟩
    intro thread inside
    rw [workerThreads] at inside
    exact fun now => alive thread inside ((dead thread).mp now)

omit crew in
/-- A live worker that moves on leaves the dead ones dead. -/
theorem dead_moveWorker {thread : Nat} {phase : WorkerPhase}
    (alive : pool.threads.read thread ≠ .dead) (lives : phase ≠ .dead) (other : Nat) :
    (pool.moveWorker thread phase).threads.read other = .dead ↔
      pool.threads.read other = .dead := by
  change (pool.threads.write thread phase).read other = .dead ↔ _
  rw [Heap.read_write]
  by_cases same : other = thread
  · rw [if_pos same, same]
    exact iff_of_false lives alive
  · rw [if_neg same]

/-- A running manager that moves on within its loop keeps the crew. -/
theorem crew_manager {id : Nat} {manager : Manager}
    (active : (pool.managers.read id).phase ≠ .exited) (stays : manager.phase ≠ .exited)
    (last : manager.last = true → pool.terminate = true ∧
      (manager.phase = .checking ∨ ∃ index, manager.phase = .killing index))
    (swept : ∀ index, manager.phase = .killing index → pool.terminate = true ∧
      ∀ thread ∈ pool.workerThreads.take index, pool.threads.read thread = .dead) :
    Crew { pool with managers := pool.managers.write id manager } where
  listed := ⟨crew.listed.distinct, crew.listed.alive, crew.listed.launched⟩
  named := crew.named
  single := by
    have only : ∀ other, ((pool.managers.write id manager).read other).phase ≠ .exited →
        other = id := by
      intro other also
      rw [Heap.read_write] at also
      by_cases same : other = id
      · exact same
      · rw [if_neg same] at also
        exact crew.single other id also active
    intro first second firstActive secondActive
    rw [only first firstActive, only second secondActive]
  fresh := Fresh.write crew.fresh active manager
  last := by
    intro other
    change ((pool.managers.write id manager).read other).phase ≠ .exited → _
    rw [Heap.read_write]
    by_cases same : other = id
    · rw [if_pos same]
      exact fun _ => last
    · rw [if_neg same]
      exact crew.last other
  swept := by
    intro other index
    change ((pool.managers.write id manager).read other).phase = .killing index → _
    rw [Heap.read_write]
    by_cases same : other = id
    · rw [if_pos same]
      exact swept index
    · rw [if_neg same]
      exact crew.swept other index
  resting := by
    intro none
    have here := none id
    rw [Heap.read_write_same] at here
    exact absurd here stays
  running := crew.running

/-- A manager that has not left its loop moves on in it. -/
theorem crew_inLoop {id : Nat} (phase : ManagerPhase)
    (active : (pool.managers.read id).phase ≠ .exited)
    (inLoop : (pool.managers.read id).last = false) (calmly : calm phase = true) :
    Crew (pool.moveManager id phase) := by
  obtain ⟨stays, peaceful⟩ := calm_ne calmly
  apply crew_manager crew active stays
  · intro last
    rw [inLoop] at last
    cases last
  · intro index killing
    exact absurd killing (peaceful index)

/-- A manager in a phase of its loop has not ended, kills nobody and has not left the loop. -/
theorem looping_manager {id : Nat} {before : ManagerPhase}
    (phase : (pool.managers.read id).phase = before) (loops : looping before = true) :
    (pool.managers.read id).phase ≠ .exited ∧
      (∀ index, (pool.managers.read id).phase ≠ .killing index) ∧
        (pool.managers.read id).last = false := by
  subst phase
  obtain ⟨begun, calmly⟩ := looping_calm loops
  obtain ⟨active, peaceful⟩ := calm_ne calmly
  refine ⟨active, peaceful, ?_⟩
  by_contra left
  obtain ⟨-, checking | ⟨index, killing⟩⟩ := crew.last id active (by simpa using left)
  · exact begun checking
  · exact peaceful index killing

/-- A manager goes on in its loop. -/
theorem crew_goesOn {id : Nat} {before : ManagerPhase} (after : ManagerPhase)
    (phase : (pool.managers.read id).phase = before) (loops : looping before = true)
    (calmly : calm after = true) : Crew (pool.moveManager id after) := by
  obtain ⟨active, -, inLoop⟩ := looping_manager crew phase loops
  exact crew_inLoop crew after active inLoop calmly

/-- The manager of a pool that is not stopped is in its loop. -/
theorem inLoop_of_running {id : Nat} (active : (pool.managers.read id).phase ≠ .exited)
    (running : pool.terminate = false) : (pool.managers.read id).last = false := by
  by_contra left
  have stopped := (crew.last id active (by simpa using left)).1
  rw [running] at stopped
  cases stopped

/-- The manager of a stopped pool without workers ends. -/
theorem crew_exit {id : Nat} (active : (pool.managers.read id).phase ≠ .exited)
    (stopped : pool.terminate = true) (empty : pool.workerThreads = []) :
    Crew (pool.moveManager id .exited) := by
  have none : ∀ other, ((pool.moveManager id .exited).managers.read other).phase = .exited := by
    intro other
    change ((pool.managers.write id _).read other).phase = .exited
    rw [Heap.read_write]
    by_cases same : other = id
    · rw [if_pos same]
    · rw [if_neg same]
      by_contra also
      exact same (crew.single other id also active)
  constructor
  · exact ⟨crew.listed.distinct, crew.listed.alive, crew.listed.launched⟩
  · exact crew.named
  · exact fun first _ firstActive _ => absurd (none first) firstActive
  · exact fun other _ => none other
  · exact fun other also => absurd (none other) also
  · intro other index killing
    rw [none other] at killing
    cases killing
  · exact fun _ => ⟨stopped, empty⟩
  · intro running
    rw [show (pool.moveManager id .exited).terminate = true from stopped] at running
    cases running

/-- Killing a worker of a stopped pool keeps the crew. -/
theorem crew_kill (thread : Nat) (stopped : pool.terminate = true) :
    Crew (pool.kill thread) where
  listed := by
    refine ⟨crew.listed.distinct, ?_, crew.listed.launched⟩
    intro other lives
    apply crew.listed.alive other
    intro was
    apply lives
    change (pool.threads.write thread .dead).read other = .dead
    rw [Heap.read_write, was, ite_self]
  named := crew.named
  single := crew.single
  fresh := crew.fresh
  last := crew.last
  swept := by
    intro id index killing
    obtain ⟨_, killed⟩ := crew.swept id index killing
    refine ⟨stopped, fun other inside => ?_⟩
    change (pool.threads.write thread .dead).read other = .dead
    rw [Heap.read_write, killed other inside, ite_self]
  resting := crew.resting
  running running := by
    rw [show (pool.kill thread).terminate = true from stopped] at running
    cases running

/-- A manager kills the next worker of a stopped pool. -/
theorem crew_sweep {id index thread : Nat}
    (phase : (pool.managers.read id).phase = .killing index)
    (listed : pool.workerThreads[index]? = some thread) :
    Crew ((pool.kill thread).moveManager id (.killing (index + 1))) := by
  obtain ⟨stopped, killed⟩ := crew.swept id index phase
  refine crew_manager (crew_kill crew thread stopped) ?_ nofun ?_ ?_
  · change (pool.managers.read id).phase ≠ .exited
    rw [phase]
    nofun
  · exact fun _ => ⟨stopped, .inr ⟨index + 1, rfl⟩⟩
  · rintro _ ⟨⟩
    refine ⟨stopped, fun other inside => ?_⟩
    change (pool.threads.write thread .dead).read other = .dead
    rw [Heap.read_write]
    change other ∈ pool.workerThreads.take (index + 1) at inside
    rw [List.take_add_one, listed, List.mem_append] at inside
    rcases inside with before | here
    · rw [killed other before, ite_self]
    · rw [if_pos (by simpa using here)]

/-- All workers of a stopped pool were killed. -/
theorem crew_swept {id index : Nat} (phase : (pool.managers.read id).phase = .killing index)
    (beyond : pool.workerThreads[index]? = none) :
    Crew { pool.moveManager id (pool.afterCheck id) with workerThreads := [] } := by
  obtain ⟨stopped, killed⟩ := crew.swept id index phase
  have active : (pool.managers.read id).phase ≠ .exited := by
    rw [phase]
    nofun
  have all : pool.workerThreads.take index = pool.workerThreads :=
    List.take_of_length_le (List.getElem?_eq_none_iff.mp beyond)
  have dead : ∀ thread, pool.threads.read thread = .dead := by
    intro thread
    by_contra lives
    exact lives (killed thread (by rw [all]; exact crew.listed.alive thread lives))
  have cleared : Crew { pool with workerThreads := [] } := by
    refine ⟨⟨List.nodup_nil, fun thread lives => absurd (dead thread) lives, nofun⟩, crew.named,
      crew.single, crew.fresh, crew.last, ?_, fun _ => ⟨stopped, rfl⟩, ?_⟩
    · exact fun _ _ _ => ⟨stopped, fun thread _ => dead thread⟩
    · intro running
      rw [show pool.terminate = true from stopped] at running
      cases running
  unfold afterCheck
  by_cases last : (pool.managers.read id).last = true
  · rw [if_pos last]
    exact crew_exit cleared active stopped rfl
  · rw [if_neg last]
    exact crew_inLoop cleared _ active (by simpa using last) rfl

/-- The worker of an expired job is replaced. -/
theorem crew_replaceWorker {id thread : Nat}
    (active : (pool.managers.read id).phase ≠ .exited)
    (peaceful : ∀ index, (pool.managers.read id).phase ≠ .killing index)
    (lives : pool.threads.read thread ≠ .dead) : Crew (pool.replaceWorker thread) where
  listed := listed_launchWorker (listed_dismiss crew.listed thread)
  named := crew.named
  single := crew.single
  fresh := crew.fresh
  last := crew.last
  swept := by
    intro other index killing
    have also : (pool.managers.read other).phase ≠ .exited := by
      intro exited
      rw [show (pool.managers.read other).phase = .killing index from killing] at exited
      cases exited
    rw [crew.single other id also active] at killing
    exact absurd killing (peaceful index)
  resting none := absurd (none id) active
  running := by
    intro running
    obtain ⟨count, alive⟩ := crew.running running
    refine ⟨?_, allAlive_launchWorker (allAlive_dismiss alive thread)⟩
    have fewer := length_dismiss crew.listed thread lives
    change ((dismiss pool thread).workerThreads ++ [_]).length = pool.numThreads
    rw [List.length_append, ← count, ← fewer]
    rfl

/-- Examining a job keeps the crew, if its thread is alive should it have expired. -/
theorem crew_examine {id limit work : Nat} {readd : List Nat}
    (phase : (pool.managers.read id).phase = .examining work readd)
    (alive : ∀ thread, (pool.jobs.read work).expired limit pool.clock = true →
      (pool.jobs.read work).thread = some thread → pool.threads.read thread ≠ .dead) :
    Crew (pool.examine id limit work readd) := by
  obtain ⟨active, peaceful, inLoop⟩ := looping_manager crew phase rfl
  have examined := examined_examine pool id limit work readd
  generalize pool.examine id limit work readd = next at examined
  cases examined with
  | replaced thread expired isThread =>
    have replaced := crew_replaceWorker crew active peaceful (alive thread expired isThread)
    exact crew_inLoop replaced _ active inLoop rfl
  | failed expired unnamed =>
    obtain ⟨⟨begun, isBegun, _⟩, uncompleted⟩ := expired_started expired
    have named := crew.named work (by rw [isBegun]; rfl) uncompleted
    rw [unnamed] at named
    cases named
  | dropped | kept => exact crew_inLoop crew _ active inLoop rfl

/-- `start` launches a crew, if no manager of an earlier one is left. -/
theorem crew_start (ended : pool.terminate = true →
    ∀ id, (pool.managers.read id).phase = .exited) : Crew pool.start := by
  by_cases stopped : pool.terminate = true
  · have none := ended stopped
    have empty := (crew.resting none).2
    have unlisted : Listed { pool with terminate := false } :=
      ⟨crew.listed.distinct, crew.listed.alive, crew.listed.launched⟩
    have nobody : AllAlive { pool with terminate := false } := by
      intro thread inside
      rw [show pool.workerThreads = [] from empty] at inside
      cases inside
    obtain ⟨listed, allAlive, length⟩ :=
      launchWorkers_listed pool.numThreads { pool with terminate := false } unlisted nobody
    obtain ⟨_, managers, _, jobs, numThreads⟩ :=
      launchWorkers_frame pool.numThreads { pool with terminate := false }
    have manager : ∀ id, (pool.start.managers.read id) =
        if id = pool.managers.next then ⟨.testing, false⟩ else pool.managers.read id := by
      intro id
      rw [start, if_pos stopped]
      change ((launchWorkers pool.numThreads { pool with terminate := false }).managers.alloc
        ⟨.testing, false⟩).2.read id = _
      rw [managers, Heap.read_alloc_eq]
    have only : ∀ id, (pool.start.managers.read id).phase ≠ .exited →
        id = pool.managers.next := by
      intro id active
      by_contra other
      rw [manager, if_neg other] at active
      exact active (none id)
    have first : pool.start.managers.read pool.managers.next = ⟨.testing, false⟩ := by
      rw [manager, if_pos rfl]
    have crewed : pool.start = (launchWorkers pool.numThreads
        { pool with terminate := false }).launchManager := by
      rw [start, if_pos stopped]
    constructor
    · rw [crewed]
      exact ⟨listed.distinct, listed.alive, listed.launched⟩
    · rw [crewed]
      exact jobs.symm ▸ crew.named
    · intro id other active also
      rw [only id active, only other also]
    · intro id beyond
      have next : pool.start.managers.next = pool.managers.next + 1 := by
        rw [crewed]
        exact congrArg (· + 1) (congrArg Heap.next managers)
      have other : id ≠ pool.managers.next := by omega
      rw [manager, if_neg other]
      exact none id
    · intro id active last
      rw [only id active, first] at last
      cases last
    · intro id index killing
      have active : (pool.start.managers.read id).phase ≠ .exited := by
        rw [killing]
        intro same
        cases same
      rw [only id active, first] at killing
      cases killing
    · intro all
      have exited := all pool.managers.next
      rw [first] at exited
      cases exited
    · intro _
      rw [crewed]
      refine ⟨?_, allAlive⟩
      change (launchWorkers pool.numThreads { pool with terminate := false }).workerThreads.length =
        (launchWorkers pool.numThreads { pool with terminate := false }).numThreads
      rw [length, numThreads, show pool.workerThreads = [] from empty]
      exact Nat.zero_add _
  · rw [start, if_neg stopped]
    exact crew

/-- `stop` raises the flag and wakes the manager up. -/
theorem crew_stop : Crew pool.stop := by
  have stopped : Crew { pool with terminate := true } := by
    refine ⟨⟨crew.listed.distinct, crew.listed.alive, crew.listed.launched⟩, crew.named,
      crew.single, crew.fresh, ?_, ?_, ?_, ?_⟩
    · exact fun id active last => ⟨rfl, (crew.last id active last).2⟩
    · exact fun id index killing => ⟨rfl, (crew.swept id index killing).2⟩
    · exact fun none => ⟨rfl, (crew.resting none).2⟩
    · intro running
      cases running
  rcases stop_cases pool with same | ⟨id, wakeAt, last, sleeping, woken⟩
  · rw [same]
    exact stopped
  · rw [woken]
    have active : (pool.managers.read id).phase ≠ .exited := by
      rw [sleeping]
      nofun
    refine crew_manager stopped active nofun (fun _ => ⟨rfl, .inl rfl⟩) ?_
    intro index killing
    cases killing

/-- A step of a manager keeps the crew, if it is orderly. -/
theorem crew_managerTransition {id : Nat} (managed : ManagerTransition pool id next)
    (orderly : Orderly pool (.manage id) next) : Crew next := by
  cases managed with
  | quit phase stopped =>
    refine crew_manager crew (by rw [phase]; nofun) nofun ?_ nofun
    exact fun _ => ⟨stopped, .inl rfl⟩
  | rest limit phase running timeout => exact crew_goesOn crew _ phase rfl rfl
  | sleep limit phase timeout => exact crew_goesOn crew _ phase rfl rfl
  | yield phase running timeout => exact crew
  | wake wakeAt phase due => exact crew_goesOn crew _ phase rfl rfl
  | sweep phase stopped =>
    refine crew_manager crew (by rw [phase]; nofun) nofun ?_ ?_
    · exact fun _ => ⟨stopped, .inr ⟨0, rfl⟩⟩
    · rintro _ ⟨⟩
      exact ⟨stopped, nofun⟩
  | pass limit phase running timeout =>
    have active : (pool.managers.read id).phase ≠ .exited := by
      rw [phase]
      nofun
    exact crew_inLoop crew _ active (inLoop_of_running crew active running) rfl
  | skip phase running timeout =>
    have active : (pool.managers.read id).phase ≠ .exited := by
      rw [phase]
      nofun
    have loop := inLoop_of_running crew active running
    rw [afterCheck, loop]
    exact crew_inLoop crew _ active loop rfl
  | kill index thread phase listed => exact crew_sweep crew phase listed
  | swept index phase beyond => exact crew_swept crew phase beyond
  | more readd phase nonempty => exact crew_goesOn crew _ phase rfl rfl
  | drained readd phase => exact crew_goesOn crew _ phase rfl rfl
  | pop work rest readd phase queue =>
    have moved := crew_goesOn crew (.examining work readd) phase rfl rfl
    exact crew_same moved (fun _ => Iff.rfl) rfl rfl rfl rfl rfl crew.named
  | examine limit work readd phase timeout =>
    refine crew_examine crew phase fun thread expired isThread => ?_
    exact orderly.replace id work readd limit thread rfl phase timeout expired isThread
  | refilled phase =>
    obtain ⟨active, -, loop⟩ := looping_manager crew phase rfl
    rw [afterCheck, loop]
    exact crew_inLoop crew _ active loop rfl
  | refill work rest phase =>
    have moved := crew_goesOn crew (.refilling rest) phase rfl rfl
    exact crew_same moved (fun _ => Iff.rfl) rfl rfl rfl rfl rfl crew.named

omit crew in
/-- Every step keeps the records of running jobs named. -/
theorem named_transition {action : PoolAction} (transition : Transition pool action next)
    (named : Named pool.jobs) : Named next.jobs := by
  intro work
  have record := record_transition transition work
  generalize next.jobs.read work = job at record
  intro started uncompleted
  cases record with
  | same => exact named work started uncompleted
  | created isNew => cases started
  | started thread queued => rfl
  | completed thread returned => cases uncompleted

/-- An orderly step keeps the crew. -/
theorem crew_transition {action : PoolAction} (transition : Transition pool action next)
    (orderly : Orderly pool action next) : Crew next := by
  have moves : ∀ {thread before} (after : WorkerPhase), pool.threads.read thread = before →
      before ≠ .dead → after ≠ .dead → Crew (pool.moveWorker thread after) := by
    rintro thread _ after rfl alive lives
    exact crew_same crew (dead_moveWorker alive lives) rfl rfl rfl rfl rfl crew.named
  have named := named_transition transition crew.named
  cases transition with
  | start => exact crew_start crew (orderly.restart rfl)
  | stop => exact crew_stop crew
  | push => exact crew_same crew (fun _ => Iff.rfl) rfl rfl rfl rfl rfl named
  | pop thread work rest idle queue =>
    have moved := moves (.popped work) idle nofun nofun
    exact crew_same moved (fun _ => Iff.rfl) rfl rfl rfl rfl rfl crew.named
  | announce thread work popped =>
    have moved := moves (.queued work) popped nofun nofun
    exact crew_same moved (fun _ => Iff.rfl) rfl rfl rfl rfl rfl crew.named
  | begin thread work queued =>
    have moved := moves (.running work) queued nofun nofun
    exact crew_same moved (fun _ => Iff.rfl) rfl rfl rfl rfl rfl named
  | complete thread work returned =>
    have moved := moves .idle returned nofun nofun
    exact crew_same moved (fun _ => Iff.rfl) rfl rfl rfl rfl rfl named
  | returns thread work running => exact moves (.returned work) running nofun nofun
  | raises thread work running =>
    have moved := moves .idle running nofun nofun
    exact crew_same moved (fun _ => Iff.rfl) rfl rfl rfl rfl rfl crew.named
  | manage id next managed => exact crew_managerTransition crew managed orderly
  | tick => exact crew_same crew (fun _ => Iff.rfl) rfl rfl rfl rfl rfl crew.named

end Steps

/-- **A pool whose steps are orderly is always staffed.** Along every run from a new pool in which
the pool is started again only after its manager has ended, and no expired job is examined whose
thread is dead already, every state that is not stopped and in which no pass is under way has
exactly `@num_threads` distinct live workers and one manager. -/
theorem stays_staffed (numThreads timeout : Option Nat) (actions : List PoolAction)
    (orderly : machine.Along Orderly (ThreadPool.new numThreads timeout) actions) :
    machine.Along StaysStaffed (ThreadPool.new numThreads timeout) actions := by
  refine machine.along_of_condition Crew Orderly StaysStaffed ?_ ?_ actions _
    (crew_new numThreads timeout) orderly
  · intro pool action next crew stepped met running _
    exact (crew_transition crew (transition_of_step stepped) met).staffed running
  · intro pool action next crew stepped met
    exact crew_transition crew (transition_of_step stepped) met

/-- A step that neither starts the pool nor examines a job is orderly. -/
theorem orderly_other {pool next : ThreadPool} {action : PoolAction} (noStart : action ≠ .start)
    (noExamine : ∀ id work readd, action = .manage id →
      (pool.managers.read id).phase ≠ .examining work readd) : Orderly pool action next where
  restart isStart := absurd isStart noStart
  replace id work readd _ _ isManage examining :=
    absurd examining (noExamine id work readd isManage)

/-- A pool with one worker that is started, stopped, left to its manager until that has ended, and
started again. -/
def restarted : List PoolAction :=
  [.start, .stop, .manage 0, .manage 0, .manage 0, .manage 0, .start]

/-- A pool that is started again after its manager has ended is staffed. -/
theorem stays_staffed_restarted :
    machine.Along StaysStaffed (ThreadPool.new (some 1) none) restarted := by
  apply stays_staffed
  refine machine.along_cons rfl ⟨fun _ _ _ => rfl, nofun⟩ ?_
  refine machine.along_cons rfl (orderly_other nofun nofun) ?_
  refine machine.along_cons rfl (orderly_other nofun ?_) ?_
  · rintro _ _ _ ⟨⟩ ⟨⟩
  refine machine.along_cons rfl (orderly_other nofun ?_) ?_
  · rintro _ _ _ ⟨⟩ ⟨⟩
  refine machine.along_cons rfl (orderly_other nofun ?_) ?_
  · rintro _ _ _ ⟨⟩ ⟨⟩
  refine machine.along_cons rfl (orderly_other nofun ?_) ?_
  · rintro _ _ _ ⟨⟩ ⟨⟩
  refine machine.along_cons rfl ⟨?_, nofun⟩ trivial
  intro _ _ id
  cases id with
  | zero => rfl
  | succ id => rfl

/-- **A pool that is started again too early has two crews.** One worker is configured; the pool
is started, stopped and started again before the manager has seen the flag. It then has two
workers and two managers, and is not stopped. -/
theorem crew_doubled :
    ∃ after, machine.run (ThreadPool.new (some 1) none) [.start, .stop, .start] = some after ∧
      after.terminate = false ∧ after.numThreads = 1 ∧ after.workerThreads = [0, 1] ∧
      (after.managers.read 0).phase = .testing ∧ (after.managers.read 1).phase = .testing ∧
      ¬ machine.Along StaysStaffed (ThreadPool.new (some 1) none) [.start, .stop, .start] := by
  refine ⟨_, rfl, rfl, rfl, rfl, rfl, rfl, ?_⟩
  intro along
  have last := machine.along_rest StaysStaffed [.start] [.start, .stop] _ _ along rfl
  have staffed := (last _ rfl).1 rfl ?_
  · exact absurd staffed.count (by decide)
  · intro id
    match id with
    | 0 => rfl
    | 1 => rfl
    | id + 2 => rfl

end Rjr.Verif.WorkerCount
