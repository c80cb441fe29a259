import Rjr.Nodes.Persistent

/-!
# The ends that jobs came in on

A job is answered on the end its message came in on. Only a text that arrives makes one. So what
holds of every end that texts arrive at, and keeps holding, holds wherever an answer is sent.
-/

namespace Rjr.Verif.JobEnds

open Nodes

variable {ι ε : Type} [DecidableEq ι] {platform : Platform} {wiring : Wiring ι ε}
  {hosts after : Hosts ι ε}

/-- No new job, and every job that was begun was a job. -/
structure Moves (before after : Hosts ι ε) : Prop where
  /-- Jobs on the queue were there. -/
  jobs : ∀ queued ∈ after.jobs, queued ∈ before.jobs
  /-- A job that was begun was begun before, or taken from the queue. -/
  running : ∀ running ∈ after.running, running ∈ before.running ∨
    ∃ queued ∈ before.jobs, running.on = queued.on

/-- A call makes no job at its own node. -/
theorem moves_invoke {connection : ε} {id method : String} {args : List Json} {block : Outgoing ε}
    (called : hosts.invoke wiring connection id method args = some (after, block)) :
    Moves hosts after := by
  obtain ⟨_, rfl, _⟩ := Hosts.invoke_some called
  exact ⟨fun _ inside => inside, fun _ inside => .inl inside⟩

/-- A worker begins a job of the queue. -/
theorem moves_begin {index : Nat} (begun : hosts.begin platform wiring index = some after) :
    Moves hosts after := by
  simp only [Hosts.begin] at begun
  split at begun
  · cases begun
  · rename_i queued found
    split at begun
    · cases begun
      exact ⟨fun _ inside => List.mem_of_mem_eraseIdx inside, fun _ inside => .inl inside⟩
    · cases begun
      refine ⟨fun _ inside => List.mem_of_mem_eraseIdx inside, fun running inside => ?_⟩
      rcases List.mem_append.mp inside with before | last
      · exact .inl before
      · rw [List.mem_singleton.mp last]
        exact .inr ⟨queued, List.mem_of_getElem? found, rfl⟩

/-- Steps that send nothing make no job. -/
theorem moves_host {action : HostAction ι}
    (stepped : hosts.step platform wiring action = some after) : Moves hosts after := by
  cases action with
  | begin index => exact moves_begin stepped
  | kill index =>
    obtain ⟨running, _, rfl⟩ := Option.map_eq_some_iff.mp stepped
    exact ⟨fun _ inside => inside, fun _ inside => .inl (List.mem_of_mem_eraseIdx inside)⟩
  | register node id =>
    simp only [Hosts.step, Hosts.register] at stepped
    split at stepped
    · cases stepped
      exact ⟨fun _ inside => inside, fun _ inside => .inl inside⟩
    · cases stepped
  | poll node id =>
    simp only [Hosts.step, Hosts.poll] at stepped
    split at stepped
    · cases stepped
      exact ⟨fun _ inside => inside, fun _ inside => .inl inside⟩
    · cases stepped
  | tick =>
    cases stepped
    exact ⟨fun _ inside => inside, fun _ inside => .inl inside⟩

/-- A job that is finished is answered on the end it came in on. -/
theorem moves_finish {index : Nat} {answer : Option (Outgoing ε)}
    (done : hosts.finish platform wiring index = some (after, answer)) :
    Moves hosts after ∧ ∀ block, answer = some block →
      ∃ running ∈ hosts.running, block.connection = running.on := by
  simp only [Hosts.finish] at done
  split at done
  · cases done
  · rename_i running found
    have moves : ∀ served node changed, Moves hosts { hosts.setNode node changed with
        running := hosts.running.eraseIdx index, served := served } := fun _ _ _ =>
      ⟨fun _ inside => inside, fun _ inside => .inl (List.mem_of_mem_eraseIdx inside)⟩
    split at done
    · cases done
      refine ⟨moves _ _ _, fun block same => ?_⟩
      obtain ⟨text, _, rfl⟩ := Option.map_eq_some_iff.mp same
      exact ⟨running, List.mem_of_getElem? found, rfl⟩
    · cases done
      exact ⟨moves _ _ _, fun block same => by cases same⟩

/-- A text that arrives makes jobs that are answered on the end it arrives at. -/
theorem arrive_jobs (hosts : Hosts ι ε) (connection : ε) (text : String) :
    ∀ queued ∈ (hosts.arrive platform wiring connection text).1.jobs,
      queued ∈ hosts.jobs ∨ queued.on = connection := by
  intro queued inside
  rcases List.mem_append.mp inside with before | new
  · exact .inl before
  · obtain ⟨job, _, rfl⟩ := Option.map_eq_some_iff.mp (Option.mem_toList.mp new)
    exact .inr rfl

/-! ## A property of ends -/

/-- All jobs came in on ends with a property. -/
structure Working (usable : ε → Prop) (hosts : Hosts ι ε) : Prop where
  /-- Those on the queue. -/
  jobs : ∀ queued ∈ hosts.jobs, usable queued.on
  /-- Those that were begun. -/
  running : ∀ running ∈ hosts.running, usable running.on

variable {usable : ε → Prop}

omit [DecidableEq ι] in
/-- Jobs that move on came in on the same ends. -/
theorem Working.moved (working : Working usable hosts) (moves : Moves hosts after) :
    Working usable after := by
  refine ⟨fun queued inside => working.jobs queued (moves.jobs queued inside), ?_⟩
  intro running inside
  rcases moves.running running inside with before | ⟨queued, taken, same⟩
  · exact working.running running before
  · rw [same]
    exact working.jobs queued taken

omit [DecidableEq ι] in
/-- More ends may be usable. -/
theorem Working.mono {other : ε → Prop} (working : Working usable hosts)
    (more : ∀ connection, usable connection → other connection) : Working other hosts :=
  ⟨fun queued inside => more _ (working.jobs queued inside),
    fun running inside => more _ (working.running running inside)⟩

/-- A text arrives at a usable end. -/
theorem Working.arrive (working : Working usable hosts) {connection : ε}
    (own : usable connection) (text : String) :
    Working usable (hosts.arrive platform wiring connection text).1 := by
  refine ⟨fun queued inside => ?_, working.running⟩
  rcases arrive_jobs hosts connection text queued inside with before | same
  · exact working.jobs queued before
  · rw [same]
    exact own

/-- An answer is sent on a usable end. -/
theorem Working.finish (working : Working usable hosts) {index : Nat}
    {answer : Option (Outgoing ε)}
    (done : hosts.finish platform wiring index = some (after, answer)) :
    Working usable after ∧ ∀ block ∈ answer.toList, usable block.connection := by
  obtain ⟨moves, answers⟩ := moves_finish done
  refine ⟨working.moved moves, fun block inside => ?_⟩
  obtain ⟨running, begun, same⟩ := answers block (Option.mem_toList.mp inside)
  rw [same]
  exact working.running running begun

end Rjr.Verif.JobEnds
