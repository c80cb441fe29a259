import Rjr.Lib.Machine

/-!
# Simulation between machines

A concrete machine simulates an abstract one when every concrete transition from related states
is answered by a run of the abstract machine to a related state. The answer may be empty, for a
transition the abstract machine does not see, or longer than one action. What the abstract
machine never does, the concrete one then never does either. What can be reached by lowering a
measure step by step is reached by some run.
-/

namespace Machine

variable {σ τ α β : Type}

/-- A run of two parts, one after the other. -/
theorem run_append (machine : Machine σ α) (first second : List α) (state : σ) :
    machine.run state (first ++ second) =
      (machine.run state first).bind fun middle => machine.run middle second := by
  induction first generalizing state with
  | nil => rfl
  | cons action rest ih =>
    simp only [List.cons_append, run]
    cases machine.step state action with
    | none => rfl
    | some next => exact ih next

/-- A run of one action. -/
theorem run_singleton (machine : Machine σ α) (state : σ) (action : α) :
    machine.run state [action] = machine.step state action := by
  simp only [run]
  cases machine.step state action <;> rfl

/-- A run is continued by another. -/
theorem run_trans (machine : Machine σ α) {first second : List α} {state middle final : σ}
    (before : machine.run state first = some middle)
    (after : machine.run middle second = some final) :
    machine.run state (first ++ second) = some final := by
  rw [run_append, before]
  exact after

/-- Some run with allowed actions leads to a state with a property. -/
def Reaches (machine : Machine σ α) (allowed : α → Prop) (state : σ) (goal : σ → Prop) : Prop :=
  ∃ actions final, (∀ act ∈ actions, allowed act) ∧ machine.run state actions = some final ∧
    goal final

/-- The state itself is reached. -/
theorem reaches_here {machine : Machine σ α} {allowed : α → Prop} {state : σ} {goal : σ → Prop}
    (here : goal state) : machine.Reaches allowed state goal :=
  ⟨[], state, fun _ inside => absurd inside List.not_mem_nil, rfl, here⟩

/-- A run may be taken before. -/
theorem Reaches.trans {machine : Machine σ α} {allowed : α → Prop} {state : σ}
    {middle goal : σ → Prop} (first : machine.Reaches allowed state middle)
    (second : ∀ next, middle next → machine.Reaches allowed next goal) :
    machine.Reaches allowed state goal := by
  obtain ⟨early, next, eachEarly, ranEarly, met⟩ := first
  obtain ⟨late, final, eachLate, ranLate, reached⟩ := second next met
  refine ⟨early ++ late, final, ?_, machine.run_trans ranEarly ranLate, reached⟩
  intro act inside
  rcases List.mem_append.mp inside with before | after
  · exact eachEarly act before
  · exact eachLate act after

/-- A transition is a run. -/
theorem reaches_step {machine : Machine σ α} {allowed : α → Prop} {state next : σ} {action : α}
    {goal : σ → Prop} (stepped : machine.step state action = some next) (may : allowed action)
    (reached : goal next) : machine.Reaches allowed state goal := by
  refine ⟨[action], next, ?_, by rw [run_singleton, stepped], reached⟩
  intro act inside
  rw [List.mem_singleton.mp inside]
  exact may

/-- A transition may be taken before. -/
theorem Reaches.after {machine : Machine σ α} {allowed : α → Prop} {state next : σ} {action : α}
    {goal : σ → Prop} (stepped : machine.step state action = some next) (may : allowed action)
    (later : machine.Reaches allowed next goal) : machine.Reaches allowed state goal := by
  have first : machine.Reaches allowed state (· = next) := reaches_step stepped may rfl
  refine first.trans ?_
  rintro _ rfl
  exact later

/-- A relation under which the transitions of one machine, for the actions it is used with, are
answered by runs of another with actions that are expected there. -/
structure Simulation (concrete : Machine σ α) (abstract : Machine τ β) (used : α → Prop)
    (expected : β → Prop) where
  /-- The states that stand for each other. -/
  related : σ → τ → Prop
  /-- A transition is answered by a run to a related state. -/
  answered : ∀ state image action next, related state image → used action →
    concrete.step state action = some next → abstract.Reaches expected image (related next)

/-- A whole run of the concrete machine is answered by a run of the abstract one. -/
theorem Simulation.run {concrete : Machine σ α} {abstract : Machine τ β} {used : α → Prop}
    {expected : β → Prop} (simulation : Simulation concrete abstract used expected)
    (actions : List α) : ∀ state image final, simulation.related state image →
      (∀ act ∈ actions, used act) → concrete.run state actions = some final →
        abstract.Reaches expected image (simulation.related final) := by
  induction actions with
  | nil =>
    intro state image final related _ ran
    cases ran
    exact reaches_here related
  | cons action rest ih =>
    intro state image final related each ran
    obtain ⟨next, stepped, after⟩ := Option.bind_eq_some_iff.mp ran
    have first := simulation.answered state image action next related
      (each action List.mem_cons_self) stepped
    exact first.trans fun middle met => ih next middle final met
      (fun act inside => each act (List.mem_cons_of_mem _ inside)) after

/-- An invariant that needs a condition on the actions holds after every run that meets it. -/
theorem run_invariant_of (machine : Machine σ α) (invariant : σ → Prop) (condition : α → Prop)
    (keeps : ∀ state action next, invariant state → condition action →
      machine.step state action = some next → invariant next) (actions : List α) :
    ∀ state final, invariant state → (∀ act ∈ actions, condition act) →
      machine.run state actions = some final → invariant final := by
  induction actions with
  | nil =>
    intro state final holds _ ran
    cases ran
    exact holds
  | cons action rest ih =>
    intro state final holds each ran
    obtain ⟨next, stepped, after⟩ := Option.bind_eq_some_iff.mp ran
    have first := each action List.mem_cons_self
    exact ih next final (keeps state action next holds first stepped)
      (fun act inside => each act (List.mem_cons_of_mem _ inside)) after

/-- An invariant that needs a condition on the transitions holds after every run along which they
meet it. -/
theorem run_invariant_along (machine : Machine σ α) (invariant : σ → Prop)
    (condition : σ → α → σ → Prop)
    (keeps : ∀ state action next, invariant state → machine.step state action = some next →
      condition state action next → invariant next) (actions : List α) :
    ∀ state final, invariant state → machine.Along condition state actions →
      machine.run state actions = some final → invariant final := by
  induction actions with
  | nil =>
    intro state final holds _ ran
    cases ran
    exact holds
  | cons action rest ih =>
    intro state final holds along ran
    obtain ⟨next, stepped, after⟩ := Option.bind_eq_some_iff.mp ran
    obtain ⟨met, later⟩ := along next stepped
    exact ih next final (keeps state action next holds stepped met) later after

/-- Where some action lowers a measure until a goal is reached, the goal can be reached. -/
theorem reaches_of_descent {machine : Machine σ α} {allowed : α → Prop}
    (invariant goal : σ → Prop) (measure : σ → Nat)
    (progress : ∀ state, invariant state → goal state ∨ ∃ action next, allowed action ∧
      machine.step state action = some next ∧ invariant next ∧ measure next < measure state)
    (state : σ) (holds : invariant state) :
    machine.Reaches allowed state fun final => invariant final ∧ goal final := by
  induction bound : measure state using Nat.strongRecOn generalizing state with
  | ind number ih =>
    rcases progress state holds with reached | ⟨action, next, may, stepped, still, less⟩
    · exact reaches_here ⟨holds, reached⟩
    · exact .after stepped may (ih (measure next) (by omega) next still rfl)

end Machine
