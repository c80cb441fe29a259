/-!
# Runs of a machine

A machine takes one action at a time from whichever party is scheduled next; an action that is
not possible in a state has no transition there. A run is a list of actions, so a statement over
all lists covers every interleaving. `Along` says that every transition of a run has a property.
The rules reduce a statement about runs to one about single transitions, under an invariant.
-/

/-- The transitions of a system. -/
structure Machine (σ α : Type) where
  /-- The state after an action, if the action is possible. -/
  step : σ → α → Option σ

namespace Machine

variable {σ α : Type} (machine : Machine σ α)

/-- The state after the actions, if each of them was possible in its turn. -/
def run : σ → List α → Option σ
  | state, [] => some state
  | state, action :: rest => (machine.step state action).bind fun next => run next rest

/-- The machine with only some of its actions. -/
def restrict (allowed : α → Prop) [DecidablePred allowed] : Machine σ α :=
  ⟨fun state action => if allowed action then machine.step state action else none⟩

/-- A transition of the restricted machine is an allowed one of the machine. -/
theorem restrict_step {machine : Machine σ α} {allowed : α → Prop} [DecidablePred allowed]
    {state next : σ} {action : α}
    (stepped : (machine.restrict allowed).step state action = some next) :
    allowed action ∧ machine.step state action = some next :=
  Option.ite_none_right_eq_some.mp stepped

/-- Every transition that the actions take has a property. -/
def Along (property : σ → α → σ → Prop) : σ → List α → Prop
  | _, [] => True
  | state, action :: rest =>
    ∀ next, machine.step state action = some next →
      property state action next ∧ Along property next rest

/-- A property of the first transition and along the rest of a run holds along the run. -/
theorem along_cons {property : σ → α → σ → Prop} {state next : σ} {action : α} {rest : List α}
    (stepped : machine.step state action = some next) (first : property state action next)
    (later : machine.Along property next rest) :
    machine.Along property state (action :: rest) := by
  intro other again
  rw [stepped] at again
  cases again
  exact ⟨first, later⟩

/-- What holds along a run holds along the rest of it. -/
theorem along_rest (property : σ → α → σ → Prop) (rest actions : List α) :
    ∀ state reached, machine.Along property state (actions ++ rest) →
      machine.run state actions = some reached → machine.Along property reached rest := by
  induction actions with
  | nil =>
    intro state reached along ran
    cases ran
    exact along
  | cons action others ih =>
    intro state reached along ran
    obtain ⟨next, stepped, after⟩ := Option.bind_eq_some_iff.mp ran
    exact ih next reached (along next stepped).2 after

/-- An invariant holds after every run. -/
theorem run_invariant (invariant : σ → Prop)
    (keeps : ∀ state action next, invariant state → machine.step state action = some next →
      invariant next) (actions : List α) :
    ∀ state final, invariant state → machine.run state actions = some final → invariant final := by
  induction actions with
  | nil =>
    intro state final holds ran
    cases ran
    exact holds
  | cons action rest ih =>
    intro state final holds ran
    obtain ⟨next, stepped, after⟩ := Option.bind_eq_some_iff.mp ran
    exact ih next final (keeps state action next holds stepped) after

/-- Two properties that agree on every transition from a state of the invariant hold along the
same runs. The invariant needs to be kept only by transitions with the property. -/
theorem along_iff (invariant : σ → Prop) (property condition : σ → α → σ → Prop)
    (agree : ∀ state action next, invariant state → machine.step state action = some next →
      (property state action next ↔ condition state action next))
    (keeps : ∀ state action next, invariant state → machine.step state action = some next →
      condition state action next → invariant next) (actions : List α) :
    ∀ state, invariant state →
      (machine.Along property state actions ↔ machine.Along condition state actions) := by
  induction actions with
  | nil =>
    intro state _
    exact Iff.rfl
  | cons action rest ih =>
    intro state holds
    have transition : ∀ next, machine.step state action = some next →
        ((property state action next ∧ machine.Along property next rest) ↔
          (condition state action next ∧ machine.Along condition next rest)) := by
      intro next stepped
      rw [agree state action next holds stepped]
      apply and_congr_right
      intro met
      exact ih next (keeps state action next holds stepped met)
    exact forall_congr' fun next => forall_congr' fun stepped => transition next stepped

/-- A property of every transition that meets a condition, from a state of an invariant, holds
along every run whose transitions meet the condition. -/
theorem along_of_condition (invariant : σ → Prop) (condition property : σ → α → σ → Prop)
    (holds : ∀ state action next, invariant state → machine.step state action = some next →
      condition state action next → property state action next)
    (keeps : ∀ state action next, invariant state → machine.step state action = some next →
      condition state action next → invariant next) (actions : List α) :
    ∀ state, invariant state → machine.Along condition state actions →
      machine.Along property state actions := by
  induction actions with
  | nil =>
    intro state _ _
    trivial
  | cons action rest ih =>
    intro state inside along next stepped
    obtain ⟨met, later⟩ := along next stepped
    exact ⟨holds state action next inside stepped met,
      ih next (keeps state action next inside stepped met) later⟩

/-- A condition without content holds along every run. -/
theorem along_trivial (actions : List α) :
    ∀ state, machine.Along (fun _ _ _ => True) state actions := by
  induction actions with
  | nil =>
    intro state
    trivial
  | cons action rest ih =>
    intro state next _
    exact ⟨trivial, ih next⟩

/-- A property of every transition from a state of an invariant holds along every run. -/
theorem along_of_invariant (invariant : σ → Prop) (property : σ → α → σ → Prop)
    (holds : ∀ state action next, invariant state → machine.step state action = some next →
      property state action next)
    (keeps : ∀ state action next, invariant state → machine.step state action = some next →
      invariant next) (actions : List α) (state : σ) (inside : invariant state) :
    machine.Along property state actions := by
  refine machine.along_of_condition invariant (fun _ _ _ => True) property ?_ ?_ actions state
    inside (machine.along_trivial actions state)
  · exact fun state action next inside stepped _ => holds state action next inside stepped
  · exact fun state action next inside stepped _ => keeps state action next inside stepped

/-- Where every action is possible, a condition on the actions alone holds along a run exactly
when all its actions meet it. -/
theorem along_actions (condition : α → Prop)
    (possible : ∀ state action, ∃ next, machine.step state action = some next)
    (actions : List α) : ∀ state,
      machine.Along (fun _ action _ => condition action) state actions ↔
        ∀ action ∈ actions, condition action := by
  induction actions with
  | nil =>
    intro state
    simp [Along]
  | cons action rest ih =>
    intro state
    obtain ⟨next, stepped⟩ := possible state action
    constructor
    · intro along other inside
      have first := along next stepped
      rcases List.mem_cons.mp inside with rfl | later
      · exact first.1
      · exact (ih next).mp first.2 other later
    · intro all reached _
      refine ⟨all action List.mem_cons_self, (ih reached).mpr ?_⟩
      intro other inside
      exact all other (List.mem_cons_of_mem _ inside)

end Machine
