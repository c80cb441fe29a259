import Rjr.Verif.Correlation

/-!
# Concurrent waits

Every iteration of `wait_for_result` prunes `@pending` and `@responses` on behalf of all calls.
Whatever arrives and in whichever order the calls run, a call returns only an entry under its own
id and raises only when it is overdue. What is pruned is not what is finished, though: the id of
a call that returned stays in `@pending`, with its responses kept for it, and the id of an
overdue call is removed by another call before it has raised.
-/

namespace Rjr.Verif.Waits

open Rjr.Correlation Rjr.Waits Correlation

variable {ι ρ : Type} [DecidableEq ι] [BEq ρ]

/-! ## One iteration -/

/-- More time than the timeout has passed. -/
def Overdue (timeout : Option Nat) (now since : Nat) : Prop :=
  ∃ limit, timeout = some limit ∧ limit < now - since

instance (timeout : Option Nat) (now since : Nat) : Decidable (Overdue timeout now since) :=
  match timeout with
  | none => .isFalse fun ⟨_, impossible, _⟩ => by cases impossible
  | some limit => decidable_of_iff (limit < now - since)
      ⟨fun late => ⟨limit, rfl, late⟩, fun ⟨_, same, late⟩ => by cases same; exact late⟩

/-- What is overdue stays overdue. -/
theorem Overdue.later {timeout : Option Nat} {now since : Nat} (overdue : Overdue timeout now since)
    (later : Nat) (order : now ≤ later) : Overdue timeout later since := by
  obtain ⟨limit, set, late⟩ := overdue
  exact ⟨limit, set, by omega⟩

omit [BEq ρ] in
/-- Pruning keeps exactly the entries that are not overdue. -/
theorem prunePending_get?_iff (timeout : Option Nat) (now : Nat) (pending : OrderedHash ι Nat)
    (id : ι) (since : Nat) :
    (prunePending timeout now pending).get? id = some since ↔
      pending.get? id = some since ∧ ¬ Overdue timeout now since := by
  cases timeout with
  | none => simp [prunePending, Overdue]
  | some limit =>
    rw [prunePending, OrderedHash.get?_select_eq_some_iff]
    simp [Overdue]

/-- Everything an iteration can do: it raises when its id is pruned, it returns an entry under its
id, or there is none and it goes on. -/
theorem iterate_cases (timeout : Option Nat) (now : Nat) (id : ι) (tables : Rjr.Correlation ι ρ) :
    ((prunePending timeout now tables.pending).get? id = none ∧
      (tables.iterate timeout now id).1 = .timedOut ∧
      (tables.iterate timeout now id).2.responses = tables.responses) ∨
    (∃ since res, (prunePending timeout now tables.pending).get? id = some since ∧
      res ∈ tables.responses ∧ res.1 = id ∧
      (tables.iterate timeout now id).1 = .returned res) ∨
    (∃ since, (prunePending timeout now tables.pending).get? id = some since ∧
      (∀ response ∈ tables.responses, response.1 ≠ id) ∧
      (tables.iterate timeout now id).1 = .waiting) := by
  cases registered : (prunePending timeout now tables.pending).get? id with
  | none =>
    refine .inl ⟨rfl, ?_⟩
    simp [iterate, OrderedHash.has, registered]
  | some since =>
    have has : (prunePending timeout now tables.pending).has id = true := by
      rw [OrderedHash.has, registered]
      rfl
    by_cases answered : ∃ response ∈ tables.responses, response.1 = id
    · obtain ⟨response, inside, own⟩ := answered
      refine .inr (.inl ?_)
      cases found : (tables.responses.filter fun response =>
          (prunePending timeout now tables.pending).has response.1).find?
            (fun response => response.1 = id) with
      | none =>
        have kept : response ∈ tables.responses.filter fun response =>
            (prunePending timeout now tables.pending).has response.1 :=
          List.mem_filter.mpr ⟨inside, by rw [own]; exact has⟩
        have missed := List.find?_eq_none.mp found response kept
        simp [own] at missed
      | some res =>
        have resOwn : res.1 = id := by simpa using List.find?_some found
        have resInside := (List.mem_filter.mp (List.mem_of_find?_eq_some found)).1
        refine ⟨since, res, rfl, resInside, resOwn, ?_⟩
        simp only [iterate, has, ↓reduceIte, found]
    · have absent : ∀ response ∈ tables.responses, response.1 ≠ id := by
        intro response inside own
        exact answered ⟨response, inside, own⟩
      exact .inr (.inr ⟨since, rfl, absent, (iterate_waits timeout now id tables has absent).1⟩)

omit [BEq ρ] in
/-- Where the call that moved is, and the others. -/
theorem moveTo_wait (waits : Waits ι ρ) (id other : ι) (wait : Wait ι ρ) :
    (waits.moveTo id wait).wait other = if other = id then wait else waits.wait other := rfl

/-! ## Safety -/

/-- The id of a call that waits is registered with the time the call began, or it has been pruned
and the call is overdue. -/
def Registered (timeout : Option Nat) (waits : Waits ι ρ) : Prop :=
  ∀ id since, waits.wait id = .waiting since →
    waits.tables.pending.get? id = some since ∨ Overdue timeout waits.clock since

/-- A call that has returned did so with an entry under its own id. -/
def OwnEntries (waits : Waits ι ρ) : Prop :=
  ∀ id since response, waits.wait id = .returned since response → response.1 = id

/-- What a step may do to a call. It is left as it is, it registers, or it ends: with an entry of
`@responses` under its own id, or overdue. -/
inductive Proceeds (timeout : Option Nat) (waits : Waits ι ρ) (id : ι) :
    Wait ι ρ → Wait ι ρ → Prop where
  /-- The call is left as it is. -/
  | stays (wait : Wait ι ρ) : Proceeds timeout waits id wait wait
  /-- The call registers. -/
  | registers : Proceeds timeout waits id .unregistered (.waiting waits.clock)
  /-- The call returns. -/
  | returns (since : Nat) (response : ι × ρ) : response ∈ waits.tables.responses →
      response.1 = id → Proceeds timeout waits id (.waiting since) (.returned since response)
  /-- The call raises. -/
  | raises (since : Nat) : Overdue timeout waits.clock since →
      Proceeds timeout waits id (.waiting since) (.raised since)

/-- A step is safe: every call proceeds as it may, and no two calls have returned one entry. -/
structure Safe (timeout : Option Nat) (waits : Waits ι ρ) (action : WaitAction ι ρ)
    (next : Waits ι ρ) : Prop where
  /-- Every call proceeds as it may. -/
  proceeds : ∀ id, Proceeds timeout waits id (waits.wait id) (next.wait id)
  /-- Only the call that takes the step ends. -/
  others : ∀ id, action ≠ .poll id → action ≠ .register id → next.wait id = waits.wait id
  /-- No two calls have returned one entry. -/
  once : ∀ first second since later response, next.wait first = .returned since response →
    next.wait second = .returned later response → first = second

/-- An iteration of a registered call ends as it may. -/
theorem proceeds_iterate (timeout : Option Nat) (waits : Waits ι ρ) (id : ι) (since : Nat)
    (registered : Registered timeout waits) (waiting : waits.wait id = .waiting since) :
    Proceeds timeout waits id (.waiting since)
      (waitAfter since (waits.tables.iterate timeout waits.clock id).1) := by
  obtain ⟨pruned, outcome, -⟩ | ⟨_, res, -, inside, own, outcome⟩ | ⟨_, -, -, outcome⟩ :=
    iterate_cases timeout waits.clock id waits.tables
  · rw [outcome]
    apply Proceeds.raises
    rcases registered id since waiting with present | overdue
    · by_contra young
      have kept := (prunePending_get?_iff timeout waits.clock waits.tables.pending id since).mpr
        ⟨present, young⟩
      rw [pruned] at kept
      cases kept
    · exact overdue
  · rw [outcome]
    exact .returns since res inside own
  · rw [outcome]
    exact .stays _

/-- Every step lets every call proceed as it may. -/
theorem proceeds_step (timeout : Option Nat) (waits next : Waits ι ρ) (action : WaitAction ι ρ)
    (registered : Registered timeout waits)
    (stepped : (machine timeout).step waits action = some next) (id : ι) :
    Proceeds timeout waits id (waits.wait id) (next.wait id) := by
  obtain ⟨mover, rfl, idle, rfl⟩ | ⟨mover, since, rfl, waiting, rfl⟩ | ⟨response, rfl, rfl⟩ |
    ⟨rfl, rfl⟩ := step_cases stepped
  · simp only [moveTo_wait]
    by_cases own : id = mover
    · rw [if_pos own, own, idle]
      exact .registers
    · rw [if_neg own]
      exact .stays _
  · simp only [moveTo_wait]
    by_cases own : id = mover
    · rw [if_pos own, own, waiting]
      exact proceeds_iterate timeout waits mover since registered waiting
    · rw [if_neg own]
      exact .stays _
  · exact .stays _
  · exact .stays _

omit [DecidableEq ι] [BEq ρ] in
/-- A call that goes on waiting keeps the time it registered. -/
theorem waitAfter_waiting {began since : Nat} {iteration : Iteration ι ρ}
    (goesOn : waitAfter began iteration = .waiting since) : began = since := by
  cases iteration with
  | timedOut => cases goesOn
  | returned response => cases goesOn
  | waiting =>
    cases goesOn
    rfl

/-- Ids stay registered until their call is overdue. -/
theorem registered_step (timeout : Option Nat) (waits next : Waits ι ρ) (action : WaitAction ι ρ)
    (registered : Registered timeout waits)
    (stepped : (machine timeout).step waits action = some next) : Registered timeout next := by
  intro id since after
  obtain ⟨mover, rfl, idle, rfl⟩ | ⟨mover, _, rfl, waiting, rfl⟩ | ⟨response, rfl, rfl⟩ |
    ⟨rfl, rfl⟩ := step_cases stepped
  · change (waits.tables.pending.put mover waits.clock).get? id = some since ∨ _
    rw [OrderedHash.get?_put]
    by_cases own : id = mover
    · rw [if_pos own]
      rw [moveTo_wait, if_pos own] at after
      cases after
      exact .inl rfl
    · rw [if_neg own]
      rw [moveTo_wait, if_neg own] at after
      exact registered id since after
  · have before : waits.wait id = .waiting since := by
      rw [moveTo_wait] at after
      by_cases own : id = mover
      · rw [if_pos own] at after
        rw [own, waiting, waitAfter_waiting after]
      · rw [if_neg own] at after
        exact after
    change (waits.tables.iterate timeout waits.clock mover).2.pending.get? id = some since ∨ _
    rw [iterate_pending, prunePending_get?_iff]
    by_cases overdue : Overdue timeout waits.clock since
    · exact .inr overdue
    · exact .inl ⟨(registered id since before).resolve_right overdue, overdue⟩
  · exact registered id since after
  · rcases registered id since after with present | overdue
    · exact .inl present
    · exact .inr (overdue.later _ (Nat.le_succ _))

/-- Returned entries stay those of their own call. -/
theorem ownEntries_step (timeout : Option Nat) (waits next : Waits ι ρ) (action : WaitAction ι ρ)
    (registered : Registered timeout waits) (own : OwnEntries waits)
    (stepped : (machine timeout).step waits action = some next) : OwnEntries next := by
  intro id since response after
  have proceeds := proceeds_step timeout waits next action registered stepped id
  rw [after] at proceeds
  generalize was : waits.wait id = before at proceeds
  cases proceeds with
  | stays => exact own id since response was
  | returns _ _ inside same => exact same

/-- A step from a state in which ids are registered and returned entries are the calls' own is
safe. -/
theorem safe_step (timeout : Option Nat) (waits next : Waits ι ρ) (action : WaitAction ι ρ)
    (registered : Registered timeout waits) (own : OwnEntries waits)
    (stepped : (machine timeout).step waits action = some next) :
    Safe timeout waits action next where
  proceeds := proceeds_step timeout waits next action registered stepped
  others := by
    intro id notPolled notRegistered
    obtain ⟨mover, rfl, -, rfl⟩ | ⟨mover, -, rfl, -, rfl⟩ | ⟨response, rfl, rfl⟩ | ⟨rfl, rfl⟩ :=
      step_cases stepped
    · have other : id ≠ mover := fun same => notRegistered (by rw [same])
      exact if_neg other
    · have other : id ≠ mover := fun same => notPolled (by rw [same])
      exact if_neg other
    · rfl
    · rfl
  once := by
    intro first second since later response firstReturned secondReturned
    have entries := ownEntries_step timeout waits next action registered own stepped
    have firstOwn := entries first since response firstReturned
    have secondOwn := entries second later response secondReturned
    exact firstOwn.symm.trans secondOwn

/-- **Concurrent waits are safe in every interleaving.** Whatever responses arrive, a call returns
only an entry of `@responses` under its own id, no entry is returned by two calls, and a call
raises only if there is a timeout and more time than that has passed since it registered. -/
theorem waits_safe (timeout : Option Nat) (actions : List (WaitAction ι ρ)) :
    (machine timeout).Along (Safe timeout) (initial : Waits ι ρ) actions := by
  apply (machine timeout).along_of_invariant
    (fun waits => Registered timeout waits ∧ OwnEntries waits)
  · intro waits action next invariant stepped
    exact safe_step timeout waits next action invariant.1 invariant.2 stepped
  · intro waits action next invariant stepped
    exact ⟨registered_step timeout waits next action invariant.1 stepped,
      ownEntries_step timeout waits next action invariant.1 invariant.2 stepped⟩
  · exact ⟨nofun, nofun⟩

/-! ## What stays registered -/

/-- A call that has returned or raised. -/
def Finished : Wait ι ρ → Prop
  | .returned _ _ => True
  | .raised _ => True
  | _ => False

/-- `@pending` has exactly the ids of the calls that wait. -/
def Exact (waits : Waits ι ρ) : Prop :=
  ∀ id, id ∈ waits.tables.pending.keys ↔ ∃ since, waits.wait id = .waiting since

/-- Nothing leaks in a step: afterwards `@pending` is exact, and if a call finished in it, no entry
of `@responses` is for a request that had finished before. -/
def Leakless (waits : Waits ι ρ) (_action : WaitAction ι ρ) (next : Waits ι ρ) : Prop :=
  Exact next ∧ ∀ id, ¬ Finished (waits.wait id) → Finished (next.wait id) →
    ∀ response ∈ next.tables.responses, ¬ Finished (waits.wait response.1)

/-- An iteration leaves nothing behind: no other call is overdue, an overdue call raises when no
response for a finished request is left, and any other call finds no response. -/
def Clean (timeout : Option Nat) (waits : Waits ι ρ) (action : WaitAction ι ρ)
    (_next : Waits ι ρ) : Prop :=
  ∀ id since, action = .poll id → waits.wait id = .waiting since →
    (∀ other began, other ≠ id → waits.wait other = .waiting began →
      ¬ Overdue timeout waits.clock began) ∧
    (Overdue timeout waits.clock since →
      ∀ response ∈ waits.tables.responses, ¬ Finished (waits.wait response.1)) ∧
    (¬ Overdue timeout waits.clock since → ∀ response ∈ waits.tables.responses, response.1 ≠ id)

/-- `@pending` has exactly the waiting calls, each with the time it registered. -/
def Timed (waits : Waits ι ρ) : Prop :=
  ∀ id since, waits.tables.pending.get? id = some since ↔ waits.wait id = .waiting since

omit [BEq ρ] in
/-- Exact times make `@pending` exact. -/
theorem Timed.exact {waits : Waits ι ρ} (timed : Timed waits) : Exact waits := by
  intro id
  rw [← OrderedHash.has_eq_true_iff, OrderedHash.has, Option.isSome_iff_exists]
  exact exists_congr fun since => timed id since

/-- Pruning loses no other call exactly when no other call is overdue. -/
theorem others_kept_iff (timeout : Option Nat) (waits : Waits ι ρ) (timed : Timed waits) (id : ι) :
    (∀ other, other ≠ id →
      (other ∈ (waits.tables.iterate timeout waits.clock id).2.pending.keys ↔
        ∃ since, waits.wait other = .waiting since)) ↔
      ∀ other began, other ≠ id → waits.wait other = .waiting began →
        ¬ Overdue timeout waits.clock began := by
  have kept : ∀ other, other ∈ (waits.tables.iterate timeout waits.clock id).2.pending.keys ↔
      ∃ since, waits.wait other = .waiting since ∧ ¬ Overdue timeout waits.clock since := by
    intro other
    rw [iterate_pending, ← OrderedHash.has_eq_true_iff, OrderedHash.has, Option.isSome_iff_exists]
    simp only [prunePending_get?_iff, timed other]
  constructor
  · intro exact other began differs waiting
    obtain ⟨since, again, young⟩ := (kept other).mp ((exact other differs).mpr ⟨began, waiting⟩)
    rw [waiting] at again
    cases again
    exact young
  · intro young other differs
    rw [kept other]
    constructor
    · rintro ⟨since, waiting, -⟩
      exact ⟨since, waiting⟩
    · rintro ⟨since, waiting⟩
      exact ⟨since, waiting, young other since differs waiting⟩

/-- Everything an iteration can do for a call that is registered with its time. -/
theorem iterate_timed (timeout : Option Nat) (waits : Waits ι ρ) (id : ι) (since : Nat)
    (registered : waits.tables.pending.get? id = some since) :
    (Overdue timeout waits.clock since ∧
      (waits.tables.iterate timeout waits.clock id).1 = .timedOut ∧
      (waits.tables.iterate timeout waits.clock id).2.responses = waits.tables.responses) ∨
    (¬ Overdue timeout waits.clock since ∧ ∃ res ∈ waits.tables.responses, res.1 = id ∧
      (waits.tables.iterate timeout waits.clock id).1 = .returned res) ∨
    (¬ Overdue timeout waits.clock since ∧
      (∀ response ∈ waits.tables.responses, response.1 ≠ id) ∧
      (waits.tables.iterate timeout waits.clock id).1 = .waiting) := by
  have times : ∀ began,
      (prunePending timeout waits.clock waits.tables.pending).get? id = some began →
        ¬ Overdue timeout waits.clock since := by
    intro began present
    have young := (prunePending_get?_iff timeout waits.clock _ id began).mp present
    rw [registered] at young
    cases young.1
    exact young.2
  obtain ⟨pruned, outcome, left⟩ | ⟨began, res, present, inside, own, outcome⟩ |
    ⟨began, present, absent, outcome⟩ := iterate_cases timeout waits.clock id waits.tables
  · have overdue : Overdue timeout waits.clock since := by
      by_contra young
      have kept := (prunePending_get?_iff timeout waits.clock _ id since).mpr ⟨registered, young⟩
      rw [pruned] at kept
      cases kept
    exact .inl ⟨overdue, outcome, left⟩
  · exact .inr (.inl ⟨times began present, res, inside, own, outcome⟩)
  · exact .inr (.inr ⟨times began present, absent, outcome⟩)

/-- An iteration keeps `@pending` exact exactly when it removes no other call and does not
return. -/
theorem exact_poll_iff (timeout : Option Nat) (waits : Waits ι ρ) (timed : Timed waits) (id : ι)
    (since : Nat) (waiting : waits.wait id = .waiting since) :
    Exact { waits.moveTo id (waitAfter since (waits.tables.iterate timeout waits.clock id).1) with
        tables := (waits.tables.iterate timeout waits.clock id).2 } ↔
      (∀ other began, other ≠ id → waits.wait other = .waiting began →
        ¬ Overdue timeout waits.clock began) ∧
      (¬ Overdue timeout waits.clock since →
        ∀ response ∈ waits.tables.responses, response.1 ≠ id) := by
  have registered := (timed id since).mpr waiting
  have own : (id ∈ (waits.tables.iterate timeout waits.clock id).2.pending.keys ↔
      ∃ began, waitAfter since (waits.tables.iterate timeout waits.clock id).1 =
        (.waiting began : Wait ι ρ)) ↔
      (¬ Overdue timeout waits.clock since →
        ∀ response ∈ waits.tables.responses, response.1 ≠ id) := by
    have present : id ∈ (waits.tables.iterate timeout waits.clock id).2.pending.keys ↔
        ¬ Overdue timeout waits.clock since := by
      rw [iterate_pending, ← OrderedHash.has_eq_true_iff, OrderedHash.has,
        Option.isSome_iff_exists]
      simp [prunePending_get?_iff, registered]
    rw [present]
    obtain ⟨overdue, outcome, -⟩ | ⟨young, res, inside, same, outcome⟩ |
      ⟨young, absent, outcome⟩ := iterate_timed timeout waits id since registered
    · rw [outcome]
      simp [waitAfter, overdue]
    · rw [outcome]
      refine iff_of_false ?_ fun none => none young res inside same
      simp [waitAfter, young]
    · rw [outcome]
      exact iff_of_true (iff_of_true young ⟨since, rfl⟩) fun _ => absent
  rw [← others_kept_iff timeout waits timed id, ← own]
  unfold Exact
  constructor
  · intro exact
    constructor
    · intro other differs
      have kept := exact other
      rw [moveTo_wait, if_neg differs] at kept
      exact kept
    · have kept := exact id
      rw [moveTo_wait, if_pos rfl] at kept
      exact kept
  · rintro ⟨others, mine⟩ other
    rw [moveTo_wait]
    by_cases differs : other = id
    · rw [if_pos differs, differs]
      exact mine
    · rw [if_neg differs]
      exact others other differs

/-- A step that is not an iteration keeps `@pending` exact, with its times. -/
theorem timed_other (timeout : Option Nat) (waits next : Waits ι ρ) (action : WaitAction ι ρ)
    (timed : Timed waits) (stepped : (machine timeout).step waits action = some next)
    (other : ∀ id, action ≠ .poll id) :
    Timed next ∧ ∀ id, Finished (next.wait id) → Finished (waits.wait id) := by
  obtain ⟨id, rfl, idle, rfl⟩ | ⟨id, _, rfl, -, -⟩ | ⟨response, rfl, rfl⟩ | ⟨rfl, rfl⟩ :=
    step_cases stepped
  · refine ⟨fun mover since => ?_, fun mover finished => ?_⟩
    · change (waits.tables.pending.put id waits.clock).get? mover = some since ↔ _
      rw [OrderedHash.get?_put, moveTo_wait]
      by_cases same : mover = id
      · rw [if_pos same, if_pos same]
        simp
      · rw [if_neg same, if_neg same]
        exact timed mover since
    · rw [moveTo_wait] at finished
      by_cases same : mover = id
      · rw [if_pos same] at finished
        exact finished.elim
      · rw [if_neg same] at finished
        exact finished
  · exact absurd rfl (other id)
  · exact ⟨timed, fun _ finished => finished⟩
  · exact ⟨timed, fun _ finished => finished⟩

/-- An iteration that does not return finishes its call with no response for a finished request
exactly when none was there, should the call be overdue. -/
theorem finish_poll_iff (timeout : Option Nat) (waits : Waits ι ρ) (timed : Timed waits) (id : ι)
    (since : Nat) (waiting : waits.wait id = .waiting since)
    (silent : ¬ Overdue timeout waits.clock since →
      ∀ response ∈ waits.tables.responses, response.1 ≠ id) :
    (¬ Finished (waits.wait id) →
      Finished (waitAfter since (waits.tables.iterate timeout waits.clock id).1) →
        ∀ response ∈ (waits.tables.iterate timeout waits.clock id).2.responses,
          ¬ Finished (waits.wait response.1)) ↔
      (Overdue timeout waits.clock since →
        ∀ response ∈ waits.tables.responses, ¬ Finished (waits.wait response.1)) := by
  have unfinished : ¬ Finished (waits.wait id) := by
    rw [waiting]
    exact not_false
  obtain ⟨overdue, outcome, left⟩ | ⟨young, res, inside, same, -⟩ | ⟨young, -, outcome⟩ :=
    iterate_timed timeout waits id since ((timed id since).mpr waiting)
  · rw [outcome, left]
    exact ⟨fun none _ => none unfinished trivial, fun none _ _ => none overdue⟩
  · exact absurd same (silent young res inside)
  · rw [outcome]
    exact iff_of_true (fun _ finished => finished.elim) fun overdue => absurd overdue young

/-- A step leaks nothing exactly when it is clean. -/
theorem leakless_iff (timeout : Option Nat) (waits : Waits ι ρ) (action : WaitAction ι ρ)
    (next : Waits ι ρ) (timed : Timed waits)
    (stepped : (machine timeout).step waits action = some next) :
    Leakless waits action next ↔ Clean timeout waits action next := by
  by_cases iteration : ∃ id, action = .poll id
  · obtain ⟨id, rfl⟩ := iteration
    obtain ⟨_, ⟨⟩, -⟩ | ⟨_, since, ⟨⟩, waiting, rfl⟩ | ⟨_, ⟨⟩, -⟩ | ⟨⟨⟩, -⟩ := step_cases stepped
    have exact := exact_poll_iff timeout waits timed id since waiting
    have finish := finish_poll_iff timeout waits timed id since waiting
    constructor
    · rintro ⟨kept, finished⟩ _ _ ⟨⟩ again
      obtain ⟨others, silent⟩ := exact.mp kept
      have mine := finished id
      rw [moveTo_wait, if_pos rfl] at mine
      rw [waiting] at again
      cases again
      exact ⟨others, (finish silent).mp mine, silent⟩
    · intro clean
      obtain ⟨others, late, silent⟩ := clean id since rfl waiting
      refine ⟨exact.mpr ⟨others, silent⟩, ?_⟩
      intro mover before after
      rw [moveTo_wait] at after
      by_cases same : mover = id
      · rw [if_pos same] at after
        rw [same] at before
        exact (finish silent).mpr late before after
      · rw [if_neg same] at after
        exact absurd after before
  · have other : ∀ id, action ≠ .poll id := fun id same => iteration ⟨id, same⟩
    obtain ⟨after, finished⟩ := timed_other timeout waits next action timed stepped other
    refine iff_of_true ⟨after.exact, fun id before now => absurd (finished id now) before⟩ ?_
    intro id since same
    exact absurd same (other id)

/-- A clean step keeps the times of `@pending` exact. -/
theorem timed_step (timeout : Option Nat) (waits : Waits ι ρ) (action : WaitAction ι ρ)
    (next : Waits ι ρ) (timed : Timed waits)
    (stepped : (machine timeout).step waits action = some next)
    (clean : Clean timeout waits action next) : Timed next := by
  by_cases iteration : ∃ id, action = .poll id
  · obtain ⟨id, rfl⟩ := iteration
    obtain ⟨_, ⟨⟩, -⟩ | ⟨_, since, ⟨⟩, waiting, rfl⟩ | ⟨_, ⟨⟩, -⟩ | ⟨⟨⟩, -⟩ := step_cases stepped
    obtain ⟨others, -, silent⟩ := clean id since rfl waiting
    intro mover began
    change (waits.tables.iterate timeout waits.clock id).2.pending.get? mover = some began ↔ _
    rw [iterate_pending, prunePending_get?_iff, timed mover, moveTo_wait]
    by_cases same : mover = id
    · rw [if_pos same, same, waiting]
      obtain ⟨overdue, outcome, -⟩ | ⟨young, res, inside, own, -⟩ | ⟨young, -, outcome⟩ :=
        iterate_timed timeout waits id since ((timed id since).mpr waiting)
      · rw [outcome]
        refine iff_of_false ?_ nofun
        rintro ⟨⟨⟩, young⟩
        exact young overdue
      · exact absurd own (silent young res inside)
      · rw [outcome]
        constructor
        · exact fun kept => kept.1
        · rintro ⟨⟩
          exact ⟨rfl, young⟩
    · rw [if_neg same]
      exact ⟨fun kept => kept.1, fun kept => ⟨kept, others mover began same kept⟩⟩
  · exact (timed_other timeout waits next action timed stepped
      fun id same => iteration ⟨id, same⟩).1

/-- **`@pending` and `@responses` leak nothing if and only if every iteration is clean.** Along
every run, after each step `@pending` holds exactly the calls that wait, and a call that finishes
leaves no response for a finished request, exactly when no iteration returns a response, and none
runs while another call is overdue or, itself overdue, while there is a response for a finished
request. -/
theorem pending_leakless_iff (timeout : Option Nat) (actions : List (WaitAction ι ρ)) :
    (machine timeout).Along Leakless (initial : Waits ι ρ) actions ↔
      (machine timeout).Along (Clean timeout) (initial : Waits ι ρ) actions := by
  apply (machine timeout).along_iff Timed
  · intro waits action next timed stepped
    exact leakless_iff timeout waits action next timed stepped
  · intro waits action next timed stepped clean
    exact timed_step timeout waits action next timed stepped clean
  · intro id since
    exact iff_of_false nofun nofun

/-- One call that registers, gets its response and returns it. -/
def answered : List (WaitAction Nat Unit) :=
  [.register 0, .arrive (0, ()), .poll 0, .arrive (0, ()), .register 1, .arrive (1, ()), .poll 1]

/-- **A call that returned stays registered.** After the call for 0 has returned, its id is still
in `@pending`; a duplicate of its response is kept for it, and is still in `@responses` when the
call for 1 returns. -/
theorem pending_leaks :
    ∃ after, (machine none).run (initial : Waits Nat Unit) answered = some after ∧
      after.wait 0 = .returned 0 (0, ()) ∧ after.wait 1 = .returned 0 (1, ()) ∧
      after.tables.pending.keys = [0, 1] ∧ after.tables.responses = [(0, ())] ∧
      ¬ (machine none).Along Leakless (initial : Waits Nat Unit) answered := by
  refine ⟨_, rfl, rfl, rfl, rfl, rfl, ?_⟩
  intro along
  have last := (machine none).along_rest Leakless [.poll 1] (answered.take 6) initial _ along rfl
  have exact := (last _ rfl).1.1 0
  obtain ⟨since, waiting⟩ := exact.mp (by decide)
  cases waiting

end Rjr.Verif.Waits
