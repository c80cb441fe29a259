import Rjr.Correlation

/-!
# Responses of concurrent invokes

Every iteration of `wait_for_result` drops the responses whose id is not in `@pending`, on behalf
of all waiters. A request is sent before its id is registered, so a response that arrives in
between is dropped by any other waiter's iteration, and its own waiter then waits for ever. The
result says that this is the only way a response is lost, on a node without a timeout.
-/

namespace Rjr.Verif.Correlation

open Rjr.Correlation Clients

variable {ι ρ : Type} [DecidableEq ι] [BEq ρ]

/-- What an iteration of a registered wait leaves in `@responses`, without a timeout: the
responses with a registered id, except those equal to the one it returns. -/
theorem mem_iterate (tables : Rjr.Correlation ι ρ) (now : Nat) (id : ι)
    (registered : tables.pending.has id = true) (response : ι × ρ) :
    response ∈ (tables.iterate none now id).2.responses ↔
      (response ∈ tables.responses ∧ tables.pending.has response.1 = true) ∧
        ∀ res, (tables.iterate none now id).1 = .returned res → (response == res) = false := by
  unfold iterate
  simp only [prunePending, registered, ↓reduceIte]
  split
  · rw [List.mem_filter, List.mem_filter]
    simp
  · simp [List.mem_filter]

/-- An iteration changes `@pending` by pruning alone. -/
theorem iterate_pending (tables : Rjr.Correlation ι ρ) (timeout : Option Nat) (now : Nat)
    (id : ι) : (tables.iterate timeout now id).2.pending =
      prunePending timeout now tables.pending := by
  by_cases registered : (prunePending timeout now tables.pending).has id = true
  · simp only [iterate, registered, ↓reduceIte]
    split <;> rfl
  · simp only [iterate, registered]
    rfl

/-- A returned response has the id of the wait. -/
theorem iterate_returned (tables : Rjr.Correlation ι ρ) (timeout : Option Nat) (now : Nat)
    (id : ι) (res : ι × ρ) (returned : (tables.iterate timeout now id).1 = .returned res) :
    res.1 = id := by
  unfold iterate at returned
  dsimp only at returned
  split at returned
  · split at returned
    · rename_i found
      cases returned
      simpa using List.find?_some found
    · cases returned
  · cases returned

omit [BEq ρ] in
/-- The phase of the client that moved, and of the others. -/
theorem moveTo_phase (clients : Clients ι ρ) (id other : ι) (phase : Phase ι ρ) :
    (clients.moveTo id phase).phase other = if other = id then phase else clients.phase other :=
  rfl

/-- A client has called `wait_for_result`. -/
def Begun (phase : Phase ι ρ) : Prop := phase ≠ .idle ∧ phase ≠ .sent

/-- The tables fit the clients: the registered ids are those of the waits that have begun, and
only requests that were sent have responses. -/
structure Consistent (clients : Clients ι ρ) : Prop where
  /-- An id is registered exactly when its wait has begun. -/
  registered : ∀ id, clients.tables.pending.has id = true ↔ Begun (clients.phase id)
  /-- A response is for a request that was sent. -/
  solicited : ∀ response ∈ clients.tables.responses, clients.phase response.1 ≠ .idle

omit [BEq ρ] in
/-- A new node is consistent. -/
theorem consistent_initial : Consistent (initial : Clients ι ρ) where
  registered id := by simp [initial, new, OrderedHash.has, Begun]
  solicited := by simp [initial, new]

omit [DecidableEq ι] [BEq ρ] in
/-- A wait that has iterated has begun. -/
theorem begun_phaseAfter (iteration : Iteration ι ρ) : Begun (phaseAfter iteration) := by
  cases iteration <;> exact ⟨nofun, nofun⟩

/-- An iteration of a wait only removes responses. -/
theorem iterate_subset (tables : Rjr.Correlation ι ρ) (now : Nat) (id : ι)
    (registered : tables.pending.has id = true) (response : ι × ρ)
    (left : response ∈ (tables.iterate none now id).2.responses) :
    response ∈ tables.responses :=
  ((mem_iterate tables now id registered response).mp left).1.1

omit [BEq ρ] in
/-- Moving a client to a phase that fits the tables keeps the others as they were. -/
theorem registered_moveTo (clients : Clients ι ρ) (pending : OrderedHash ι Nat) (id : ι)
    (phase : Phase ι ρ) (consistent : Consistent clients)
    (here : pending.has id = true ↔ Begun phase)
    (elsewhere : ∀ other, other ≠ id → pending.has other = clients.tables.pending.has other) :
    ∀ other, pending.has other = true ↔ Begun ((clients.moveTo id phase).phase other) := by
  intro other
  rw [moveTo_phase]
  by_cases same : other = id
  · rw [if_pos same, same]
    exact here
  · rw [if_neg same, elsewhere other same]
    exact consistent.registered other

omit [BEq ρ] in
/-- A client that moves on does not return to `idle`, so responses stay solicited. -/
theorem solicited_moveTo (clients : Clients ι ρ) (responses : List (ι × ρ)) (id : ι)
    (phase : Phase ι ρ) (consistent : Consistent clients) (begun : phase ≠ .idle)
    (fewer : ∀ response ∈ responses, response ∈ clients.tables.responses) :
    ∀ response ∈ responses, (clients.moveTo id phase).phase response.1 ≠ .idle := by
  intro response inside
  rw [moveTo_phase]
  by_cases same : response.1 = id
  · rw [if_pos same]
    exact begun
  · rw [if_neg same]
    exact consistent.solicited response (fewer response inside)

/-- Every step keeps a node without a timeout consistent. -/
theorem consistent_step (clients : Clients ι ρ) (action : ClientAction ι ρ)
    (next : Clients ι ρ) (consistent : Consistent clients)
    (stepped : (machine none).step clients action = some next) : Consistent next := by
  obtain ⟨id, rfl, phase, rfl⟩ | ⟨id, rfl, phase, rfl⟩ | ⟨id, rfl, phase, rfl⟩ |
    ⟨response, rfl, phase, rfl⟩ | ⟨rfl, rfl⟩ := step_cases stepped
  · have absent := consistent.registered id
    rw [phase] at absent
    have here : clients.tables.pending.has id = true ↔ Begun (.sent : Phase ι ρ) :=
      absent.trans ⟨fun begun => absurd rfl begun.1, fun begun => absurd rfl begun.2⟩
    exact ⟨registered_moveTo clients _ id .sent consistent here fun _ _ => rfl,
      solicited_moveTo clients _ id .sent consistent nofun fun _ inside => inside⟩
  · have here : (clients.tables.pending.put id clients.clock).has id = true ↔
        Begun (.waiting : Phase ι ρ) := by
      refine iff_of_true ?_ ⟨nofun, nofun⟩
      simp [OrderedHash.has]
    refine ⟨registered_moveTo clients _ id .waiting consistent here ?_,
      solicited_moveTo clients _ id .waiting consistent nofun fun _ inside => inside⟩
    intro other differs
    simp [OrderedHash.has, differs, register]
  · have begun : clients.tables.pending.has id = true :=
      (consistent.registered id).mpr (by rw [phase]; exact ⟨nofun, nofun⟩)
    have pending := iterate_pending clients.tables none clients.clock id
    have here : (clients.tables.iterate none clients.clock id).2.pending.has id = true ↔
        Begun (phaseAfter (clients.tables.iterate none clients.clock id).1) := by
      rw [pending]
      exact iff_of_true begun (begun_phaseAfter _)
    refine ⟨registered_moveTo clients _ id _ consistent here ?_,
      solicited_moveTo clients _ id _ consistent (begun_phaseAfter _).1 ?_⟩
    · intro other _
      rw [pending]
      rfl
    · intro response left
      exact iterate_subset clients.tables clients.clock id begun response left
  · refine ⟨consistent.registered, ?_⟩
    intro other inside
    rcases List.mem_append.mp inside with before | new
    · exact consistent.solicited other before
    · rw [List.mem_singleton.mp new]
      exact phase
  · exact ⟨consistent.registered, consistent.solicited⟩

/-- A response stays in `@responses`, or the wait for it returns it: the entry it returns is
equal to the response, and the step is its own. -/
def Kept (clients : Clients ι ρ) (action : ClientAction ι ρ) (next : Clients ι ρ) : Prop :=
  ∀ response ∈ clients.tables.responses, response ∈ next.tables.responses ∨
    (action = .poll response.1 ∧
      ∃ res, next.phase response.1 = .returned res ∧ (response == res) = true)

/-- No wait iterates while a response has arrived for a request that is not yet registered. -/
def Registered (clients : Clients ι ρ) (action : ClientAction ι ρ) (_next : Clients ι ρ) : Prop :=
  ∀ id, action = .poll id →
    ∀ response ∈ clients.tables.responses, clients.phase response.1 ≠ .sent

/-- An iteration keeps all responses exactly when all of them are registered. -/
theorem kept_poll_iff (clients : Clients ι ρ) (consistent : Consistent clients) (id : ι)
    (waiting : clients.phase id = .waiting) :
    Kept clients (.poll id)
        { clients.moveTo id (phaseAfter (clients.tables.iterate none clients.clock id).1) with
          tables := (clients.tables.iterate none clients.clock id).2 } ↔
      ∀ response ∈ clients.tables.responses, clients.phase response.1 ≠ .sent := by
  have begun : clients.tables.pending.has id = true :=
    (consistent.registered id).mpr (by rw [waiting]; exact ⟨nofun, nofun⟩)
  have left := mem_iterate clients.tables clients.clock id begun
  constructor
  · intro kept response inside sent
    have absent : ¬ clients.tables.pending.has response.1 = true := fun registered =>
      ((consistent.registered response.1).mp registered).2 sent
    rcases kept response inside with still | ⟨own, _⟩
    · exact absent ((left response).mp still).1.2
    · cases own
      exact absent begun
  · intro registered response inside
    have known : clients.tables.pending.has response.1 = true :=
      (consistent.registered response.1).mpr
        ⟨consistent.solicited response inside, registered response inside⟩
    by_cases taken : ∃ res, (clients.tables.iterate none clients.clock id).1 = .returned res ∧
        (response == res) = true
    · obtain ⟨res, returned, same⟩ := taken
      have own : response.1 = id := by
        have ids : (response.1 == res.1) = true := (Bool.and_eq_true _ _ ▸ same).1
        rw [beq_iff_eq.mp ids]
        exact iterate_returned clients.tables none clients.clock id res returned
      refine .inr ⟨by rw [own], res, ?_, same⟩
      simp only [moveTo_phase, own, ↓reduceIte, returned]
      rfl
    · refine .inl ((left response).mpr ⟨⟨inside, known⟩, ?_⟩)
      intro res returned
      cases same : response == res with
      | false => rfl
      | true => exact absurd ⟨res, returned, same⟩ taken

/-- One step keeps all responses exactly when it is not a premature iteration. -/
theorem kept_iff (clients : Clients ι ρ) (action : ClientAction ι ρ) (next : Clients ι ρ)
    (consistent : Consistent clients) (stepped : (machine none).step clients action = some next) :
    Kept clients action next ↔ Registered clients action next := by
  obtain ⟨id, rfl, phase, rfl⟩ | ⟨id, rfl, phase, rfl⟩ | ⟨id, rfl, phase, rfl⟩ |
    ⟨response, rfl, phase, rfl⟩ | ⟨rfl, rfl⟩ := step_cases stepped
  · exact iff_of_true (fun _ inside => .inl inside) nofun
  · exact iff_of_true (fun _ inside => .inl inside) nofun
  · rw [kept_poll_iff clients consistent id phase]
    constructor
    · intro registered _ _
      exact registered
    · intro registered
      exact registered id rfl
  · exact iff_of_true (fun _ inside => .inl (List.mem_append_left _ inside)) nofun
  · exact iff_of_true (fun _ inside => .inl inside) nofun

/-- **Responses are kept along a run exactly when no iteration is premature.** For every
interleaving of any number of clients and the reactor on a node without a timeout, every response
stays until its own wait returns it, if and only if no wait iterates while a response has arrived
whose request is sent and not yet registered. -/
theorem responses_kept_iff (actions : List (ClientAction ι ρ)) :
    (machine none).Along Kept (initial : Clients ι ρ) actions ↔
      (machine none).Along Registered (initial : Clients ι ρ) actions := by
  apply Machine.along_iff (machine none) Consistent
  · exact kept_iff
  · intro clients action next consistent stepped _
    exact consistent_step clients action next consistent stepped
  · exact consistent_initial

/-- Two clients: the response of the second arrives before it has registered, and the first one's
iteration drops it. -/
def overtaken : List (ClientAction Nat Unit) :=
  [.send 1, .register 1, .send 2, .respond (2, ()), .poll 1]

/-- The response of the second request is recorded and then gone, though nobody has returned it;
its wait then iterates without ever finding it. -/
theorem responses_lost :
    let responses := fun actions : List (ClientAction Nat Unit) =>
      ((machine none).run initial actions).map fun clients => clients.tables.responses
    responses overtaken.dropLast = some [(2, ())] ∧ responses overtaken = some [] ∧
      ((machine none).run initial (overtaken ++ [.register 2, .poll 2])).map
        (fun clients : Clients Nat Unit => clients.phase 2) = some .waiting ∧
      ¬ (machine none).Along Kept (initial : Clients Nat Unit) overtaken := by
  refine ⟨by decide, by decide, by decide, ?_⟩
  intro along
  have polled := ((((along _ rfl).2 _ rfl).2 _ rfl).2 _ rfl).2 _ rfl
  rcases polled.1 (2, ()) (by decide) with still | ⟨own, _⟩
  · exact absurd still (by decide)
  · exact absurd own (by decide)

end Rjr.Verif.Correlation
