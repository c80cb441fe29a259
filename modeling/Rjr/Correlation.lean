import Rjr.Lib.Machine
import Rjr.Lib.OrderedHash

/-!
# Correlation of responses

The two tables of `lib/rjr/node.rb` that connect a response with the thread that waits for it:
`@pending`, from message ids to the time their wait began, and `@responses`. A wait registers its
id and then repeats one locked iteration. Every iteration prunes both tables on behalf of all
waiters: ids that are too old, and responses whose id is not registered. Ids and responses are
arbitrary; responses are compared with `==`, which need not be equality.
-/

namespace Rjr

/-- `@pending` and `@responses` of a node. -/
structure Correlation (ι ρ : Type) where
  /-- Ids that are waited for, with the time the wait began. -/
  pending : OrderedHash ι Nat
  /-- Responses that were not yet taken, with their ids, oldest first. -/
  responses : List (ι × ρ)

/-- What one locked iteration of `wait_for_result` ends with. -/
inductive Iteration (ι ρ : Type) where
  /-- `fail 'Timed out'`. -/
  | timedOut
  /-- A response was found and is returned. -/
  | returned (response : ι × ρ)
  /-- The thread waits for the next iteration. -/
  | waiting
  deriving DecidableEq

namespace Correlation

variable {ι ρ : Type} [DecidableEq ι] [BEq ρ]

/-- Both tables as `Node#initialize` leaves them. -/
def new : Correlation ι ρ := ⟨OrderedHash.empty, []⟩

/-- `@pending[message_id] = Time.now`. -/
def register (tables : Correlation ι ρ) (id : ι) (now : Nat) : Correlation ι ρ :=
  { tables with pending := tables.pending.put id now }

/-- `@responses << result`. -/
def record (tables : Correlation ι ρ) (response : ι × ρ) : Correlation ι ρ :=
  { tables with responses := tables.responses ++ [response] }

/-- `@pending` without the entries that timed out, if there is a timeout. -/
def prunePending (timeout : Option Nat) (now : Nat) (pending : OrderedHash ι Nat) :
    OrderedHash ι Nat :=
  match timeout with
  | none => pending
  | some limit => pending.select fun entry => !decide (limit < now - entry.2)

/-- One locked iteration of `wait_for_result`, for the message with the given id. -/
def iterate (timeout : Option Nat) (now : Nat) (id : ι) (tables : Correlation ι ρ) :
    Iteration ι ρ × Correlation ι ρ :=
  let pending := prunePending timeout now tables.pending
  if pending.has id then
    let responses := tables.responses.filter fun response => pending.has response.1
    match responses.find? fun response => response.1 = id with
    | some res => (.returned res, ⟨pending, responses.filter fun response => !(response == res)⟩)
    | none => (.waiting, ⟨pending, responses⟩)
  else (.timedOut, { tables with pending := pending })

omit [BEq ρ] in
/-- An id that is not too old stays registered. -/
theorem prunePending_recent (timeout : Option Nat) (now : Nat) (pending : OrderedHash ι Nat)
    (id : ι) (start : Nat) (found : pending.get? id = some start)
    (recent : ∀ limit, timeout = some limit → now - start ≤ limit) :
    (prunePending timeout now pending).get? id = some start := by
  cases timeout with
  | none => exact found
  | some limit =>
    have young : ¬ limit < now - start := Nat.not_lt.mpr (recent limit rfl)
    rw [OrderedHash.get?_eq_some_iff] at found ⊢
    exact List.mem_filter.mpr ⟨found, by simp [young]⟩

omit [BEq ρ] in
/-- An id that stays registered is not too old. -/
theorem recent_of_prunePending {timeout : Option Nat} {now : Nat} {pending : OrderedHash ι Nat}
    {id : ι} {start limit : Nat} (found : pending.get? id = some start)
    (kept : (prunePending timeout now pending).has id = true) (isLimit : timeout = some limit) :
    now - start ≤ limit := by
  subst isLimit
  obtain ⟨since, still⟩ := Option.isSome_iff_exists.mp kept
  obtain ⟨before, young⟩ := (OrderedHash.get?_select_eq_some_iff _ _ _ _).mp still
  rw [found] at before
  cases before
  simpa using young

/-- A registered wait without a response goes on, and finds none later that was not there. -/
theorem iterate_waits (timeout : Option Nat) (now : Nat) (id : ι) (tables : Correlation ι ρ)
    (registered : (prunePending timeout now tables.pending).has id = true)
    (absent : ∀ response ∈ tables.responses, response.1 ≠ id) :
    (tables.iterate timeout now id).1 = .waiting ∧
      (tables.iterate timeout now id).2.pending = prunePending timeout now tables.pending ∧
      ∀ response ∈ (tables.iterate timeout now id).2.responses, response.1 ≠ id := by
  have none_found : (tables.responses.filter fun response =>
      (prunePending timeout now tables.pending).has response.1).find?
        (fun response => response.1 = id) = none := by
    rw [List.find?_eq_none]
    intro response inside
    have differs := absent response (List.mem_filter.mp inside).1
    simpa using differs
  simp only [iterate, registered, ↓reduceIte, none_found]
  refine ⟨trivial, trivial, ?_⟩
  intro response inside
  exact absent response (List.mem_filter.mp inside).1

/-- A registered wait with a response returns it. -/
theorem iterate_returns (timeout : Option Nat) (now : Nat) (id : ι) (tables : Correlation ι ρ)
    (reply : ρ) (registered : (prunePending timeout now tables.pending).has id = true)
    (present : (id, reply) ∈ tables.responses)
    (only : ∀ response ∈ tables.responses, response.1 = id → response = (id, reply)) :
    (tables.iterate timeout now id).1 = .returned (id, reply) := by
  cases found : (tables.responses.filter fun response =>
      (prunePending timeout now tables.pending).has response.1).find?
        (fun response => response.1 = id) with
  | none =>
    have kept : (id, reply) ∈ tables.responses.filter fun response =>
        (prunePending timeout now tables.pending).has response.1 :=
      List.mem_filter.mpr ⟨present, registered⟩
    have missed := List.find?_eq_none.mp found (id, reply) kept
    simp at missed
  | some response =>
    have own : response.1 = id := by simpa using List.find?_some found
    have inside := (List.mem_filter.mp (List.mem_of_find?_eq_some found)).1
    simp only [iterate, registered, ↓reduceIte, found]
    rw [only response inside own]

end Correlation

/-! ## Concurrent invokes

`invoke` of the persistent nodes: the request is sent, or scheduled for it, before the wait
registers its id. Message ids are distinct, so a client thread is known by the id of its request.
The reactor records responses at any time. -/

/-- Where a client thread is in its `invoke`. -/
inductive Phase (ι ρ : Type) where
  /-- It has not sent its request. -/
  | idle
  /-- The request is sent; `wait_for_result` has not registered it yet. -/
  | sent
  /-- It repeats the locked iterations. -/
  | waiting
  /-- `wait_for_result` has returned. -/
  | returned (response : ι × ρ)
  /-- `wait_for_result` has raised. -/
  | timedOut
  deriving DecidableEq

/-- A node and its client threads. -/
structure Clients (ι ρ : Type) where
  /-- The tables of the node. -/
  tables : Correlation ι ρ
  /-- Where each client thread is. -/
  phase : ι → Phase ι ρ
  /-- `Time.now`. -/
  clock : Nat

/-- A step of a client thread, of the reactor, or of the clock. -/
inductive ClientAction (ι ρ : Type) where
  /-- A client sends its request. -/
  | send (id : ι)
  /-- `wait_for_result` registers the request. -/
  | register (id : ι)
  /-- One locked iteration of `wait_for_result`. -/
  | poll (id : ι)
  /-- `handle_response` for a request that has been sent. -/
  | respond (response : ι × ρ)
  /-- Time passes. -/
  | tick
  deriving DecidableEq

namespace Clients

variable {ι ρ : Type} [DecidableEq ι] [BEq ρ]

/-- A new node, no request sent. -/
def initial : Clients ι ρ := ⟨Correlation.new, fun _ => .idle, 0⟩

/-- One client thread moves on. -/
def moveTo (clients : Clients ι ρ) (id : ι) (phase : Phase ι ρ) : Clients ι ρ :=
  { clients with phase := fun other => if other = id then phase else clients.phase other }

/-- The phase of a client after an iteration of its wait. -/
def phaseAfter : Iteration ι ρ → Phase ι ρ
  | .timedOut => .timedOut
  | .returned response => .returned response
  | .waiting => .waiting

/-- The steps, for a node with the given `@timeout`. -/
def step (timeout : Option Nat) (clients : Clients ι ρ) :
    ClientAction ι ρ → Option (Clients ι ρ)
  | .send id =>
    match clients.phase id with
    | .idle => some (clients.moveTo id .sent)
    | _ => none
  | .register id =>
    match clients.phase id with
    | .sent =>
      some { clients.moveTo id .waiting with tables := clients.tables.register id clients.clock }
    | _ => none
  | .poll id =>
    match clients.phase id with
    | .waiting =>
      let iteration := clients.tables.iterate timeout clients.clock id
      some { clients.moveTo id (phaseAfter iteration.1) with tables := iteration.2 }
    | _ => none
  | .respond response =>
    match clients.phase response.1 with
    | .idle => none
    | _ => some { clients with tables := clients.tables.record response }
  | .tick => some { clients with clock := clients.clock + 1 }

/-- The node and its clients, in any interleaving. -/
def machine (timeout : Option Nat) : Machine (Clients ι ρ) (ClientAction ι ρ) := ⟨step timeout⟩

/-- Everything a step can do. -/
theorem step_cases {timeout : Option Nat} {clients next : Clients ι ρ}
    {action : ClientAction ι ρ} (stepped : (machine timeout).step clients action = some next) :
    (∃ id, action = .send id ∧ clients.phase id = .idle ∧ next = clients.moveTo id .sent) ∨
    (∃ id, action = .register id ∧ clients.phase id = .sent ∧
      next = { clients.moveTo id .waiting with
        tables := clients.tables.register id clients.clock }) ∨
    (∃ id, action = .poll id ∧ clients.phase id = .waiting ∧
      next = { clients.moveTo id
          (phaseAfter (clients.tables.iterate timeout clients.clock id).1) with
        tables := (clients.tables.iterate timeout clients.clock id).2 }) ∨
    (∃ response, action = .respond response ∧ clients.phase response.1 ≠ .idle ∧
      next = { clients with tables := clients.tables.record response }) ∨
    (action = .tick ∧ next = { clients with clock := clients.clock + 1 }) := by
  cases action with
  | send id =>
    cases phase : clients.phase id <;> simp_all [machine, step]
  | register id =>
    cases phase : clients.phase id <;> simp_all [machine, step]
  | poll id =>
    cases phase : clients.phase id <;> simp_all [machine, step]
  | respond response =>
    cases phase : clients.phase response.1 <;> simp_all [machine, step]
  | tick => simp_all [machine, step]

end Clients

/-! ## Concurrent waits

Calls of `wait_for_result` alone, with distinct message ids, so that a call is known by its id.
Responses arrive at any time and for any id: late, twice, or for a request that was never sent.
Registering is outside of the lock; an iteration is one step, since a registration that falls
into the locked section of another call has the effect of one before or after it. -/

/-- Where a call of `wait_for_result` is, with the time it registered. -/
inductive Wait (ι ρ : Type) where
  /-- It has not registered its id. -/
  | unregistered
  /-- It repeats the locked iterations. -/
  | waiting (since : Nat)
  /-- It has returned an entry of `@responses`. -/
  | returned (since : Nat) (response : ι × ρ)
  /-- It has raised `Timed out`. -/
  | raised (since : Nat)
  deriving DecidableEq

/-- A node and the calls of `wait_for_result` on it. -/
structure Waits (ι ρ : Type) where
  /-- The tables of the node. -/
  tables : Correlation ι ρ
  /-- Where the call for each id is. -/
  wait : ι → Wait ι ρ
  /-- `Time.now`. -/
  clock : Nat

/-- A step of a call, of the reactor, or of the clock. -/
inductive WaitAction (ι ρ : Type) where
  /-- A call registers its id. -/
  | register (id : ι)
  /-- One locked iteration of a call. -/
  | poll (id : ι)
  /-- `handle_response`, for any id. -/
  | arrive (response : ι × ρ)
  /-- Time passes. -/
  | tick
  deriving DecidableEq

namespace Waits

variable {ι ρ : Type} [DecidableEq ι] [BEq ρ]

/-- A new node, no call begun. -/
def initial : Waits ι ρ := ⟨Correlation.new, fun _ => .unregistered, 0⟩

/-- One call moves on. -/
def moveTo (waits : Waits ι ρ) (id : ι) (wait : Wait ι ρ) : Waits ι ρ :=
  { waits with wait := fun other => if other = id then wait else waits.wait other }

/-- Where a call is after an iteration. -/
def waitAfter (since : Nat) : Iteration ι ρ → Wait ι ρ
  | .timedOut => .raised since
  | .returned response => .returned since response
  | .waiting => .waiting since

/-- The steps, for a node with the given `@timeout`. -/
def step (timeout : Option Nat) (waits : Waits ι ρ) : WaitAction ι ρ → Option (Waits ι ρ)
  | .register id =>
    match waits.wait id with
    | .unregistered =>
      some { waits.moveTo id (.waiting waits.clock) with
        tables := waits.tables.register id waits.clock }
    | _ => none
  | .poll id =>
    match waits.wait id with
    | .waiting since =>
      let iteration := waits.tables.iterate timeout waits.clock id
      some { waits.moveTo id (waitAfter since iteration.1) with tables := iteration.2 }
    | _ => none
  | .arrive response => some { waits with tables := waits.tables.record response }
  | .tick => some { waits with clock := waits.clock + 1 }

/-- The node and the calls on it, in any interleaving. -/
def machine (timeout : Option Nat) : Machine (Waits ι ρ) (WaitAction ι ρ) := ⟨step timeout⟩

/-- Everything a step can do. -/
theorem step_cases {timeout : Option Nat} {waits next : Waits ι ρ} {action : WaitAction ι ρ}
    (stepped : (machine timeout).step waits action = some next) :
    (∃ id, action = .register id ∧ waits.wait id = .unregistered ∧
      next = { waits.moveTo id (.waiting waits.clock) with
        tables := waits.tables.register id waits.clock }) ∨
    (∃ id since, action = .poll id ∧ waits.wait id = .waiting since ∧
      next = { waits.moveTo id
          (waitAfter since (waits.tables.iterate timeout waits.clock id).1) with
        tables := (waits.tables.iterate timeout waits.clock id).2 }) ∨
    (∃ response, action = .arrive response ∧
      next = { waits with tables := waits.tables.record response }) ∨
    (action = .tick ∧ next = { waits with clock := waits.clock + 1 }) := by
  cases action with
  | register id =>
    cases wait : waits.wait id <;> simp_all [machine, step]
  | poll id =>
    cases wait : waits.wait id <;> simp_all [machine, step]
  | arrive response => simp_all [machine, step]
  | tick => simp_all [machine, step]

end Waits

end Rjr
