import Rjr.Verif.Agreement

/-!
# An exchange can always settle

Whatever the threads and the transport have done so far, the work that is left can be done: what
waits is sent, what is on its way arrives, and every job is begun and finished. Nothing blocks
any of these steps. A message passes through at most six places on its way, and each step brings
one message one place further.
-/

namespace Rjr.Verif.Settling

open Messages Node Nodes Codec Packets Provenance Agreement

variable {ι ε : Type}

/-- The steps that bring work to its end, each on the oldest entry. -/
inductive Working : ExchangeAction ι ε → Prop
  /-- The oldest block is sent. -/
  | transmit : Working (.transmit 0)
  /-- The oldest text arrives. -/
  | deliver : Working (.deliver 0)
  /-- The oldest job is begun. -/
  | begin : Working (.host (.begin 0))
  /-- The oldest job that was begun is finished. -/
  | finish : Working (.finish 0)

section Weights

variable (platform : Platform)

/-- A text that becomes a job when it arrives; a response does not. -/
def makesJob (text : ε × String) : Bool :=
  decide ((label platform text.2).map Prod.fst ≠ some .response)

/-- A block that sends such a text. -/
def sendsJob (block : Outgoing ε) : Bool :=
  decide ((blockLabel platform block).map Prod.fst ≠ some .response)

/-- How many steps are left. What waits has to be sent and to arrive; what becomes a job is then
begun and finished, and its answer has to be sent and to arrive as well. -/
def remaining (exchange : Exchange ι ε) : Nat :=
  2 * exchange.scheduled.length + 4 * exchange.scheduled.countP (sendsJob platform) +
    exchange.inFlight.length + 4 * exchange.inFlight.countP (makesJob platform) +
    4 * exchange.hosts.jobs.length + 3 * exchange.hosts.running.length

end Weights

/-- Nothing waits, is on its way or in work. -/
structure Quiet (exchange : Exchange ι ε) : Prop where
  /-- Nothing waits to be sent. -/
  scheduled : exchange.scheduled = []
  /-- Nothing is on its way. -/
  inFlight : exchange.inFlight = []
  /-- No job is queued. -/
  jobs : exchange.hosts.jobs = []
  /-- No job is under way. -/
  running : exchange.hosts.running = []

/-- What bringing work to its end leaves as it was. -/
structure Unspoilt (before after : Exchange ι ε) : Prop where
  /-- Nothing was lost. -/
  lost : after.lost = before.lost
  /-- No worker was killed. -/
  killed : after.hosts.killed = before.hosts.killed
  /-- Nothing was asked. -/
  asked : after.hosts.asked = before.hosts.asked

/-- What is left as it was in two parts is left as it was. -/
theorem Unspoilt.trans {first second third : Exchange ι ε} (early : Unspoilt first second)
    (late : Unspoilt second third) : Unspoilt first third :=
  ⟨late.lost.trans early.lost, late.killed.trans early.killed, late.asked.trans early.asked⟩

section Progress

variable [DecidableEq ι] {platform : Platform} {wiring : Wiring ι ε} {nodes : ι → Node}
  {exchange : Exchange ι ε}

/-- A step that is possible, leaves the rest as it was, and brings the exchange further. -/
def Advances (platform : Platform) (wiring : Wiring ι ε) (exchange : Exchange ι ε)
    (action : ExchangeAction ι ε) : Prop :=
  ∃ next, (Exchange.machine platform wiring).step exchange action = some next ∧
    Unspoilt exchange next ∧ remaining platform next < remaining platform exchange

/-- The oldest block can be sent. -/
theorem advances_transmit (foreign : Foreign platform.json.createId)
    (sound : Sound platform wiring nodes exchange) {block : Outgoing ε}
    {rest : List (Outgoing ε)} (waits : exchange.scheduled = block :: rest) :
    Advances platform wiring exchange (.transmit 0) := by
  have found : exchange.scheduled[0]? = some block := by
    rw [waits]
    rfl
  obtain ⟨text, packet, headers, wrote, carried, _, same⟩ :=
    written foreign sound.hosts (sound.scheduled block (List.mem_of_getElem? found))
  have counted : makesJob platform (wiring.opposite block.connection, text) =
      sendsJob platform block := by
    simp only [makesJob, sendsJob, carried.labelled foreign, same]
  refine ⟨_, Exchange.step_transmit found wrote, ⟨rfl, rfl, rfl⟩, ?_⟩
  simp only [remaining, waits, List.eraseIdx_cons_zero, List.length_append, List.length_cons,
    List.length_nil, List.countP_append, List.countP_cons, List.countP_nil, counted]
  omega

/-- The oldest text can arrive. -/
theorem advances_deliver (foreign : Foreign platform.json.createId)
    (sound : Sound platform wiring nodes exchange) {text : ε × String}
    {rest : List (ε × String)} (travels : exchange.inFlight = text :: rest) :
    Advances platform wiring exchange (.deliver 0) := by
  obtain ⟨connection, text⟩ := text
  have found : exchange.inFlight[0]? = some (connection, text) := by
    rw [travels]
    rfl
  obtain ⟨packet, headers, carried, _⟩ := sound.inFlight _ (List.mem_of_getElem? found)
  have counted : makesJob platform (connection, text) = decide (packet.kind ≠ .response) := by
    simp only [makesJob, carried.labelled foreign, Option.map_some, ne_eq, Option.some.injEq]
  refine ⟨_, Exchange.step_deliver found, ?_⟩
  cases packet with
  | request id method args =>
    rw [arrive_request connection foreign exchange.hosts carried]
    refine ⟨⟨rfl, rfl, rfl⟩, ?_⟩
    simp only [remaining, travels, List.eraseIdx_cons_zero, List.length_cons,
      List.length_append, List.length_nil, List.countP_cons, counted, Packet.kind, ne_eq,
      reduceCtorEq, not_false_eq_true, decide_true, ↓reduceIte]
    omega
  | notification method args =>
    rw [arrive_notification connection foreign exchange.hosts carried]
    refine ⟨⟨rfl, rfl, rfl⟩, ?_⟩
    simp only [remaining, travels, List.eraseIdx_cons_zero, List.length_cons,
      List.length_append, List.length_nil, List.countP_cons, counted, Packet.kind, ne_eq,
      reduceCtorEq, not_false_eq_true, decide_true, ↓reduceIte]
    omega
  | response id result =>
    rw [arrive_response connection foreign exchange.hosts carried]
    refine ⟨⟨rfl, rfl, rfl⟩, ?_⟩
    simp only [remaining, travels, Hosts.setNode, List.eraseIdx_cons_zero, List.length_cons,
      List.countP_cons, counted, Packet.kind, ne_eq, not_true_eq_false, decide_false,
      Bool.false_eq_true, ↓reduceIte]
    omega

/-- The oldest job can be begun. -/
theorem advances_begin (sound : Sound platform wiring nodes exchange) {queued : Queued ε}
    {rest : List (Queued ε)} (queue : exchange.hosts.jobs = queued :: rest) :
    Advances platform wiring exchange (.host (.begin 0)) := by
  have found : exchange.hosts.jobs[0]? = some queued := by
    rw [queue]
    rfl
  obtain ⟨packet, text, headers, _, _, _, _, taken⟩ := begin_eq sound.hosts found
  refine ⟨_, Exchange.step_host taken, ⟨rfl, rfl, rfl⟩, ?_⟩
  simp only [remaining, Hosts.setNode, queue, List.eraseIdx_cons_zero, List.length_append,
    List.length_cons, List.length_nil]
  omega

/-- The oldest job that was begun can be finished. -/
theorem advances_finish (fit : Fit platform nodes) (sound : Sound platform wiring nodes exchange)
    {running : Running ε} {rest : List (Running ε)}
    (work : exchange.hosts.running = running :: rest) :
    Advances platform wiring exchange (.finish 0) := by
  have found : exchange.hosts.running[0]? = some running := by
    rw [work]
    rfl
  have begun := sound.hosts.running running (List.mem_of_getElem? found)
  obtain ⟨performed, returned, sends⟩ := running_dispatched fit sound.hosts begun
  cases answered : running.msgId with
  | none =>
    refine ⟨_, Exchange.step_finish (finish_silent found answered returned),
      ⟨rfl, rfl, rfl⟩, ?_⟩
    simp only [remaining, Hosts.setNode, work, List.eraseIdx_cons_zero, Option.toList_none,
      List.append_nil, List.length_cons]
    omega
  | some number =>
    have traced := begun
    obtain ⟨_, _, _, _, _, _, asked⟩ := traced
    obtain ⟨number, rfl, _⟩ := asked number answered
    obtain ⟨text, wrote, carried⟩ := answer_carried fit.foreign running sends number
    have counted : sendsJob platform (.text text running.on) = false := by
      simp [sendsJob, blockLabel, carried.labelled fit.foreign, Packet.kind]
    refine ⟨_, Exchange.step_finish (finish_answer found answered returned wrote),
      ⟨rfl, rfl, rfl⟩, ?_⟩
    simp only [remaining, Hosts.setNode, work, List.eraseIdx_cons_zero, Option.toList_some,
      List.length_append, List.length_cons, List.length_nil, List.countP_append,
      List.countP_singleton, counted, Bool.false_eq_true, ↓reduceIte]
    omega

/-- While an exchange is not quiet, something can be done. -/
theorem quiet_or_advances (fit : Fit platform nodes)
    (sound : Sound platform wiring nodes exchange) :
    Quiet exchange ∨ ∃ action, Working action ∧ Advances platform wiring exchange action := by
  cases waits : exchange.scheduled with
  | cons block rest => exact .inr ⟨_, .transmit, advances_transmit fit.foreign sound waits⟩
  | nil =>
    cases travels : exchange.inFlight with
    | cons text rest => exact .inr ⟨_, .deliver, advances_deliver fit.foreign sound travels⟩
    | nil =>
      cases queue : exchange.hosts.jobs with
      | cons queued rest => exact .inr ⟨_, .begin, advances_begin sound queue⟩
      | nil =>
        cases work : exchange.hosts.running with
        | cons running rest => exact .inr ⟨_, .finish, advances_finish fit sound work⟩
        | nil => exact .inl ⟨waits, travels, queue, work⟩

omit [DecidableEq ι] in
/-- No step that brings work to its end calls anything. -/
theorem Working.plain {createId : String} {action : ExchangeAction ι ε}
    (working : Working action) : Plain createId action := by
  cases working <;> exact trivial

/-- Work can be brought to its end. -/
theorem settles (fit : Fit platform nodes) (sound : Sound platform wiring nodes exchange) :
    (Exchange.machine platform wiring).Reaches Working exchange fun final =>
      (Sound platform wiring nodes final ∧ Unspoilt exchange final) ∧ Quiet final := by
  refine Machine.reaches_of_descent _ Quiet (remaining platform) ?_ exchange
    ⟨sound, ⟨rfl, rfl, rfl⟩⟩
  rintro state ⟨traced, same⟩
  rcases quiet_or_advances fit traced with quiet | ⟨action, working, next, stepped, still, less⟩
  · exact .inl quiet
  · exact .inr ⟨action, next, working, stepped,
      ⟨sound_step fit state action next traced working.plain stepped, same.trans still⟩, less⟩

end Progress

end Rjr.Verif.Settling
