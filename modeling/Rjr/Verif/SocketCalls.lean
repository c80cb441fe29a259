import Rjr.Nodes.Sockets
import Rjr.Verif.Agreement
import Rjr.Verif.JsonBytes

/-!
# Calls over sockets

Nodes that are connected by sockets do what nodes do that exchange whole texts: the bytes in the
buffer and on their way to an end are those of the texts that are on their way to it, in order,
and an iteration of `receive_data` that cuts a message off delivers the first of them. Closing an
end loses the texts on their way to it. So calls over sockets agree with their answers, and each
is answered at most once.
-/

namespace Rjr.Verif.SocketCalls

open Messages Node Nodes JsonParser Codec Packets Provenance Agreement

variable {ι ε : Type}

/-! ## Bytes and texts -/

section Texts

variable [DecidableEq ε] {platform : Platform} (encoding : Encoding platform.json)

/-- The texts that are on their way to an end, oldest first. -/
def toward (texts : List (ε × String)) (connection : ε) : List (ε × String) :=
  texts.filter fun text => decide (text.1 = connection)

/-- The bytes of texts, one after the other. -/
def encoded (texts : List (ε × String)) : Bytes :=
  texts.flatMap fun text => encoding.encode text.2

/-- A text that is sent is the last one on its way to the other end, and to no other. -/
theorem toward_append (texts : List (ε × String)) (connection other : ε) (text : String) :
    toward (texts ++ [(connection, text)]) other =
      toward texts other ++ if connection = other then [(connection, text)] else [] := by
  rw [toward, List.filter_append]
  by_cases own : connection = other
  · simp [toward, own]
  · simp [toward, own]

omit [DecidableEq ε] in
/-- A text that was sent is one message of the stream. -/
theorem framed_text {history : History ε} {connection : ε} {text : String}
    (foreign : Foreign platform.json.createId)
    (sent : TextSound platform history connection text) :
    jsonFramer.extract (encoding.encode text) = some (encoding.encode text, []) := by
  obtain ⟨packet, headers, carried, _⟩ := sent
  exact encoding.framed _ text (carried.sendable foreign) carried.written

omit [DecidableEq ε] in
/-- A message that is cut off a buffer is the first text on its way, whatever part of the stream
has been received. -/
theorem extract_first {texts : List (ε × String)}
    (framed : ∀ text ∈ texts, jsonFramer.extract (encoding.encode text.2) =
      some (encoding.encode text.2, []))
    {data stream message rest : Bytes} (bytes : data ++ stream = encoded encoding texts)
    (cut : jsonFramer.extract data = some (message, rest)) :
    ∃ text later, texts = text :: later ∧ message = encoding.encode text.2 ∧
      rest ++ stream = encoded encoding later := by
  have whole := jsonFramer.stable data message rest stream cut
  rw [bytes] at whole
  cases texts with
  | nil =>
    rw [encoded, List.flatMap_nil, jsonFramer.extract_nil] at whole
    cases whole
  | cons text later =>
    have front := jsonFramer.extract_frame (framed text List.mem_cons_self)
      (encoded encoding later)
    have same : encoded encoding (text :: later) =
        encoding.encode text.2 ++ encoded encoding later := List.flatMap_cons
    rw [same, front] at whole
    obtain ⟨own, remaining⟩ := Prod.mk.inj (Option.some.inj whole)
    exact ⟨text, later, rfl, own.symm, remaining.symm⟩

omit [DecidableEq ε] in
/-- While a text is on its way and the stream was received, there is a message in the buffer. -/
theorem texts_nil {texts : List (ε × String)}
    (framed : ∀ text ∈ texts, jsonFramer.extract (encoding.encode text.2) =
      some (encoding.encode text.2, []))
    {data : Bytes} (bytes : data = encoded encoding texts)
    (nothing : jsonFramer.extract data = none) : texts = [] := by
  cases texts with
  | nil => rfl
  | cons text later =>
    have front := jsonFramer.extract_frame (framed text List.mem_cons_self)
      (encoded encoding later)
    have same : encoded encoding (text :: later) =
        encoding.encode text.2 ++ encoded encoding later := List.flatMap_cons
    rw [bytes, same, front] at nothing
    cases nothing

end Texts

section Refinement

variable [DecidableEq ι] [DecidableEq ε] {platform : Platform} {wiring : Wiring ι ε}
  {nodes : ι → Node}

variable (wiring nodes) (encoding : Encoding platform.json)

/-- Sockets that stand for an exchange of whole texts. -/
structure Related (sockets : Sockets ι ε) (exchange : Exchange ι ε) : Prop where
  /-- The nodes are the same. -/
  hosts : exchange.hosts = sockets.hosts
  /-- The same waits to be sent. -/
  scheduled : exchange.scheduled = sockets.scheduled
  /-- The buffer and the stream hold the texts on their way. -/
  bytes : ∀ connection, sockets.data connection ++ sockets.stream connection =
    encoded encoding (toward exchange.inFlight connection)
  /-- Nothing is on its way to an end that was closed. -/
  closed : ∀ connection, sockets.closed connection = true →
    toward exchange.inFlight connection = []
  /-- Texts get lost only by closing. -/
  complete : (∀ connection, sockets.closed connection = false) → exchange.lost = []
  /-- Between calls of `receive_data` there is no message in the buffer. -/
  idle : ∀ connection, sockets.receiving connection = false →
    jsonFramer.extract (sockets.data connection) = none
  /-- Everything can be traced back. -/
  sound : Sound platform wiring nodes exchange

variable {wiring nodes encoding}

omit [DecidableEq ι] in
/-- Texts on their way to an end are messages of the stream. -/
theorem Related.framed (foreign : Foreign platform.json.createId) {sockets : Sockets ι ε}
    {exchange : Exchange ι ε} (related : Related wiring nodes encoding sockets exchange)
    (connection : ε) : ∀ text ∈ toward exchange.inFlight connection,
      jsonFramer.extract (encoding.encode text.2) = some (encoding.encode text.2, []) :=
  fun text inside =>
    framed_text encoding foreign (related.sound.inFlight text (List.mem_of_mem_filter inside))

/-- The arguments of calls can be sent. -/
def PlainArgs (createId : String) : SocketAction ι ε → Prop
  | .invoke _ _ _ args => (Json.arr args).plain createId = true
  | .notify _ _ args => (Json.arr args).plain createId = true
  | .callback _ _ data => (Json.arr data).plain createId = true
  | _ => True

variable (platform wiring nodes encoding) in
/-- The exchange answers a step of the sockets that ends in a state. -/
def Answered (exchange : Exchange ι ε) (next : Sockets ι ε) : Prop :=
  (Exchange.machine platform wiring).Reaches (Plain platform.json.createId) exchange
    (Related wiring nodes encoding next)

section Answers

variable {sockets : Sockets ι ε} {exchange : Exchange ι ε}

/-- One step of the exchange is an answer if its state is related. -/
theorem answered_step (fit : Fit platform nodes)
    (related : Related wiring nodes encoding sockets exchange) {next : Sockets ι ε}
    {after : Exchange ι ε} {action : ExchangeAction ι ε}
    (stepped : (Exchange.machine platform wiring).step exchange action = some after)
    (plain : Plain platform.json.createId action)
    (relates : Sound platform wiring nodes after → Related wiring nodes encoding next after) :
    Answered platform wiring nodes encoding exchange next :=
  Machine.reaches_step stepped plain
    (relates (sound_step fit exchange action after related.sound plain stepped))

omit [DecidableEq ι] in
/-- The nodes go on and more may wait to be sent, while nothing arrives. -/
theorem Related.extend (related : Related wiring nodes encoding sockets exchange)
    (hosts : Hosts ι ε) (blocks : List (Outgoing ε))
    (sound : Sound platform wiring nodes
      { exchange with hosts := hosts, scheduled := exchange.scheduled ++ blocks }) :
    Related wiring nodes encoding
      { sockets with hosts := hosts, scheduled := sockets.scheduled ++ blocks }
      { exchange with hosts := hosts, scheduled := exchange.scheduled ++ blocks } :=
  { related with
    hosts := rfl
    scheduled := by rw [related.scheduled]
    sound := sound }

omit [DecidableEq ι] in
/-- The bytes of a text that is sent on an open connection are the last on their way to the other
end. -/
theorem related_send (related : Related wiring nodes encoding sockets exchange) {index : Nat}
    {block : Outgoing ε} {text : String}
    (opened : ¬ (sockets.closed block.connection ||
      sockets.closed (wiring.opposite block.connection)) = true)
    (sound : Sound platform wiring nodes { exchange with
      scheduled := exchange.scheduled.eraseIdx index
      inFlight := exchange.inFlight ++ [(wiring.opposite block.connection, text)] }) :
    Related wiring nodes encoding
      ({ sockets with scheduled := sockets.scheduled.eraseIdx index }.send platform wiring encoding
        block.connection text)
      { exchange with
        scheduled := exchange.scheduled.eraseIdx index
        inFlight := exchange.inFlight ++ [(wiring.opposite block.connection, text)] } := by
  rw [Sockets.send, if_neg opened]
  refine ⟨related.hosts, by rw [related.scheduled], fun connection => ?_, fun connection gone => ?_,
    related.complete, related.idle, sound⟩
  · rw [toward_append]
    by_cases own : wiring.opposite block.connection = connection
    · subst own
      have before := related.bytes (wiring.opposite block.connection)
      rw [if_pos rfl, encoded, List.flatMap_append]
      simp only [Function.update_self, ← List.append_assoc, before]
      simp [encoded]
    · dsimp only
      rw [if_neg own, List.append_nil, Function.update_of_ne (Ne.symm own)]
      exact related.bytes connection
  · have differs : wiring.opposite block.connection ≠ connection := by
      rintro rfl
      dsimp only at gone
      rw [gone, Bool.or_true] at opened
      exact opened rfl
    rw [toward_append, if_neg differs, List.append_nil]
    exact related.closed connection gone

/-- A text that is sent on a closed connection is lost. -/
theorem answered_transmit (fit : Fit platform nodes)
    (related : Related wiring nodes encoding sockets exchange) {index : Nat}
    {block : Outgoing ε} {text : String} (found : sockets.scheduled[index]? = some block)
    (wrote : exchange.hosts.write platform wiring block = some text) :
    Answered platform wiring nodes encoding exchange
      ({ sockets with scheduled := sockets.scheduled.eraseIdx index }.send platform wiring encoding
        block.connection text) := by
  have here : exchange.scheduled[index]? = some block := by rw [related.scheduled, found]
  by_cases shut : (sockets.closed block.connection ||
      sockets.closed (wiring.opposite block.connection)) = true
  · refine (reaches_sound fit related.sound (send_lost platform wiring here)).trans ?_
    rintro _ ⟨sound, rfl⟩
    rw [Sockets.send, if_pos shut]
    refine Machine.reaches_here { related with
      scheduled := by rw [related.scheduled]
      complete := fun opened => ?_
      sound := sound }
    have near : sockets.closed block.connection = false := opened block.connection
    have far : sockets.closed (wiring.opposite block.connection) = false := opened _
    rw [near, far] at shut
    cases shut
  · exact answered_step fit related (Exchange.step_transmit here wrote) trivial
      (related_send related shut)

omit [DecidableEq ι] in
/-- Bytes move from the stream to the buffer. -/
theorem related_receive (related : Related wiring nodes encoding sockets exchange)
    (connection : ε) (count : Nat) :
    Related wiring nodes encoding { sockets with
      stream := Function.update sockets.stream connection
        ((sockets.stream connection).drop count)
      data := Function.update sockets.data connection
        (sockets.data connection ++ (sockets.stream connection).take count)
      receiving := Function.update sockets.receiving connection true } exchange := by
  refine { related with bytes := fun other => ?_, idle := fun other still => ?_ }
  · by_cases own : other = connection
    · subst own
      simp only [Function.update_self, List.append_assoc, List.take_append_drop]
      exact related.bytes other
    · simp only [Function.update_of_ne own]
      exact related.bytes other
  · by_cases own : other = connection
    · subst own
      simp only [Function.update_self, Bool.true_eq_false] at still
    · simp only [Function.update_of_ne own] at still ⊢
      exact related.idle other still

omit [DecidableEq ι] in
/-- A loop of `receive_data` that finds no message ends. -/
theorem related_rest (related : Related wiring nodes encoding sockets exchange) {connection : ε}
    (nothing : extractJsonFrom (sockets.data connection) = none) :
    Related wiring nodes encoding
      { sockets with receiving := Function.update sockets.receiving connection false }
      exchange := by
  refine { related with idle := fun other still => ?_ }
  by_cases own : other = connection
  · subst own
    exact nothing
  · simp only [Function.update_of_ne own] at still
    exact related.idle other still

/-- An iteration of `receive_data` that cuts a message off delivers the first text on its way to
the end. -/
theorem related_deliver (fit : Fit platform nodes)
    (related : Related wiring nodes encoding sockets exchange) {connection : ε}
    {message rest : Bytes}
    (cut : extractJsonFrom (sockets.data connection) = some (message, rest)) {index : Nat}
    {text : String} {later : List (ε × String)}
    (found : exchange.inFlight[index]? = some (connection, text))
    (front : toward exchange.inFlight connection = (connection, text) :: later)
    (left : toward (exchange.inFlight.eraseIdx index) connection = later)
    (sound : Sound platform wiring nodes { exchange with
      hosts := (exchange.hosts.arrive platform wiring connection text).1
      inFlight := exchange.inFlight.eraseIdx index }) :
    Related wiring nodes encoding (sockets.iterate platform wiring encoding connection)
      { exchange with
        hosts := (exchange.hosts.arrive platform wiring connection text).1
        inFlight := exchange.inFlight.eraseIdx index } := by
  obtain ⟨first, others, same, rfl, remaining⟩ := extract_first encoding
    (related.framed fit.foreign connection) (related.bytes connection) cut
  rw [front] at same
  obtain ⟨rfl, rfl⟩ := List.cons.inj same
  obtain ⟨_, _, returned⟩ := sound_arrive fit.foreign related.sound.hosts
    (related.sound.inFlight _ (List.mem_of_getElem? found))
  have apart : ∀ other, other ≠ connection →
      toward (exchange.inFlight.eraseIdx index) other = toward exchange.inFlight other :=
    fun other differs => List.filter_taken _ found (decide_eq_false (Ne.symm differs))
  simp only [Sockets.iterate, cut, encoding.decode_encode, ← related.hosts, returned]
  refine ⟨rfl, related.scheduled, fun other => ?_, fun other gone => ?_, related.complete,
    fun other still => ?_, sound⟩
  · by_cases own : other = connection
    · subst own
      simp only [Function.update_self, remaining]
      exact congrArg (encoded encoding) left.symm
    · simp only [Function.update_of_ne own, apart other own]
      exact related.bytes other
  · by_cases own : other = connection
    · subst own
      rw [related.closed other gone] at front
      cases front
    · rw [apart other own]
      exact related.closed other gone
  · by_cases own : other = connection
    · subst own
      simp only [Function.update_self, Bool.true_eq_false] at still
    · simp only [Function.update_of_ne own] at still ⊢
      exact related.idle other still

/-- An iteration of `receive_data` delivers a text or ends the loop. -/
theorem answered_extract (fit : Fit platform nodes)
    (related : Related wiring nodes encoding sockets exchange) (connection : ε) :
    Answered platform wiring nodes encoding exchange
      (sockets.iterate platform wiring encoding connection) := by
  cases cut : extractJsonFrom (sockets.data connection) with
  | none =>
    apply Machine.reaches_here
    simp only [Sockets.iterate, cut]
    exact related_rest related cut
  | some message =>
    obtain ⟨message, rest⟩ := message
    obtain ⟨⟨target, text⟩, later, front, _⟩ := extract_first encoding
      (related.framed fit.foreign connection) (related.bytes connection) cut
    have member : (target, text) ∈ toward exchange.inFlight connection := by
      rw [front]
      exact List.mem_cons_self
    obtain rfl : target = connection := of_decide_eq_true (List.mem_filter.mp member).2
    obtain ⟨index, found, left⟩ := List.filter_first _ front
    exact answered_step fit related (Exchange.step_deliver found) trivial
      (related_deliver fit related cut found front left)

/-- Closing an end loses what is on its way to it. -/
theorem answered_close (fit : Fit platform nodes)
    (related : Related wiring nodes encoding sockets exchange) (connection : ε) :
    Answered platform wiring nodes encoding exchange { sockets with
      stream := Function.update sockets.stream connection []
      data := Function.update sockets.data connection []
      closed := Function.update sockets.closed connection true } := by
  obtain ⟨answer, after, plain, ran, lost⟩ :=
    lose_where platform wiring (fun text => decide (text.1 = connection)) exchange
  have gone : toward after.inFlight connection = [] := by
    rw [toward, lost.inFlight, List.filter_filter, List.filter_eq_nil_iff]
    simp
  have others : ∀ other, other ≠ connection →
      toward after.inFlight other = toward exchange.inFlight other := by
    intro other differs
    rw [toward, lost.inFlight, List.filter_filter]
    apply List.filter_congr
    intro text _
    by_cases own : text.1 = other
    · simp [own, differs]
    · simp [own]
  refine ⟨answer, after, plain, ran, lost.hosts.trans related.hosts,
    lost.scheduled.trans related.scheduled, fun other => ?_, fun other shut => ?_,
    fun opened => ?_, fun other still => ?_, sound_along fit related.sound plain ran⟩
  · by_cases own : other = connection
    · subst own
      simp only [Function.update_self, gone]
      rfl
    · simp only [Function.update_of_ne own, others other own]
      exact related.bytes other
  · by_cases own : other = connection
    · subst own
      exact gone
    · simp only [Function.update_of_ne own] at shut
      rw [others other own]
      exact related.closed other shut
  · have shut := opened connection
    simp only [Function.update_self, Bool.true_eq_false] at shut
  · by_cases own : other = connection
    · subst own
      simp only [Function.update_self]
      exact jsonFramer.extract_nil
    · simp only [Function.update_of_ne own]
      exact related.idle other still

/-- Every step of the sockets is answered. -/
theorem answered_action (fit : Fit platform nodes)
    (related : Related wiring nodes encoding sockets exchange) {action : SocketAction ι ε}
    (plain : PlainArgs platform.json.createId action) {next : Sockets ι ε}
    (stepped : (Sockets.machine platform wiring encoding).step sockets action = some next) :
    Answered platform wiring nodes encoding exchange next := by
  cases action with
  | invoke connection id method args =>
    obtain ⟨⟨changed, block⟩, called, rfl⟩ := Option.map_eq_some_iff.mp stepped
    rw [← related.hosts] at called
    exact answered_step fit related (Exchange.step_invoke called) plain
      (related.extend changed [block])
  | notify connection method args =>
    cases stepped
    rw [← related.hosts]
    exact answered_step fit related (Exchange.step_notify exchange connection method args) plain
      (related.extend exchange.hosts [_])
  | callback connection method data =>
    simp only [Sockets.machine, Sockets.step] at stepped
    obtain ⟨block, called, rfl⟩ := Option.map_eq_some_iff.mp stepped
    rw [← related.hosts] at called ⊢
    exact answered_step fit related (Exchange.step_callback called) plain
      (related.extend exchange.hosts [block])
  | transmit index =>
    obtain ⟨block, found, rfl⟩ := Option.map_eq_some_iff.mp stepped
    have waits : block ∈ exchange.scheduled := by
      rw [related.scheduled]
      exact List.mem_of_getElem? found
    obtain ⟨text, _, _, wrote, _⟩ :=
      written fit.foreign related.sound.hosts (related.sound.scheduled block waits)
    have sent := answered_transmit fit related found wrote
    rw [related.hosts] at wrote
    simpa only [wrote] using sent
  | receive connection count =>
    simp only [Sockets.machine, Sockets.step] at stepped
    split at stepped
    · cases stepped
    · cases stepped
      exact Machine.reaches_here (related_receive related connection count)
  | extract connection =>
    simp only [Sockets.machine, Sockets.step] at stepped
    split at stepped
    · cases stepped
      exact answered_extract fit related connection
    · cases stepped
  | close connection =>
    simp only [Sockets.machine, Sockets.step] at stepped
    split at stepped
    · cases stepped
    · cases stepped
      exact answered_close fit related connection
  | finish index =>
    obtain ⟨⟨changed, answer⟩, done, rfl⟩ := Option.map_eq_some_iff.mp stepped
    rw [← related.hosts] at done
    exact answered_step fit related (Exchange.step_finish done) trivial
      (related.extend changed answer.toList)
  | host action =>
    obtain ⟨changed, moved, rfl⟩ := Option.map_eq_some_iff.mp stepped
    rw [← related.hosts] at moved
    exact answered_step fit related (Exchange.step_host moved) trivial fun sound =>
      { related with hosts := rfl, sound := sound }

end Answers

/-- The sockets simulate the exchange of whole texts. -/
def simulation (fit : Fit platform nodes) (encoding : Encoding platform.json) :
    (Sockets.machine platform wiring encoding).Simulation (Exchange.machine platform wiring)
      (PlainArgs platform.json.createId) (Plain platform.json.createId) where
  related := Related wiring nodes encoding
  answered _ _ _ _ related plain stepped := answered_action fit related plain stepped

omit [DecidableEq ι] in
/-- Sockets on which nothing was sent stand for an exchange that has not begun. -/
theorem related_initial (fit : Fit platform nodes) (encoding : Encoding platform.json) :
    Related wiring nodes encoding (Sockets.initial nodes : Sockets ι ε)
      (Exchange.initial nodes) where
  hosts := rfl
  scheduled := rfl
  bytes _ := rfl
  closed _ _ := rfl
  complete _ := rfl
  idle _ _ := jsonFramer.extract_nil
  sound := sound_initial fit

/-- A run of the sockets reaches a state that stands for one an exchange reaches. -/
theorem reached (fit : Fit platform nodes) {actions : List (SocketAction ι ε)}
    {final : Sockets ι ε} (plain : ∀ act ∈ actions, PlainArgs platform.json.createId act)
    (ran : (Sockets.machine platform wiring encoding).run (Sockets.initial nodes) actions =
      some final) :
    Answered platform wiring nodes encoding (Exchange.initial nodes) final :=
  (simulation fit encoding).run actions _ (Exchange.initial nodes) final
    (related_initial fit encoding) plain ran

/-- Everything that was sent has been received and dealt with, and nothing was closed or
killed. -/
structure Drained (sockets : Sockets ι ε) : Prop where
  /-- Nothing waits to be sent. -/
  scheduled : sockets.scheduled = []
  /-- All bytes were received. -/
  stream : ∀ connection, sockets.stream connection = []
  /-- No call of `receive_data` is under way. -/
  receiving : ∀ connection, sockets.receiving connection = false
  /-- All connections are open. -/
  opened : ∀ connection, sockets.closed connection = false
  /-- No job is queued. -/
  jobs : sockets.hosts.jobs = []
  /-- No job is under way. -/
  running : sockets.hosts.running = []
  /-- No worker was killed. -/
  killed : sockets.hosts.killed = []

omit [DecidableEq ι] in
/-- Drained sockets stand for a settled exchange: no text is stuck in a buffer. -/
theorem Drained.settled (fit : Fit platform nodes) {sockets : Sockets ι ε}
    {exchange : Exchange ι ε} (drained : Drained sockets)
    (related : Related wiring nodes encoding sockets exchange) : Settled exchange := by
  have nothing : ∀ connection, toward exchange.inFlight connection = [] := by
    intro connection
    have bytes := related.bytes connection
    rw [drained.stream connection, List.append_nil] at bytes
    exact texts_nil encoding (related.framed fit.foreign connection) bytes
      (related.idle connection (drained.receiving connection))
  have inFlight : exchange.inFlight = [] := by
    rw [List.eq_nil_iff_forall_not_mem]
    intro text inside
    have member : text ∈ toward exchange.inFlight text.1 :=
      List.mem_filter.mpr ⟨inside, decide_eq_true rfl⟩
    rw [nothing] at member
    cases member
  exact ⟨related.scheduled.trans drained.scheduled, inFlight, related.complete drained.opened,
    by rw [related.hosts]; exact drained.jobs, by rw [related.hosts]; exact drained.running,
    by rw [related.hosts]; exact drained.killed⟩

end Refinement

/-! ## Calls -/

section Calls

variable [DecidableEq ι] [DecidableEq ε] {platform : Platform} {wiring : Wiring ι ε}
  {nodes : ι → Node} {encoding : Encoding platform.json}

/-- A call over sockets that returns does so with what the handlers of the node at the other end
made of its method and arguments, however the bytes were cut into chunks and whatever other calls,
answers and threads were under way. -/
theorem socket_calls_agree (fit : Fit platform nodes) (actions : List (SocketAction ι ε))
    (final : Sockets ι ε) (plain : ∀ act ∈ actions, PlainArgs platform.json.createId act)
    (ran : (Sockets.machine platform wiring encoding).run (Sockets.initial nodes) actions =
      some final)
    (node : ι) (id : String) (response : Json × Reply)
    (returned : final.hosts.phase node id = .returned response) :
    Agrees platform wiring nodes final.hosts node id response := by
  obtain ⟨answer, exchange, _, _, related⟩ := reached fit plain ran
  rw [← related.hosts] at returned ⊢
  exact agrees_of_sound related.sound.hosts returned

/-- Every call over sockets is dispatched at most once and its answer is recorded at most once.
Once all bytes were received and all jobs are done, on connections that stayed open, it was
dispatched and recorded exactly once. -/
theorem socket_calls_once (fit : Fit platform nodes) (actions : List (SocketAction ι ε))
    (final : Sockets ι ε) (plain : ∀ act ∈ actions, PlainArgs platform.json.createId act)
    (ran : (Sockets.machine platform wiring encoding).run (Sockets.initial nodes) actions =
      some final) (call : Asked ε) (asked : call ∈ final.hosts.asked) :
    Once wiring final.hosts call (· ≤ 1) ∧
      (Drained final → Once wiring final.hosts call (· = 1)) := by
  obtain ⟨answer, exchange, expected, answered, related⟩ := reached fit plain ran
  have accounted := (accounted_run fit answer exchange expected answered).2
  rw [← related.hosts] at asked ⊢
  refine ⟨at_most_once related.sound.hosts accounted call, fun drained => ?_⟩
  exact exactly_once related.sound.hosts accounted (drained.settled fit related) asked

end Calls

/-! ## A pair of nodes -/

/-- A call from one to the other. Its answer is received in two chunks. -/
def pairCall : List (SocketAction Bool Bool) :=
  [.invoke false "7" "echo" [.int 1], .transmit 0, .receive true 100, .extract true,
    .extract true, .host (.begin 0), .finish 0, .transmit 0, .receive false 5, .extract false,
    .receive false 100, .extract false, .extract false, .host (.register false "7"),
    .host (.poll false "7")]

/-- Its arguments can be sent. -/
theorem pairCall_plain : ∀ act ∈ pairCall, PlainArgs JsonText.platform.json.createId act := by
  intro act inside
  simp only [pairCall, List.mem_cons, List.not_mem_nil, or_false] at inside
  rcases inside with rfl | rfl | rfl | rfl | rfl | rfl | rfl | rfl | rfl | rfl | rfl | rfl |
    rfl | rfl | rfl <;> first | exact trivial | rfl

/-- What can be seen of a pair: the client, its call, and whether anything is left to do. -/
def observed (sockets : Sockets Bool Bool) :
    Phase Json Reply × List (Asked Bool) × Bool × Bool × List Bool :=
  (sockets.hosts.phase false "7", sockets.hosts.asked, sockets.scheduled.isEmpty,
    sockets.hosts.jobs.isEmpty && sockets.hosts.running.isEmpty && sockets.hosts.killed.isEmpty,
    [false, true].flatMap fun connection => [(sockets.stream connection).isEmpty,
      sockets.receiving connection, sockets.closed connection])

/-- The call runs to its end, with its arguments echoed, and leaves nothing to do. -/
theorem pairCall_runs : ∃ final : Sockets Bool Bool,
    (Sockets.machine JsonText.platform pair JsonBytes.encoding).run
        (Sockets.initial fun _ => echoNode) pairCall = some final ∧
      final.hosts.phase false "7" = .returned (.str "7", ⟨.arr [.int 1], none⟩) ∧
      final.hosts.asked = [⟨"7", "echo", [.int 1], false⟩] ∧ Drained final := by
  have evaluated : ((Sockets.machine JsonText.platform pair JsonBytes.encoding).run
      (Sockets.initial fun _ => echoNode) pairCall).map observed =
        some (.returned (.str "7", ⟨.arr [.int 1], none⟩), [⟨"7", "echo", [.int 1], false⟩],
          true, true, [true, false, false, true, false, false]) := by
    decide +kernel
  obtain ⟨final, ran, seen⟩ := Option.map_eq_some_iff.mp evaluated
  simp only [observed, List.flatMap_cons, List.flatMap_nil, List.append_nil, List.cons_append,
    List.nil_append, Prod.mk.injEq, List.cons.injEq, Bool.and_eq_true, List.isEmpty_iff,
    and_true] at seen
  obtain ⟨returned, asked, scheduled, ⟨⟨jobs, running⟩, killed⟩, here, quiet, open', there,
    quiet', open''⟩ := seen
  exact ⟨final, ran, returned, asked, scheduled, Bool.rec here there, Bool.rec quiet quiet',
    Bool.rec open' open'', jobs, running, killed⟩

/-- The pair's call agrees with its answer. -/
theorem pair_calls_agree : ∃ final : Sockets Bool Bool,
    final.hosts.phase false "7" = .returned (.str "7", ⟨.arr [.int 1], none⟩) ∧
      Agrees JsonText.platform pair (fun _ => echoNode) final.hosts false "7"
        (.str "7", ⟨.arr [.int 1], none⟩) := by
  obtain ⟨final, ran, returned, _⟩ := pairCall_runs
  exact ⟨final, returned, socket_calls_agree fit_echo pairCall final pairCall_plain ran false "7"
    _ returned⟩

/-- It is answered exactly once. -/
theorem pair_calls_once : ∃ final : Sockets Bool Bool,
    final.hosts.asked = [⟨"7", "echo", [.int 1], false⟩] ∧
      Once pair final.hosts ⟨"7", "echo", [.int 1], false⟩ (· = 1) := by
  obtain ⟨final, ran, _, asked, drained⟩ := pairCall_runs
  refine ⟨final, asked, (socket_calls_once fit_echo pairCall final pairCall_plain ran _ ?_).2
    drained⟩
  rw [asked]
  exact List.mem_singleton.mpr rfl

end Rjr.Verif.SocketCalls
