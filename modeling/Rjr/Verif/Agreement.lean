import Rjr.Lib.Simulation
import Rjr.Lib.Taking
import Rjr.Verif.Provenance

/-!
# Calls and their answers

Nodes exchange texts that may overtake each other or get lost, while any number of threads work
for each of them. A call of `invoke` that returns does so with what the handlers of the node at
the other end made of its own method and arguments. Every request is dispatched at most once and
every answer is recorded at most once; what is neither lost nor killed nor still on its way has
been dispatched and recorded exactly once.
-/

namespace Rjr.Verif.Agreement

open Messages Node Nodes Codec EchoedHeaders Packets Provenance

variable {ι ε : Type}

section Agreement

variable {platform : Platform} {wiring : Wiring ι ε} {nodes : ι → Node}

/-- New nodes can be traced back: they hold nothing. -/
theorem sound_new (fit : Fit platform nodes) :
    HostsSound platform wiring nodes (Hosts.new nodes : Hosts ι ε) where
  kept node := ⟨fit.headers node, rfl, rfl, rfl⟩
  jobs := nofun
  running := nofun
  served := nofun
  recorded := nofun
  responses node response inside := by
    have none : response ∈ (nodes node).correlation.responses := inside
    rw [fit.fresh node] at none
    cases none
  returned := nofun
  begun := nofun
  unique := .nil

/-- A response that was recorded answers a call that was asked on its end. -/
theorem recorded_answers {hosts : Hosts ι ε} (sound : HostsSound platform wiring nodes hosts)
    {recorded : Recorded ε} (inside : recorded ∈ hosts.recorded) :
    ∃ call ∈ hosts.asked, call.on = recorded.on ∧ ∃ served ∈ hosts.served,
      Answers platform wiring nodes call served ∧
      recorded.response = (.str call.id, replyOf served.result) := by
  obtain ⟨id, result, same, served, answered, number, outcome, connection⟩ :=
    sound.recorded recorded inside
  obtain ⟨call, asked, answers⟩ := sound.served served answered
  refine ⟨call, asked, ?_, served, answered, answers, ?_⟩
  · -- the answer went back to the end the call was sent on
    rw [← wiring.involutive call.on, ← answers.on, connection, wiring.involutive]
  · rw [same, outcome, ← answers.id, number]

/-- A call of `invoke` has returned what the other end made of it. -/
def Agrees (platform : Platform) (wiring : Wiring ι ε) (nodes : ι → Node) (hosts : Hosts ι ε)
    (node : ι) (id : String) (response : Json × Reply) : Prop :=
  ∃ call ∈ hosts.asked, wiring.owner call.on = node ∧ call.id = id ∧
    ∃ served ∈ hosts.served, Answers platform wiring nodes call served ∧
      response = (.str id, replyOf served.result)

/-- What a client returned was recorded for its own call. -/
theorem returned_recorded {hosts : Hosts ι ε} (sound : HostsSound platform wiring nodes hosts)
    {node : ι} {id : String} {response : Json × Reply}
    (returned : hosts.phase node id = .returned response) :
    ∃ recorded ∈ hosts.recorded, ∃ call ∈ hosts.asked, call.on = recorded.on ∧
      wiring.owner call.on = node ∧ call.id = id ∧ ∃ served ∈ hosts.served,
        Answers platform wiring nodes call served ∧
        response = (.str id, replyOf served.result) := by
  obtain ⟨own, recorded, inside, rfl, owner⟩ := sound.returned node id response returned
  obtain ⟨call, asked, back, served, answered, answers, same⟩ := recorded_answers sound inside
  rw [same] at own ⊢
  have ids : call.id = id := Json.str.inj own
  exact ⟨recorded, inside, call, asked, back, by rw [back, owner], ids, served, answered, answers,
    by rw [ids]⟩

/-- What a client returned can be traced back to its own call. -/
theorem agrees_of_sound {hosts : Hosts ι ε} (sound : HostsSound platform wiring nodes hosts)
    {node : ι} {id : String} {response : Json × Reply}
    (returned : hosts.phase node id = .returned response) :
    Agrees platform wiring nodes hosts node id response := by
  obtain ⟨_, _, call, asked, _, traced⟩ := returned_recorded sound returned
  exact ⟨call, asked, traced⟩

end Agreement

/-! ## Exchanges -/

section Exchanges

variable [DecidableEq ι] (platform : Platform) (wiring : Wiring ι ε) (nodes : ι → Node)

/-- The arguments of calls can be sent. -/
def Plain (createId : String) : ExchangeAction ι ε → Prop
  | .invoke _ _ _ args => (Json.arr args).plain createId = true
  | .notify _ _ args => (Json.arr args).plain createId = true
  | .callback _ _ data => (Json.arr data).plain createId = true
  | _ => True

/-- Everything in an exchange can be traced back. -/
structure Sound (exchange : Exchange ι ε) : Prop where
  /-- What the nodes hold. -/
  hosts : HostsSound platform wiring nodes exchange.hosts
  /-- What waits to be sent. -/
  scheduled : ∀ block ∈ exchange.scheduled,
    BlockSound platform wiring nodes (historyOf exchange.hosts) block
  /-- What is on its way. -/
  inFlight : ∀ text ∈ exchange.inFlight,
    TextSound platform (historyOf exchange.hosts) (wiring.opposite text.1) text.2

variable {platform wiring nodes} {exchange : Exchange ι ε}

omit [DecidableEq ι] in
/-- Nodes go on, and more may wait to be sent. -/
theorem Sound.extend (sound : Sound platform wiring nodes exchange) {hosts : Hosts ι ε}
    (still : HostsSound platform wiring nodes hosts)
    (extended : (historyOf hosts).Extends (historyOf exchange.hosts)) (blocks : List (Outgoing ε))
    (sendable : ∀ block ∈ blocks, BlockSound platform wiring nodes (historyOf hosts) block) :
    Sound platform wiring nodes { exchange with
      hosts := hosts, scheduled := exchange.scheduled ++ blocks } := by
  refine ⟨still, ?_, ?_⟩
  · intro block inside
    rcases List.mem_append.mp inside with before | new
    · exact (sound.scheduled block before).mono extended
    · exact sendable block new
  · exact fun text inside => (sound.inFlight text inside).mono extended

/-- Every step keeps everything traceable. -/
theorem sound_step (fit : Fit platform nodes) (exchange : Exchange ι ε)
    (action : ExchangeAction ι ε) (next : Exchange ι ε)
    (sound : Sound platform wiring nodes exchange) (plain : Plain platform.json.createId action)
    (stepped : (Exchange.machine platform wiring).step exchange action = some next) :
    Sound platform wiring nodes next := by
  have unchanged := History.extends_refl (historyOf exchange.hosts)
  cases action with
  | invoke connection id method args =>
    obtain ⟨⟨hosts, block⟩, called, rfl⟩ := Option.map_eq_some_iff.mp stepped
    obtain ⟨still, sendable, extended⟩ := sound_invoke sound.hosts plain called
    exact sound.extend still extended [block] fun other inside => by
      rw [List.mem_singleton.mp inside]
      exact sendable
  | notify connection method args =>
    cases stepped
    have sendable := sound_notify sound.hosts connection method plain
    exact sound.extend sound.hosts unchanged [_] fun other inside => by
      rw [List.mem_singleton.mp inside]
      exact sendable
  | callback connection method data =>
    simp only [Exchange.machine, Exchange.step] at stepped
    obtain ⟨block, called, rfl⟩ := Option.map_eq_some_iff.mp stepped
    have sendable := sound_callback sound.hosts plain called
    exact sound.extend sound.hosts unchanged [block] fun other inside => by
      rw [List.mem_singleton.mp inside]
      exact sendable
  | transmit index =>
    obtain ⟨block, found, rfl⟩ := Option.map_eq_some_iff.mp stepped
    have sendable := sound.scheduled block (List.mem_of_getElem? found)
    refine ⟨sound.hosts, ?_, ?_⟩
    · exact fun other inside => sound.scheduled other (List.mem_of_mem_eraseIdx inside)
    · intro text inside
      rcases List.mem_append.mp inside with before | new
      · exact sound.inFlight text before
      · obtain ⟨sent, packet, headers, wrote, carried, on, _⟩ :=
          written fit.foreign sound.hosts sendable
        rw [wrote, Option.map_some, Option.toList_some] at new
        rw [List.mem_singleton.mp new, wiring.involutive]
        exact ⟨packet, headers, carried, on⟩
  | deliver index =>
    obtain ⟨⟨connection, text⟩, found, rfl⟩ := Option.map_eq_some_iff.mp stepped
    obtain ⟨still, same, _⟩ := sound_arrive fit.foreign sound.hosts
      (sound.inFlight _ (List.mem_of_getElem? found))
    refine ⟨still, ?_, ?_⟩
    · intro block inside
      rw [same]
      exact sound.scheduled block inside
    · intro other inside
      rw [same]
      exact sound.inFlight other (List.mem_of_mem_eraseIdx inside)
  | lose index =>
    obtain ⟨text, found, rfl⟩ := Option.map_eq_some_iff.mp stepped
    exact { sound with
      inFlight := fun other inside => sound.inFlight other (List.mem_of_mem_eraseIdx inside) }
  | finish index =>
    obtain ⟨⟨hosts, answer⟩, done, rfl⟩ := Option.map_eq_some_iff.mp stepped
    obtain ⟨still, sendable, extended⟩ := sound_finish fit sound.hosts done
    exact sound.extend still extended answer.toList fun block inside =>
      sendable block (Option.mem_toList.mp inside)
  | host action =>
    obtain ⟨hosts, moved, rfl⟩ := Option.map_eq_some_iff.mp stepped
    obtain ⟨still, same⟩ := sound_host fit.foreign sound.hosts moved
    refine ⟨still, ?_, ?_⟩
    · intro block inside
      rw [same]
      exact sound.scheduled block inside
    · intro text inside
      rw [same]
      exact sound.inFlight text inside

omit [DecidableEq ι] in
/-- An exchange that has not begun can be traced back. -/
theorem sound_initial (fit : Fit platform nodes) :
    Sound platform wiring nodes (Exchange.initial nodes : Exchange ι ε) :=
  ⟨sound_new fit, nofun, nofun⟩

/-- Everything stays traceable along a run. -/
theorem sound_along (fit : Fit platform nodes) {exchange after : Exchange ι ε}
    {actions : List (ExchangeAction ι ε)} (sound : Sound platform wiring nodes exchange)
    (plain : ∀ act ∈ actions, Plain platform.json.createId act)
    (ran : (Exchange.machine platform wiring).run exchange actions = some after) :
    Sound platform wiring nodes after :=
  (Exchange.machine platform wiring).run_invariant_of (Sound platform wiring nodes)
    (Plain platform.json.createId) (sound_step fit) actions exchange after sound plain ran

/-- Where an exchange gets to, everything is traceable. -/
theorem reaches_sound (fit : Fit platform nodes) {goal : Exchange ι ε → Prop}
    (sound : Sound platform wiring nodes exchange)
    (reaches : (Exchange.machine platform wiring).Reaches (Plain platform.json.createId) exchange
      goal) :
    (Exchange.machine platform wiring).Reaches (Plain platform.json.createId) exchange
      fun after => Sound platform wiring nodes after ∧ goal after := by
  obtain ⟨actions, after, plain, ran, reached⟩ := reaches
  exact ⟨actions, after, plain, ran, sound_along fit sound plain ran, reached⟩

/-- Something that waits to be sent can be lost. -/
theorem send_lost (platform : Platform) (wiring : Wiring ι ε) {exchange : Exchange ι ε}
    {index : Nat} {block : Outgoing ε} (found : exchange.scheduled[index]? = some block) :
    (Exchange.machine platform wiring).Reaches (Plain platform.json.createId) exchange
      (· = { exchange with
        scheduled := exchange.scheduled.eraseIdx index
        lost := exchange.lost ++ ((exchange.hosts.write platform wiring block).map
          fun text => (wiring.opposite block.connection, text)).toList }) := by
  cases wrote : exchange.hosts.write platform wiring block with
  | none =>
    refine Machine.reaches_step (Exchange.step_transmit_eq found) trivial ?_
    simp [wrote]
  | some text =>
    refine .after (Exchange.step_transmit found wrote) trivial ?_
    have last : (exchange.inFlight ++ [(wiring.opposite block.connection, text)])[
        exchange.inFlight.length]? = some (wiring.opposite block.connection, text) := by
      simp
    refine Machine.reaches_step (Exchange.step_lose last) trivial ?_
    simp [List.eraseIdx_append_of_length_le]

/-- An exchange after texts were lost. -/
structure Lost (which : ε × String → Bool) (before after : Exchange ι ε) : Prop where
  /-- The nodes are the same. -/
  hosts : after.hosts = before.hosts
  /-- The same waits to be sent. -/
  scheduled : after.scheduled = before.scheduled
  /-- The other texts are still on their way. -/
  inFlight : after.inFlight = before.inFlight.filter fun text => !which text
  /-- These texts are lost. -/
  lost : after.lost = before.lost ++ before.inFlight.filter which

/-- All texts of a kind can be lost, and no others. -/
theorem lose_where (platform : Platform) (wiring : Wiring ι ε) (which : ε × String → Bool)
    (exchange : Exchange ι ε) :
    (Exchange.machine platform wiring).Reaches (Plain platform.json.createId) exchange
      (Lost which exchange) := by
  induction left : exchange.inFlight.filter which generalizing exchange with
  | nil =>
    refine Machine.reaches_here ⟨rfl, rfl, (List.filter_eq_self.mpr ?_).symm,
      by rw [left, List.append_nil]⟩
    intro text inside
    have other := List.filter_eq_nil_iff.mp left text inside
    simpa using other
  | cons text rest ih =>
    obtain ⟨index, found, remaining⟩ := List.filter_first _ left
    have chosen : which text = true := by
      have member : text ∈ exchange.inFlight.filter which := by
        rw [left]
        exact List.mem_cons_self
      exact (List.mem_filter.mp member).2
    refine .after (Exchange.step_lose found) trivial ((ih _ remaining).trans fun after lost => ?_)
    refine Machine.reaches_here ⟨lost.hosts, lost.scheduled, ?_, ?_⟩
    · rw [lost.inFlight]
      exact List.filter_taken _ found (by rw [chosen]; rfl)
    · rw [lost.lost, left, remaining, List.append_assoc]
      rfl

end Exchanges

/-! ## Counting -/

section Counting

variable [DecidableEq ι] [DecidableEq ε] (platform : Platform) (wiring : Wiring ι ε)

section Places

variable (connection : ε) (id : String)

/-- A call on an end, under an id. -/
def isAsked (call : Asked ε) : Bool := decide (call.on = connection ∧ call.id = id)

/-- An answer to a request that came in on an end, under an id. -/
def isServed (served : Served ε) : Bool := decide (served.on = connection ∧ served.id = .str id)

/-- A response that came in on an end, under an id. -/
def isRecorded (recorded : Recorded ε) : Bool :=
  decide (recorded.on = connection ∧ recorded.response.1 = .str id)

/-- The job of a request that came in on an end, under an id. -/
def isQueued (queued : Queued ε) : Bool :=
  decide (queued.on = connection ∧ queued.job.notification = false ∧
    idOf queued.job.message = .str id)

/-- Such a job once it was begun. -/
def isRunning (running : Running ε) : Bool :=
  decide (running.on = connection ∧ running.msgId = some (.str id))

/-- A block that sends something on an end. -/
def isBlock (kind : Kind) (block : Outgoing ε) : Bool :=
  decide (block.connection = connection ∧ blockLabel platform block = some (kind, .str id))

/-- A text that arrives at an end. -/
def isText (kind : Kind) (text : ε × String) : Bool :=
  decide (text.1 = connection ∧ label platform text.2 = some (kind, .str id))

end Places

/-- What was sent on an end and has not arrived at the other: it waits to be sent, it is on its
way, or it was lost. -/
def travelling (exchange : Exchange ι ε) (kind : Kind) (connection : ε) (id : String) : Nat :=
  exchange.scheduled.countP (isBlock platform connection id kind) +
    exchange.inFlight.countP (isText platform (wiring.opposite connection) id kind) +
    exchange.lost.countP (isText platform (wiring.opposite connection) id kind)

/-- Requests that came in on an end and have not been answered: jobs on the queue, jobs that were
begun, and those whose worker was killed. -/
def inWork (hosts : Hosts ι ε) (connection : ε) (id : String) : Nat :=
  hosts.jobs.countP (isQueued connection id) + hosts.running.countP (isRunning connection id) +
    hosts.killed.countP (isRunning connection id)

/-- Nothing is duplicated and nothing vanishes. -/
structure Accounted (exchange : Exchange ι ε) : Prop where
  /-- Every call is on its way, in work, or answered. -/
  requests : ∀ connection id, exchange.hosts.asked.countP (isAsked connection id) =
    travelling platform wiring exchange .request connection id +
      inWork exchange.hosts (wiring.opposite connection) id +
      exchange.hosts.served.countP (isServed (wiring.opposite connection) id)
  /-- Every answer is on its way or recorded. -/
  answers : ∀ connection id, exchange.hosts.served.countP (isServed connection id) =
    travelling platform wiring exchange .response connection id +
      exchange.hosts.recorded.countP (isRecorded (wiring.opposite connection) id)

variable {platform wiring} {nodes : ι → Node} {exchange : Exchange ι ε}

omit [DecidableEq ι] [DecidableEq ε] in
/-- Two ends are the same when their opposites are. -/
theorem opposite_inj {first second : ε} :
    wiring.opposite first = wiring.opposite second ↔ first = second := by
  constructor
  · intro same
    rw [← wiring.involutive first, same, wiring.involutive]
  · intro same
    rw [same]

omit [DecidableEq ι] in
/-- A text is sent, and is counted where the block was. -/
theorem isText_write (foreign : Foreign platform.json.createId)
    (sound : HostsSound platform wiring nodes exchange.hosts) {block : Outgoing ε}
    (sendable : BlockSound platform wiring nodes (historyOf exchange.hosts) block) :
    ∃ text, exchange.hosts.write platform wiring block = some text ∧
      ∀ connection id kind, isText platform (wiring.opposite connection) id kind
          (wiring.opposite block.connection, text) =
        isBlock platform connection id kind block := by
  obtain ⟨text, packet, headers, wrote, carried, _, same⟩ := written foreign sound sendable
  refine ⟨text, wrote, fun connection id kind => ?_⟩
  simp only [isText, isBlock, carried.labelled foreign, same, opposite_inj]

omit [DecidableEq ι] in
/-- A notification is counted nowhere. -/
theorem isBlock_notification {block : Outgoing ε}
    (silent : blockLabel platform block = some (.notification, .null)) (connection : ε)
    (id : String) (kind : Kind) : isBlock platform connection id kind block = false := by
  simp [isBlock, silent]

omit [DecidableEq ι] in
/-- More waits to be sent. -/
theorem travelling_append (hosts : Hosts ι ε) (blocks : List (Outgoing ε)) (kind : Kind)
    (connection : ε) (id : String) :
    travelling platform wiring { exchange with
        hosts := hosts, scheduled := exchange.scheduled ++ blocks } kind connection id =
      travelling platform wiring exchange kind connection id +
        blocks.countP (isBlock platform connection id kind) := by
  simp only [travelling, List.countP_append]
  omega

omit [DecidableEq ι] in
/-- A notification that waits to be sent changes no count. -/
theorem accounted_silent (accounted : Accounted platform wiring exchange) {block : Outgoing ε}
    (silent : blockLabel platform block = some (.notification, .null)) :
    Accounted platform wiring { exchange with scheduled := exchange.scheduled ++ [block] } := by
  have same : ∀ kind connection id, travelling platform wiring
      { exchange with scheduled := exchange.scheduled ++ [block] } kind connection id =
        travelling platform wiring exchange kind connection id := by
    intro kind connection id
    have none := isBlock_notification silent connection id kind
    rw [travelling_append, List.countP_singleton, none]
    rfl
  exact ⟨fun connection id => by rw [same]; exact accounted.requests connection id,
    fun connection id => by rw [same]; exact accounted.answers connection id⟩

/-- A call is asked once and waits to be sent once. -/
theorem accounted_invoke (accounted : Accounted platform wiring exchange) {connection : ε}
    {id method : String} {args : List Json} {hosts : Hosts ι ε} {block : Outgoing ε}
    (called : exchange.hosts.invoke wiring connection id method args = some (hosts, block)) :
    Accounted platform wiring { exchange with
      hosts := hosts, scheduled := exchange.scheduled ++ [block] } := by
  obtain ⟨_, rfl, rfl⟩ := Hosts.invoke_some called
  refine ⟨fun other text => ?_, fun other text => ?_⟩
  · have before := accounted.requests other text
    have same : isBlock platform other text .request (.request ⟨.str method, .arr args, .str id,
        (exchange.hosts.nodes (wiring.owner connection)).messageHeaders⟩ connection) =
          isAsked other text ⟨id, method, args, connection⟩ := by
      simp [isBlock, isAsked, blockLabel, Outgoing.connection]
    rw [travelling_append]
    simp only [inWork, List.countP_append, List.countP_singleton, same] at before ⊢
    simp only [Hosts.setPhase]
    omega
  · have before := accounted.answers other text
    have none : isBlock platform other text .response (.request ⟨.str method, .arr args, .str id,
        (exchange.hosts.nodes (wiring.owner connection)).messageHeaders⟩ connection) =
          false := by
      simp [isBlock, blockLabel]
    rw [travelling_append, List.countP_singleton, none]
    exact before

omit [DecidableEq ι] in
/-- A block that is sent is counted as the text it sends. -/
theorem accounted_transmit (foreign : Foreign platform.json.createId)
    (sound : Sound platform wiring nodes exchange) (accounted : Accounted platform wiring exchange)
    {index : Nat} {block : Outgoing ε} (found : exchange.scheduled[index]? = some block) :
    Accounted platform wiring { exchange with
      scheduled := exchange.scheduled.eraseIdx index
      inFlight := exchange.inFlight ++ ((exchange.hosts.write platform wiring block).map
        fun text => (wiring.opposite block.connection, text)).toList } := by
  obtain ⟨text, wrote, moved⟩ := isText_write foreign sound.hosts
    (sound.scheduled block (List.mem_of_getElem? found))
  rw [wrote, Option.map_some, Option.toList_some]
  have same : ∀ kind connection id, travelling platform wiring { exchange with
      scheduled := exchange.scheduled.eraseIdx index
      inFlight := exchange.inFlight ++ [(wiring.opposite block.connection, text)] }
        kind connection id = travelling platform wiring exchange kind connection id := by
    intro kind connection id
    have taken := List.countP_taken (isBlock platform connection id kind) found
    simp only [travelling, List.countP_append, List.countP_singleton, moved] at taken ⊢
    omega
  exact ⟨fun connection id => by rw [same]; exact accounted.requests connection id,
    fun connection id => by rw [same]; exact accounted.answers connection id⟩

omit [DecidableEq ι] in
/-- A text that is lost is counted as lost. -/
theorem accounted_lose (accounted : Accounted platform wiring exchange) {index : Nat}
    {text : ε × String} (found : exchange.inFlight[index]? = some text) :
    Accounted platform wiring { exchange with
      inFlight := exchange.inFlight.eraseIdx index, lost := exchange.lost ++ [text] } := by
  have same : ∀ kind connection id, travelling platform wiring { exchange with
      inFlight := exchange.inFlight.eraseIdx index, lost := exchange.lost ++ [text] }
        kind connection id = travelling platform wiring exchange kind connection id := by
    intro kind connection id
    have taken := List.countP_taken
      (isText platform (wiring.opposite connection) id kind) found
    simp only [travelling, List.countP_append] at taken ⊢
    omega
  exact ⟨fun connection id => by rw [same]; exact accounted.requests connection id,
    fun connection id => by rw [same]; exact accounted.answers connection id⟩

/-- A request that arrives is in work, a response is recorded, and a notification is counted
nowhere. -/
theorem arrive_counts (wiring : Wiring ι ε) (foreign : Foreign platform.json.createId)
    (hosts : Hosts ι ε) (connection : ε) {text : String} {packet : Packet}
    {headers : OrderedHash String Json} (carried : Carried platform text packet headers)
    (other : ε) (id : String) :
    let arrived := (hosts.arrive platform wiring connection text).1
    inWork arrived other id =
        inWork hosts other id +
          [(connection, text)].countP (isText platform other id .request) ∧
      arrived.recorded.countP (isRecorded other id) =
        hosts.recorded.countP (isRecorded other id) +
          [(connection, text)].countP (isText platform other id .response) ∧
      arrived.asked = hosts.asked ∧ arrived.served = hosts.served := by
  intro arrived
  have labelled : ∀ kind, isText platform other id kind (connection, text) =
      decide (connection = other ∧ packet.kind = kind ∧ packet.id = .str id) := by
    intro kind
    simp [isText, carried.labelled foreign]
  simp only [List.countP_singleton, labelled]
  cases packet with
  | request number method args =>
    have queued : isQueued other id ⟨⟨⟨text, .hash
        ((Packet.request number method args).members headers)⟩, false,
          wiring.channel connection⟩, connection⟩ =
        decide (connection = other ∧ Json.str number = .str id) := by
      simp [isQueued, carried.idOf_members, Packet.id]
    simp only [arrived, arrive_request connection foreign hosts carried, inWork,
      List.countP_append, List.countP_singleton, queued, Packet.kind, Packet.id, true_and,
      reduceCtorEq, false_and, and_false, decide_false, Bool.false_eq_true, ↓reduceIte,
      Nat.add_zero, and_true]
    omega
  | notification method args =>
    have queued : isQueued other id ⟨⟨⟨text, .hash
        ((Packet.notification method args).members headers)⟩, true,
          wiring.channel connection⟩, connection⟩ = false := by
      simp [isQueued]
    simp only [arrived, arrive_notification connection foreign hosts carried, inWork,
      List.countP_append, List.countP_singleton, queued, Packet.kind, reduceCtorEq, false_and,
      and_false, decide_false, Bool.false_eq_true, ↓reduceIte, Nat.add_zero, and_self]
  | response number result =>
    have recorded : isRecorded other id ⟨(.str number, replyOf result), connection⟩ =
        decide (connection = other ∧ Json.str number = .str id) := by
      simp [isRecorded]
    simp only [arrived, arrive_response connection foreign hosts carried, inWork, Hosts.setNode,
      List.countP_append, List.countP_singleton, recorded, Packet.kind, Packet.id, true_and,
      reduceCtorEq, false_and, and_false, decide_false, Bool.false_eq_true, ↓reduceIte,
      Nat.add_zero, and_self]

/-- A text that arrives is no longer on its way. -/
theorem accounted_deliver (foreign : Foreign platform.json.createId)
    (sound : Sound platform wiring nodes exchange) (accounted : Accounted platform wiring exchange)
    {index : Nat} {connection : ε} {text : String}
    (found : exchange.inFlight[index]? = some (connection, text)) :
    Accounted platform wiring { exchange with
      hosts := (exchange.hosts.arrive platform wiring connection text).1
      inFlight := exchange.inFlight.eraseIdx index } := by
  obtain ⟨packet, headers, carried, _⟩ := sound.inFlight _ (List.mem_of_getElem? found)
  have counts := arrive_counts wiring foreign exchange.hosts connection carried
  refine ⟨fun other id => ?_, fun other id => ?_⟩
  · have before := accounted.requests other id
    obtain ⟨work, _, asked, served⟩ := counts (wiring.opposite other) id
    have taken := List.countP_taken
      (isText platform (wiring.opposite other) id .request) found
    simp only [travelling, work, asked, served] at before taken ⊢
    omega
  · have before := accounted.answers other id
    obtain ⟨_, records, _, served⟩ := counts (wiring.opposite other) id
    have taken := List.countP_taken
      (isText platform (wiring.opposite other) id .response) found
    simp only [travelling, records, served] at before taken ⊢
    omega

/-- A job that is finished is answered, or it was a notification. -/
theorem finish_counts (fit : Fit platform nodes) {hosts next : Hosts ι ε}
    (sound : HostsSound platform wiring nodes hosts) {index : Nat} {answer : Option (Outgoing ε)}
    (stepped : hosts.finish platform wiring index = some (next, answer)) (other : ε)
    (id : String) :
    inWork next other id + next.served.countP (isServed other id) =
        inWork hosts other id + hosts.served.countP (isServed other id) ∧
      next.served.countP (isServed other id) = hosts.served.countP (isServed other id) +
        answer.toList.countP (isBlock platform other id .response) ∧
      answer.toList.countP (isBlock platform other id .request) = 0 ∧
      next.asked = hosts.asked ∧ next.recorded = hosts.recorded := by
  cases found : hosts.running[index]? with
  | none => simp only [Hosts.finish, found, reduceCtorEq] at stepped
  | some running =>
    have begun := sound.running running (List.mem_of_getElem? found)
    obtain ⟨performed, returned, sends⟩ := running_dispatched fit sound begun
    have taken := List.countP_taken (isRunning other id) found
    cases answered : running.msgId with
    | none =>
      have none : isRunning other id running = false := by simp [isRunning, answered]
      rw [finish_silent found answered returned] at stepped
      cases stepped
      refine ⟨?_, rfl, rfl, rfl, rfl⟩
      simp only [inWork, Hosts.setNode, List.countP_singleton, none, Bool.false_eq_true,
        ↓reduceIte] at taken ⊢
      omega
    | some number =>
      have traced := begun
      obtain ⟨_, _, _, _, _, _, asked⟩ := traced
      obtain ⟨number, rfl, _⟩ := asked number answered
      obtain ⟨text, wrote, carried⟩ :=
        answer_carried fit.foreign running sends number
      have labelled := carried.labelled fit.foreign
      rw [finish_answer found answered returned wrote] at stepped
      cases stepped
      have served : isServed other id ⟨.str number,
          running.current (hosts.nodes (wiring.owner running.on)), performed.result,
          running.on⟩ = isRunning other id running := by
        simp [isServed, isRunning, answered]
      have response : isBlock platform other id .response (.text text running.on) =
          isRunning other id running := by
        simp [isBlock, isRunning, blockLabel, labelled, answered, Packet.kind, Packet.id,
          Outgoing.connection]
      have request : isBlock platform other id .request (.text text running.on) = false := by
        simp [isBlock, blockLabel, labelled, Packet.kind]
      simp only [inWork, Hosts.setNode, List.countP_append, List.countP_singleton, served,
        Option.toList_some, response, request, Bool.false_eq_true, ↓reduceIte] at taken ⊢
      refine ⟨?_, trivial, trivial, trivial, trivial⟩
      omega

/-- A step that sends nothing moves a request between the places of work, or changes no count. -/
theorem host_counts {hosts next : Hosts ι ε} (sound : HostsSound platform wiring nodes hosts)
    {action : HostAction ι} (stepped : hosts.step platform wiring action = some next) :
    (∀ other id, inWork next other id = inWork hosts other id) ∧
      next.asked = hosts.asked ∧ next.served = hosts.served ∧ next.recorded = hosts.recorded := by
  cases action with
  | begin index =>
    simp only [Hosts.step] at stepped
    cases found : hosts.jobs[index]? with
    | none => simp only [Hosts.begin, found, reduceCtorEq] at stepped
    | some queued =>
      obtain ⟨packet, text, headers, carried, kind, same, _, taken⟩ := begin_eq sound found
      rw [taken] at stepped
      cases stepped
      refine ⟨fun other id => ?_, rfl, rfl, rfl⟩
      have moved := List.countP_taken (isQueued other id) found
      have number := carried.idOf_members text
      simp only [idOf] at number
      have counted : isRunning other id ⟨⟨
          ((hosts.nodes (wiring.owner queued.on)).withHeaders packet.reserved
            (packet.members headers)).argsFor (packet.members headers)
              (wiring.channel queued.on),
          if packet.kind = .notification then none
          else some (((packet.members headers).get? "id").getD .null),
          (hosts.nodes (wiring.owner queued.on)).messageHeaders⟩, queued.on⟩ =
            isQueued other id queued := by
        simp only [isRunning, isQueued, same, carried.idOf_members, number]
        by_cases silent : packet.kind = .notification
        · simp [silent]
        · simp [silent]
      simp only [inWork, Hosts.setNode, List.countP_append, List.countP_singleton, counted]
        at moved ⊢
      omega
  | kill index =>
    obtain ⟨running, found, rfl⟩ := Option.map_eq_some_iff.mp stepped
    refine ⟨fun other id => ?_, rfl, rfl, rfl⟩
    have taken := List.countP_taken (isRunning other id) found
    simp only [inWork, List.countP_append] at taken ⊢
    omega
  | register node id =>
    simp only [Hosts.step, Hosts.register] at stepped
    split at stepped
    · cases stepped
      exact ⟨fun _ _ => rfl, rfl, rfl, rfl⟩
    · cases stepped
  | poll node id =>
    simp only [Hosts.step, Hosts.poll] at stepped
    split at stepped
    · cases stepped
      exact ⟨fun _ _ => rfl, rfl, rfl, rfl⟩
    · cases stepped
  | tick =>
    cases stepped
    exact ⟨fun _ _ => rfl, rfl, rfl, rfl⟩

omit [DecidableEq ι] [DecidableEq ε] in
/-- A callback's text is taken for a notification. -/
theorem callback_label (foreign : Foreign platform.json.createId) {hosts : Hosts ι ε}
    (sound : HostsSound platform wiring nodes hosts) {connection : ε} {method : String}
    {data : List Json} {block : Outgoing ε}
    (plain : (Json.arr data).plain platform.json.createId = true)
    (called : hosts.callback platform wiring connection method data = some block) :
    blockLabel platform block = some (.notification, .null) := by
  obtain ⟨text, wrote, rfl⟩ := Hosts.callback_some called
  have carried : Carried platform text (.notification method data)
      (hosts.nodes (wiring.owner connection)).headers :=
    ⟨(sound.kept (wiring.owner connection)).headers, plain, wrote⟩
  exact carried.labelled foreign

/-- Every step keeps the accounts. -/
theorem accounted_step (fit : Fit platform nodes) (sound : Sound platform wiring nodes exchange)
    (accounted : Accounted platform wiring exchange) {action : ExchangeAction ι ε}
    {next : Exchange ι ε} (plain : Plain platform.json.createId action)
    (stepped : (Exchange.machine platform wiring).step exchange action = some next) :
    Accounted platform wiring next := by
  cases action with
  | invoke connection id method args =>
    obtain ⟨⟨hosts, block⟩, called, rfl⟩ := Option.map_eq_some_iff.mp stepped
    exact accounted_invoke accounted called
  | notify connection method args =>
    cases stepped
    exact accounted_silent accounted rfl
  | callback connection method data =>
    simp only [Exchange.machine, Exchange.step] at stepped
    obtain ⟨block, called, rfl⟩ := Option.map_eq_some_iff.mp stepped
    exact accounted_silent accounted (callback_label fit.foreign sound.hosts plain called)
  | transmit index =>
    obtain ⟨block, found, rfl⟩ := Option.map_eq_some_iff.mp stepped
    exact accounted_transmit fit.foreign sound accounted found
  | deliver index =>
    obtain ⟨⟨connection, text⟩, found, rfl⟩ := Option.map_eq_some_iff.mp stepped
    exact accounted_deliver fit.foreign sound accounted found
  | lose index =>
    obtain ⟨text, found, rfl⟩ := Option.map_eq_some_iff.mp stepped
    exact accounted_lose accounted found
  | finish index =>
    obtain ⟨⟨hosts, answer⟩, done, rfl⟩ := Option.map_eq_some_iff.mp stepped
    have counts := finish_counts fit sound.hosts done
    refine ⟨fun other id => ?_, fun other id => ?_⟩
    · have before := accounted.requests other id
      obtain ⟨_, _, silent, _⟩ := counts other id
      obtain ⟨work, _, _, asked, _⟩ := counts (wiring.opposite other) id
      rw [travelling_append, silent, asked]
      dsimp only
      omega
    · have before := accounted.answers other id
      obtain ⟨_, served, _, _, recorded⟩ := counts other id
      rw [travelling_append, recorded]
      dsimp only
      omega
  | host action =>
    obtain ⟨hosts, moved, rfl⟩ := Option.map_eq_some_iff.mp stepped
    obtain ⟨work, asked, served, recorded⟩ := host_counts sound.hosts moved
    refine ⟨fun other id => ?_, fun other id => ?_⟩
    · have before := accounted.requests other id
      rw [asked, served, work]
      exact before
    · have before := accounted.answers other id
      rw [served, recorded]
      exact before

/-- After every run everything can be traced back and is accounted for. -/
theorem accounted_run (fit : Fit platform nodes) (actions : List (ExchangeAction ι ε))
    (final : Exchange ι ε) (plain : ∀ act ∈ actions, Plain platform.json.createId act)
    (ran : (Exchange.machine platform wiring).run (Exchange.initial nodes) actions = some final) :
    Sound platform wiring nodes final ∧ Accounted platform wiring final := by
  refine (Exchange.machine platform wiring).run_invariant_of
    (fun exchange => Sound platform wiring nodes exchange ∧ Accounted platform wiring exchange)
    (Plain platform.json.createId) ?_ actions _ final ⟨sound_initial fit, ?_⟩ plain ran
  · intro exchange action next holds allowed stepped
    exact ⟨sound_step fit exchange action next holds.1 allowed stepped,
      accounted_step fit holds.1 holds.2 allowed stepped⟩
  · exact ⟨fun _ _ => rfl, fun _ _ => rfl⟩

omit [DecidableEq ι] in
/-- A node has asked at most one call on an end under an id. -/
theorem asked_once {hosts : Hosts ι ε} (sound : HostsSound platform wiring nodes hosts)
    (connection : ε) (id : String) : hosts.asked.countP (isAsked connection id) ≤ 1 := by
  apply List.countP_le_one
  refine sound.unique.imp ?_
  rintro first second differ ⟨one, other⟩
  simp only [isAsked, decide_eq_true_eq] at one other
  exact differ ⟨by rw [one.1, other.1], by rw [one.2, other.2]⟩

/-- Nothing is on its way or in work, and nothing was lost or killed. -/
structure Settled (exchange : Exchange ι ε) : Prop where
  /-- Nothing waits to be sent. -/
  scheduled : exchange.scheduled = []
  /-- Nothing is on its way. -/
  inFlight : exchange.inFlight = []
  /-- Nothing was lost. -/
  lost : exchange.lost = []
  /-- No job is queued. -/
  jobs : exchange.hosts.jobs = []
  /-- No job is under way. -/
  running : exchange.hosts.running = []
  /-- No worker was killed. -/
  killed : exchange.hosts.killed = []

/-- How often a call was dispatched and answered, and how often its answer was recorded. -/
def Once (wiring : Wiring ι ε) (hosts : Hosts ι ε) (call : Asked ε) (times : Nat → Prop) : Prop :=
  times (hosts.served.countP (isServed (wiring.opposite call.on) call.id)) ∧
    times (hosts.recorded.countP (isRecorded call.on call.id))

omit [DecidableEq ι] in
/-- A call is answered and recorded at most once. -/
theorem at_most_once (sound : HostsSound platform wiring nodes exchange.hosts)
    (accounted : Accounted platform wiring exchange) (call : Asked ε) :
    Once wiring exchange.hosts call (· ≤ 1) := by
  have asked := asked_once sound call.on call.id
  have requests := accounted.requests call.on call.id
  have answers := accounted.answers (wiring.opposite call.on) call.id
  rw [wiring.involutive] at answers
  exact ⟨by omega, by omega⟩

omit [DecidableEq ι] in
/-- A call of which nothing is on its way, in work or lost was answered and recorded exactly
once. -/
theorem exactly_once_of (sound : HostsSound platform wiring nodes exchange.hosts)
    (accounted : Accounted platform wiring exchange) {call : Asked ε}
    (inside : call ∈ exchange.hosts.asked)
    (asking : travelling platform wiring exchange .request call.on call.id = 0)
    (answering : travelling platform wiring exchange .response (wiring.opposite call.on)
      call.id = 0)
    (working : inWork exchange.hosts (wiring.opposite call.on) call.id = 0) :
    Once wiring exchange.hosts call (· = 1) := by
  have most := asked_once sound call.on call.id
  have least : 0 < exchange.hosts.asked.countP (isAsked call.on call.id) :=
    List.countP_pos_iff.mpr ⟨call, inside, by simp [isAsked]⟩
  have requests := accounted.requests call.on call.id
  have answers := accounted.answers (wiring.opposite call.on) call.id
  rw [wiring.involutive] at answers
  exact ⟨by omega, by omega⟩

omit [DecidableEq ι] in
/-- Once an exchange has settled, every call was answered and recorded exactly once. -/
theorem exactly_once (sound : HostsSound platform wiring nodes exchange.hosts)
    (accounted : Accounted platform wiring exchange) (settled : Settled exchange)
    {call : Asked ε} (inside : call ∈ exchange.hosts.asked) :
    Once wiring exchange.hosts call (· = 1) := by
  refine exactly_once_of sound accounted inside ?_ ?_ ?_
  · simp only [travelling, settled.scheduled, settled.inFlight, settled.lost, List.countP_nil]
  · simp only [travelling, settled.scheduled, settled.inFlight, settled.lost, List.countP_nil]
  · simp only [inWork, settled.jobs, settled.running, settled.killed, List.countP_nil]

end Counting

/-! ## Nodes that echo -/

/-- A node with one handler, which returns its arguments. -/
def echoNode : Node :=
  Node.new { dispatcher := some { Dispatcher.new false with
    handlers := ⟨[(.name "echo", .ofBody fun _ args => .ok (.arr args))], by simp⟩ } }

/-- Nodes that echo are fit for exchanges. -/
theorem fit_echo : Fit JsonText.platform (fun _ : ι => echoNode) where
  foreign := foreign_jsonClass
  headers _ := ⟨nofun, nofun⟩
  handlers _ := by
    refine ⟨fun entry inside request args value plain returned => ?_,
      fun entry inside request args _ free => ?_⟩
    · rw [List.mem_singleton.mp inside] at returned
      cases returned
      exact plain
    · rw [List.mem_singleton.mp inside]
      exact free
  fresh _ := rfl

/-- Two nodes with one connection between them, each end owned by one of them. -/
def pair : Wiring Bool Bool where
  owner connection := connection
  opposite connection := !connection
  channel connection := ⟨connection.toNat, none⟩
  involutive := Bool.not_not

end Rjr.Verif.Agreement
