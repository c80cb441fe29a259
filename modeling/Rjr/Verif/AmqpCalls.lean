import Rjr.Nodes.AMQP
import Rjr.Verif.Carriers

/-!
# Calls over a broker

AMQP nodes carry whole texts: what waits to be published is in a block for the reactor, in a block
that waits for a connection, or with a thread that calls `send_msg`, and what is on its way is in
a queue. A message the broker drops is a text that is lost. So calls over a broker agree with
their answers, and each is answered at most once, whatever connections open and close.
-/

namespace Rjr.Verif.AmqpCalls

open Messages Node Nodes Packets Provenance Agreement Carriers

variable {ι : Type}

/-! ## The exchange that the broker stands for -/

/-- What a block will send. -/
def outgoing : Block ι → Option (Outgoing Metadata)
  | .listen _ => none
  | .send message => some message

/-- Everything that waits to be published. -/
def pending (amqp : AMQP ι) : List (Outgoing Metadata) :=
  amqp.texts ++ (amqp.scheduled.filterMap outgoing ++
    amqp.connecting.filterMap fun attempt => outgoing attempt.2)

/-- The end a message arrives at, with its text. -/
def arrival (message : Published) : Metadata × String :=
  (⟨message.replyTo, message.queue⟩, message.text)

/-- The message of a text that is on its way. -/
def messageOf (text : Metadata × String) : Published := ⟨text.1.replyTo, text.1.routingKey, text.2⟩

/-- The exchange, while a step holds what it is about to publish. -/
def holding (held : Option (Outgoing Metadata)) (amqp : AMQP ι) : Exchange ι Metadata :=
  ⟨amqp.hosts, held.toList ++ pending amqp, amqp.messages.map arrival, amqp.dropped⟩

/-- The exchange. -/
def view (amqp : AMQP ι) : Exchange ι Metadata := holding none amqp

/-- The arguments of calls can be sent. -/
def PlainArgs (createId : String) : AMQPAction ι → Prop
  | .invoke _ _ _ _ args => (Json.arr args).plain createId = true
  | .notify _ _ _ args => (Json.arr args).plain createId = true
  | .callback _ _ _ data => (Json.arr data).plain createId = true
  | _ => True

section Places

variable {amqp : AMQP ι} {index : Nat}

/-- A block that is taken from the reactor's is held. -/
theorem reordered_scheduled {block : Block ι} (found : amqp.scheduled[index]? = some block) :
    Reordered (view amqp)
      (holding (outgoing block) { amqp with scheduled := amqp.scheduled.eraseIdx index }) := by
  have taken := List.filterMap_taken outgoing found
  refine ⟨rfl, ?_, .refl _, .refl _⟩
  simp only [view, holding, pending, Option.toList_none, List.nil_append]
  refine ((taken.append_right _).append_left _).trans ?_
  rw [List.append_assoc]
  exact List.perm_append_comm_assoc _ _ _

/-- So is a block that waited for a connection. -/
theorem reordered_connecting {attempt : Nat × Block ι}
    (found : amqp.connecting[index]? = some attempt) :
    Reordered (view amqp) (holding (outgoing attempt.2)
      { amqp with connecting := amqp.connecting.eraseIdx index }) := by
  have taken := List.filterMap_taken (fun other : Nat × Block ι => outgoing other.2) found
  refine ⟨rfl, ?_, .refl _, .refl _⟩
  simp only [view, holding, pending, Option.toList_none, List.nil_append]
  refine ((taken.append_left _).append_left _).trans ?_
  exact ((List.perm_append_comm_assoc _ _ _).append_left _).trans
    (List.perm_append_comm_assoc _ _ _)

/-- So is a text that a thread gave to `send_msg`. -/
theorem reordered_texts {message : Outgoing Metadata}
    (found : amqp.texts[index]? = some message) :
    Reordered (view amqp)
      (holding (some message) { amqp with texts := amqp.texts.eraseIdx index }) :=
  ⟨rfl, (List.perm_taken found).append_right _, .refl _, .refl _⟩

/-- One more block for the reactor. -/
theorem pending_block (amqp : AMQP ι) (block : Outgoing Metadata) :
    (pending amqp ++ [block]).Perm
      (pending { amqp with scheduled := amqp.scheduled ++ [.send block] }) := by
  simp only [pending, List.filterMap_append, List.append_assoc]
  exact (List.perm_append_comm.append_left _).append_left _

/-- More texts for `send_msg`. -/
theorem pending_text (amqp : AMQP ι) (texts : List (Outgoing Metadata)) :
    (pending amqp ++ texts).Perm (pending { amqp with texts := amqp.texts ++ texts }) := by
  simp only [pending, List.append_assoc]
  rw [← List.append_assoc (amqp.scheduled.filterMap outgoing)]
  exact List.perm_append_comm.append_left _

/-- The messages that are kept when a connection closes are those whose texts are. -/
theorem filter_arrivals (kept : Published → Bool) (messages : List Published) :
    (messages.map arrival).filter (fun text => kept (messageOf text)) =
      (messages.filter kept).map arrival := by
  rw [List.filter_map]
  rfl

end Places

section Refinement

variable [DecidableEq ι] {platform : Platform} {nodes : ι → Node} {directory : Directory nodes}
  {channel : Metadata → Channel} {amqp next : AMQP ι}

variable (platform directory channel) in
/-- What an exchange does while the broker gets to a state. -/
def Carried (exchange : Exchange ι Metadata) (next : AMQP ι) : Prop :=
  (Exchange.machine platform (directory.wiring channel)).Reaches (Plain platform.json.createId)
    exchange (Reordered · (view next))

/-- A message that is held may be dropped. -/
theorem carried_drop (amqp : AMQP ι) (message : Outgoing Metadata) :
    Carried platform directory channel (holding (some message) amqp)
      (amqp.drop platform directory channel message) :=
  loses (.refl _)

/-- A message that is held is published, or dropped by the broker. -/
theorem carried_publish (amqp : AMQP ι) (message : Outgoing Metadata) :
    Carried platform directory channel (holding (some message) amqp)
      (amqp.publish platform directory channel message) := by
  rw [AMQP.publish]
  split
  · refine (sends _ (.refl _)).trans fun after reached => Machine.reaches_here ?_
    refine reached.trans ⟨rfl, .refl _, ?_, .refl _⟩
    simp only [view, holding, List.map_append]
    cases amqp.hosts.write platform (directory.wiring channel) message <;> exact .refl _
  · exact carried_drop amqp message

/-- Subscribing publishes nothing. -/
theorem holding_subscribe (held : Option (Outgoing Metadata)) (amqp : AMQP ι) (node : ι) :
    holding held (amqp.subscribe node) = holding held amqp := by
  rw [AMQP.subscribe]
  split <;> rfl

/-- The block that runs publishes what it holds. -/
theorem carried_perform (amqp : AMQP ι) (block : Block ι) :
    Carried platform directory channel (holding (outgoing block) amqp)
      (amqp.perform platform directory channel block) := by
  cases block with
  | listen node =>
    refine Machine.reaches_here ?_
    rw [AMQP.perform, view, holding_subscribe]
    exact reordered_refl _
  | send message =>
    cases message with
    | request message connection =>
      rw [outgoing, ← holding_subscribe _ amqp (directory.reader connection.replyTo)]
      exact carried_publish _ _
    | notification message connection => exact carried_publish amqp _
    | text data connection => exact carried_publish amqp _

/-- `init_node` runs the block, or keeps it for the connection it starts. -/
theorem carried_initNode (amqp : AMQP ι) (block : Block ι) :
    Carried platform directory channel (holding (outgoing block) amqp)
      (amqp.initNode platform directory channel block) := by
  simp only [AMQP.initNode]
  split
  · exact carried_perform amqp block
  · refine Machine.reaches_here ⟨rfl, ?_, .refl _, .refl _⟩
    have single : [(amqp.attempts, block)].filterMap (fun attempt => outgoing attempt.2) =
        (outgoing block).toList := by
      cases given : outgoing block <;> simp [given]
    simp only [view, holding, pending, List.filterMap_append, Option.toList_none, List.nil_append,
      ← List.append_assoc, single]
    simp only [List.append_assoc]
    refine List.perm_append_comm.trans ?_
    simp only [List.append_assoc]
    exact .refl _

/-- A connection that opens runs its block. -/
theorem carried_onOpen (amqp : AMQP ι) (number : Nat) (block : Block ι) :
    Carried platform directory channel (holding (outgoing block) amqp)
      (amqp.onOpen platform directory channel number block) := by
  have performed : ∀ other : AMQP ι,
      holding (outgoing block) other = holding (outgoing block) amqp →
        Carried platform directory channel (holding (outgoing block) amqp)
          (other.perform platform directory channel block) := by
    intro other same
    rw [← same]
    exact carried_perform other block
  exact performed _ rfl

/-- A block that will not run drops what it holds. -/
theorem carried_forget (amqp : AMQP ι) (block : Block ι) :
    Carried platform directory channel (holding (outgoing block) amqp)
      (amqp.forget platform directory channel block) := by
  cases block with
  | listen node => exact Machine.reaches_here (reordered_refl _)
  | send message => exact carried_drop amqp message

/-- A connection that closes loses messages. -/
theorem carried_close (amqp : AMQP ι) (number : Nat) (pushed : Published → Bool) :
    Carried platform directory channel (view amqp) (amqp.close nodes number pushed) := by
  obtain ⟨kept, messages, dropped⟩ : ∃ kept, (amqp.close nodes number pushed).messages =
      amqp.messages.filter kept ∧ (amqp.close nodes number pushed).dropped =
        amqp.dropped ++ (amqp.messages.filter fun message => !kept message).map arrival :=
    ⟨_, rfl, rfl⟩
  refine (lose_where platform _ (fun text => !kept (messageOf text)) (view amqp)).trans ?_
  intro after lost
  refine Machine.reaches_here ⟨lost.hosts, ?_, ?_, ?_⟩
  · rw [lost.scheduled]
    exact .refl _
  · simp only [lost.inFlight, Bool.not_not, view, holding, messages, ← filter_arrivals]
    exact .refl _
  · simp only [lost.lost, view, holding, dropped, ← filter_arrivals]
    exact .refl _

/-- Every step of the nodes and the broker is a run of the exchange. -/
theorem carried_step {action : AMQPAction ι} (plain : PlainArgs platform.json.createId action)
    (stepped : (AMQP.machine platform directory channel).step amqp action = some next) :
    Carried platform directory channel (view amqp) next := by
  cases action with
  | invoke node routingKey id method args =>
    obtain ⟨⟨hosts, block⟩, called, rfl⟩ := Option.map_eq_some_iff.mp stepped
    exact Machine.reaches_step (Exchange.step_invoke called) plain
      ⟨rfl, pending_block amqp block, .refl _, .refl _⟩
  | notify node routingKey method args =>
    cases stepped
    exact Machine.reaches_step (Exchange.step_notify (view amqp)
      ⟨routingKey, queueName (nodes node)⟩ method args) plain
      ⟨rfl, pending_block amqp _, .refl _, .refl _⟩
  | callback node routingKey method data =>
    simp only [AMQP.machine, AMQP.step] at stepped
    obtain ⟨block, called, rfl⟩ := Option.map_eq_some_iff.mp stepped
    exact Machine.reaches_step (Exchange.step_callback called) plain
      ⟨rfl, pending_text amqp [block], .refl _, .refl _⟩
  | listen node =>
    cases stepped
    have nothing : [Block.listen node].filterMap outgoing = [] := rfl
    refine Machine.reaches_here ⟨rfl, ?_, .refl _, .refl _⟩
    simp only [view, holding, pending, List.filterMap_append, nothing, List.append_nil]
    exact .refl _
  | run index =>
    obtain ⟨block, found, rfl⟩ := Option.map_eq_some_iff.mp stepped
    exact (reordered_scheduled found).carries (carried_initNode _ block)
  | opened index =>
    obtain ⟨⟨number, block⟩, found, rfl⟩ := Option.map_eq_some_iff.mp stepped
    exact (reordered_connecting found).carries (carried_onOpen _ number block)
  | failed index =>
    obtain ⟨⟨number, block⟩, found, rfl⟩ := Option.map_eq_some_iff.mp stepped
    exact (reordered_connecting found).carries (carried_forget _ block)
  | closed number pushed =>
    simp only [AMQP.machine, AMQP.step] at stepped
    split at stepped
    · cases stepped
      exact carried_close amqp number pushed
    · cases stepped
  | sendMsg index =>
    obtain ⟨message, found, rfl⟩ := Option.map_eq_some_iff.mp stepped
    exact (reordered_texts found).carries (carried_publish _ message)
  | deliver index consumer =>
    simp only [AMQP.machine, AMQP.step] at stepped
    split at stepped
    · rename_i message number node found subscribed
      split at stepped
      · rename_i own
        cases stepped
        rw [own]
        have travels := (List.perm_taken found).map arrival
        exact receives _ travels
      · cases stepped
    · cases stepped
  | finish index =>
    obtain ⟨⟨hosts, answer⟩, done, rfl⟩ := Option.map_eq_some_iff.mp stepped
    exact Machine.reaches_step (Exchange.step_finish done) trivial
      ⟨rfl, pending_text amqp answer.toList, .refl _, .refl _⟩
  | host action =>
    obtain ⟨hosts, moved, rfl⟩ := Option.map_eq_some_iff.mp stepped
    exact Machine.reaches_step (Exchange.step_host moved) trivial (reordered_refl _)

variable (platform directory channel) in
/-- AMQP nodes and their broker carry whole texts. -/
def carrier : Carrier platform (directory.wiring channel) nodes
    (AMQP.machine platform directory channel) (PlainArgs platform.json.createId) where
  initial := AMQP.initial nodes
  view := view
  begins := rfl
  carries _ _ _ _ plain stepped := carried_step plain stepped

/-! ## Calls -/

/-- A call over the broker that returns does so with what the handlers of the node that reads the
queue made of its method and arguments, whatever connections were opened, lost or opened again
and however many subscriptions its node has. -/
theorem amqp_calls_agree (fit : Fit platform nodes) (actions : List (AMQPAction ι))
    (final : AMQP ι) (plain : ∀ act ∈ actions, PlainArgs platform.json.createId act)
    (ran : (AMQP.machine platform directory channel).run (AMQP.initial nodes) actions =
      some final)
    (node : ι) (id : String) (response : Json × Reply)
    (returned : final.hosts.phase node id = .returned response) :
    Agrees platform (directory.wiring channel) nodes final.hosts node id response :=
  (carrier platform directory channel).agrees fit plain ran returned

/-- Every call over the broker is dispatched at most once and its answer is recorded at most
once. -/
theorem amqp_calls_once (fit : Fit platform nodes) (actions : List (AMQPAction ι))
    (final : AMQP ι) (plain : ∀ act ∈ actions, PlainArgs platform.json.createId act)
    (ran : (AMQP.machine platform directory channel).run (AMQP.initial nodes) actions =
      some final) (call : Asked Metadata) :
    Once (directory.wiring channel) final.hosts call (· ≤ 1) :=
  (carrier platform directory channel).once fit plain ran call

end Refinement

/-! ## A client and a server -/

/-- Two nodes that echo, with ids of their own. -/
def brokered (server : Bool) : Node :=
  { echoNode with nodeId := some (if server then "server" else "client") }

/-- They are fit for exchanges. -/
theorem fit_brokered : Fit JsonText.platform brokered where
  foreign := EchoedHeaders.foreign_jsonClass
  headers _ := fit_echo.headers true
  handlers _ := fit_echo.handlers true
  fresh _ := rfl

/-- Which of them reads from a queue. -/
def readers : Directory brokered where
  reader name := name == "server-queue"
  known server := by cases server <;> decide

/-- All metadata are the same to `client_for`. -/
def anonymous (_ : Metadata) : Channel := ⟨0, none⟩

/-- The client calls the server twice before its first connection is open, so that it connects and
subscribes twice. -/
def brokeredCalls : List (AMQPAction Bool) :=
  [.listen true, .run 0, .opened 0, .invoke false "server-queue" "7" "echo" [.int 1],
    .invoke false "server-queue" "8" "echo" [.int 2], .run 0, .run 0, .opened 0, .opened 0,
    .deliver 0 0, .deliver 0 0, .host (.begin 1), .host (.begin 0), .finish 0, .finish 0,
    .sendMsg 0, .sendMsg 0, .deliver 0 1, .deliver 0 2, .host (.register false "7"),
    .host (.register false "8"), .host (.poll false "7"), .host (.poll false "8")]

/-- Their arguments can be sent. -/
theorem brokeredCalls_plain :
    ∀ act ∈ brokeredCalls, PlainArgs JsonText.platform.json.createId act := by
  intro act inside
  simp only [brokeredCalls, List.mem_cons, List.not_mem_nil, or_false] at inside
  rcases inside with rfl | rfl | rfl | rfl | rfl | rfl | rfl | rfl | rfl | rfl | rfl | rfl |
    rfl | rfl | rfl | rfl | rfl | rfl | rfl | rfl | rfl | rfl | rfl <;>
      first | exact trivial | rfl

/-- What can be seen of them: the calls, how they returned, and whether anything is left to
publish or deliver. -/
def observed (amqp : AMQP Bool) :
    List (Asked Metadata) × Phase Json Reply × Phase Json Reply × Bool × Bool :=
  (amqp.hosts.asked, amqp.hosts.phase false "7", amqp.hosts.phase false "8", amqp.texts.isEmpty,
    amqp.messages.isEmpty)

/-- Both calls. -/
def bothAsked : List (Asked Metadata) :=
  [⟨"7", "echo", [.int 1], ⟨"server-queue", "client-queue"⟩⟩,
    ⟨"8", "echo", [.int 2], ⟨"server-queue", "client-queue"⟩⟩]

/-- Both calls run to their ends, each with its own argument echoed. -/
theorem brokeredCalls_run : ∃ final : AMQP Bool,
    (AMQP.machine JsonText.platform readers anonymous).run (AMQP.initial brokered)
        brokeredCalls = some final ∧
      final.hosts.asked = bothAsked ∧
      final.hosts.phase false "7" = .returned (.str "7", ⟨.arr [.int 1], none⟩) ∧
      final.hosts.phase false "8" = .returned (.str "8", ⟨.arr [.int 2], none⟩) ∧
      final.texts = [] ∧ final.messages = [] := by
  have evaluated : ((AMQP.machine JsonText.platform readers anonymous).run
      (AMQP.initial brokered) brokeredCalls).map observed =
        some (bothAsked, .returned (.str "7", ⟨.arr [.int 1], none⟩),
          .returned (.str "8", ⟨.arr [.int 2], none⟩), true, true) := by
    decide +kernel
  obtain ⟨final, ran, seen⟩ := Option.map_eq_some_iff.mp evaluated
  simp only [observed, Prod.mk.injEq, List.isEmpty_iff] at seen
  exact ⟨final, ran, seen⟩

/-- The second call agrees with its answer. -/
theorem brokered_calls_agree : ∃ final : AMQP Bool,
    final.hosts.phase false "8" = .returned (.str "8", ⟨.arr [.int 2], none⟩) ∧
      Agrees JsonText.platform (readers.wiring anonymous) brokered final.hosts false "8"
        (.str "8", ⟨.arr [.int 2], none⟩) := by
  obtain ⟨final, ran, _, _, returned, _⟩ := brokeredCalls_run
  exact ⟨final, returned, amqp_calls_agree fit_brokered brokeredCalls final brokeredCalls_plain
    ran false "8" _ returned⟩

/-- It is answered at most once. -/
theorem brokered_calls_once : ∃ final : AMQP Bool, final.hosts.asked = bothAsked ∧
    Once (readers.wiring anonymous) final.hosts
      ⟨"8", "echo", [.int 2], ⟨"server-queue", "client-queue"⟩⟩ (· ≤ 1) := by
  obtain ⟨final, ran, asked, _⟩ := brokeredCalls_run
  exact ⟨final, asked, amqp_calls_once fit_brokered brokeredCalls final brokeredCalls_plain ran
    _⟩

end Rjr.Verif.AmqpCalls
