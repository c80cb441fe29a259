import Rjr.Verif.AmqpCalls
import Rjr.Verif.JobEnds

/-!
# No answer is dropped while connections stay open

A node publishes a request only on a connection that is open, after its own queue was declared
there. The node that handles the request has read it from its own queue, so it can publish, and
the queue its answer goes to exists. Without a connection that closes all this stays so, and the
broker drops no answer: every call that was dispatched has its answer recorded once the queues are
empty. What may be dropped is a request to a queue that nobody has declared.
-/

namespace Rjr.Verif.AmqpAnswers

open Messages Node Nodes Packets Provenance Agreement Carriers AmqpCalls JobEnds

variable {ι : Type} [DecidableEq ι] {platform : Platform} {nodes : ι → Node}

/-! ## What stays so -/

/-- A node has its channel, queue and exchange. -/
def Ready (amqp : AMQP ι) (node : ι) : Prop := (amqp.sessions node).channel ≠ none

/-- The blocks of the reactor, and those that wait for a connection. -/
def waitingBlocks (amqp : AMQP ι) : List (Outgoing Metadata) :=
  amqp.scheduled.filterMap outgoing ++ amqp.connecting.filterMap fun attempt => outgoing attempt.2

variable (platform) in
/-- A response. -/
def IsAnswer (message : Outgoing Metadata) : Prop :=
  (blockLabel platform message).map Prod.fst = some .response

section Places

variable (platform) (directory : Directory nodes) (amqp : AMQP ι)

/-- Metadata of a node that gives its own queue to reply to. -/
def Own (metadata : Metadata) : Prop :=
  metadata.replyTo = queueName (nodes (directory.reader metadata.replyTo))

/-- Metadata on which an answer arrives: its queue exists, and the node that answers is ready. -/
def Answerable (metadata : Metadata) : Prop :=
  Own directory metadata ∧ metadata.routingKey ∈ amqp.queues ∧
    Ready amqp (directory.reader metadata.replyTo)

/-- A message that waits to be published; if it is an answer, it will arrive. -/
def Sendable (message : Outgoing Metadata) : Prop :=
  Own directory message.connection ∧
    (IsAnswer platform message → Answerable directory amqp message.connection)

/-- Nothing that is needed for an answer has been lost. -/
structure Healthy : Prop where
  /-- The channel of a node is on an open connection. -/
  opened : ∀ node number, (amqp.sessions node).channel = some number →
    amqp.up.contains number = true
  /-- The queue of a node that is ready exists. -/
  declared : ∀ node, Ready amqp node → queueName (nodes node) ∈ amqp.queues
  /-- A node that reads is ready. -/
  consumers : ∀ consumer ∈ amqp.consumers, Ready amqp consumer.2
  /-- The queue to reply to exists. -/
  messages : ∀ message ∈ amqp.messages, message.replyTo ∈ amqp.queues
  /-- Jobs can be answered. -/
  jobs : ∀ queued ∈ amqp.hosts.jobs, Answerable directory amqp queued.on
  /-- So can jobs that were begun. -/
  running : ∀ running ∈ amqp.hosts.running, Answerable directory amqp running.on
  /-- Answers that wait to be published will arrive. -/
  sendable : ∀ message ∈ pending amqp, Sendable platform directory amqp message
  /-- No block sends an answer. -/
  blocks : ∀ message ∈ waitingBlocks amqp, ¬ IsAnswer platform message
  /-- No answer was dropped. -/
  dropped : ∀ text ∈ amqp.dropped, (label platform text.2).map Prod.fst ≠ some .response

end Places

variable {directory : Directory nodes} {channel : Metadata → Channel} {amqp next : AMQP ι}

/-- Queues and channels are only added. -/
structure Grows (before after : AMQP ι) : Prop where
  /-- Queues stay. -/
  queues : ∀ queue ∈ before.queues, queue ∈ after.queues
  /-- Channels stay, or are replaced. -/
  ready : ∀ node, Ready before node → Ready after node

omit [DecidableEq ι] in
/-- What can be answered can be answered later. -/
theorem Answerable.mono {metadata : Metadata} (answerable : Answerable directory amqp metadata)
    (grows : Grows amqp next) : Answerable directory next metadata :=
  ⟨answerable.1, grows.queues _ answerable.2.1, grows.ready _ answerable.2.2⟩

omit [DecidableEq ι] in
/-- What can be sent can be sent later. -/
theorem Sendable.mono {message : Outgoing Metadata}
    (sendable : Sendable platform directory amqp message) (grows : Grows amqp next) :
    Sendable platform directory next message :=
  ⟨sendable.1, fun answer => (sendable.2 answer).mono grows⟩

omit [DecidableEq ι] in
/-- A node that is ready can publish. -/
theorem Healthy.usable (healthy : Healthy platform directory amqp) {node : ι}
    (ready : Ready amqp node) : amqp.usable node = true := by
  cases found : (amqp.sessions node).channel with
  | none => exact absurd found ready
  | some number => simp only [AMQP.usable, found, healthy.opened node number found]

omit [DecidableEq ι] in
/-- A node that can publish is ready. -/
theorem ready_of_usable {node : ι} (usable : amqp.usable node = true) : Ready amqp node := by
  intro absent
  simp only [AMQP.usable, absent, Bool.false_eq_true] at usable

/-- A message is about to be published: it can be sent, and will be taken for what it is. -/
structure Held (channel : Metadata → Channel) (platform : Platform) (directory : Directory nodes)
    (amqp : AMQP ι) (message : Outgoing Metadata) : Prop where
  /-- It can be sent. -/
  sendable : Sendable platform directory amqp message
  /-- Its text is taken for what it is. -/
  labelled : ∀ text, amqp.hosts.write platform (directory.wiring channel) message = some text →
    label platform text = blockLabel platform message

omit [DecidableEq ι] in
/-- What is about to be published still is, for the same nodes. -/
theorem Held.mono {message : Outgoing Metadata}
    (held : Held channel platform directory amqp message) (grows : Grows amqp next)
    (hosts : next.hosts = amqp.hosts) : Held channel platform directory next message := by
  refine ⟨held.sendable.mono grows, ?_⟩
  rw [hosts]
  exact held.labelled

/-! ## Publishing -/

omit [DecidableEq ι] in
/-- A request or notification may be dropped. -/
theorem healthy_drop (healthy : Healthy platform directory amqp) {message : Outgoing Metadata}
    (held : Held channel platform directory amqp message) (other : ¬ IsAnswer platform message) :
    Healthy platform directory (amqp.drop platform directory channel message) := by
  refine { healthy with dropped := fun text inside => ?_ }
  rcases List.mem_append.mp inside with before | last
  · exact healthy.dropped text before
  · obtain ⟨sent, wrote, rfl⟩ := Option.map_eq_some_iff.mp (Option.mem_toList.mp last)
    rw [held.labelled sent wrote]
    exact other

omit [DecidableEq ι] in
/-- What is published can be answered, and an answer is not dropped. -/
theorem healthy_publish (healthy : Healthy platform directory amqp)
    {message : Outgoing Metadata} (held : Held channel platform directory amqp message) :
    Healthy platform directory (amqp.publish platform directory channel message) := by
  obtain ⟨own, answer⟩ := held.sendable
  rw [AMQP.publish]
  split
  · rename_i passes
    obtain ⟨usable, _⟩ := Bool.and_eq_true_iff.mp passes
    refine { healthy with messages := fun other inside => ?_ }
    rcases List.mem_append.mp inside with before | last
    · exact healthy.messages other before
    · obtain ⟨text, _, rfl⟩ := Option.map_eq_some_iff.mp (Option.mem_toList.mp last)
      have declared := healthy.declared _ (ready_of_usable usable)
      rw [← show _ = _ from own] at declared
      exact declared
  · rename_i stops
    refine healthy_drop healthy held fun isAnswer => stops ?_
    obtain ⟨_, queue, ready⟩ := answer isAnswer
    exact Bool.and_eq_true_iff.mpr ⟨healthy.usable ready, List.contains_iff_mem.mpr queue⟩

/-- Subscribing replaces no channel. -/
theorem channel_subscribe (amqp : AMQP ι) (node other : ι) :
    ((amqp.subscribe node).sessions other).channel = (amqp.sessions other).channel := by
  rw [AMQP.subscribe]
  split
  · rfl
  · by_cases own : other = node
    · subst own
      simp only [Function.update_self]
    · simp only [Function.update_of_ne own]

/-- Subscribing takes nothing away. -/
theorem grows_subscribe (amqp : AMQP ι) (node : ι) : Grows amqp (amqp.subscribe node) := by
  constructor
  · intro queue inside
    rw [AMQP.subscribe]
    split <;> exact inside
  · intro other ready
    rw [Ready, channel_subscribe]
    exact ready

omit [DecidableEq ι] in
/-- A state that only grew is as healthy, with the same jobs, messages and blocks. -/
theorem Healthy.grown (healthy : Healthy platform directory amqp) (grows : Grows amqp next)
    (opened : ∀ node number, (next.sessions node).channel = some number →
      next.up.contains number = true)
    (declared : ∀ node, Ready next node → queueName (nodes node) ∈ next.queues)
    (consumers : ∀ consumer ∈ next.consumers, Ready next consumer.2)
    (messages : next.messages = amqp.messages) (hosts : next.hosts = amqp.hosts)
    (texts : next.texts = amqp.texts) (same : waitingBlocks next = waitingBlocks amqp)
    (dropped : next.dropped = amqp.dropped) : Healthy platform directory next where
  opened := opened
  declared := declared
  consumers := consumers
  messages message inside := by
    rw [messages] at inside
    exact grows.queues _ (healthy.messages message inside)
  jobs queued inside := by
    rw [hosts] at inside
    exact (healthy.jobs queued inside).mono grows
  running running inside := by
    rw [hosts] at inside
    exact (healthy.running running inside).mono grows
  sendable message inside := by
    have places : pending next = pending amqp := by
      change next.texts ++ waitingBlocks next = amqp.texts ++ waitingBlocks amqp
      rw [texts, same]
    rw [places] at inside
    exact (healthy.sendable message inside).mono grows
  blocks := by
    rw [same]
    exact healthy.blocks
  dropped := by
    rw [dropped]
    exact healthy.dropped

/-- Subscribing keeps a state healthy. -/
theorem healthy_subscribe (healthy : Healthy platform directory amqp) (node : ι) :
    Healthy platform directory (amqp.subscribe node) := by
  have grows := grows_subscribe amqp node
  have channels := channel_subscribe amqp node
  have parts : (amqp.subscribe node).up = amqp.up ∧ (amqp.subscribe node).queues = amqp.queues ∧
      (amqp.subscribe node).messages = amqp.messages ∧
      (amqp.subscribe node).hosts = amqp.hosts ∧ (amqp.subscribe node).texts = amqp.texts ∧
      waitingBlocks (amqp.subscribe node) = waitingBlocks amqp ∧
      (amqp.subscribe node).dropped = amqp.dropped := by
    rw [AMQP.subscribe]
    split <;> exact ⟨rfl, rfl, rfl, rfl, rfl, rfl, rfl⟩
  obtain ⟨up, queues, messages, hosts, texts, same, dropped⟩ := parts
  refine healthy.grown grows ?_ ?_ ?_ messages hosts texts same dropped
  · intro other number found
    rw [channels] at found
    rw [up]
    exact healthy.opened other number found
  · intro other ready
    rw [Ready, channels] at ready
    rw [queues]
    exact healthy.declared other ready
  · intro consumer inside
    rw [AMQP.subscribe] at inside
    split at inside
    · exact grows.ready _ (healthy.consumers consumer inside)
    · rcases List.mem_append.mp inside with before | new
      · exact grows.ready _ (healthy.consumers consumer before)
      · -- a subscription is added only where there is a channel
        split at new
        · rename_i usable
          obtain ⟨number, _, rfl⟩ := List.mem_map.mp new
          exact grows.ready _ (ready_of_usable usable)
        · cases new

/-- A block that runs keeps a state healthy. -/
theorem healthy_perform (healthy : Healthy platform directory amqp) {block : Block ι}
    (held : ∀ message, outgoing block = some message →
      Held channel platform directory amqp message) :
    Healthy platform directory (amqp.perform platform directory channel block) := by
  cases block with
  | listen node => exact healthy_subscribe healthy node
  | send message =>
    have own := held message rfl
    cases message with
    | request message connection =>
      have hosts : (amqp.subscribe (directory.reader connection.replyTo)).hosts = amqp.hosts := by
        rw [AMQP.subscribe]
        split <;> rfl
      exact healthy_publish (healthy_subscribe healthy _)
        (own.mono (grows_subscribe amqp _) hosts)
    | notification message connection => exact healthy_publish healthy own
    | text data connection => exact healthy_publish healthy own

/-! ## What waits -/

omit [DecidableEq ι] in
/-- More may wait to be published, with no answer among the blocks. -/
theorem Healthy.more (healthy : Healthy platform directory amqp)
    (same : next = { amqp with
      texts := next.texts, scheduled := next.scheduled, connecting := next.connecting })
    (texts : ∀ message ∈ next.texts, message ∈ amqp.texts ∨
      Sendable platform directory amqp message)
    (blocks : ∀ message ∈ waitingBlocks next, message ∈ waitingBlocks amqp ∨
      Sendable platform directory amqp message ∧ ¬ IsAnswer platform message) :
    Healthy platform directory next := by
  rw [same]
  refine { healthy with sendable := fun message inside => ?_, blocks := fun message inside => ?_ }
  · rw [← same] at inside
    rcases List.mem_append.mp inside with text | waiting
    · rcases texts message text with before | new
      · exact healthy.sendable message (List.mem_append_left _ before)
      · exact new
    · rcases blocks message waiting with before | new
      · exact healthy.sendable message (List.mem_append_right _ before)
      · exact new.1
  · rw [← same] at inside
    rcases blocks message inside with before | new
    · exact healthy.blocks message before
    · exact new.2

omit [DecidableEq ι] in
/-- What the blocks will send. -/
theorem mem_waitingBlocks {message : Outgoing Metadata} :
    message ∈ waitingBlocks amqp ↔ (∃ block ∈ amqp.scheduled, outgoing block = some message) ∨
      ∃ attempt ∈ amqp.connecting, outgoing attempt.2 = some message := by
  simp only [waitingBlocks, List.mem_append, List.mem_filterMap]

omit [DecidableEq ι] in
/-- The reactor takes one of its blocks. -/
theorem healthy_unscheduled (healthy : Healthy platform directory amqp) (index : Nat) :
    Healthy platform directory { amqp with scheduled := amqp.scheduled.eraseIdx index } := by
  refine healthy.more rfl (fun _ inside => .inl inside) fun message inside => .inl ?_
  rw [mem_waitingBlocks] at inside ⊢
  exact inside.imp_left fun ⟨block, left, same⟩ =>
    ⟨block, List.mem_of_mem_eraseIdx left, same⟩

omit [DecidableEq ι] in
/-- A connection takes the block that waited for it. -/
theorem healthy_unconnecting (healthy : Healthy platform directory amqp) (index : Nat) :
    Healthy platform directory { amqp with connecting := amqp.connecting.eraseIdx index } := by
  refine healthy.more rfl (fun _ inside => .inl inside) fun message inside => .inl ?_
  rw [mem_waitingBlocks] at inside ⊢
  exact inside.imp_right fun ⟨attempt, left, same⟩ =>
    ⟨attempt, List.mem_of_mem_eraseIdx left, same⟩

omit [DecidableEq ι] in
/-- A block for the reactor that sends no answer. -/
theorem healthy_scheduled (healthy : Healthy platform directory amqp) {block : Block ι}
    (sends : ∀ message, outgoing block = some message →
      Sendable platform directory amqp message ∧ ¬ IsAnswer platform message) :
    Healthy platform directory { amqp with scheduled := amqp.scheduled ++ [block] } := by
  refine healthy.more rfl (fun _ inside => .inl inside) fun message inside => ?_
  rw [mem_waitingBlocks] at inside ⊢
  rcases inside with ⟨other, among, same⟩ | waiting
  · rcases List.mem_append.mp among with before | last
    · exact .inl (.inl ⟨other, before, same⟩)
    · rw [List.mem_singleton.mp last] at same
      exact .inr (sends message same)
  · exact .inl (.inr waiting)

/-- `init_node` keeps a state healthy. -/
theorem healthy_initNode (healthy : Healthy platform directory amqp) {block : Block ι}
    (held : ∀ message, outgoing block = some message →
      Held channel platform directory amqp message ∧ ¬ IsAnswer platform message) :
    Healthy platform directory (amqp.initNode platform directory channel block) := by
  simp only [AMQP.initNode]
  split
  · exact healthy_perform healthy fun message same => (held message same).1
  · -- the sessions differ in `@conn` only
    have channels : ∀ node, (Function.update amqp.sessions (AMQP.blockOwner directory block)
        { amqp.sessions (AMQP.blockOwner directory block) with
          conn := some amqp.attempts } node).channel = (amqp.sessions node).channel := by
      intro node
      by_cases own : node = AMQP.blockOwner directory block
      · subst own
        simp only [Function.update_self]
      · simp only [Function.update_of_ne own]
    have grows : Grows amqp { amqp with
        sessions := Function.update amqp.sessions (AMQP.blockOwner directory block)
          { amqp.sessions (AMQP.blockOwner directory block) with conn := some amqp.attempts }
        attempts := amqp.attempts + 1 } := by
      refine ⟨fun _ inside => inside, fun node ready => ?_⟩
      rw [Ready, channels]
      exact ready
    have started : Healthy platform directory { amqp with
        sessions := Function.update amqp.sessions (AMQP.blockOwner directory block)
          { amqp.sessions (AMQP.blockOwner directory block) with conn := some amqp.attempts }
        attempts := amqp.attempts + 1 } := by
      refine healthy.grown grows (fun node number => ?_) (fun node ready => ?_)
        (fun consumer inside => grows.ready _ (healthy.consumers consumer inside)) rfl rfl rfl rfl
        rfl
      · rw [channels]
        exact healthy.opened node number
      · rw [Ready, channels] at ready
        exact healthy.declared node ready
    refine started.more rfl (fun _ inside => .inl inside) fun message inside => ?_
    rw [mem_waitingBlocks] at inside ⊢
    rcases inside with waiting | ⟨attempt, among, same⟩
    · exact .inl (.inl waiting)
    · rcases List.mem_append.mp among with before | last
      · exact .inl (.inr ⟨attempt, before, same⟩)
      · rw [List.mem_singleton.mp last] at same
        obtain ⟨sent, other⟩ := held message same
        exact .inr ⟨sent.sendable.mono grows, other⟩

/-- A connection that opens keeps a state healthy. -/
theorem healthy_onOpen (healthy : Healthy platform directory amqp) (number : Nat)
    {block : Block ι} (held : ∀ message, outgoing block = some message →
      Held channel platform directory amqp message) :
    Healthy platform directory (amqp.onOpen platform directory channel number block) := by
  obtain ⟨node, known⟩ : ∃ node, node = AMQP.blockOwner directory block := ⟨_, rfl⟩
  simp only [AMQP.onOpen]
  rw [← known]
  have queues : ∀ queue, queue ∈ amqp.queues ∨ queue = queueName (nodes node) →
      queue ∈ if amqp.queues.contains (queueName (nodes node)) then amqp.queues
        else amqp.queues ++ [queueName (nodes node)] := by
    rintro queue (before | rfl)
    · split
      · exact before
      · exact List.mem_append_left _ before
    · split
      · rename_i there
        exact List.contains_iff_mem.mp there
      · exact List.mem_append_right _ (List.mem_singleton.mpr rfl)
  have channels : ∀ other, (Function.update amqp.sessions node
      { amqp.sessions node with channel := some number, listening := false } other).channel =
        if other = node then some number else (amqp.sessions other).channel := by
    intro other
    by_cases own : other = node
    · subst own
      simp only [Function.update_self, ↓reduceIte]
    · simp only [Function.update_of_ne own, own, ↓reduceIte]
  have grows : Grows amqp { amqp with
      sessions := Function.update amqp.sessions node
        { amqp.sessions node with channel := some number, listening := false }
      up := amqp.up ++ [number]
      queues := if amqp.queues.contains (queueName (nodes node)) then amqp.queues
        else amqp.queues ++ [queueName (nodes node)] } := by
    refine ⟨fun queue inside => queues queue (.inl inside), fun other ready => ?_⟩
    rw [Ready, channels]
    split
    · exact Option.some_ne_none number
    · exact ready
  refine healthy_perform (healthy.grown grows ?_ ?_
    (fun consumer inside => grows.ready _ (healthy.consumers consumer inside)) rfl rfl rfl rfl
    rfl) fun message same => (held message same).mono grows rfl
  · intro other count found
    rw [channels] at found
    rw [List.contains_iff_mem]
    split at found
    · rw [← Option.some.inj found]
      exact List.mem_append_right _ (List.mem_singleton.mpr rfl)
    · exact List.mem_append_left _ (List.contains_iff_mem.mp (healthy.opened other count found))
  · intro other ready
    rw [Ready, channels] at ready
    split at ready
    · rename_i own
      exact queues _ (.inr (by rw [own]))
    · exact queues _ (.inl (healthy.declared other ready))

omit [DecidableEq ι] in
/-- A block that sends no answer may be forgotten. -/
theorem healthy_forget (healthy : Healthy platform directory amqp) {block : Block ι}
    (held : ∀ message, outgoing block = some message →
      Held channel platform directory amqp message ∧ ¬ IsAnswer platform message) :
    Healthy platform directory (amqp.forget platform directory channel block) := by
  cases block with
  | listen node => exact healthy
  | send message => exact healthy_drop healthy (held message rfl).1 (held message rfl).2

/-! ## Jobs and their answers -/

omit [DecidableEq ι] in
/-- Jobs that move on stay answerable. -/
theorem Healthy.moved (healthy : Healthy platform directory amqp) {hosts : Hosts ι Metadata}
    (moves : Moves amqp.hosts hosts) :
    Healthy platform directory { amqp with hosts := hosts } := by
  refine { healthy with
    jobs := fun queued inside => healthy.jobs queued (moves.jobs queued inside)
    running := fun running inside => ?_ }
  rcases moves.running running inside with before | ⟨queued, taken, same⟩
  · exact healthy.running running before
  · rw [same]
    exact healthy.jobs queued taken

omit [DecidableEq ι] in
/-- More texts for `send_msg`. -/
theorem healthy_texts (healthy : Healthy platform directory amqp)
    {texts : List (Outgoing Metadata)}
    (sendable : ∀ message ∈ texts, Sendable platform directory amqp message) :
    Healthy platform directory { amqp with texts := amqp.texts ++ texts } := by
  refine healthy.more rfl (fun message inside => ?_) fun _ inside => .inl inside
  rcases List.mem_append.mp inside with before | new
  · exact .inl before
  · exact .inr (sendable message new)

/-- A message that is handled can be answered: its queue to reply to exists, and the node that
reads it has its own. -/
theorem healthy_deliver (healthy : Healthy platform directory amqp) {message : Published}
    {number : Nat} {node : ι} (index : Nat) (found : message ∈ amqp.messages)
    (subscribed : (number, node) ∈ amqp.consumers) :
    Healthy platform directory { amqp with
      hosts := (amqp.hosts.arrive platform (directory.wiring channel)
        ⟨message.replyTo, queueName (nodes node)⟩ message.text).1
      messages := amqp.messages.eraseIdx index } := by
  refine { healthy with
    messages := fun other inside => healthy.messages other (List.mem_of_mem_eraseIdx inside)
    jobs := fun queued inside => ?_ }
  rcases arrive_jobs _ _ _ queued inside with before | new
  · exact healthy.jobs queued before
  · have own := directory.known node
    rw [new]
    refine ⟨?_, healthy.messages message found, ?_⟩
    · simp only [Own, own]
    · simp only [own]
      exact healthy.consumers _ subscribed

/-! ## Every step -/

/-- No connection closes. -/
def Open : AMQPAction ι → Prop
  | .closed _ _ => False
  | _ => True

omit [DecidableEq ι] in
/-- What waits to be published will be taken for what it is, when it is taken from where it
waits. -/
theorem held_pending (fit : Fit platform nodes)
    (sound : Sound platform (directory.wiring channel) nodes (view amqp))
    (healthy : Healthy platform directory amqp) {message : Outgoing Metadata}
    (inside : message ∈ pending amqp) (hosts : next.hosts = amqp.hosts)
    (sessions : next.sessions = amqp.sessions) (queues : next.queues = amqp.queues) :
    Held channel platform directory next message := by
  obtain ⟨text, packet, headers, wrote, carried, _, labelled⟩ :=
    written fit.foreign sound.hosts (sound.scheduled message inside)
  have held : Held channel platform directory amqp message := by
    refine ⟨healthy.sendable message inside, fun other same => ?_⟩
    cases wrote.symm.trans same
    rw [labelled]
    exact carried.labelled fit.foreign
  refine held.mono ⟨fun queue there => ?_, fun node ready => ?_⟩ hosts
  · rw [queues]
    exact there
  · rw [Ready, sessions]
    exact ready

omit [DecidableEq ι] in
/-- A block sends no answer. -/
theorem held_block (fit : Fit platform nodes)
    (sound : Sound platform (directory.wiring channel) nodes (view amqp))
    (healthy : Healthy platform directory amqp) {message : Outgoing Metadata}
    (inside : message ∈ waitingBlocks amqp) (hosts : next.hosts = amqp.hosts)
    (sessions : next.sessions = amqp.sessions) (queues : next.queues = amqp.queues) :
    Held channel platform directory next message ∧ ¬ IsAnswer platform message :=
  ⟨held_pending fit sound healthy (List.mem_append_right _ inside) hosts sessions queues,
    healthy.blocks message inside⟩

omit [DecidableEq ι] in
/-- A node sends on its own queue. -/
theorem own_replyTo (directory : Directory nodes) (node : ι) (routingKey : String) :
    Own directory ⟨routingKey, queueName (nodes node)⟩ := by
  simp only [Own, directory.known]

omit [DecidableEq ι] in
/-- A message that is no answer needs nothing but its own queue. -/
theorem sendable_other {message : Outgoing Metadata} (own : Own directory message.connection)
    (other : ¬ IsAnswer platform message) :
    Sendable platform directory amqp message ∧ ¬ IsAnswer platform message :=
  ⟨⟨own, fun answer => absurd answer other⟩, other⟩

/-- Every step but the closing of a connection keeps a state healthy. -/
theorem healthy_step (fit : Fit platform nodes)
    (sound : Sound platform (directory.wiring channel) nodes (view amqp))
    (healthy : Healthy platform directory amqp) {action : AMQPAction ι}
    (plain : PlainArgs platform.json.createId action) (stays : Open action)
    (stepped : (AMQP.machine platform directory channel).step amqp action = some next) :
    Healthy platform directory next := by
  cases action with
  | invoke node routingKey id method args =>
    obtain ⟨⟨changed, block⟩, called, rfl⟩ := Option.map_eq_some_iff.mp stepped
    obtain ⟨_, _, rfl⟩ := Hosts.invoke_some called
    refine healthy_scheduled (healthy.moved (moves_invoke called)) fun message same => ?_
    cases same
    exact sendable_other (own_replyTo directory node routingKey) (by simp [IsAnswer, blockLabel])
  | notify node routingKey method args =>
    cases stepped
    refine healthy_scheduled healthy fun message same => ?_
    cases same
    exact sendable_other (own_replyTo directory node routingKey)
      (by simp [IsAnswer, Hosts.notify, blockLabel])
  | callback node routingKey method data =>
    simp only [AMQP.machine, AMQP.step] at stepped
    obtain ⟨block, called, rfl⟩ := Option.map_eq_some_iff.mp stepped
    have labelled := callback_label fit.foreign sound.hosts plain called
    refine healthy_texts healthy fun message inside => ?_
    rw [List.mem_singleton.mp inside]
    refine (sendable_other ?_ (by simp [IsAnswer, labelled])).1
    obtain ⟨text, _, rfl⟩ := Hosts.callback_some called
    exact own_replyTo directory node routingKey
  | listen node =>
    cases stepped
    exact healthy_scheduled healthy fun message same => by cases same
  | run index =>
    obtain ⟨block, found, rfl⟩ := Option.map_eq_some_iff.mp stepped
    refine healthy_initNode (healthy_unscheduled healthy index) fun message same => ?_
    exact held_block fit sound healthy
      (mem_waitingBlocks.mpr (.inl ⟨block, List.mem_of_getElem? found, same⟩)) rfl rfl rfl
  | opened index =>
    obtain ⟨⟨number, block⟩, found, rfl⟩ := Option.map_eq_some_iff.mp stepped
    refine healthy_onOpen (healthy_unconnecting healthy index) number fun message same => ?_
    exact held_pending fit sound healthy (List.mem_append_right _
      (mem_waitingBlocks.mpr (.inr ⟨_, List.mem_of_getElem? found, same⟩))) rfl rfl rfl
  | failed index =>
    obtain ⟨⟨number, block⟩, found, rfl⟩ := Option.map_eq_some_iff.mp stepped
    refine healthy_forget (healthy_unconnecting healthy index) fun message same => ?_
    exact held_block fit sound healthy
      (mem_waitingBlocks.mpr (.inr ⟨_, List.mem_of_getElem? found, same⟩)) rfl rfl rfl
  | closed number pushed => exact absurd stays id
  | sendMsg index =>
    obtain ⟨message, found, rfl⟩ := Option.map_eq_some_iff.mp stepped
    have left : Healthy platform directory
        { amqp with texts := amqp.texts.eraseIdx index } :=
      healthy.more rfl (fun _ inside => .inl (List.mem_of_mem_eraseIdx inside))
        fun _ inside => .inl inside
    exact healthy_publish left (held_pending fit sound healthy
      (List.mem_append_left _ (List.mem_of_getElem? found)) rfl rfl rfl)
  | deliver index consumer =>
    simp only [AMQP.machine, AMQP.step] at stepped
    split at stepped
    · rename_i message number node found subscribed
      split at stepped
      · cases stepped
        exact healthy_deliver healthy index (List.mem_of_getElem? found)
          (List.mem_of_getElem? subscribed)
      · cases stepped
    · cases stepped
  | finish index =>
    obtain ⟨⟨changed, answer⟩, done, rfl⟩ := Option.map_eq_some_iff.mp stepped
    obtain ⟨moves, answers⟩ := moves_finish done
    refine healthy_texts (healthy.moved moves) fun message inside => ?_
    obtain ⟨running, begun, same⟩ := answers message (Option.mem_toList.mp inside)
    have answerable := healthy.running running begun
    rw [← same] at answerable
    exact ⟨answerable.1, fun _ => answerable⟩
  | host action =>
    obtain ⟨changed, moved, rfl⟩ := Option.map_eq_some_iff.mp stepped
    exact healthy.moved (moves_host moved)

omit [DecidableEq ι] in
/-- Nodes that are not connected are healthy: they hold nothing. -/
theorem healthy_initial : Healthy platform directory (AMQP.initial nodes) where
  opened := nofun
  declared _ ready := absurd rfl ready
  consumers := nofun
  messages := nofun
  jobs := nofun
  running := nofun
  sendable := nofun
  blocks := nofun
  dropped := nofun

/-! ## Answers -/

omit [DecidableEq ι] in
/-- Without answers among what is dropped and nothing left to publish or deliver, every answer was
recorded. -/
theorem answers_recorded (healthy : Healthy platform directory amqp)
    (accounted : Accounted platform (directory.wiring channel) (view amqp))
    (texts : amqp.texts = []) (messages : amqp.messages = []) (connection : Metadata)
    (id : String) :
    amqp.hosts.served.countP (isServed connection id) =
      amqp.hosts.recorded.countP (isRecorded connection.swap id) := by
  have answers := accounted.answers connection id
  have waiting : (view amqp).scheduled.countP (isBlock platform connection id .response) = 0 := by
    rw [List.countP_eq_zero]
    intro message inside isAnswer
    have among : message ∈ pending amqp := inside
    rw [pending, texts] at among
    refine healthy.blocks message among ?_
    rw [IsAnswer, (of_decide_eq_true isAnswer).2]
    rfl
  have travels : (view amqp).inFlight = [] := by
    rw [view, holding, messages]
    rfl
  have dropped : (view amqp).lost.countP (isText platform
      ((directory.wiring channel).opposite connection) id .response) = 0 := by
    rw [List.countP_eq_zero]
    intro text inside isAnswer
    refine healthy.dropped text inside ?_
    rw [(of_decide_eq_true isAnswer).2]
    rfl
  rw [travelling, waiting, travels, dropped] at answers
  simp only [List.countP_nil, Nat.add_zero, Nat.zero_add] at answers
  exact answers

/-- As long as no connection closes, no answer is lost: once no text waits to be published and the
queues are empty, every call that was dispatched has its answer recorded at the node that called,
as often as it was answered. -/
theorem amqp_answers_recorded (fit : Fit platform nodes) (actions : List (AMQPAction ι))
    (final : AMQP ι)
    (used : ∀ act ∈ actions, PlainArgs platform.json.createId act ∧ Open act)
    (ran : (AMQP.machine platform directory channel).run (AMQP.initial nodes) actions =
      some final) (texts : final.texts = []) (messages : final.messages = [])
    (connection : Metadata) (id : String) :
    final.hosts.served.countP (isServed connection id) =
      final.hosts.recorded.countP (isRecorded connection.swap id) := by
  let narrow := (carrier platform directory channel).narrow
    fun (action : AMQPAction ι) (both : PlainArgs platform.json.createId action ∧ Open action) =>
      both.1
  have healthy : Healthy platform directory final :=
    narrow.invariant fit (Healthy platform directory) healthy_initial
      (fun _ _ _ sound used before stepped =>
        healthy_step fit sound before used.1 used.2 stepped) used ran
  have accounted := ((carrier platform directory channel).accounted fit
    (fun act inside => (used act inside).1) ran).2
  exact answers_recorded healthy accounted texts messages connection id

/-- No connection closes while the client calls the server. -/
theorem brokeredCalls_open : ∀ act ∈ brokeredCalls, Open act := by
  intro act inside
  simp only [brokeredCalls, List.mem_cons, List.not_mem_nil, or_false] at inside
  rcases inside with rfl | rfl | rfl | rfl | rfl | rfl | rfl | rfl | rfl | rfl | rfl | rfl |
    rfl | rfl | rfl | rfl | rfl | rfl | rfl | rfl | rfl | rfl | rfl <;> exact trivial

/-- Both answers of the server have been recorded by the client. -/
theorem brokered_answers_recorded : ∃ final : AMQP Bool, final.hosts.asked = bothAsked ∧
    final.hosts.served.countP (isServed ⟨"client-queue", "server-queue"⟩ "8") =
      final.hosts.recorded.countP (isRecorded ⟨"server-queue", "client-queue"⟩ "8") := by
  obtain ⟨final, ran, asked, _, _, texts, messages⟩ := brokeredCalls_run
  exact ⟨final, asked, amqp_answers_recorded fit_brokered brokeredCalls final
    (fun act inside => ⟨brokeredCalls_plain act inside, brokeredCalls_open act inside⟩) ran texts
    messages _ "8"⟩

end Rjr.Verif.AmqpAnswers
