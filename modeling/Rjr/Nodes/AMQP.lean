import Rjr.Nodes.Exchange

/-!
# Nodes connected by a broker

The AMQP nodes (`lib/rjr/nodes/amqp.rb`). A node reads from one queue of its own, named after its
`node_id`, and publishes to the queues of others through the default exchange of the broker. The
connection argument of `handle_message` and `send_msg` is the metadata of a message, with
`:routing_key` and `:reply_to` swapped for the answer.

`init_node` connects only if the node's last connection is not open. The block that was given to
it runs when that connection opens; a block that comes before that starts another connection.
Every connection that opens replaces the node's channel and queue objects and resets `@listening`,
so that the next `invoke` subscribes again while an earlier subscription may still be there.

Of the broker this much is modelled: a message is kept in the queue its routing key names, and
dropped if there is none; a queue exists from its declaration until its last consumer has gone
(`auto_delete`), and its messages go with it; a message is given to any one of the consumers of
its queue. What was pushed to a consumer and not handled is lost when its connection closes.
-/

namespace Rjr.Nodes

/-- Metadata of a message, as `send_msg` is given it. -/
structure Metadata where
  /-- `:routing_key`, the queue to publish to. -/
  routingKey : String
  /-- `:reply_to`, the queue of the sender. -/
  replyTo : String
  deriving DecidableEq

/-- The metadata to answer with. -/
def Metadata.swap (metadata : Metadata) : Metadata := ⟨metadata.replyTo, metadata.routingKey⟩

/-- `@queue_name`. -/
def queueName (node : Node) : String := node.nodeId.getD "" ++ "-queue"

/-- Nodes whose queues have different names. -/
structure Directory {ι : Type} (nodes : ι → Node) where
  /-- The node that reads from a queue. -/
  reader : String → ι
  /-- Every node reads from its own. -/
  known : ∀ node, reader (queueName (nodes node)) = node

namespace Directory

variable {ι : Type} {nodes : ι → Node} (directory : Directory nodes)

/-- Metadata are ends of connections; the other end has them swapped. -/
def wiring (channel : Metadata → Channel) : Wiring ι Metadata where
  owner metadata := directory.reader metadata.replyTo
  opposite := Metadata.swap
  channel := channel
  involutive _ := rfl

end Directory

/-- The connection of an AMQP node. -/
structure Session where
  /-- `@conn`, by its number: the last connection that was started. -/
  conn : Option Nat
  /-- The connection that `@channel`, `@queue` and `@exchange` belong to. -/
  channel : Option Nat
  /-- `@listening`. -/
  listening : Bool

/-- A block for the reactor that `init_node` is called from. -/
inductive Block (ι : Type) where
  /-- The block of `listen`. -/
  | listen (node : ι)
  /-- The block of `invoke` or `notify`. -/
  | send (message : Outgoing Metadata)

/-- A message in a queue of the broker. -/
structure Published where
  /-- The queue it is in. -/
  queue : String
  /-- Its `reply_to`. -/
  replyTo : String
  /-- Its payload. -/
  text : String
  deriving DecidableEq

/-- AMQP nodes and their broker. -/
structure AMQP (ι : Type) where
  /-- The nodes and their threads. -/
  hosts : Hosts ι Metadata
  /-- The connections of the nodes. -/
  sessions : ι → Session
  /-- Blocks for the reactor. -/
  scheduled : List (Block ι)
  /-- Connections that have not opened yet, each with its block. -/
  connecting : List (Nat × Block ι)
  /-- How many connections were started. -/
  attempts : Nat
  /-- Connections that are open. -/
  up : List Nat
  /-- Texts that other threads give to `send_msg`. -/
  texts : List (Outgoing Metadata)
  /-- Queues of the broker. -/
  queues : List String
  /-- Subscriptions: the connection, and the node that reads. -/
  consumers : List (Nat × ι)
  /-- Messages in queues. -/
  messages : List Published
  /-- What will never arrive, with the metadata it would have been answered with. -/
  dropped : List (Metadata × String)

/-- A step of a thread, of the reactor, of a connection or of the broker. -/
inductive AMQPAction (ι : Type) where
  /-- A client thread calls `invoke`. -/
  | invoke (node : ι) (routingKey id method : String) (args : List Json)
  /-- A thread calls `notify`. -/
  | notify (node : ι) (routingKey method : String) (args : List Json)
  /-- A handler, or a thread it has started, calls `NodeCallback#notify`. -/
  | callback (node : ι) (routingKey method : String) (data : List Json)
  /-- A thread calls `listen`. -/
  | listen (node : ι)
  /-- The reactor runs a block. -/
  | run (index : Nat)
  /-- A connection opens. -/
  | opened (index : Nat)
  /-- A connection cannot be established. -/
  | failed (index : Nat)
  /-- A connection closes; what was pushed to its consumers is lost. -/
  | closed (number : Nat) (pushed : Published → Bool)
  /-- A thread publishes its text. -/
  | sendMsg (index : Nat)
  /-- A message is handled by a consumer of its queue. -/
  | deliver (index consumer : Nat)
  /-- A worker dispatches the job it has begun and answers it. -/
  | finish (index : Nat)
  /-- A step that sends nothing. -/
  | host (action : HostAction ι)

namespace AMQP

variable {ι : Type}

/-- Nothing is connected. -/
def initial (nodes : ι → Node) : AMQP ι where
  hosts := Hosts.new nodes
  sessions _ := ⟨none, none, false⟩
  scheduled := []
  connecting := []
  attempts := 0
  up := []
  texts := []
  queues := []
  consumers := []
  messages := []
  dropped := []

variable [DecidableEq ι] {nodes : ι → Node} (platform : Platform) (directory : Directory nodes)
  (channel : Metadata → Channel)

/-- The node a block belongs to. -/
def blockOwner : Block ι → ι
  | .listen node => node
  | .send message => directory.reader message.connection.replyTo

/-- `@conn.connected?`, of the last connection that was started. -/
def connected (amqp : AMQP ι) (node : ι) : Bool :=
  match (amqp.sessions node).conn with
  | none => false
  | some number => amqp.up.contains number

/-- Whether `@exchange` is there and its connection open. -/
def usable (amqp : AMQP ι) (node : ι) : Bool :=
  match (amqp.sessions node).channel with
  | none => false
  | some number => amqp.up.contains number

/-- `subscribe`. -/
def subscribe (amqp : AMQP ι) (node : ι) : AMQP ι :=
  let session := amqp.sessions node
  if session.listening then amqp
  else { amqp with
    sessions := Function.update amqp.sessions node { session with listening := true }
    consumers := amqp.consumers ++
      if amqp.usable node then session.channel.toList.map fun number => (number, node) else [] }

/-- A message is written and will not arrive. -/
def drop (amqp : AMQP ι) (message : Outgoing Metadata) : AMQP ι :=
  { amqp with
    dropped := amqp.dropped ++ ((amqp.hosts.write platform (directory.wiring channel) message).map
      fun text => (message.connection.swap, text)).toList }

/-- `send_msg`: the message is written and published to the queue of its routing key. -/
def publish (amqp : AMQP ι) (message : Outgoing Metadata) : AMQP ι :=
  let metadata := message.connection
  if amqp.usable (directory.reader metadata.replyTo) &&
      amqp.queues.contains metadata.routingKey then
    { amqp with
      messages := amqp.messages ++ ((amqp.hosts.write platform (directory.wiring channel)
        message).map fun text => ⟨metadata.routingKey, metadata.replyTo, text⟩).toList }
  else amqp.drop platform directory channel message

/-- What the blocks given to `init_node` do. `notify` does not subscribe. -/
def perform (amqp : AMQP ι) : Block ι → AMQP ι
  | .listen node => amqp.subscribe node
  | .send (.request message connection) =>
    (amqp.subscribe (directory.reader connection.replyTo)).publish platform directory channel
      (.request message connection)
  | .send message => amqp.publish platform directory channel message

/-- `init_node`: the block runs at once on an open connection, and otherwise waits for a new
one. -/
def initNode (amqp : AMQP ι) (block : Block ι) : AMQP ι :=
  let node := blockOwner directory block
  if amqp.connected node then amqp.perform platform directory channel block
  else { amqp with
    sessions := Function.update amqp.sessions node
      { amqp.sessions node with conn := some amqp.attempts }
    connecting := amqp.connecting ++ [(amqp.attempts, block)]
    attempts := amqp.attempts + 1 }

/-- The block of `AMQP.connect`: channel and queue are set up, then the waiting block runs. -/
def onOpen (amqp : AMQP ι) (number : Nat) (block : Block ι) : AMQP ι :=
  let node := blockOwner directory block
  { amqp with
    sessions := Function.update amqp.sessions node
      { amqp.sessions node with channel := some number, listening := false }
    up := amqp.up ++ [number]
    queues := if amqp.queues.contains (queueName (nodes node)) then amqp.queues
      else amqp.queues ++ [queueName (nodes node)] }.perform platform directory channel block

/-- A block that will not run. -/
def forget (amqp : AMQP ι) : Block ι → AMQP ι
  | .listen _ => amqp
  | .send message => amqp.drop platform directory channel message

variable (nodes) in
/-- Whether a connection has consumers of a queue. -/
def consumes (consumers : List (Nat × ι)) (queue : String) : Bool :=
  consumers.any fun consumer => queueName (nodes consumer.2) == queue

variable (nodes) in
/-- A connection closes: its subscriptions end, and a queue goes with its last consumer. -/
def close (amqp : AMQP ι) (number : Nat) (pushed : Published → Bool) : AMQP ι :=
  let gone := amqp.consumers.filter (·.1 == number)
  let left := amqp.consumers.filter (·.1 != number)
  let queues := amqp.queues.filter fun queue => !consumes nodes gone queue ||
    consumes nodes left queue
  let kept : Published → Bool := fun message =>
    queues.contains message.queue && !(consumes nodes gone message.queue && pushed message)
  { amqp with
    up := amqp.up.filter (· != number)
    consumers := left
    queues := queues
    messages := amqp.messages.filter kept
    dropped := amqp.dropped ++ (amqp.messages.filter fun message => !kept message).map
      fun message => (⟨message.replyTo, message.queue⟩, message.text) }

/-- The steps. -/
def step (amqp : AMQP ι) : AMQPAction ι → Option (AMQP ι)
  | .invoke node routingKey id method args =>
    (amqp.hosts.invoke (directory.wiring channel) ⟨routingKey, queueName (nodes node)⟩ id method
      args).map fun (hosts, block) =>
        { amqp with hosts := hosts, scheduled := amqp.scheduled ++ [.send block] }
  | .notify node routingKey method args =>
    some { amqp with
      scheduled := amqp.scheduled ++ [.send (amqp.hosts.notify (directory.wiring channel)
        ⟨routingKey, queueName (nodes node)⟩ method args)] }
  | .callback node routingKey method data =>
    (amqp.hosts.callback platform (directory.wiring channel) ⟨routingKey, queueName (nodes node)⟩
      method data).map fun block => { amqp with texts := amqp.texts ++ [block] }
  | .listen node => some { amqp with scheduled := amqp.scheduled ++ [.listen node] }
  | .run index =>
    amqp.scheduled[index]?.map fun block =>
      { amqp with scheduled := amqp.scheduled.eraseIdx index }.initNode platform directory channel
        block
  | .opened index =>
    amqp.connecting[index]?.map fun (number, block) =>
      { amqp with connecting := amqp.connecting.eraseIdx index }.onOpen platform directory channel
        number block
  | .failed index =>
    amqp.connecting[index]?.map fun (_, block) =>
      { amqp with connecting := amqp.connecting.eraseIdx index }.forget platform directory channel
        block
  | .closed number pushed =>
    if amqp.up.contains number then some (amqp.close nodes number pushed) else none
  | .sendMsg index =>
    amqp.texts[index]?.map fun message =>
      { amqp with texts := amqp.texts.eraseIdx index }.publish platform directory channel message
  | .deliver index consumer =>
    match amqp.messages[index]?, amqp.consumers[consumer]? with
    | some message, some (_, node) =>
      if queueName (nodes node) = message.queue then
        some { amqp with
          hosts := (amqp.hosts.arrive platform (directory.wiring channel)
            ⟨message.replyTo, queueName (nodes node)⟩ message.text).1
          messages := amqp.messages.eraseIdx index }
      else none
    | _, _ => none
  | .finish index =>
    (amqp.hosts.finish platform (directory.wiring channel) index).map fun (hosts, answer) =>
      { amqp with hosts := hosts, texts := amqp.texts ++ answer.toList }
  | .host action =>
    (amqp.hosts.step platform (directory.wiring channel) action).map fun hosts =>
      { amqp with hosts := hosts }

/-- AMQP nodes and their broker, in any interleaving. -/
def machine : Machine (AMQP ι) (AMQPAction ι) := ⟨step platform directory channel⟩

end AMQP

end Rjr.Nodes
