import Mathlib.Logic.Function.Basic
import Rjr.Lib.Machine
import Rjr.Lib.Traversal
import Rjr.Node

/-!
# Persistent nodes and their threads

What the transports with `PERSISTENT_NODE` have in common: `invoke` and `notify` of
`lib/rjr/nodes/tcp.rb`, `unix.rb`, `ws.rb` and `amqp.rb`, the callbacks of
`lib/rjr/node_callback.rb`, and the threads that work for a node. A client thread builds its
request, leaves the sending to the reactor and waits. The reactor hands every text that arrives to
`handle_message`. A worker of the thread pool takes `handle_request` in two steps, since other
threads write the same headers between the reading of a message and its answer.

Any number of nodes take part. What was asked, served and recorded is logged, so that results can
speak about it; no step reads a log.
-/

namespace Rjr

open Messages

namespace Node

/-- A message that `handle_request` has read and not yet dispatched. -/
structure Begun where
  /-- The arguments for `Dispatcher#dispatch`. -/
  args : DispatchArgs
  /-- The id to answer under; a notification is not answered. -/
  msgId : Option Json
  /-- Headers of the message. -/
  headers : Nat

/-- The arguments as the handler finds them: the hash of headers is the node's own, and holds what
it holds by then. -/
def Begun.current (begun : Begun) (node : Node) : DispatchArgs :=
  { begun.args with rjrHeaders := node.hashes.read begun.headers }

section Halves

variable (platform : Platform) (sendMsg : String → Except Exn Unit)

/-- `handle_request` up to the dispatch. -/
def beginRequest (node : Node) (message : Intermediate) (notification : Bool)
    (connection : Channel) : Except Exn (Node × Begun) :=
  if notification then
    match Notification.ofMessage platform.runtime node.hashes message
      (some node.messageHeaders) with
    | .error raised => .error raised
    | .ok (msg, hashes) =>
      let node := { node with hashes := hashes }
      .ok (node, ⟨node.dispatchArgs msg.jrMethod msg.jrArgs msg.headers connection, none,
        msg.headers⟩)
  else
    match Request.ofMessage platform.runtime node.hashes message (some node.messageHeaders) with
    | .error raised => .error raised
    | .ok (msg, hashes) =>
      let node := { node with hashes := hashes }
      .ok (node, ⟨node.dispatchArgs msg.jrMethod msg.jrArgs msg.headers connection,
        some msg.msgId, msg.headers⟩)

/-- `handle_request` from the dispatch on. -/
def endRequest (node : Node) (begun : Begun) (connection : Channel) : Handled :=
  let args := begun.current node
  let performed := node.dispatcher.dispatch platform.runtime args
  match begun.msgId with
  | none => node.finish args begun.headers performed
  | some id => node.answer platform sendMsg args id begun.headers connection performed

/-- Without another thread in between, the two halves are `handle_request`. -/
theorem handleRequest_eq (node : Node) (message : Intermediate) (notification : Bool)
    (connection : Channel) :
    node.handleRequest platform sendMsg message notification connection =
      match node.beginRequest platform message notification connection with
      | .error raised => ⟨node, none, .error raised⟩
      | .ok (read, begun) => read.endRequest platform sendMsg begun connection := by
  cases notification with
  | true =>
    simp only [handleRequest, handleNotification, beginRequest, ↓reduceIte]
    cases Notification.ofMessage platform.runtime node.hashes message
      (some node.messageHeaders) <;> rfl
  | false =>
    simp only [handleRequest, handleCall, beginRequest, Bool.false_eq_true, ↓reduceIte]
    cases Request.ofMessage platform.runtime node.hashes message
      (some node.messageHeaders) <;> rfl

/-- A notification is read into the headers. -/
theorem beginRequest_notification (node : Node) (json : String)
    (members : OrderedHash String Json) (connection : Channel) :
    node.beginRequest platform ⟨json, .hash members⟩ true connection =
      .ok (node.withHeaders Notification.reserved members,
        ⟨(node.withHeaders Notification.reserved members).argsFor members connection, none,
          node.messageHeaders⟩) := rfl

/-- A request is read into the headers. -/
theorem beginRequest_request (node : Node) (json : String) (members : OrderedHash String Json)
    (connection : Channel) :
    node.beginRequest platform ⟨json, .hash members⟩ false connection =
      .ok (node.withHeaders Request.reserved members,
        ⟨(node.withHeaders Request.reserved members).argsFor members connection,
          some ((members.get? "id").getD .null), node.messageHeaders⟩) := rfl

end Halves

end Node

/-- `NodeCallback#notify`: the text given to `send_msg`; a node that is not persistent sends
nothing. -/
def NodeCallback.notify (lib : JsonLib) (persistent : Bool) (node : Node)
    (callbackMethod : String) (data : List Json) : Except Exn (Option String) :=
  if persistent then
    let msg := (Notification.new node.hashes (.str callbackMethod) (.arr data)
      (some node.messageHeaders)).1
    (msg.toS lib node.hashes).map some
  else .ok none

namespace Nodes

/-- How the ends of connections belong together. An end is what a node's code has as its
connection argument. -/
structure Wiring (ι ε : Type) where
  /-- The node an end belongs to. -/
  owner : ε → ι
  /-- The other end: where a text sent on an end arrives. -/
  opposite : ε → ε
  /-- What `client_for` sees of an end. -/
  channel : ε → Channel
  /-- The other end of the other end is the end. -/
  involutive : ∀ connection, opposite (opposite connection) = connection

/-- A block for the reactor, or another thread's call of `send_msg`, that has not run yet. -/
inductive Outgoing (ε : Type) where
  /-- The block of `invoke`: the request is written when the block runs. -/
  | request (message : Messages.Request) (connection : ε)
  /-- The block of `notify`. -/
  | notification (message : Notification) (connection : ε)
  /-- A text that is written already, an answer or a callback's notification. -/
  | text (data : String) (connection : ε)

/-- The end of the connection something is sent on. -/
def Outgoing.connection {ε : Type} : Outgoing ε → ε
  | .request _ connection => connection
  | .notification _ connection => connection
  | .text _ connection => connection

/-- A call of `invoke`. -/
structure Asked (ε : Type) where
  /-- Id of the request. -/
  id : String
  /-- Method invoked. -/
  method : String
  /-- Arguments. -/
  args : List Json
  /-- The end of the connection the request is sent on. -/
  on : ε
  deriving DecidableEq

/-- A job of the thread pool, with the connection its block holds. -/
structure Queued (ε : Type) where
  /-- The job. -/
  job : Node.Job
  /-- The end the message came in on. -/
  on : ε
  deriving DecidableEq

/-- A job a worker has begun. -/
structure Running (ε : Type) extends Node.Begun where
  /-- The end the message came in on. -/
  on : ε

/-- A request that was dispatched and answered. -/
structure Served (ε : Type) where
  /-- The id it was answered under. -/
  id : Json
  /-- What it was dispatched with. -/
  args : DispatchArgs
  /-- What the dispatch returned. -/
  result : Result
  /-- The end the request came in on. -/
  on : ε
  deriving DecidableEq

/-- An entry that was put into `@responses`. -/
structure Recorded (ε : Type) where
  /-- The entry. -/
  response : Json × Reply
  /-- The end the response came in on. -/
  on : ε
  deriving DecidableEq

/-- Nodes, the threads that work for them, and the logs. -/
structure Hosts (ι ε : Type) where
  /-- The nodes. -/
  nodes : ι → Node
  /-- Where the client thread of each request is, by its node and its id. -/
  phase : ι → String → Phase Json Reply
  /-- Jobs on the thread pool, oldest first; a worker may take any of them. -/
  jobs : List (Queued ε)
  /-- Jobs that workers have begun. -/
  running : List (Running ε)
  /-- `Time.now`. -/
  clock : Nat
  /-- Calls of `invoke`, oldest first. -/
  asked : List (Asked ε)
  /-- Requests that were answered, oldest first. -/
  served : List (Served ε)
  /-- Responses that were recorded, oldest first. -/
  recorded : List (Recorded ε)
  /-- Jobs whose worker was killed. -/
  killed : List (Running ε)

namespace Hosts

variable {ι ε : Type}

/-- New threads for nodes, nothing asked. -/
def new (nodes : ι → Node) : Hosts ι ε :=
  { nodes := nodes
    phase := fun _ _ => .idle
    jobs := []
    running := []
    clock := 0
    asked := []
    served := []
    recorded := []
    killed := [] }

section Steps

variable [DecidableEq ι] (platform : Platform) (wiring : Wiring ι ε)

/-- One node is changed. -/
def setNode (hosts : Hosts ι ε) (node : ι) (changed : Node) : Hosts ι ε :=
  { hosts with nodes := Function.update hosts.nodes node changed }

/-- One client thread moves on. -/
def setPhase (hosts : Hosts ι ε) (node : ι) (id : String) (phase : Phase Json Reply) :
    Hosts ι ε :=
  { hosts with
    phase := Function.update hosts.phase node (Function.update (hosts.phase node) id phase) }

/-- Which client thread has moved on. -/
theorem phase_setPhase (hosts : Hosts ι ε) (node other : ι) (id text : String)
    (phase : Phase Json Reply) :
    (hosts.setPhase node id phase).phase other text =
      if other = node ∧ text = id then phase else hosts.phase other text := by
  by_cases same : other = node
  · subst same
    by_cases equal : text = id
    · subst equal
      simp [setPhase]
    · simp [setPhase, equal]
  · simp [setPhase, same]

/-- Which node has changed. -/
theorem nodes_setNode (hosts : Hosts ι ε) (node other : ι) (changed : Node) :
    (hosts.setNode node changed).nodes other =
      if other = node then changed else hosts.nodes other := by
  by_cases same : other = node
  · subst same
    simp [setNode]
  · simp [setNode, same]

/-- `invoke` up to its `em.schedule`, by the node that has this end of a connection; `id` is what
`gen_uuid` returns. Ids are not used twice by a node. -/
def invoke (hosts : Hosts ι ε) (connection : ε) (id method : String) (args : List Json) :
    Option (Hosts ι ε × Outgoing ε) :=
  let node := wiring.owner connection
  if hosts.phase node id = .idle then
    let message := (Messages.Request.new (hosts.nodes node).hashes id (.str method) (.arr args)
      .null (some (hosts.nodes node).messageHeaders)).1
    some ({ hosts.setPhase node id .sent with
      asked := hosts.asked ++ [⟨id, method, args, connection⟩] }, .request message connection)
  else none

/-- What a call of `invoke` leaves: the client waits for its turn, the call is asked, and the
request is left to the reactor. -/
theorem invoke_some {wiring : Wiring ι ε} {hosts next : Hosts ι ε} {connection : ε}
    {id method : String} {args : List Json} {block : Outgoing ε}
    (called : hosts.invoke wiring connection id method args = some (next, block)) :
    hosts.phase (wiring.owner connection) id = .idle ∧
      next = { hosts.setPhase (wiring.owner connection) id .sent with
        asked := hosts.asked ++ [⟨id, method, args, connection⟩] } ∧
      block = .request ⟨.str method, .arr args, .str id,
        (hosts.nodes (wiring.owner connection)).messageHeaders⟩ connection := by
  simp only [invoke] at called
  split at called
  · rename_i idle
    cases called
    exact ⟨idle, rfl, rfl⟩
  · cases called

/-- `notify` up to its `em.schedule`. -/
def notify (hosts : Hosts ι ε) (connection : ε) (method : String) (args : List Json) :
    Outgoing ε :=
  let node := hosts.nodes (wiring.owner connection)
  .notification (Notification.new node.hashes (.str method) (.arr args)
    (some node.messageHeaders)).1 connection

/-- `NodeCallback#notify` on a connection of a persistent node: the text is written at once, and
the handler that called it gets the exception if it cannot be. -/
def callback (hosts : Hosts ι ε) (connection : ε) (method : String) (data : List Json) :
    Option (Outgoing ε) :=
  match NodeCallback.notify platform.json true (hosts.nodes (wiring.owner connection)) method
    data with
  | .ok (some text) => some (.text text connection)
  | _ => none

omit [DecidableEq ι] in
/-- A callback leaves the text of a notification with the headers of its node. -/
theorem callback_some {platform : Platform} {wiring : Wiring ι ε} {hosts : Hosts ι ε}
    {connection : ε} {method : String} {data : List Json} {block : Outgoing ε}
    (called : hosts.callback platform wiring connection method data = some block) :
    ∃ text, (Notification.mk (.str method) (.arr data)
        (hosts.nodes (wiring.owner connection)).messageHeaders).toS platform.json
          (hosts.nodes (wiring.owner connection)).hashes = .ok text ∧
      block = .text text connection := by
  simp only [callback, NodeCallback.notify, ↓reduceIte] at called
  split at called
  · rename_i text written
    obtain ⟨other, generated, same⟩ := (Traversal.map_eq_ok_iff _ _ _).mp written
    cases same
    cases called
    exact ⟨text, generated, rfl⟩
  · cases called

/-- The text that is sent when a block runs; the exception of a message that cannot be written
ends the block. -/
def write (hosts : Hosts ι ε) : Outgoing ε → Option String
  | .request message connection =>
    (message.toS platform.json (hosts.nodes (wiring.owner connection)).hashes).toOption
  | .notification message connection =>
    (message.toS platform.json (hosts.nodes (wiring.owner connection)).hashes).toOption
  | .text data _ => some data

/-- The responses `handle_message` has added to those of a node. -/
def newResponses (before after : Node) : List (Json × Reply) :=
  after.correlation.responses.drop before.correlation.responses.length

/-- `handle_message` for a text that arrives at an end, and whether it returned. -/
def arrive (hosts : Hosts ι ε) (connection : ε) (text : String) : Hosts ι ε × Bool :=
  let node := wiring.owner connection
  let handled := (hosts.nodes node).handleMessage platform text (wiring.channel connection)
  ({ hosts.setNode node handled.1 with
      jobs := hosts.jobs ++ (handled.2.1.map fun job => ⟨job, connection⟩).toList
      recorded := hosts.recorded ++
        (newResponses (hosts.nodes node) handled.1).map fun response => ⟨response, connection⟩ },
    match handled.2.2 with
    | .ok _ => true
    | .error _ => false)

/-- A worker takes a job and reads its message; if that raises, the job is over. -/
def begin (hosts : Hosts ι ε) (index : Nat) : Option (Hosts ι ε) :=
  match hosts.jobs[index]? with
  | none => none
  | some queued =>
    let node := wiring.owner queued.on
    let left := { hosts with jobs := hosts.jobs.eraseIdx index }
    match (hosts.nodes node).beginRequest platform queued.job.message queued.job.notification
      (wiring.channel queued.on) with
    | .error _ => some left
    | .ok (read, begun) =>
      some { left.setNode node read with running := hosts.running ++ [⟨begun, queued.on⟩] }

/-- A worker dispatches the job it has begun and hands the answer, if there is one, to
`send_msg`. -/
def finish (hosts : Hosts ι ε) (index : Nat) : Option (Hosts ι ε × Option (Outgoing ε)) :=
  match hosts.running[index]? with
  | none => none
  | some running =>
    let node := wiring.owner running.on
    let handled := (hosts.nodes node).endRequest platform (fun _ => .ok ()) running.toBegun
      (wiring.channel running.on)
    let left := { hosts.setNode node handled.node with running := hosts.running.eraseIdx index }
    match handled.outcome with
    | .ok (some response) =>
      some ({ left with
          served := hosts.served ++ [⟨response.msgId, running.current (hosts.nodes node),
            response.result, running.on⟩] },
        (response.toS platform.json handled.node.hashes).toOption.map fun text =>
          .text text running.on)
    | _ => some (left, none)

/-- A worker is killed with the job it has begun. -/
def kill (hosts : Hosts ι ε) (index : Nat) : Option (Hosts ι ε) :=
  hosts.running[index]?.map fun running =>
    { hosts with
      running := hosts.running.eraseIdx index
      killed := hosts.killed ++ [running] }

/-- `wait_for_result` registers its request. -/
def register (hosts : Hosts ι ε) (node : ι) (id : String) : Option (Hosts ι ε) :=
  if hosts.phase node id = .sent then
    let host := hosts.nodes node
    some ((hosts.setPhase node id .waiting).setNode node { host with
      correlation := host.correlation.register (.str id) hosts.clock })
  else none

/-- One locked iteration of `wait_for_result`. -/
def poll (hosts : Hosts ι ε) (node : ι) (id : String) : Option (Hosts ι ε) :=
  if hosts.phase node id = .waiting then
    let host := hosts.nodes node
    let iteration := host.correlation.iterate host.timeout hosts.clock (.str id)
    some ((hosts.setPhase node id (Clients.phaseAfter iteration.1)).setNode node { host with
      correlation := iteration.2 })
  else none

/-- Time passes. -/
def tick (hosts : Hosts ι ε) : Hosts ι ε := { hosts with clock := hosts.clock + 1 }

end Steps

end Hosts

/-! ## Steps of the threads alone -/

/-- A step that sends nothing. -/
inductive HostAction (ι : Type) where
  /-- A worker takes the job at an index of the queue. -/
  | begin (index : Nat)
  /-- A worker is killed. -/
  | kill (index : Nat)
  /-- A client thread registers its request. -/
  | register (node : ι) (id : String)
  /-- A client thread iterates its wait. -/
  | poll (node : ι) (id : String)
  /-- Time passes. -/
  | tick
  deriving DecidableEq

/-- The steps that send nothing. -/
def Hosts.step {ι ε : Type} [DecidableEq ι] (platform : Platform) (wiring : Wiring ι ε)
    (hosts : Hosts ι ε) : HostAction ι → Option (Hosts ι ε)
  | .begin index => hosts.begin platform wiring index
  | .kill index => hosts.kill index
  | .register node id => hosts.register node id
  | .poll node id => hosts.poll node id
  | .tick => some hosts.tick

end Nodes

end Rjr
