import Rjr.Correlation
import Rjr.Dispatcher
import Rjr.Messages

/-!
# Nodes

The transport independent part of `lib/rjr/node.rb`: how a received message is classified, how a
request is dispatched and answered, and how a response is recorded. A node hands its own
`@message_headers` to every message it builds from a received one. What a call wrote before it
raised stays written, so every function returns the node beside its outcome.
-/

namespace Rjr

open Messages

/-- A connection argument, by its identity and what `get_peername` gives for it. -/
structure Channel where
  /-- Which connection it is. -/
  key : Nat
  /-- Port and address of the peer, if they can be read. -/
  peer : Option (Nat × String)
  deriving DecidableEq, Repr

/-- One call of `send_msg`. -/
structure Sent where
  /-- The text sent. -/
  text : String
  /-- The connection it was sent on. -/
  connection : Channel
  deriving DecidableEq, Repr

/-- The part of an entry of `@responses` after the message id. -/
structure Reply where
  /-- Result value, `nil` for an error. -/
  res : Json
  /-- The exception, in the third place of the entry, if there is one. -/
  err : Option Exn
  deriving DecidableEq

/-- `RJR::Node`, with the calls of `send_msg` made so far. -/
structure Node where
  /-- Identifier of the node. -/
  nodeId : Option String
  /-- Type of the node; the base class has none. -/
  nodeType : Option NodeType
  /-- Whether the node class is indirect. -/
  indirect : Bool
  /-- `@timeout`, in units of the clock. -/
  timeout : Option Nat
  /-- Dispatcher to satisfy requests with. -/
  dispatcher : Dispatcher
  /-- The hashes of headers in use. -/
  hashes : Hashes
  /-- `@message_headers`. -/
  messageHeaders : Nat
  /-- `@pending` and `@responses`. -/
  correlation : Correlation Json Reply
  /-- Calls of `send_msg`, oldest first. -/
  sent : List Sent

/-- The arguments of `Node#initialize` and the class constants. -/
structure NodeArgs where
  /-- `:node_id`. -/
  nodeId : Option String := none
  /-- `RJR_NODE_TYPE` of the class. -/
  nodeType : Option NodeType := none
  /-- `INDIRECT_NODE` of the class. -/
  indirect : Bool := false
  /-- `:timeout`. -/
  timeout : Option Nat := none
  /-- `:dispatcher`. -/
  dispatcher : Option Dispatcher := none
  /-- `:headers`. -/
  headers : Option (OrderedHash String Json) := none

namespace Node

/-- `Node#initialize`. The configured headers are copied: `{}.merge(args[:headers])`. -/
def new (args : NodeArgs) : Node :=
  let copied := OrderedHash.empty.merge (args.headers.getD OrderedHash.empty)
  let allocated := (Heap.new OrderedHash.empty : Hashes).alloc copied
  { nodeId := args.nodeId
    nodeType := args.nodeType
    indirect := args.indirect
    timeout := args.timeout
    dispatcher := args.dispatcher.getD (Dispatcher.new false)
    hashes := allocated.2
    messageHeaders := allocated.1
    correlation := Correlation.new
    sent := [] }

/-- The current contents of `@message_headers`. -/
def headers (node : Node) : OrderedHash String Json := node.hashes.read node.messageHeaders

/-- A node is constructed with the headers it was configured with. -/
theorem new_headers (args : NodeArgs) :
    (new args).headers = args.headers.getD OrderedHash.empty := by
  have copied : OrderedHash.empty.merge (args.headers.getD OrderedHash.empty) =
      args.headers.getD OrderedHash.empty := OrderedHash.empty_merge _
  simp only [headers, new, copied, Heap.read_alloc]

/-- `Node#client_for`: port and address of the client, for direct nodes. -/
def clientFor (node : Node) (connection : Channel) : Option (Nat × String) :=
  if node.indirect || node.nodeType == some .localNode then none else connection.peer

/-! ## Requests -/

/-- What a call of `handle_request` does. -/
structure Handled where
  /-- The node after the call. -/
  node : Node
  /-- The arguments given to `Dispatcher#dispatch`, if it was called. -/
  dispatched : Option DispatchArgs
  /-- The response that was sent, `nil` for a notification, or the exception that left the call. -/
  outcome : Except Exn (Option Response)

/-- The arguments `handle_request` dispatches a message with. -/
def dispatchArgs (node : Node) (jrMethod jrArgs : Json) (headers : Nat) (connection : Channel) :
    DispatchArgs :=
  let client := node.clientFor connection
  { rjrMethod := jrMethod
    rjrMethodArgs := jrArgs
    rjrHeaders := node.hashes.read headers
    rjrClientIp := client.map Prod.snd
    rjrClientPort := client.map Prod.fst
    rjrNodeId := node.nodeId
    rjrNodeType := node.nodeType }

section Handling

variable (platform : Platform) (sendMsg : String → Except Exn Unit)

/-- The node once a request has been dispatched. The handler had the hash of headers itself, as
`@rjr_headers`, and what it left there stays. -/
def afterDispatch (node : Node) (headers : Nat) (performed : Performed) : Node :=
  { node with
    hashes := node.hashes.write headers performed.headers
    dispatcher := performed.dispatcher }

/-- The end of `handle_request` on a notification: the result is dropped. -/
def finish (node : Node) (args : DispatchArgs) (headers : Nat) : Except Exn Performed → Handled
  | .error raised => ⟨node, some args, .error raised⟩
  | .ok performed => ⟨node.afterDispatch headers performed, some args, .ok none⟩

/-- The end of `handle_request` on a request: the result is sent back with the id and the headers
of the request. The response may have no text, and then nothing is sent. `send_msg` is that of the
transport. -/
def answer (node : Node) (args : DispatchArgs) (msgId : Json) (headers : Nat)
    (connection : Channel) : Except Exn Performed → Handled
  | .error raised => ⟨node, some args, .error raised⟩
  | .ok performed =>
    let node := node.afterDispatch headers performed
    let built := Response.new node.hashes msgId performed.result (some headers)
    let node := { node with hashes := built.2 }
    match built.1.toS platform.json built.2 with
    | .error raised => ⟨node, some args, .error raised⟩
    | .ok text =>
      ⟨{ node with sent := node.sent ++ [⟨text, connection⟩] }, some args,
        (sendMsg text).map fun _ => some built.1⟩

/-- `handle_request` on a notification. -/
def handleNotification (node : Node) (message : Intermediate) (connection : Channel) : Handled :=
  match Notification.ofMessage platform.runtime node.hashes message (some node.messageHeaders) with
  | .error raised => ⟨node, none, .error raised⟩
  | .ok (msg, hashes) =>
    let node := { node with hashes := hashes }
    let args := node.dispatchArgs msg.jrMethod msg.jrArgs msg.headers connection
    node.finish args msg.headers (node.dispatcher.dispatch platform.runtime args)

/-- `handle_request` on a request. -/
def handleCall (node : Node) (message : Intermediate) (connection : Channel) : Handled :=
  match Request.ofMessage platform.runtime node.hashes message (some node.messageHeaders) with
  | .error raised => ⟨node, none, .error raised⟩
  | .ok (msg, hashes) =>
    let node := { node with hashes := hashes }
    let args := node.dispatchArgs msg.jrMethod msg.jrArgs msg.headers connection
    node.answer platform sendMsg args msg.msgId msg.headers connection
      (node.dispatcher.dispatch platform.runtime args)

/-- `Node#handle_request`. -/
def handleRequest (node : Node) (message : Intermediate) (notification : Bool)
    (connection : Channel) : Handled :=
  if notification then node.handleNotification platform message connection
  else node.handleCall platform sendMsg message connection

/-- The node once a message with these members has been read: the members that are not reserved
are in its headers. -/
def withHeaders (node : Node) (reserved : List String) (members : OrderedHash String Json) :
    Node :=
  let merged := node.headers.merge (unreserved reserved members)
  { node with hashes := node.hashes.write node.messageHeaders merged }

omit platform sendMsg in
/-- What a message left in the headers is read through the node's own reference. -/
@[simp]
theorem headers_withHeaders (node : Node) (reserved : List String)
    (members : OrderedHash String Json) :
    (node.withHeaders reserved members).headers =
      node.headers.merge (unreserved reserved members) :=
  Heap.read_write_same _ _ _

/-- The arguments a request or notification with these members is dispatched with. -/
def argsFor (node : Node) (members : OrderedHash String Json) (connection : Channel) :
    DispatchArgs :=
  node.dispatchArgs ((members.get? "method").getD .null) ((members.get? "params").getD .null)
    node.messageHeaders connection

/-- A notification is read into the headers and dispatched. -/
theorem handleNotification_hash (node : Node) (json : String)
    (members : OrderedHash String Json) (connection : Channel) :
    node.handleNotification platform ⟨json, .hash members⟩ connection =
      (node.withHeaders Notification.reserved members).finish
        ((node.withHeaders Notification.reserved members).argsFor members connection)
        node.messageHeaders (node.dispatcher.dispatch platform.runtime
          ((node.withHeaders Notification.reserved members).argsFor members connection)) := rfl

/-- A request is read into the headers, dispatched, and answered under its id with the node's own
headers. -/
theorem handleCall_hash (node : Node) (json : String) (members : OrderedHash String Json)
    (connection : Channel) :
    node.handleCall platform sendMsg ⟨json, .hash members⟩ connection =
      (node.withHeaders Request.reserved members).answer platform sendMsg
        ((node.withHeaders Request.reserved members).argsFor members connection)
        ((members.get? "id").getD .null) node.messageHeaders connection
        (node.dispatcher.dispatch platform.runtime
          ((node.withHeaders Request.reserved members).argsFor members connection)) := rfl

end Handling

/-! ## Responses -/

/-- The entry of `@responses` for a result: its value, or the exception it is turned into. -/
def replyOf (result : Result) : Reply :=
  match Dispatcher.handleResponse result with
  | .ok res => ⟨res, none⟩
  | .error err => ⟨.null, some err⟩

/-- `Node#handle_response`: the outcome of a response is recorded under its id. -/
def handleResponse (runtime : Runtime) (node : Node) (message : Intermediate) :
    Node × Except Exn Unit :=
  match Response.ofMessage runtime node.hashes message (some node.messageHeaders) with
  | .error raised => (node, .error raised)
  | .ok (msg, hashes) =>
    ({ node with
        hashes := hashes
        correlation := node.correlation.record (msg.msgId, replyOf msg.result) }, .ok ())

/-- A response with an unusable `error` changes nothing. -/
theorem handleResponse_raises {runtime : Runtime} {node : Node} {json : String}
    {members : OrderedHash String Json} {raised : Exn}
    (unusable : Response.parseResult runtime ⟨json, .hash members⟩ = .error raised) :
    node.handleResponse runtime ⟨json, .hash members⟩ = (node, .error raised) := by
  have read := Response.ofMessage_hash runtime node.hashes json members (some node.messageHeaders)
  rw [unusable] at read
  simp only [handleResponse, read]
  rfl

/-- Any other response is read into the headers and recorded under its id. -/
theorem handleResponse_returns {runtime : Runtime} {node : Node} {json : String}
    {members : OrderedHash String Json} {result : Result}
    (usable : Response.parseResult runtime ⟨json, .hash members⟩ = .ok result) :
    node.handleResponse runtime ⟨json, .hash members⟩ =
      ({ node.withHeaders Response.reserved members with
          correlation :=
            node.correlation.record ((members.get? "id").getD .null, replyOf result) },
        .ok ()) := by
  have read := Response.ofMessage_hash runtime node.hashes json members (some node.messageHeaders)
  rw [usable] at read
  simp only [handleResponse, read]
  rfl

/-! ## Classification -/

/-- The kinds of message `handle_message` tells apart. -/
inductive Kind where
  /-- Handled by `handle_request`. -/
  | request
  /-- Handled by `handle_request`, without an answer. -/
  | notification
  /-- Handled by `handle_response`. -/
  | response
  deriving DecidableEq, Repr

/-- The tests of `Node#handle_message`, in their order; a message may be of no kind. -/
def classify (runtime : Runtime) (message : Intermediate) : Except Exn (Option Kind) := do
  if ← Request.isRequestMessage runtime message then return some .request
  else if ← Notification.isNotificationMessage runtime message then return some .notification
  else if ← Response.isResponseMessage runtime message then return some .response
  else return none

/-- The tests on a hash. -/
theorem classify_hash (runtime : Runtime) (json : String) (members : OrderedHash String Json) :
    classify runtime ⟨json, .hash members⟩ = .ok (
      if members.has "method" then
        if members.has "id" then some .request else some .notification
      else if members.has "result" || members.has "error" then some .response else none) := by
  simp only [classify, Request.isRequestMessage, Notification.isNotificationMessage,
    Response.isResponseMessage, Intermediate.has, bind, Except.bind, pure, Except.pure]
  cases members.has "method" <;> cases members.has "id" <;> cases members.has "result" <;>
    cases members.has "error" <;> rfl

/-- A job of the thread pool: a call of `handle_request`. -/
structure Job where
  /-- The message. -/
  message : Intermediate
  /-- Whether it is a notification. -/
  notification : Bool
  /-- The connection it came in on. -/
  connection : Channel
  deriving DecidableEq

/-- `Node#handle_message`: requests and notifications are put on the thread pool, a response is
recorded at once. Returns the node, the job if there is one, and the message. -/
def handleMessage (platform : Platform) (node : Node) (msg : String) (connection : Channel) :
    Node × Option Job × Except Exn Intermediate :=
  match Intermediate.parse platform msg with
  | .error raised => (node, none, .error raised)
  | .ok intermediate =>
    match classify platform.runtime intermediate with
    | .error raised => (node, none, .error raised)
    | .ok (some .request) => (node, some ⟨intermediate, false, connection⟩, .ok intermediate)
    | .ok (some .notification) => (node, some ⟨intermediate, true, connection⟩, .ok intermediate)
    | .ok (some .response) =>
      let handled := node.handleResponse platform.runtime intermediate
      (handled.1, none, handled.2.map fun _ => intermediate)
    | .ok none => (node, none, .ok intermediate)

/-- The job of a message, run: `handle_request` on the message with its kind. -/
def Job.run (platform : Platform) (sendMsg : String → Except Exn Unit) (node : Node) (job : Job) :
    Handled :=
  node.handleRequest platform sendMsg job.message job.notification job.connection

end Node

end Rjr
