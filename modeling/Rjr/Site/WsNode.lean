import Rjr.Lib.Heap
import Rjr.Lib.Machine
import Rjr.Site.JRMessage

/-!
# The websocket node of the browser

`RJR.WsNode` of `site/jrw.js`, with the sockets it opens and the events the browser delivers. A
request is kept in `messages` under its id until a message with that id arrives; the same table is
what a socket sends when it opens. What the node calls is recorded in order: `send` on a socket,
with the state the socket was in, and the functions a client registers, which are taken to return.
An exception ends the handler it occurs in, and the browser goes on with the next event.
-/

namespace Rjr.Site

open JRMessage

/-- The state of a socket; one that was closed before it opened is told apart. -/
inductive SocketState where
  /-- `CONNECTING`. -/
  | connecting
  /-- `CLOSING`, after `close` was called on a connecting socket. -/
  | aborted
  /-- `OPEN`. -/
  | ready
  /-- `CLOSING`, after `close` was called on an open socket. -/
  | closing
  /-- `CLOSED`. -/
  | closed
  deriving DecidableEq, Repr

namespace SocketState

/-- The state after `close`. -/
def close : SocketState → SocketState
  | .connecting => .aborted
  | .ready => .closing
  | state => state

/-- A socket that has opened and not closed. -/
def live : SocketState → Bool
  | .ready | .closing => true
  | _ => false

end SocketState

/-- The functions a client has registered on the node. -/
structure Client where
  /-- `onopen`. -/
  onopen : Bool
  /-- `onclose`. -/
  onclose : Bool
  /-- `onerror`. -/
  onerror : Bool
  /-- `message_received`. -/
  messageReceived : Bool
  deriving DecidableEq, Repr

/-- What the node calls, and the exceptions that end its handlers. -/
inductive Call where
  /-- `send` with a request, on a socket in a state. -/
  | send (request socket : Nat) (state : SocketState)
  /-- `onresponse` of a request. -/
  | onresponse (request : Nat) (message : JRMessage)
  /-- `onerror`, with a message or with an event of a socket. -/
  | onerror (message : Option JRMessage)
  /-- `message_received`. -/
  | messageReceived (message : JRMessage)
  /-- `onopen`. -/
  | onopen
  /-- `onclose`. -/
  | onclose
  /-- An exception. -/
  | thrown (error : Thrown)
  deriving DecidableEq

/-- Whether a call is an exception. -/
def Call.isThrown : Call → Bool
  | .thrown _ => true
  | _ => false

/-- `RJR.WsNode`, with the sockets and the requests it has made. -/
structure WsNode where
  /-- `opening`. -/
  opening : Bool := false
  /-- `opened`. -/
  opened : Bool := false
  /-- `node_id`. -/
  nodeId : Json := .null
  /-- `headers`, which all requests of the node share. -/
  headers : OrderedHash String Json := OrderedHash.empty
  /-- `messages`: the requests by their ids. -/
  messages : OrderedHash String Nat := OrderedHash.empty
  /-- `socket`. -/
  socket : Option Nat := none
  /-- Every request. -/
  requests : Heap JRMessage := Heap.new {}
  /-- The state of every socket. -/
  sockets : Heap SocketState := Heap.new .closed
  /-- What was called, oldest first. -/
  calls : List Call := []

/-- What can happen to a node. -/
inductive WsAction where
  /-- `open`; the constructor of the socket returns or throws, should it be called. -/
  | openSocket (constructs : Bool)
  /-- `invoke`, with the random bits of the new id. -/
  | invoke (bits : Fin 8 → Fin 0x10000) (args : List Argument)
  /-- `close`. -/
  | close
  /-- A socket has opened. -/
  | socketOpened (socket : Nat)
  /-- A socket has closed. -/
  | socketClosed (socket : Nat)
  /-- A socket reports an error. -/
  | socketFailed (socket : Nat)
  /-- A text has arrived on a socket. -/
  | socketMessage (socket : Nat) (json : String)

namespace WsNode

/-- Further calls. -/
def record (node : WsNode) (calls : List Call) : WsNode :=
  { node with calls := node.calls ++ calls }

section Record

variable (node : WsNode) (calls : List Call)

@[simp]
theorem record_messages : (node.record calls).messages = node.messages := rfl

@[simp]
theorem record_requests : (node.record calls).requests = node.requests := rfl

@[simp]
theorem record_calls : (node.record calls).calls = node.calls ++ calls := rfl

end Record

/-- The state of a socket changes. -/
def setSocket (node : WsNode) (socket : Nat) (state : SocketState) : WsNode :=
  { node with sockets := node.sockets.write socket state }

/-- `open`. -/
def openSocket (node : WsNode) (constructs : Bool) : WsNode :=
  if node.opening then node
  else if constructs then
    let created := node.sockets.alloc .connecting
    { node with opening := true, socket := some created.1, sockets := created.2 }
  else { node with opening := true }.record [.thrown .syntaxError]

/-- `close`. -/
def close (node : WsNode) : WsNode :=
  match node.socket with
  | some socket => node.setSocket socket (node.sockets.read socket).close
  | none => node

/-- A new request is stored in `messages` under its id. -/
def store (node : WsNode) (bits : Fin 8 → Fin 0x10000) (args : List Argument) : WsNode :=
  let request := requestForNode node.headers node.nodeId bits args
  let created := node.requests.alloc request
  { node with
    headers := request.headers
    requests := created.2
    messages := if guid bits = "__proto__" then node.messages
      else node.messages.put (guid bits) created.1 }

section Handlers

variable (engine : Engine) (native : NativeJson) (client : Client)

/-- `this.socket.send(req.to_json())`. A socket that is closing or closed drops what is sent, and
one that is connecting throws. -/
def send (node : WsNode) (request : Nat) : List Call :=
  match toJson engine native { node.requests.read request with headers := node.headers } with
  | .error thrown => [.thrown thrown]
  | .ok _ =>
    match node.socket with
    | none => [.thrown .typeError]
    | some socket =>
      let state := node.sockets.read socket
      .send request socket state ::
        if state = .connecting then [.thrown .invalidStateError] else []

/-- Requests are sent in turn, up to the first exception. -/
def sendAll (node : WsNode) : List Nat → List Call
  | [] => []
  | request :: rest =>
    let calls := send engine native node request
    if calls.any Call.isThrown then calls else calls ++ sendAll node rest

/-- `invoke`: the request is stored, and sent if the node is open. -/
def invoke (node : WsNode) (bits : Fin 8 → Fin 0x10000) (args : List Argument) : WsNode :=
  let stored := node.store bits args
  if stored.opened then stored.record (send engine native stored node.requests.next) else stored

/-- `_socket_open`. -/
def socketOpen (node : WsNode) : WsNode :=
  let opened := { node with opened := true, opening := false }
  let sent := sendAll engine native opened (opened.messages.entries.map Prod.snd)
  opened.record (sent ++ if !sent.any Call.isThrown && client.onopen then [.onopen] else [])

/-- `_socket_close`. -/
def socketClose (node : WsNode) : WsNode :=
  node.record (if client.onclose then [.onclose] else [])

/-- `_socket_err`. -/
def socketErr (node : WsNode) : WsNode :=
  node.record (if client.onerror then [.onerror none] else [])

/-- A value as the name of a member. -/
def memberName : Json → String
  | .str text => text
  | value => engine.text value

/-- `handle_response` of a request. -/
def handleResponse (node : WsNode) (request : Nat) (message : JRMessage) : List Call :=
  if (node.requests.read request).onresponse then [.onresponse request message] else []

/-- The error of a response is given to `onerror`. -/
def reportError (message : JRMessage) : List Call :=
  if truthy message.error && client.onerror then [.onerror (some message)] else []

/-- A message is given to `message_received`. -/
def passOn (message : JRMessage) : List Call :=
  if client.messageReceived then [.messageReceived message] else []

/-- `delete this.messages[name]`. -/
def forget (node : WsNode) (name : String) : WsNode :=
  { node with messages := node.messages.select fun entry => entry.1 != name }

/-- `_socket_msg`, for a message that was parsed. A name that `messages` has from its prototype is
not that of a request, and neither that nor `undefined` has a `handle_response`. -/
def handleMessage (node : WsNode) (message : JRMessage) : WsNode :=
  if truthy message.id then
    match node.messages.get? (memberName engine message.id) with
    | none => node.record [.thrown .typeError]
    | some request => (node.forget (memberName engine message.id)).record
        (node.handleResponse request message ++ reportError client message ++
          passOn client message)
  else node.record (passOn client message)

/-- `_socket_msg`. -/
def socketMsg (node : WsNode) (json : String) : WsNode :=
  match JRMessage.parse engine native json with
  | .error thrown => node.record [.thrown thrown]
  | .ok message => handleMessage engine client node message

/-- One thing happens. A socket opens once, closes once, and hands over a text only while it is
open. -/
def step (node : WsNode) : WsAction → Option WsNode
  | .openSocket constructs => some (node.openSocket constructs)
  | .invoke bits args => some (invoke engine native node bits args)
  | .close => some node.close
  | .socketOpened socket =>
    if node.sockets.read socket = .connecting then
      some (socketOpen engine native client (node.setSocket socket .ready))
    else none
  | .socketClosed socket =>
    if node.sockets.read socket ≠ .closed then
      some (socketClose client (node.setSocket socket .closed))
    else none
  | .socketFailed socket =>
    if node.sockets.read socket ≠ .closed then some (socketErr client node) else none
  | .socketMessage socket json =>
    if node.sockets.read socket = .ready then some (socketMsg engine native client node json)
    else none

/-- A node and its browser. -/
def machine : Machine WsNode WsAction := ⟨step engine native client⟩

end Handlers

/-! ## What a step does -/

section Steps

variable (engine : Engine) (native : NativeJson) (client : Client)

/-- Everything a step can do, with what it depends on. -/
inductive Stepped (node : WsNode) : WsAction → WsNode → Prop where
  /-- `open` does nothing while a socket is being opened. -/
  | openIgnored (constructs : Bool) : node.opening = true →
      Stepped node (.openSocket constructs) node
  /-- `open` opens a socket. -/
  | openConstructed : node.opening = false →
      Stepped node (.openSocket true) { node with
        opening := true, socket := some node.sockets.next,
        sockets := (node.sockets.alloc .connecting).2 }
  /-- `open` fails to construct a socket. -/
  | openRefused : node.opening = false →
      Stepped node (.openSocket false)
        ({ node with opening := true }.record [.thrown .syntaxError])
  /-- `invoke` stores a request, and sends it if the node is open. -/
  | invoked (bits : Fin 8 → Fin 0x10000) (args : List Argument) :
      Stepped node (.invoke bits args) ((node.store bits args).record
        (if node.opened then send engine native (node.store bits args) node.requests.next else []))
  /-- `close` without a socket. -/
  | closeIgnored : node.socket = none → Stepped node .close node
  /-- `close` closes the socket. -/
  | closeCalled (socket : Nat) : node.socket = some socket →
      Stepped node .close (node.setSocket socket (node.sockets.read socket).close)
  /-- A socket has opened. -/
  | opened (socket : Nat) : node.sockets.read socket = .connecting →
      Stepped node (.socketOpened socket)
        (socketOpen engine native client (node.setSocket socket .ready))
  /-- A socket has closed. -/
  | closed (socket : Nat) : node.sockets.read socket ≠ .closed →
      Stepped node (.socketClosed socket) (socketClose client (node.setSocket socket .closed))
  /-- A socket reports an error. -/
  | failed (socket : Nat) : Stepped node (.socketFailed socket) (socketErr client node)
  /-- A text that is not a message arrives. -/
  | unparsed (socket : Nat) (json : String) (error : Thrown) :
      JRMessage.parse engine native json = .error error →
      Stepped node (.socketMessage socket json) (node.record [.thrown error])
  /-- A message without an id arrives. -/
  | notified (socket : Nat) (json : String) (message : JRMessage) :
      JRMessage.parse engine native json = .ok message → truthy message.id = false →
      Stepped node (.socketMessage socket json) (node.record (passOn client message))
  /-- A message arrives whose id is not in the table. -/
  | unmatched (socket : Nat) (json : String) (message : JRMessage) :
      JRMessage.parse engine native json = .ok message → truthy message.id = true →
      node.messages.get? (memberName engine message.id) = none →
      Stepped node (.socketMessage socket json) (node.record [.thrown .typeError])
  /-- A message arrives whose id is in the table. -/
  | matched (socket : Nat) (json : String) (message : JRMessage) (request : Nat) :
      JRMessage.parse engine native json = .ok message → truthy message.id = true →
      node.messages.get? (memberName engine message.id) = some request →
      Stepped node (.socketMessage socket json)
        ((node.forget (memberName engine message.id)).record
          (node.handleResponse request message ++ reportError client message ++
            passOn client message))

variable {engine native client}

/-- Every transition is one of these. -/
theorem step_cases {node next : WsNode} {action : WsAction}
    (stepped : (machine engine native client).step node action = some next) :
    Stepped engine native client node action next := by
  change step engine native client node action = some next at stepped
  cases action with
  | openSocket constructs =>
    cases stepped
    unfold openSocket
    cases opening : node.opening with
    | true => exact .openIgnored constructs opening
    | false =>
      cases constructs with
      | true => exact .openConstructed opening
      | false => exact .openRefused opening
  | invoke bits args =>
    have unfolded : invoke engine native node bits args = (node.store bits args).record
        (if node.opened then send engine native (node.store bits args) node.requests.next
          else []) := by
      unfold invoke
      change (if node.opened then _ else _) = _
      split
      · rfl
      · rw [record, List.append_nil]
    cases stepped
    rw [unfolded]
    exact .invoked bits args
  | close =>
    cases stepped
    unfold close
    cases socket : node.socket with
    | none => exact .closeIgnored socket
    | some current => exact .closeCalled current socket
  | socketOpened socket =>
    obtain ⟨connecting, ⟨⟩⟩ := Option.ite_none_right_eq_some.mp stepped
    exact .opened socket connecting
  | socketClosed socket =>
    obtain ⟨notClosed, ⟨⟩⟩ := Option.ite_none_right_eq_some.mp stepped
    exact .closed socket notClosed
  | socketFailed socket =>
    obtain ⟨-, ⟨⟩⟩ := Option.ite_none_right_eq_some.mp stepped
    exact .failed socket
  | socketMessage socket json =>
    obtain ⟨-, ⟨⟩⟩ := Option.ite_none_right_eq_some.mp stepped
    unfold socketMsg
    cases parsed : JRMessage.parse engine native json with
    | error thrown => exact .unparsed socket json thrown parsed
    | ok message =>
      change Stepped engine native client node _ (handleMessage engine client node message)
      unfold handleMessage
      cases named : truthy message.id with
      | false => exact .notified socket json message parsed named
      | true =>
        cases found : node.messages.get? (memberName engine message.id) with
        | none => exact .unmatched socket json message parsed named found
        | some request => exact .matched socket json message request parsed named found

end Steps

/-! ## The table of requests -/

/-- The requests in `messages` exist and are listed under their own ids. -/
def Registered (node : WsNode) : Prop :=
  ∀ id request, node.messages.get? id = some request →
    request < node.requests.next ∧ (node.requests.read request).id = .str id

/-- The table after a request is stored. -/
theorem store_messages (node : WsNode) (bits : Fin 8 → Fin 0x10000) (args : List Argument) :
    (node.store bits args).messages = node.messages.put (guid bits) node.requests.next := by
  simp only [store, guid_ne_proto, if_false, Heap.alloc]

/-- A node with the same table and the same requests is registered alike. -/
theorem Registered.of_eq {node next : WsNode} (registered : Registered node)
    (messages : next.messages = node.messages) (requests : next.requests = node.requests) :
    Registered next := by
  intro id request found
  rw [messages] at found
  rw [requests]
  exact registered id request found

/-- Calls do not change the table. -/
theorem Registered.record {node : WsNode} (registered : Registered node) (calls : List Call) :
    Registered (node.record calls) := registered.of_eq rfl rfl

/-- Storing a request keeps the table registered. -/
theorem Registered.store {node : WsNode} (registered : Registered node)
    (bits : Fin 8 → Fin 0x10000) (args : List Argument) : Registered (node.store bits args) := by
  intro id request found
  rw [store_messages, OrderedHash.get?_put] at found
  change request < node.requests.next + 1 ∧
    ((node.requests.alloc (requestForNode node.headers node.nodeId bits args)).2.read request).id =
      .str id
  rw [Heap.read_alloc_eq]
  by_cases same : id = guid bits
  · rw [if_pos same] at found
    cases found
    rw [if_pos rfl, same]
    exact ⟨Nat.lt_succ_self _, rfl⟩
  · rw [if_neg same] at found
    obtain ⟨known, own⟩ := registered id request found
    rw [if_neg (Nat.ne_of_lt known)]
    exact ⟨Nat.lt_succ_of_lt known, own⟩

/-- Taking out an entry keeps the table registered. -/
theorem Registered.forget {node : WsNode} (registered : Registered node) (name : String) :
    Registered (node.forget name) := by
  intro id request found
  exact registered id request ((node.messages.get?_select_eq_some_iff _ id request).mp found).1

/-- Every step keeps the table registered. -/
theorem registered_step {engine : Engine} {native : NativeJson} {client : Client}
    {node next : WsNode} {action : WsAction} (registered : Registered node)
    (stepped : (machine engine native client).step node action = some next) :
    Registered next := by
  cases step_cases stepped with
  | invoked bits args => exact (registered.store bits args).record _
  | matched socket json message request =>
    exact (registered.forget (memberName engine message.id)).record _
  | _ => exact registered.of_eq rfl rfl

end WsNode

end Rjr.Site
