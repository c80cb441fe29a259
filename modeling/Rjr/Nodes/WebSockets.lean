import Rjr.Nodes.Exchange

/-!
# Nodes connected by web sockets

The web socket nodes (`lib/rjr/nodes/ws.rb`) with the threads that call them. A block of `invoke`
or `notify` calls `init_client`. The first call for a uri opens a connection, lists it and leaves
its `on_init` to the callback that runs when the handshake with the server has completed; every
later one finds the connection listed and calls its `on_init` at once, even before the handshake.
Nothing is ever taken off the list. `send_msg` leaves its text to another block for the reactor.

A client has one connection for each uri, so an end stands for both. Frames arrive whole and in
order while the connection is open. A frame that is sent before the handshake has completed may
wait for it or be lost; one on a connection that has closed is lost.
-/

namespace Rjr.Nodes

/-- Nodes, their web sockets and the frames between them. -/
structure WebSockets (ι ε : Type) where
  /-- The nodes and their threads. -/
  hosts : Hosts ι ε
  /-- Blocks of `invoke` and `notify` for the reactor. -/
  scheduled : List (Outgoing ε)
  /-- `@connections` of all clients. -/
  connections : List ε
  /-- What the callbacks of connections will send when their handshakes complete. -/
  waiting : List (Outgoing ε)
  /-- Blocks of `send_msg` for the reactor. -/
  texts : List (Outgoing ε)
  /-- Whether the connection of an end has completed its handshake and not closed since. -/
  opened : ε → Bool
  /-- Frames on their way, with the end they will arrive at. -/
  frames : List (ε × String)
  /-- What will never arrive. -/
  dropped : List (ε × String)

/-- A step of a thread, of the reactor, or of a connection. -/
inductive WebSocketAction (ι ε : Type) where
  /-- A client thread calls `invoke`. -/
  | invoke (connection : ε) (id method : String) (args : List Json)
  /-- A thread calls `notify`. -/
  | notify (connection : ε) (method : String) (args : List Json)
  /-- A handler, or a thread it has started, calls `NodeCallback#notify`. -/
  | callback (connection : ε) (method : String) (data : List Json)
  /-- The reactor runs a block that calls `init_client`; `connect` returns or raises, should it be
  called. -/
  | run (index : Nat) (connects : Bool)
  /-- A handshake completes. -/
  | handshake (index : Nat)
  /-- A handshake fails. -/
  | failed (index : Nat)
  /-- The reactor runs a block of `send_msg`; `ws.send` returns or raises. -/
  | sendMsg (index : Nat) (sends : Bool)
  /-- A connection closes. -/
  | close (connection : ε)
  /-- A frame arrives. -/
  | receive (index : Nat)
  /-- A frame is lost. -/
  | lose (index : Nat)
  /-- A worker dispatches the job it has begun and answers it. -/
  | finish (index : Nat)
  /-- A step that sends nothing. -/
  | host (action : HostAction ι)

namespace WebSockets

variable {ι ε : Type}

/-- Nothing is connected. -/
def initial (nodes : ι → Node) : WebSockets ι ε where
  hosts := Hosts.new nodes
  scheduled := []
  connections := []
  waiting := []
  texts := []
  opened _ := false
  frames := []
  dropped := []

variable [DecidableEq ι] [DecidableEq ε] (platform : Platform) (wiring : Wiring ι ε)

/-- Both ends of a connection open or close. -/
def setOpened (sockets : WebSockets ι ε) (connection : ε) (opened : Bool) : WebSockets ι ε :=
  { sockets with
    opened := Function.update (Function.update sockets.opened connection opened)
      (wiring.opposite connection) opened }

/-- `c.send_msg` or `ws.send`: a message is written and sent as a frame. -/
def send (sockets : WebSockets ι ε) (message : Outgoing ε) : WebSockets ι ε :=
  { sockets with
    frames := sockets.frames ++ ((sockets.hosts.write platform wiring message).map fun text =>
      (wiring.opposite message.connection, text)).toList }

/-- A message will not be sent. -/
def drop (sockets : WebSockets ι ε) (message : Outgoing ε) : WebSockets ι ε :=
  { sockets with
    dropped := sockets.dropped ++ ((sockets.hosts.write platform wiring message).map fun text =>
      (wiring.opposite message.connection, text)).toList }

/-- `init_client` with the block of `invoke` or `notify` as its `on_init`. -/
def initClient (sockets : WebSockets ι ε) (message : Outgoing ε) (connects : Bool) :
    WebSockets ι ε :=
  if message.connection ∈ sockets.connections then sockets.send platform wiring message
  else if connects then
    { sockets with
      connections := sockets.connections ++ [message.connection]
      waiting := sockets.waiting ++ [message] }
  else sockets.drop platform wiring message

/-- The steps. -/
def step (sockets : WebSockets ι ε) : WebSocketAction ι ε → Option (WebSockets ι ε)
  | .invoke connection id method args =>
    (sockets.hosts.invoke wiring connection id method args).map fun (hosts, block) =>
      { sockets with hosts := hosts, scheduled := sockets.scheduled ++ [block] }
  | .notify connection method args =>
    some { sockets with
      scheduled := sockets.scheduled ++ [sockets.hosts.notify wiring connection method args] }
  | .callback connection method data =>
    (sockets.hosts.callback platform wiring connection method data).map fun block =>
      { sockets with texts := sockets.texts ++ [block] }
  | .run index connects =>
    sockets.scheduled[index]?.map fun message =>
      { sockets with scheduled := sockets.scheduled.eraseIdx index }.initClient platform wiring
        message connects
  | .handshake index =>
    sockets.waiting[index]?.map fun message =>
      ({ sockets with waiting := sockets.waiting.eraseIdx index }.setOpened wiring
        message.connection true).send platform wiring message
  | .failed index =>
    sockets.waiting[index]?.map fun message =>
      { sockets with waiting := sockets.waiting.eraseIdx index }.drop platform wiring message
  | .sendMsg index sends =>
    sockets.texts[index]?.map fun message =>
      let left := { sockets with texts := sockets.texts.eraseIdx index }
      if sends then left.send platform wiring message else left.drop platform wiring message
  | .close connection =>
    if sockets.opened connection then some (sockets.setOpened wiring connection false) else none
  | .receive index =>
    match sockets.frames[index]? with
    | none => none
    | some (connection, text) =>
      if sockets.opened connection ∧ ∀ frame ∈ sockets.frames.take index, frame.1 ≠ connection then
        some { sockets with
          hosts := (sockets.hosts.arrive platform wiring connection text).1
          frames := sockets.frames.eraseIdx index }
      else none
  | .lose index =>
    match sockets.frames[index]? with
    | none => none
    | some frame =>
      if sockets.opened frame.1 then none
      else some { sockets with
        frames := sockets.frames.eraseIdx index, dropped := sockets.dropped ++ [frame] }
  | .finish index =>
    (sockets.hosts.finish platform wiring index).map fun (hosts, answer) =>
      { sockets with hosts := hosts, texts := sockets.texts ++ answer.toList }
  | .host action =>
    (sockets.hosts.step platform wiring action).map fun hosts => { sockets with hosts := hosts }

/-- The nodes and their web sockets, in any interleaving. -/
def machine : Machine (WebSockets ι ε) (WebSocketAction ι ε) := ⟨step platform wiring⟩

end WebSockets

end Rjr.Nodes
