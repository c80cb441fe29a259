import Rjr.Lib.Heap
import Rjr.Lib.Machine

/-!
# Connections of the web socket node

`init_client` of `lib/rjr/nodes/ws.rb`. A connection is listed as soon as
`EventMachine::WebSocketClient.connect` returns, which is before the handshake with the server
has completed; `on_init` is then left to the callback of the connection. A later call for the same
uri finds the listed connection and calls its `on_init` at once. EventMachine runs the callback of
a connection once, when its handshake completes. A call of `connect` may raise; nothing is created
then. Calls of `init_client` are numbered in their order.
-/

namespace Rjr.Nodes

/-- An `EventMachine::WebSocketClient`. -/
structure WSConnection where
  /-- The uri it was opened to. -/
  url : String
  /-- The call of `init_client` whose `on_init` is its callback. -/
  callback : Nat
  /-- Whether the handshake has completed. -/
  established : Bool
  deriving DecidableEq, Repr

/-- The connections of a `WS` node, and its calls of `init_client` and `on_init`. -/
structure WS where
  /-- Every connection object. -/
  sockets : Heap WSConnection
  /-- `@connections`. -/
  connections : List Nat
  /-- What the calls of `init_client` returned, if they did, oldest first. -/
  calls : List (Option Nat)
  /-- The calls of `on_init`, by the call of `init_client` it was given to and the connection it
  was given, oldest first. -/
  inits : List (Nat × Nat)

/-- What happens to the connections of the node. -/
inductive WSEvent where
  /-- `init_client` is called; `connect` returns or raises, should it be called. -/
  | initClient (uri : String) (connects : Bool)
  /-- The handshake of a connection completes. -/
  | handshake (connection : Nat)
  deriving DecidableEq, Repr

namespace WS

/-- A node without connections. -/
def new : WS := ⟨Heap.new ⟨"", 0, false⟩, [], [], []⟩

/-- `@connections.find { |c| c.url == uri }`. -/
def connectionTo (node : WS) (uri : String) : Option Nat :=
  node.connections.find? fun connection => (node.sockets.read connection).url = uri

/-- `on_init.call(connection)`, for the `on_init` of a call of `init_client`. -/
def onInit (node : WS) (call connection : Nat) : WS :=
  { node with inits := node.inits ++ [(call, connection)] }

/-- A call of `init_client` ends. -/
def finish (node : WS) (outcome : Option Nat) : WS := { node with calls := node.calls ++ [outcome] }

/-- `connect(uri)` with the callback of the current call, and `@connections << connection`. -/
def connect (node : WS) (uri : String) : Nat × WS :=
  let created := node.sockets.alloc ⟨uri, node.calls.length, false⟩
  (created.1, { node with
    sockets := created.2, connections := node.connections ++ [created.1] })

/-- `WS#init_client`. -/
def initClient (node : WS) (uri : String) (connects : Bool) : WS :=
  match node.connectionTo uri with
  | some connection => (node.onInit node.calls.length connection).finish (some connection)
  | none =>
    if connects then
      let opened := node.connect uri
      opened.2.finish (some opened.1)
    else node.finish none

/-- The handshake of a connection completes, and its callback is run. -/
def handshake (node : WS) (connection : Nat) : WS :=
  let socket := node.sockets.read connection
  { node with sockets := node.sockets.write connection { socket with established := true } }.onInit
    socket.callback connection

/-- The events. A connection that exists completes its handshake at most once. -/
def step (node : WS) : WSEvent → Option WS
  | .initClient uri connects => some (node.initClient uri connects)
  | .handshake connection =>
    if connection < node.sockets.next ∧ (node.sockets.read connection).established = false then
      some (node.handshake connection)
    else none

/-- The node, in any sequence of events. -/
def machine : Machine WS WSEvent := ⟨step⟩

/-- What an event does. -/
inductive Stepped (node : WS) : WSEvent → WS → Prop where
  /-- The listed connection to the uri is given to `on_init`. -/
  | reuse (uri : String) (connects : Bool) (connection : Nat)
      (found : node.connectionTo uri = some connection) :
      Stepped node (.initClient uri connects)
        ((node.onInit node.calls.length connection).finish (some connection))
  /-- A connection is opened and listed. -/
  | connected (uri : String) (missing : node.connectionTo uri = none) :
      Stepped node (.initClient uri true) ((node.connect uri).2.finish (some (node.connect uri).1))
  /-- `connect` raises. -/
  | raised (uri : String) (missing : node.connectionTo uri = none) :
      Stepped node (.initClient uri false) (node.finish none)
  /-- A handshake completes. -/
  | handshake (connection : Nat) (known : connection < node.sockets.next)
      (fresh : (node.sockets.read connection).established = false) :
      Stepped node (.handshake connection) (node.handshake connection)

/-- An event does one of these things. -/
theorem step_cases {node next : WS} {event : WSEvent} (stepped : node.step event = some next) :
    Stepped node event next := by
  cases event with
  | initClient uri connects =>
    rw [step, Option.some.injEq] at stepped
    subst stepped
    rw [initClient]
    cases found : node.connectionTo uri with
    | some connection => exact .reuse uri connects connection found
    | none =>
      cases connects with
      | true => exact .connected uri found
      | false => exact .raised uri found
  | handshake connection =>
    rw [step, Option.ite_none_right_eq_some, Option.some.injEq] at stepped
    obtain ⟨⟨known, fresh⟩, rfl⟩ := stepped
    exact .handshake connection known fresh

end WS

end Rjr.Nodes
