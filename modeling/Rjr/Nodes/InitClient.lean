import Rjr.Lib.Heap
import Rjr.Lib.Machine

/-!
# Connections of the socket nodes

How `TCP` (`lib/rjr/nodes/tcp.rb`) and `Unix` (`lib/rjr/nodes/unix.rb`) open and reuse
connections. Both keep them in `@connections` and search there for one to the destination before
they open another. A `TCPConnection` adds itself in its initializer, also when it was accepted,
and removes itself in `unbind`; a `UnixConnection` is added by `init_client` and has no `unbind`.
EventMachine runs all of this in its reactor thread and calls `unbind` once for a connection, when
it closes or fails to connect. A call of `EventMachine::connect` may raise; nothing is created
then.
-/

namespace Rjr.Nodes

/-- A connection object. -/
structure Socket (δ : Type) where
  /-- The destination it was opened to; an accepted connection has none. -/
  destination : Option δ
  /-- Whether EventMachine has called `unbind`. -/
  unbound : Bool
  deriving DecidableEq, Repr

/-- The connections of a node, and what it gave to its `on_init` blocks. -/
structure SocketNode (δ : Type) where
  /-- Every connection object. -/
  sockets : Heap (Socket δ)
  /-- `@connections`. -/
  connections : List Nat
  /-- The calls of `on_init`, with the destination asked for, oldest first. -/
  given : List (δ × Nat)

/-- What happens to the connections of a node. -/
inductive SocketEvent (δ : Type) where
  /-- `init_client` is called; `EventMachine::connect` returns or raises, should it be called. -/
  | initClient (destination : δ) (connects : Bool)
  /-- A connection is accepted. -/
  | accept
  /-- EventMachine calls `unbind`. -/
  | unbind (connection : Nat)
  deriving DecidableEq, Repr

namespace SocketNode

variable {δ : Type}

/-- A node without connections. -/
def new : SocketNode δ := ⟨Heap.new ⟨none, false⟩, [], []⟩

/-- A new connection object. -/
def create (node : SocketNode δ) (destination : Option δ) : Nat × SocketNode δ :=
  let created := node.sockets.alloc ⟨destination, false⟩
  (created.1, { node with sockets := created.2 })

/-- `connections << connection`. -/
def addConnection (node : SocketNode δ) (connection : Nat) : SocketNode δ :=
  { node with connections := node.connections ++ [connection] }

/-- `connections.delete(connection)`. -/
def removeConnection (node : SocketNode δ) (connection : Nat) : SocketNode δ :=
  { node with connections := node.connections.filter (· ≠ connection) }

/-- `on_init.call(connection)`. -/
def onInit (node : SocketNode δ) (destination : δ) (connection : Nat) : SocketNode δ :=
  { node with given := node.given ++ [(destination, connection)] }

/-- EventMachine has closed a connection. -/
def close (node : SocketNode δ) (connection : Nat) : SocketNode δ :=
  let socket := node.sockets.read connection
  { node with sockets := node.sockets.write connection { socket with unbound := true } }

variable [DecidableEq δ]

/-- `@connections.find`, by the destination. -/
def connectionTo (node : SocketNode δ) (destination : δ) : Option Nat :=
  node.connections.find? fun connection =>
    (node.sockets.read connection).destination = some destination

/-- The body both `init_client` share, with how the class opens and lists a connection. -/
def initClient (connect : SocketNode δ → δ → Nat × SocketNode δ) (node : SocketNode δ)
    (destination : δ) (connects : Bool) : SocketNode δ :=
  match node.connectionTo destination with
  | some connection => node.onInit destination connection
  | none =>
    if connects then
      let opened := connect node destination
      opened.2.onInit destination opened.1
    else node

end SocketNode

/-- The connection handling of a node class. -/
structure SocketClass (δ : Type) where
  /-- `init_client`. -/
  initClient : SocketNode δ → δ → Bool → SocketNode δ
  /-- A connection is accepted. -/
  accept : SocketNode δ → SocketNode δ
  /-- `unbind` of the connection class. -/
  unbind : SocketNode δ → Nat → SocketNode δ

/-! ## TCP, by host and port -/

/-- `TCPConnection#initialize`: the connection adds itself. -/
def TCPConnection.new (node : SocketNode (String × Nat)) (destination : Option (String × Nat)) :
    Nat × SocketNode (String × Nat) :=
  let created := node.create destination
  (created.1, created.2.addConnection created.1)

/-- `TCPConnection#unbind`. -/
def TCPConnection.unbind (node : SocketNode (String × Nat)) (connection : Nat) :
    SocketNode (String × Nat) := (node.close connection).removeConnection connection

/-- `TCP#init_client`. -/
def TCP.initClient : SocketNode (String × Nat) → String × Nat → Bool →
    SocketNode (String × Nat) :=
  SocketNode.initClient fun node destination => TCPConnection.new node (some destination)

/-- The TCP node. -/
def TCP : SocketClass (String × Nat) where
  initClient := TCP.initClient
  accept node := (TCPConnection.new node none).2
  unbind := TCPConnection.unbind

/-! ## Unix sockets, by name -/

/-- `UnixConnection#initialize`. -/
def UnixConnection.new (node : SocketNode String) (destination : Option String) :
    Nat × SocketNode String := node.create destination

/-- `unbind` of EventMachine, which `UnixConnection` does not override. -/
def UnixConnection.unbind (node : SocketNode String) (connection : Nat) : SocketNode String :=
  node.close connection

/-- `Unix#init_client`: a new connection is listed here. -/
def Unix.initClient : SocketNode String → String → Bool → SocketNode String :=
  SocketNode.initClient fun node destination =>
    let opened := UnixConnection.new node (some destination)
    (opened.1, opened.2.addConnection opened.1)

/-- The Unix node. -/
def Unix : SocketClass String where
  initClient := Unix.initClient
  accept node := (UnixConnection.new node none).2
  unbind := UnixConnection.unbind

namespace SocketClass

variable {δ : Type} (cls : SocketClass δ)

/-- The events. Only a connection that exists and was not unbound is unbound. -/
def step (node : SocketNode δ) : SocketEvent δ → Option (SocketNode δ)
  | .initClient destination connects => some (cls.initClient node destination connects)
  | .accept => some (cls.accept node)
  | .unbind connection =>
    if connection < node.sockets.next ∧ (node.sockets.read connection).unbound = false then
      some (cls.unbind node connection)
    else none

/-- A node of the class, in any sequence of events. -/
def machine : Machine (SocketNode δ) (SocketEvent δ) := ⟨cls.step⟩

end SocketClass

end Rjr.Nodes
