import Rjr.Nodes.Connection
import Rjr.Nodes.Exchange

/-!
# Nodes connected by sockets

The TCP and Unix nodes (`lib/rjr/nodes/tcp.rb`, `lib/rjr/nodes/unix.rb`). A text is sent as its
bytes. The other end receives the bytes in order, in chunks of any size: `receive_data` appends a
chunk to the connection's `@data` and then repeats one iteration that cuts a message off and hands
it to `handle_message`. Each iteration is a step of its own here, since other threads run between
them. An end may be closed at any time; what is on its way to it is lost then, and nothing that is
sent on the connection afterwards arrives.
-/

namespace Rjr.Nodes

open JsonParser

/-- How strings are written to a socket and read back, for the texts of a `json` library. -/
structure Encoding (lib : JsonLib) where
  /-- The bytes of a string. -/
  encode : String → Bytes
  /-- The string of received bytes. -/
  decode : Bytes → String
  /-- A string is read back. -/
  decode_encode : ∀ text, decode (encode text) = text
  /-- The bytes of a hash that can be sent are one message. -/
  framed : ∀ members text, (Json.obj members).plain lib.createId = true →
    lib.generate (.obj members) = .ok text →
      extractJsonFrom (encode text) = some (encode text, [])

/-- Nodes, their connections and the bytes between them. -/
structure Sockets (ι ε : Type) where
  /-- The nodes and their threads. -/
  hosts : Hosts ι ε
  /-- What waits to be sent, oldest first. -/
  scheduled : List (Outgoing ε)
  /-- Bytes on their way to an end. -/
  stream : ε → Bytes
  /-- `@data` of the connection at an end. -/
  data : ε → Bytes
  /-- Whether `receive_data` is in its loop. -/
  receiving : ε → Bool
  /-- Whether the connection was closed at an end. -/
  closed : ε → Bool

/-- A step of a thread, of the reactor, or of a connection. -/
inductive SocketAction (ι ε : Type) where
  /-- A client thread calls `invoke`. -/
  | invoke (connection : ε) (id method : String) (args : List Json)
  /-- A thread calls `notify`. -/
  | notify (connection : ε) (method : String) (args : List Json)
  /-- A handler, or a thread it has started, calls `NodeCallback#notify`. -/
  | callback (connection : ε) (method : String) (data : List Json)
  /-- Something that waits to be sent is sent. -/
  | transmit (index : Nat)
  /-- `receive_data` is called with the next bytes. -/
  | receive (connection : ε) (count : Nat)
  /-- One iteration of the loop of `receive_data`. -/
  | extract (connection : ε)
  /-- A connection is closed at an end. -/
  | close (connection : ε)
  /-- A worker dispatches the job it has begun and answers it. -/
  | finish (index : Nat)
  /-- A step that sends nothing. -/
  | host (action : HostAction ι)

namespace Sockets

variable {ι ε : Type}

/-- Nothing has been sent, and all connections are open. -/
def initial (nodes : ι → Node) : Sockets ι ε :=
  ⟨Hosts.new nodes, [], fun _ => [], fun _ => [], fun _ => false, fun _ => false⟩

variable [DecidableEq ι] [DecidableEq ε] (platform : Platform) (wiring : Wiring ι ε)
  (encoding : Encoding platform.json)

/-- `send_data` on an end. A connection that was closed at either end carries nothing. -/
def send (sockets : Sockets ι ε) (connection : ε) (text : String) : Sockets ι ε :=
  let other := wiring.opposite connection
  if sockets.closed connection || sockets.closed other then sockets
  else { sockets with
    stream := Function.update sockets.stream other
      (sockets.stream other ++ encoding.encode text) }

/-- One iteration of the loop of `receive_data`: it ends without a message, and with an exception
of `handle_message`. -/
def iterate (sockets : Sockets ι ε) (connection : ε) : Sockets ι ε :=
  match extractJsonFrom (sockets.data connection) with
  | none => { sockets with receiving := Function.update sockets.receiving connection false }
  | some (msg, rest) =>
    let arrived := sockets.hosts.arrive platform wiring connection (encoding.decode msg)
    { sockets with
      hosts := arrived.1
      data := Function.update sockets.data connection rest
      receiving := Function.update sockets.receiving connection arrived.2 }

/-- The steps. -/
def step (sockets : Sockets ι ε) : SocketAction ι ε → Option (Sockets ι ε)
  | .invoke connection id method args =>
    (sockets.hosts.invoke wiring connection id method args).map fun (hosts, block) =>
      { sockets with hosts := hosts, scheduled := sockets.scheduled ++ [block] }
  | .notify connection method args =>
    some { sockets with
      scheduled := sockets.scheduled ++ [sockets.hosts.notify wiring connection method args] }
  | .callback connection method data =>
    (sockets.hosts.callback platform wiring connection method data).map fun block =>
      { sockets with scheduled := sockets.scheduled ++ [block] }
  | .transmit index =>
    sockets.scheduled[index]?.map fun block =>
      let left := { sockets with scheduled := sockets.scheduled.eraseIdx index }
      match sockets.hosts.write platform wiring block with
      | none => left
      | some text => left.send platform wiring encoding block.connection text
  | .receive connection count =>
    if sockets.receiving connection || sockets.closed connection then none
    else some { sockets with
      stream := Function.update sockets.stream connection
        ((sockets.stream connection).drop count)
      data := Function.update sockets.data connection
        (sockets.data connection ++ (sockets.stream connection).take count)
      receiving := Function.update sockets.receiving connection true }
  | .extract connection =>
    if sockets.receiving connection then
      some (sockets.iterate platform wiring encoding connection)
    else none
  | .close connection =>
    if sockets.receiving connection then none
    else some { sockets with
      stream := Function.update sockets.stream connection []
      data := Function.update sockets.data connection []
      closed := Function.update sockets.closed connection true }
  | .finish index =>
    (sockets.hosts.finish platform wiring index).map fun (hosts, answer) =>
      { sockets with hosts := hosts, scheduled := sockets.scheduled ++ answer.toList }
  | .host action =>
    (sockets.hosts.step platform wiring action).map fun hosts => { sockets with hosts := hosts }

/-- The nodes and their sockets, in any interleaving. -/
def machine : Machine (Sockets ι ε) (SocketAction ι ε) := ⟨step platform wiring encoding⟩

end Sockets

end Rjr.Nodes
