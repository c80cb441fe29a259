import Rjr.Util.Extract

/-!
# Socket connections

`receive_data` of `TCPConnection` (`lib/rjr/nodes/tcp.rb`) and `UnixConnection`
(`lib/rjr/nodes/unix.rb`). A connection keeps the bytes it could not use yet in `@data`. The
buffer is updated before the message is handed to `handle_message`, in the same loop, so an
exception of `handle_message` leaves `receive_data` with the message already removed and the
rest of the buffer untouched; the reactor swallows the exception.
-/

namespace Rjr.Nodes

open JsonParser

/-- A connection: the messages it has passed to `handle_message` and its `@data`. -/
abbrev Connection := Receiver UInt8

/-- A connection as its initializer leaves it, with an empty buffer. -/
def Connection.new : Connection := ⟨[], []⟩

/-- Whether `handle_message` raises on its next message, given all earlier ones. -/
abbrev Raises := List Bytes → Bytes → Bool

/-- A `handle_message` that always returns. -/
def returns : Raises := fun _ _ => false

/-- The `while` loop of `receive_data`, for at most the given number of iterations. -/
def receiveLoop (raises : Raises) : Nat → Connection → Connection
  | 0, connection => connection
  | fuel + 1, connection =>
    match extractJsonFrom connection.data with
    | none => connection
    | some (msg, rest) =>
      -- `msg, @data = *extracted` comes before the call, which may not return
      let extracted : Connection := ⟨connection.calls ++ [msg], rest⟩
      if raises connection.calls msg then extracted else receiveLoop raises fuel extracted

/-- The body both socket nodes share: append the chunk, then extract while there is a message.
Every iteration removes at least one byte, so the buffer's length bounds the loop. -/
def socketReceiveData (raises : Raises) (connection : Connection) (data : Bytes) : Connection :=
  let buffer := connection.data ++ data
  receiveLoop raises buffer.length ⟨connection.calls, buffer⟩

/-- `TCPConnection#receive_data`. -/
def TCPConnection.receiveData (raises : Raises) (connection : Connection) (data : Bytes) :
    Connection := socketReceiveData raises connection data

/-- `UnixConnection#receive_data`. -/
def UnixConnection.receiveData (raises : Raises) (connection : Connection) (data : Bytes) :
    Connection := socketReceiveData raises connection data

/-- The chunks of a stream given to `receive_data` one after the other. -/
def receiveChunks (receiveData : Connection → Bytes → Connection) (connection : Connection)
    (chunks : List Bytes) : Connection :=
  chunks.foldl receiveData connection

/-- The loop is the draining loop of the message framer. -/
theorem receiveLoop_eq (raises : Raises) (fuel : Nat) (connection : Connection) :
    receiveLoop raises fuel connection = jsonFramer.drainFuel raises fuel connection := by
  induction fuel generalizing connection with
  | zero => rfl
  | succ fuel ih =>
    rw [receiveLoop, Framer.drainFuel, show jsonFramer.extract = extractJsonFrom from rfl]
    cases extractJsonFrom connection.data with
    | none => rfl
    | some cut => simp only [ih]

/-- The `while` loop of `receive_data` runs to its end, from one state of the connection to
another: it ends where `extract_json_from` returns `nil`, or with the exception of
`handle_message`. -/
abbrev LoopEnds (raises : Raises) : Connection → Connection → Prop := jsonFramer.Drains raises

/-- The iterations `socketReceiveData` allows are enough: its loop has run to its end. -/
theorem loopEnds_socketReceiveData (raises : Raises) (connection : Connection) (data : Bytes) :
    LoopEnds raises ⟨connection.calls, connection.data ++ data⟩
      (socketReceiveData raises connection data) := by
  have ends := jsonFramer.drains_drain raises ⟨connection.calls, connection.data ++ data⟩
  rw [socketReceiveData, receiveLoop_eq]
  exact ends

/-- Both connections receive a chunk as the message framer does. -/
theorem socketReceiveData_eq (raises : Raises) :
    socketReceiveData raises = jsonFramer.receive raises := by
  funext connection data
  exact receiveLoop_eq raises _ _

/-- Chunks given to either connection are received as the message framer receives them. -/
theorem receiveChunks_eq (raises : Raises) (connection : Connection) (chunks : List Bytes) :
    receiveChunks (TCPConnection.receiveData raises) connection chunks =
        jsonFramer.receiveAll raises connection chunks ∧
      receiveChunks (UnixConnection.receiveData raises) connection chunks =
        jsonFramer.receiveAll raises connection chunks := by
  have same := socketReceiveData_eq raises
  have tcp : TCPConnection.receiveData raises = jsonFramer.receive raises := same
  have unix : UnixConnection.receiveData raises = jsonFramer.receive raises := same
  exact ⟨by rw [receiveChunks, tcp]; rfl, by rw [receiveChunks, unix]; rfl⟩

end Rjr.Nodes
