import Rjr.Nodes.Persistent

/-!
# Nodes that exchange whole texts

The transport as the nodes see it: a text that is sent arrives whole, once, at the other end, or
it is lost. Texts may overtake each other. The transports of the library are compared with this
one: sockets deliver bytes in chunks of any size, and a broker keeps texts in queues.
-/

namespace Rjr.Nodes

/-- Nodes and the texts between them. -/
structure Exchange (ι ε : Type) where
  /-- The nodes and their threads. -/
  hosts : Hosts ι ε
  /-- What waits to be sent, oldest first. -/
  scheduled : List (Outgoing ε)
  /-- Texts on their way, with the end they will arrive at. -/
  inFlight : List (ε × String)
  /-- Texts that were lost. -/
  lost : List (ε × String)

/-- A step of a thread, of the reactor, or of the transport. -/
inductive ExchangeAction (ι ε : Type) where
  /-- A client thread calls `invoke`. -/
  | invoke (connection : ε) (id method : String) (args : List Json)
  /-- A thread calls `notify`. -/
  | notify (connection : ε) (method : String) (args : List Json)
  /-- A handler, or a thread it has started, calls `NodeCallback#notify`. -/
  | callback (connection : ε) (method : String) (data : List Json)
  /-- Something that waits to be sent is sent. -/
  | transmit (index : Nat)
  /-- A text arrives. -/
  | deliver (index : Nat)
  /-- A text is lost. -/
  | lose (index : Nat)
  /-- A worker dispatches the job it has begun and answers it. -/
  | finish (index : Nat)
  /-- A step that sends nothing. -/
  | host (action : HostAction ι)

namespace Exchange

variable {ι ε : Type}

/-- Nothing has been sent. -/
def initial (nodes : ι → Node) : Exchange ι ε := ⟨Hosts.new nodes, [], [], []⟩

variable [DecidableEq ι] (platform : Platform) (wiring : Wiring ι ε)

/-- The steps. -/
def step (exchange : Exchange ι ε) : ExchangeAction ι ε → Option (Exchange ι ε)
  | .invoke connection id method args =>
    (exchange.hosts.invoke wiring connection id method args).map fun (hosts, block) =>
      { exchange with hosts := hosts, scheduled := exchange.scheduled ++ [block] }
  | .notify connection method args =>
    some { exchange with
      scheduled := exchange.scheduled ++ [exchange.hosts.notify wiring connection method args] }
  | .callback connection method data =>
    (exchange.hosts.callback platform wiring connection method data).map fun block =>
      { exchange with scheduled := exchange.scheduled ++ [block] }
  | .transmit index =>
    exchange.scheduled[index]?.map fun block =>
      { exchange with
        scheduled := exchange.scheduled.eraseIdx index
        inFlight := exchange.inFlight ++ ((exchange.hosts.write platform wiring block).map
          fun text => (wiring.opposite block.connection, text)).toList }
  | .deliver index =>
    exchange.inFlight[index]?.map fun (connection, text) =>
      { exchange with
        hosts := (exchange.hosts.arrive platform wiring connection text).1
        inFlight := exchange.inFlight.eraseIdx index }
  | .lose index =>
    exchange.inFlight[index]?.map fun text =>
      { exchange with
        inFlight := exchange.inFlight.eraseIdx index
        lost := exchange.lost ++ [text] }
  | .finish index =>
    (exchange.hosts.finish platform wiring index).map fun (hosts, answer) =>
      { exchange with hosts := hosts, scheduled := exchange.scheduled ++ answer.toList }
  | .host action =>
    (exchange.hosts.step platform wiring action).map fun hosts => { exchange with hosts := hosts }

/-- The nodes and the texts between them, in any interleaving. -/
def machine : Machine (Exchange ι ε) (ExchangeAction ι ε) := ⟨step platform wiring⟩

section Equations

variable {platform wiring} {exchange : Exchange ι ε}

/-- A call of `invoke` leaves a block. -/
theorem step_invoke {connection : ε} {id method : String} {args : List Json} {hosts : Hosts ι ε}
    {block : Outgoing ε}
    (called : exchange.hosts.invoke wiring connection id method args = some (hosts, block)) :
    (machine platform wiring).step exchange (.invoke connection id method args) =
      some { exchange with hosts := hosts, scheduled := exchange.scheduled ++ [block] } := by
  simp only [machine, step, called, Option.map_some]

/-- A call of `notify` leaves a block. -/
theorem step_notify (exchange : Exchange ι ε) (connection : ε) (method : String)
    (args : List Json) :
    (machine platform wiring).step exchange (.notify connection method args) =
      some { exchange with
        scheduled := exchange.scheduled ++
          [exchange.hosts.notify wiring connection method args] } := rfl

/-- A callback leaves a text. -/
theorem step_callback {connection : ε} {method : String} {data : List Json} {block : Outgoing ε}
    (called : exchange.hosts.callback platform wiring connection method data = some block) :
    (machine platform wiring).step exchange (.callback connection method data) =
      some { exchange with scheduled := exchange.scheduled ++ [block] } := by
  simp only [machine, step, called, Option.map_some]

/-- A block runs, and sends what it writes. -/
theorem step_transmit_eq {index : Nat} {block : Outgoing ε}
    (found : exchange.scheduled[index]? = some block) :
    (machine platform wiring).step exchange (.transmit index) = some { exchange with
      scheduled := exchange.scheduled.eraseIdx index
      inFlight := exchange.inFlight ++ ((exchange.hosts.write platform wiring block).map
        fun text => (wiring.opposite block.connection, text)).toList } := by
  simp only [machine, step, found, Option.map_some]

/-- A block is sent. -/
theorem step_transmit {index : Nat} {block : Outgoing ε} {text : String}
    (found : exchange.scheduled[index]? = some block)
    (written : exchange.hosts.write platform wiring block = some text) :
    (machine platform wiring).step exchange (.transmit index) = some { exchange with
      scheduled := exchange.scheduled.eraseIdx index
      inFlight := exchange.inFlight ++ [(wiring.opposite block.connection, text)] } := by
  rw [step_transmit_eq found, written, Option.map_some, Option.toList_some]

/-- A text arrives. -/
theorem step_deliver {index : Nat} {connection : ε} {text : String}
    (found : exchange.inFlight[index]? = some (connection, text)) :
    (machine platform wiring).step exchange (.deliver index) = some { exchange with
      hosts := (exchange.hosts.arrive platform wiring connection text).1
      inFlight := exchange.inFlight.eraseIdx index } := by
  simp only [machine, step, found, Option.map_some]

/-- A text is lost. -/
theorem step_lose {index : Nat} {text : ε × String}
    (found : exchange.inFlight[index]? = some text) :
    (machine platform wiring).step exchange (.lose index) = some { exchange with
      inFlight := exchange.inFlight.eraseIdx index, lost := exchange.lost ++ [text] } := by
  simp only [machine, step, found, Option.map_some]

/-- A job is finished, and its answer waits to be sent. -/
theorem step_finish {index : Nat} {hosts : Hosts ι ε} {answer : Option (Outgoing ε)}
    (done : exchange.hosts.finish platform wiring index = some (hosts, answer)) :
    (machine platform wiring).step exchange (.finish index) =
      some { exchange with
        hosts := hosts, scheduled := exchange.scheduled ++ answer.toList } := by
  simp only [machine, step, done, Option.map_some]

/-- The threads go on. -/
theorem step_host {action : HostAction ι} {hosts : Hosts ι ε}
    (moved : exchange.hosts.step platform wiring action = some hosts) :
    (machine platform wiring).step exchange (.host action) =
      some { exchange with hosts := hosts } := by
  simp only [machine, step, moved, Option.map_some]

end Equations

end Exchange

end Rjr.Nodes
