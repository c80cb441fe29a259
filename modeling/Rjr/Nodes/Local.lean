import Rjr.Lib.Machine
import Rjr.Node

/-!
# The local node

`lib/rjr/nodes/local.rb`. A request is written, handled in a thread of its own and answered
without a transport: `send_msg` drops the response, and the thread parses its text once more and
records it. The invoking thread meanwhile waits as for any other transport. The two threads share
the tables of the node alone, so the request's thread is one step of the interleaving here.
-/

namespace Rjr.Nodes.Local

open Messages

/-- An argument of `invoke`: a symbol, or a JSON value. -/
inductive Argument where
  /-- A `Symbol`, by its name. -/
  | symbol (name : String)
  /-- A JSON value. -/
  | value (json : Json)
  deriving DecidableEq

/-- `args[i] = args[i].to_s if args[i].is_a?(Symbol)`. -/
def Argument.toJson : Argument → Json
  | .symbol name => .str name
  | .value json => json

section Threads

variable (platform : Platform)

/-- `Local#send_msg`: the message to launch as a notification, if it is not a response. -/
def sendMsg (msg : String) : Except Exn (Option Intermediate) := do
  let inter ← Intermediate.parse platform msg
  if ← Response.isResponseMessage platform.runtime inter then return none else return some inter

/-- The `nil` given as connection. -/
def noConnection : Channel := ⟨0, none⟩

/-- The body of the thread that `launch_request` starts for a text: the node afterwards, and the
exception the thread ended with, if any. -/
def requestThread (node : Node) (req : String) (notification : Bool) : Node × Except Exn Unit :=
  match Intermediate.parse platform req with
  | .error raised => (node, .error raised)
  | .ok inter =>
    let handled := node.handleRequest platform (fun msg => (sendMsg platform msg).map fun _ => ())
      inter notification noConnection
    match handled.outcome with
    | .error raised => (handled.node, .error raised)
    | .ok none => (handled.node, .ok ())
    | .ok (some res) =>
      match (res.toS platform.json handled.node.hashes).bind (Intermediate.parse platform) with
      | .error raised => (handled.node, .error raised)
      | .ok inter => handled.node.handleResponse platform.runtime inter

/-- The request `invoke` builds; `uuid` is what `gen_uuid` returns. -/
def invokeMessage (node : Node) (uuid rpcMethod : String) (args : List Argument) :
    Messages.Request :=
  (Messages.Request.new node.hashes uuid (.str rpcMethod) (.arr (args.map Argument.toJson)) .null
    (some node.messageHeaders)).1

/-- An `invoke` under way, from the moment its thread is launched. -/
structure Invocation where
  /-- The node. -/
  node : Node
  /-- The request's text, given to its thread. -/
  req : String
  /-- Whether the request's thread has run. -/
  served : Bool
  /-- The id the invoking thread waits for. -/
  msgId : Json
  /-- Where the invoking thread is in `wait_for_result`. -/
  phase : Phase Json Reply
  /-- `Time.now`, since the launch. -/
  clock : Nat

/-- `invoke` up to `launch_request`; a request that cannot be written is not launched. -/
def launch (node : Node) (uuid rpcMethod : String) (args : List Argument) :
    Except Exn Invocation :=
  let message := invokeMessage node uuid rpcMethod args
  (message.toS platform.json node.hashes).map fun req =>
    ⟨node, req, false, message.msgId, .sent, 0⟩

/-- Steps of the two threads and of the clock. -/
inductive InvokeAction where
  /-- The request's thread runs. -/
  | serve
  /-- `wait_for_result` registers the request. -/
  | register
  /-- One locked iteration of `wait_for_result`. -/
  | poll
  /-- Time passes. -/
  | tick
  deriving DecidableEq, Repr

namespace Invocation

/-- The request's thread runs. -/
def serve (invocation : Invocation) : Invocation :=
  { invocation with
    node := (requestThread platform invocation.node invocation.req false).1
    served := true }

/-- `wait_for_result` registers the request. -/
def register (invocation : Invocation) : Invocation :=
  let tables := invocation.node.correlation.register invocation.msgId invocation.clock
  { invocation with node := { invocation.node with correlation := tables }, phase := .waiting }

/-- One locked iteration of `wait_for_result`. -/
def poll (invocation : Invocation) : Invocation :=
  let iteration := invocation.node.correlation.iterate invocation.node.timeout invocation.clock
    invocation.msgId
  { invocation with
    node := { invocation.node with correlation := iteration.2 }
    phase := Clients.phaseAfter iteration.1 }

/-- The steps of both threads, each where its thread is ready for it. -/
def step (invocation : Invocation) : InvokeAction → Option Invocation
  | .serve => if invocation.served then none else some (invocation.serve platform)
  | .register => if invocation.phase = .sent then some invocation.register else none
  | .poll => if invocation.phase = .waiting then some invocation.poll else none
  | .tick => some { invocation with clock := invocation.clock + 1 }

/-- What `invoke` returns or raises, once `wait_for_result` has ended: an entry with a third
place holds an exception. -/
def outcome (invocation : Invocation) : Option (Except Exn Json) :=
  match invocation.phase with
  | .returned (_, ⟨res, none⟩) => some (.ok res)
  | .returned (_, ⟨_, some err⟩) => some (.error err)
  | .timedOut => some (.error ⟨"RuntimeError", "Timed out"⟩)
  | _ => none

/-- What is left of the invocation, without further delay: the request's thread runs if it has
not, then the invoking thread goes on, with one iteration. -/
def complete (invocation : Invocation) : Invocation :=
  let served := if invocation.served then invocation else invocation.serve platform
  let registered := if served.phase = .sent then served.register else served
  if registered.phase = .waiting then registered.poll else registered

end Invocation

/-- The two threads of an `invoke`, in any interleaving. -/
def invoking : Machine Invocation InvokeAction := ⟨Invocation.step platform⟩

end Threads

end Rjr.Nodes.Local
