import Rjr.Lib.Machine
import Rjr.Node
import Rjr.Util.JsonText

/-!
# Headers across messages

A node is configured with headers for all its messages. A message a node receives should be
handled with these headers and the message's own, whatever was received before. It is not: the
node's hash is handed to every message, `parse_headers` writes the message's members into it, and
a handler has it as `@rjr_headers` and may set or delete what it likes. What is left there stays
for the messages of other clients. The results say what is left of the isolation: it holds along a
run exactly when every message leaves the configured headers behind, and a request that is
answered has brought no other. Where the handlers leave the headers alone, that is to say that no
message brings a header the node does not already have.
-/

namespace Rjr.Verif.Headers

open Messages Node

/-- A received message whose document is a hash, with the connection it came in on. -/
structure Arrival where
  /-- Text of the message. -/
  json : String
  /-- Members of the message. -/
  members : OrderedHash String Json
  /-- Connection it came in on. -/
  connection : Channel

/-- The message given to the handling functions. -/
def Arrival.message (arrival : Arrival) : Intermediate := ⟨arrival.json, .hash arrival.members⟩

/-- The kind `handle_message` takes the message for. -/
def Arrival.kind (arrival : Arrival) : Option Kind :=
  if arrival.members.has "method" then
    if arrival.members.has "id" then some .request else some .notification
  else if arrival.members.has "result" || arrival.members.has "error" then some .response
  else none

/-- The members JSON-RPC defines for each kind of message. -/
def standardMembers : Kind → List String
  | .request => ["jsonrpc", "id", "method", "params"]
  | .notification => ["jsonrpc", "method", "params"]
  | .response => ["jsonrpc", "id", "method", "result", "error"]

/-- A message's own headers: its top-level members that are not standard for its kind. -/
def Arrival.own (arrival : Arrival) : OrderedHash String Json :=
  match arrival.kind with
  | some kind => arrival.members.select fun member => !(standardMembers kind).contains member.1
  | none => OrderedHash.empty

/-- What a node does with a message. -/
structure Observed where
  /-- The node afterwards. -/
  node : Node
  /-- `rjr_headers` given to `Dispatcher#dispatch`, if it was called. -/
  dispatched : Option (OrderedHash String Json)
  /-- Headers of the response that was sent, if there was one. -/
  echoed : Option (OrderedHash String Json)

/-- What is observed of a call of `handle_request`. -/
def Observed.ofHandled (handled : Handled) : Observed :=
  ⟨handled.node, handled.dispatched.map DispatchArgs.rjrHeaders,
    handled.outcome.toOption.join.map fun response =>
      handled.node.hashes.read response.headers⟩

section Runs

variable (platform : Platform) (sendMsg : String → Except Exn Unit)

/-- A request or notification is given to `handle_request`, a response to `handle_response`. -/
def observe (node : Node) (arrival : Arrival) : Observed :=
  match arrival.kind with
  | some .request => .ofHandled
      (node.handleRequest platform sendMsg arrival.message false arrival.connection)
  | some .notification => .ofHandled
      (node.handleRequest platform sendMsg arrival.message true arrival.connection)
  | some .response => ⟨(node.handleResponse platform.runtime arrival.message).1, none, none⟩
  | none => ⟨node, none, none⟩

/-- A node and the messages it handles, one after the other. -/
def messages : Machine Node Arrival where
  step node arrival := some (observe platform sendMsg node arrival).node

/-- A message is handled as by a node with the configured headers that has handled nothing else:
a request or notification is dispatched with the configured headers overridden by its own, a
response that is sent carries the same ones, and the node's headers are the configured ones
afterwards. -/
def Isolated (configured : OrderedHash String Json) (node : Node) (arrival : Arrival)
    (after : Node) : Prop :=
  after.headers.Same configured ∧
    (arrival.kind = some .request ∨ arrival.kind = some .notification →
      ∃ headers, (observe platform sendMsg node arrival).dispatched = some headers ∧
        headers.Same (configured.merge arrival.own)) ∧
    ∀ headers, (observe platform sendMsg node arrival).echoed = some headers →
      headers.Same (configured.merge arrival.own)

/-- The headers a message writes into those of the node: its own, unless it is a response whose
`error` cannot be read, which raises first. -/
def written (runtime : Runtime) (arrival : Arrival) : OrderedHash String Json :=
  if arrival.kind = some .response ∧
      (Response.parseResult runtime arrival.message).toOption = none then OrderedHash.empty
  else arrival.own

/-- A message that writes only headers the node is configured with. -/
def Harmless (configured : OrderedHash String Json) (arrival : Arrival) : Prop :=
  ∀ key value, (written platform.runtime arrival).get? key = some value →
    configured.get? key = some value

/-- What the dispatch of a request or notification gives, at a node with the given headers; one
whose method cannot be looked up gives nothing. -/
def performedFor (node : Node) (arrival : Arrival) : Option Performed :=
  let dispatch (reserved : List String) :=
    (node.dispatcher.dispatch platform.runtime
      ((node.withHeaders reserved arrival.members).argsFor arrival.members
        arrival.connection)).toOption
  match arrival.kind with
  | some .request => dispatch Request.reserved
  | some .notification => dispatch Notification.reserved
  | _ => none

/-- A dispatcher none of whose handlers changes the headers it finds. -/
def HeadersKept (dispatcher : Dispatcher) : Prop :=
  ∀ entry ∈ dispatcher.handlers.entries, ∀ request args,
    (entry.2 request args).1.Same request.rjrHeaders

/-- A message that leaves the configured headers behind, once its handler, if one was called, has
done with them; and if it was answered, it has written no other headers. -/
def Tidy (configured : OrderedHash String Json) (node : Node) (arrival : Arrival) : Prop :=
  match performedFor platform node arrival with
  | none => Harmless platform configured arrival
  | some performed => performed.headers.Same configured ∧
      ((observe platform sendMsg node arrival).echoed.isSome = true →
        Harmless platform configured arrival)

/-- What is observed of a message that is dispatched with the given headers. -/
structure Observed.Uses (observed : Observed) (headers : OrderedHash String Json)
    (performed : Option Performed) : Prop where
  /-- The handler is given these headers. -/
  dispatched : observed.dispatched = some headers
  /-- What the handler leaves stays in the node. -/
  left : observed.node.headers = (performed.map Performed.headers).getD headers
  /-- It is what the response carries. -/
  echoed : ∀ echo, observed.echoed = some echo → performed.map Performed.headers = some echo

/-- A request is answered with the headers its handler leaves in the node. -/
theorem answer_uses (node : Node) (members : OrderedHash String Json) (msgId : Json)
    (connection : Channel) (outcome : Except Exn Performed) :
    (Observed.ofHandled (node.answer platform sendMsg (node.argsFor members connection) msgId
      node.messageHeaders connection outcome)).Uses node.headers outcome.toOption := by
  cases outcome with
  | error raised => exact ⟨rfl, rfl, fun _ impossible => by cases impossible⟩
  | ok performed =>
    have left : (node.afterDispatch node.messageHeaders performed).headers = performed.headers :=
      Heap.read_write_same _ _ _
    cases text : (Response.mk msgId performed.result node.messageHeaders).toS platform.json
        (node.afterDispatch node.messageHeaders performed).hashes with
    | error raised =>
      simp only [answer, Response.new, openHeaders, text]
      exact ⟨rfl, left, fun _ impossible => by cases impossible⟩
    | ok text' =>
      simp only [answer, Response.new, openHeaders, text]
      refine ⟨rfl, left, ?_⟩
      intro echo sent
      dsimp only [Observed.ofHandled] at sent
      cases returned : sendMsg text' with
      | error raised =>
        rw [returned] at sent
        cases sent
      | ok _ =>
        rw [returned] at sent
        cases sent
        exact congrArg some left.symm

/-- So is a notification, which is not answered. -/
theorem finish_uses (node : Node) (members : OrderedHash String Json) (connection : Channel)
    (outcome : Except Exn Performed) :
    (Observed.ofHandled (node.finish (node.argsFor members connection) node.messageHeaders
      outcome)).Uses node.headers outcome.toOption := by
  cases outcome with
  | error raised => exact ⟨rfl, rfl, fun _ impossible => by cases impossible⟩
  | ok performed =>
    exact ⟨rfl, Heap.read_write_same _ _ _, fun _ impossible => by cases impossible⟩

/-- A request or notification is dispatched with the node's headers overridden by its own, and
what its handler leaves stays in the node. -/
theorem observe_call (node : Node) (arrival : Arrival)
    (call : arrival.kind = some .request ∨ arrival.kind = some .notification) :
    (observe platform sendMsg node arrival).Uses (node.headers.merge arrival.own)
      (performedFor platform node arrival) := by
  rcases call with request | notification
  · have own : arrival.own = unreserved Request.reserved arrival.members := by
      simp only [Arrival.own, request]
      rfl
    simp only [observe, performedFor, request]
    rw [own, ← headers_withHeaders, Arrival.message, handleRequest, if_neg (by decide),
      handleCall_hash]
    exact answer_uses platform sendMsg (node.withHeaders Request.reserved arrival.members)
      arrival.members _ _ _
  · have own : arrival.own = unreserved Notification.reserved arrival.members := by
      simp only [Arrival.own, notification]
      rfl
    simp only [observe, performedFor, notification]
    rw [own, ← headers_withHeaders, Arrival.message, handleRequest, if_pos rfl,
      handleNotification_hash]
    exact finish_uses (node.withHeaders Notification.reserved arrival.members) arrival.members _ _

/-- Any other message is neither dispatched nor answered; a response leaves in the node what it
wrote. -/
theorem observe_other (node : Node) (arrival : Arrival)
    (other : ¬ (arrival.kind = some .request ∨ arrival.kind = some .notification)) :
    (observe platform sendMsg node arrival).node.headers =
        node.headers.merge (written platform.runtime arrival) ∧
      (observe platform sendMsg node arrival).echoed = none ∧
      performedFor platform node arrival = none := by
  cases kind : arrival.kind with
  | none =>
    have none_written : written platform.runtime arrival = OrderedHash.empty := by
      simp [written, Arrival.own, kind]
    rw [none_written]
    simp only [observe, performedFor, kind]
    exact ⟨rfl, trivial, trivial⟩
  | some kind' =>
    cases kind' with
    | request => exact absurd (.inl kind) other
    | notification => exact absurd (.inr kind) other
    | response =>
      have own : arrival.own = unreserved Response.reserved arrival.members := by
        simp only [Arrival.own, kind]
        rfl
      simp only [observe, performedFor, kind, written, own, true_and, and_true]
      rw [Arrival.message]
      cases read : Response.parseResult platform.runtime ⟨arrival.json, .hash arrival.members⟩ with
      | error raised =>
        rw [handleResponse_raises read]
        rfl
      | ok result =>
        rw [handleResponse_returns read]
        exact headers_withHeaders node _ _

/-- A request or notification writes its own headers. -/
theorem written_call (runtime : Runtime) (arrival : Arrival)
    (call : arrival.kind = some .request ∨ arrival.kind = some .notification) :
    written runtime arrival = arrival.own := by
  rcases call with kind | kind <;> simp [written, kind]

/-- A message is harmless exactly when what it writes leaves the configured headers the same. -/
theorem harmless_iff (configured : OrderedHash String Json) (arrival : Arrival) :
    Harmless platform configured arrival ↔
      (configured.merge (written platform.runtime arrival)).Same configured :=
  (OrderedHash.merge_same_left_iff _ _).symm

/-- A message at a node that still has its configured headers is isolated exactly when it is
tidy. -/
theorem isolated_iff (configured : OrderedHash String Json) (node : Node) (arrival : Arrival)
    (same : node.headers.Same configured) :
    Isolated platform sendMsg configured node arrival
        (observe platform sendMsg node arrival).node ↔
      Tidy platform sendMsg configured node arrival := by
  rw [Isolated, Tidy, harmless_iff]
  by_cases call : arrival.kind = some .request ∨ arrival.kind = some .notification
  · have uses := observe_call platform sendMsg node arrival call
    have given : ∃ headers, (observe platform sendMsg node arrival).dispatched = some headers ∧
        headers.Same (configured.merge arrival.own) := ⟨_, uses.dispatched, same.merge _⟩
    have left := uses.left
    rw [written_call platform.runtime arrival call]
    cases ran : performedFor platform node arrival with
    | none =>
      rw [ran] at left uses
      rw [left]
      have silent : ∀ headers,
          (observe platform sendMsg node arrival).echoed = some headers → False :=
        fun headers sent => nomatch uses.echoed headers sent
      constructor
      · intro isolated
        exact (same.merge _).symm.trans isolated.1
      · intro tidy
        exact ⟨(same.merge _).trans tidy, fun _ => given,
          fun headers sent => (silent headers sent).elim⟩
    | some performed =>
      rw [ran] at left uses
      rw [left]
      constructor
      · rintro ⟨kept, -, echoes⟩
        refine ⟨kept, ?_⟩
        intro answered
        obtain ⟨echo, sent⟩ := Option.isSome_iff_exists.mp answered
        obtain rfl := Option.some.inj (uses.echoed echo sent)
        exact (echoes _ sent).symm.trans kept
      · rintro ⟨kept, answered⟩
        refine ⟨kept, fun _ => given, ?_⟩
        intro echo sent
        have harmless := answered (Option.isSome_iff_exists.mpr ⟨echo, sent⟩)
        obtain rfl := Option.some.inj (uses.echoed echo sent)
        exact kept.trans harmless.symm
  · obtain ⟨left, silent, none⟩ := observe_other platform sendMsg node arrival call
    rw [none, left, silent]
    constructor
    · intro isolated
      exact (same.merge _).symm.trans isolated.1
    · intro tidy
      exact ⟨(same.merge _).trans tidy, fun is => absurd is call, nofun⟩

/-- If no handler changes the headers it finds, a dispatch does not. -/
theorem dispatch_keeps {runtime : Runtime} {dispatcher : Dispatcher} {args : DispatchArgs}
    {performed : Performed} (kept : HeadersKept dispatcher)
    (returned : dispatcher.dispatch runtime args = .ok performed) :
    performed.headers.Same args.rjrHeaders := by
  obtain ⟨handler, environment, found, -, rfl⟩ := Dispatcher.dispatch_cases runtime returned
  cases handler with
  | none => exact .refl _
  | some handler =>
    obtain ⟨entry, inside, rfl⟩ := Dispatcher.registeredFor_mem runtime _ _ found
    have given : ((Request.new args).withEnv environment).rjrHeaders = args.rjrHeaders := by
      cases environment <;> rfl
    simp only [Dispatcher.perform, Request.handle]
    split
    · rw [← given]
      exact kept entry inside _ _
    · rw [← given]
      exact .refl _

/-- So the headers of a request or notification stay as its handler found them. -/
theorem performedFor_keeps {node : Node} {arrival : Arrival} {performed : Performed}
    (kept : HeadersKept node.dispatcher)
    (ran : performedFor platform node arrival = some performed) :
    performed.headers.Same (node.headers.merge arrival.own) := by
  have returned : ∀ reserved,
      (node.dispatcher.dispatch platform.runtime
        ((node.withHeaders reserved arrival.members).argsFor arrival.members
          arrival.connection)).toOption = some performed →
      performed.headers.Same (node.headers.merge (unreserved reserved arrival.members)) := by
    intro reserved given
    rw [← headers_withHeaders]
    cases outcome : node.dispatcher.dispatch platform.runtime
        ((node.withHeaders reserved arrival.members).argsFor arrival.members
          arrival.connection) with
    | error raised =>
      rw [outcome] at given
      cases given
    | ok result =>
      rw [outcome] at given
      cases given
      exact dispatch_keeps kept outcome
  simp only [performedFor] at ran
  split at ran
  · rename_i request
    simp only [Arrival.own, request]
    exact returned Request.reserved ran
  · rename_i notification
    simp only [Arrival.own, notification]
    exact returned Notification.reserved ran
  · cases ran

/-- Handling a message does not change the handlers of the node. -/
theorem observe_handlers (node : Node) (arrival : Arrival) :
    (observe platform sendMsg node arrival).node.dispatcher.handlers =
      node.dispatcher.handlers := by
  rw [observe]
  split
  · rw [Arrival.message, handleRequest, if_neg (by decide), handleCall_hash]
    cases outcome : node.dispatcher.dispatch platform.runtime
        ((node.withHeaders Request.reserved arrival.members).argsFor arrival.members
          arrival.connection) with
    | error raised => rfl
    | ok performed =>
      have tables := Dispatcher.dispatch_tables _ outcome
      simp only [Observed.ofHandled, answer]
      split
      · exact tables.1
      · exact tables.1
  · rw [Arrival.message, handleRequest, if_pos rfl, handleNotification_hash]
    cases outcome : node.dispatcher.dispatch platform.runtime
        ((node.withHeaders Notification.reserved arrival.members).argsFor arrival.members
          arrival.connection) with
    | error raised => rfl
    | ok performed => exact (Dispatcher.dispatch_tables _ outcome).1
  · rw [Arrival.message]
    cases read : Response.parseResult platform.runtime ⟨arrival.json, .hash arrival.members⟩ with
    | error raised =>
      rw [handleResponse_raises read]
    | ok result =>
      rw [handleResponse_returns read]
      rfl
  · rfl

/-- If no handler changes the headers it finds, a message is tidy exactly when it is harmless. -/
theorem tidy_iff (configured : OrderedHash String Json) (node : Node) (arrival : Arrival)
    (same : node.headers.Same configured) (kept : HeadersKept node.dispatcher) :
    Tidy platform sendMsg configured node arrival ↔ Harmless platform configured arrival := by
  rw [Tidy]
  cases ran : performedFor platform node arrival with
  | none => exact Iff.rfl
  | some performed =>
    have call : arrival.kind = some .request ∨ arrival.kind = some .notification := by
      by_contra other
      rw [(observe_other platform sendMsg node arrival other).2.2] at ran
      cases ran
    have left : performed.headers.Same (configured.merge arrival.own) :=
      (performedFor_keeps platform kept ran).trans (same.merge _)
    rw [harmless_iff, written_call platform.runtime arrival call]
    constructor
    · rintro ⟨unchanged, -⟩
      exact left.symm.trans unchanged
    · intro harmless
      exact ⟨left.trans harmless, fun _ => harmless⟩

/-- **Headers are isolated along a run exactly when every message is tidy.** For every
configuration, every list of messages and whatever the handlers do, each message is handled as if
it were the first and the node keeps its configured headers, if and only if each message, at the
node as it comes to it, leaves the configured headers behind, and has written no other ones if it
is answered. If no handler changes the headers it finds, this is so if and only if every header a
message writes is one the node was configured with, with the same value. -/
theorem headers_isolated_iff (args : NodeArgs) (arrivals : List Arrival) :
    let configured := args.headers.getD OrderedHash.empty
    let isolated := (messages platform sendMsg).Along (Isolated platform sendMsg configured)
      (Node.new args) arrivals
    (isolated ↔ (messages platform sendMsg).Along
        (fun node arrival _ => Tidy platform sendMsg configured node arrival) (Node.new args)
        arrivals) ∧
      (HeadersKept (Node.new args).dispatcher →
        (isolated ↔ ∀ arrival ∈ arrivals, Harmless platform configured arrival)) := by
  intro configured isolated
  have began : (Node.new args).headers.Same configured := by
    rw [new_headers args]
    exact .refl _
  constructor
  · apply Machine.along_iff (messages platform sendMsg)
      (fun node => node.headers.Same configured)
    · intro node arrival after same stepped
      cases stepped
      exact isolated_iff platform sendMsg _ node arrival same
    · intro node arrival after same stepped tidy
      cases stepped
      exact ((isolated_iff platform sendMsg _ node arrival same).mpr tidy).1
    · exact began
  · intro kept
    rw [← Machine.along_actions (messages platform sendMsg) (Harmless platform configured)
      (fun _ _ => ⟨_, rfl⟩) arrivals (Node.new args)]
    have agree : ∀ node arrival, node.headers.Same configured → HeadersKept node.dispatcher →
        (Isolated platform sendMsg configured node arrival
            (observe platform sendMsg node arrival).node ↔
          Harmless platform configured arrival) := by
      intro node arrival same keeps
      exact (isolated_iff platform sendMsg _ node arrival same).trans
        (tidy_iff platform sendMsg _ node arrival same keeps)
    apply Machine.along_iff (messages platform sendMsg)
      (fun node => node.headers.Same configured ∧ HeadersKept node.dispatcher)
    · rintro node arrival after ⟨same, keeps⟩ stepped
      cases stepped
      exact agree node arrival same keeps
    · rintro node arrival after ⟨same, keeps⟩ stepped harmless
      cases stepped
      refine ⟨((agree node arrival same keeps).mpr harmless).1, ?_⟩
      unfold HeadersKept at keeps ⊢
      rw [observe_handlers platform sendMsg node arrival]
      exact keeps
    · exact ⟨began, kept⟩

end Runs

/-- A request with an id, a method and possibly a header. -/
def login : Arrival where
  json := ""
  members := ⟨[("jsonrpc", .str "2.0"), ("id", .int 1), ("method", .str "login"),
    ("session_id", .str "secret")], by decide⟩
  connection := ⟨1, none⟩

/-- A request of another client without headers. -/
def whoami : Arrival where
  json := ""
  members := ⟨[("jsonrpc", .str "2.0"), ("id", .int 2), ("method", .str "whoami")], by decide⟩
  connection := ⟨2, none⟩

/-- A `send_msg` that returns. -/
def delivered : String → Except Exn Unit := fun _ => .ok ()

/-- A node that is configured with the session id is isolated: both requests are handled with it
and nothing else. -/
theorem headers_isolated_configured :
    let args : NodeArgs := { headers := some ⟨[("session_id", .str "secret")], by decide⟩ }
    (messages JsonText.platform delivered).Along
      (Isolated JsonText.platform delivered (args.headers.getD OrderedHash.empty)) (Node.new args)
      [login, whoami] := by
  intro args
  refine ((headers_isolated_iff JsonText.platform delivered args [login, whoami]).2 nofun).mpr ?_
  intro arrival inside key value found
  have requests : ∀ other ∈ [login, whoami], other.kind = some .request := by decide
  have own : ∀ other ∈ [login, whoami], ∀ entry ∈ other.own.entries,
      entry = ("session_id", .str "secret") := by decide
  rw [written_call _ _ (.inl (requests arrival inside)), OrderedHash.get?_eq_some_iff] at found
  cases own arrival inside _ found
  rfl

/-- The session id of one client reaches the handler of the next client's request, which has no
header at all, and stays in the headers of the node. -/
theorem headers_leak_session :
    let first := observe JsonText.platform delivered (Node.new {}) login
    let second := observe JsonText.platform delivered first.node whoami
    whoami.own = OrderedHash.empty ∧
      second.dispatched = some ⟨[("session_id", .str "secret")], by decide⟩ ∧
      first.node.headers ≠ (Node.new {}).headers ∧
      ¬ (messages JsonText.platform delivered).Along
        (Isolated JsonText.platform delivered OrderedHash.empty) (Node.new {}) [login, whoami] := by
  refine ⟨by decide, by decide, by decide, ?_⟩
  intro along
  have first := along _ rfl
  exact absurd (first.1.1 "session_id") (by decide)

end Rjr.Verif.Headers
