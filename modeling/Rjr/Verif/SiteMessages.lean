import Rjr.Site.WsNode
import Rjr.Verif.SiteCodec

/-!
# Messages at the websocket node of the browser

Requests are invoked and messages arrive, in any order and interleaved with whatever else happens
to the node. Every response handler is called at most once. Whether `_socket_msg` gets through to
`message_received` depends on the table of requests: a message with an id that is not there ends
in an exception, whether it is a late or duplicate response or a request of the server.
-/

namespace Rjr.Verif.SiteMessages

open Site Site.JRMessage Site.WsNode

/-! ## What is required of a step -/

/-- A call of a handler: the request and the message it is given. -/
def answer? : Call → Option (Nat × JRMessage)
  | .onresponse request message => some (request, message)
  | _ => none

/-- The calls of handlers, oldest first. -/
def answers (calls : List Call) : List (Nat × JRMessage) := calls.filterMap answer?

/-- Handlers are called at most once, each with a message that has the id of its request. -/
structure Correlated (node : WsNode) : Prop where
  /-- No handler is called twice. -/
  once : ((answers node.calls).map Prod.fst).Nodup
  /-- The message has the id of the request. -/
  own : ∀ answer ∈ answers node.calls, answer.2.id = (node.requests.read answer.1).id

section Steps

variable (engine : Engine) (native : NativeJson) (client : Client)

/-- A message that can be parsed is handled without an exception and passed on once. -/
def Passed (before : WsNode) (action : WsAction) (after : WsNode) : Prop :=
  ∀ socket json message, action = .socketMessage socket json →
    JRMessage.parse engine native json = .ok message →
    ∃ calls, after.calls = before.calls ++ calls ∧ (∀ call ∈ calls, call.isThrown = false) ∧
      (client.messageReceived = true → calls.count (.messageReceived message) = 1)

/-- A step that handles what arrives, after which all handlers were called properly. -/
def Handled (before : WsNode) (action : WsAction) (after : WsNode) : Prop :=
  Passed engine native client before action after ∧ Correlated after

/-- A message has no id, or its id names a request that still waits; if that request has a
handler, the id is the request's own. -/
def Expected (before : WsNode) (action : WsAction) : Prop :=
  ∀ socket json message, action = .socketMessage socket json →
    JRMessage.parse engine native json = .ok message →
    truthy message.id = false ∨
      ∃ request, before.messages.get? (memberName engine message.id) = some request ∧
        ((before.requests.read request).onresponse = true →
          message.id = (before.requests.read request).id)

end Steps

/-! ## The invariant -/

/-- Handlers were called properly, and a request that waits was not answered. -/
structure Waiting (node : WsNode) : Prop extends Correlated node where
  /-- The table is registered. -/
  registered : Registered node
  /-- Requests that were answered exist. -/
  known : ∀ answer ∈ answers node.calls, answer.1 < node.requests.next
  /-- Requests in the table were not answered. -/
  unanswered : ∀ id request, node.messages.get? id = some request →
    request ∉ (answers node.calls).map Prod.fst

/-- A new node has answered nothing. -/
theorem waiting_new (nodeId : Json) : Waiting { nodeId := nodeId } where
  once := List.nodup_nil
  own := nofun
  registered := nofun
  known := nofun
  unanswered := nofun

/-- The calls of handlers, in two parts. -/
@[simp]
theorem answers_append (calls others : List Call) :
    answers (calls ++ others) = answers calls ++ answers others := List.filterMap_append

section Preserved

variable {engine : Engine} {native : NativeJson} {client : Client} {node next : WsNode}

/-- Sending calls no handler. -/
theorem answers_send (request : Nat) : answers (send engine native node request) = [] := by
  unfold send
  split
  · rfl
  · split
    · rfl
    · rw [answers, List.filterMap_cons_none rfl]
      split <;> rfl

/-- Sending the queue calls no handler. -/
theorem answers_sendAll (requests : List Nat) :
    answers (sendAll engine native node requests) = [] := by
  induction requests with
  | nil => rfl
  | cons request rest ih =>
    rw [sendAll]
    split
    · exact answers_send request
    · rw [answers_append, answers_send, ih]
      rfl

/-- A step that calls no handler and leaves the requests alone keeps the invariant. -/
theorem waiting_of_silent (waiting : Waiting node)
    (silent : answers next.calls = answers node.calls) (requests : next.requests = node.requests)
    (messages : next.messages = node.messages) : Waiting next := by
  refine ⟨⟨?_, ?_⟩, waiting.registered.of_eq messages requests, ?_, ?_⟩
  · rw [silent]
    exact waiting.once
  · rw [silent, requests]
    exact waiting.own
  · rw [silent, requests]
    exact waiting.known
  · rw [silent, messages]
    exact waiting.unanswered

/-- A new request keeps the invariant. -/
theorem waiting_store (waiting : Waiting node) (bits : Fin 8 → Fin 0x10000)
    (args : List Argument) : Waiting (node.store bits args) := by
  have kept : ∀ request < node.requests.next,
      (node.store bits args).requests.read request = node.requests.read request := by
    intro request known
    change (node.requests.alloc _).2.read request = _
    rw [Heap.read_alloc_eq, if_neg (Nat.ne_of_lt known)]
  refine ⟨⟨waiting.once, ?_⟩, waiting.registered.store bits args, ?_, ?_⟩
  · intro answer inside
    rw [kept answer.1 (waiting.known answer inside)]
    exact waiting.own answer inside
  · intro answer inside
    exact Nat.lt_succ_of_lt (waiting.known answer inside)
  · intro id request found inside
    rw [store_messages, OrderedHash.get?_put] at found
    by_cases same : id = guid bits
    · rw [if_pos same] at found
      cases found
      obtain ⟨answer, listed, fresh⟩ := List.mem_map.mp inside
      have known := waiting.known answer listed
      omega
    · rw [if_neg same] at found
      exact waiting.unanswered id request found inside

/-- Calls that are no handlers of requests keep the invariant. -/
theorem waiting_of_calls (waiting : Waiting node) {calls : List Call}
    (recorded : next.calls = node.calls ++ calls) (silent : answers calls = [])
    (requests : next.requests = node.requests) (messages : next.messages = node.messages) :
    Waiting next := by
  refine waiting_of_silent waiting ?_ requests messages
  rw [recorded, answers_append, silent, List.append_nil]

/-- Passing a message on calls no handler. -/
theorem answers_passOn (message : JRMessage) : answers (passOn client message) = [] := by
  unfold passOn
  split <;> rfl

/-- Reporting an error calls no handler of a request. -/
theorem answers_reportError (message : JRMessage) : answers (reportError client message) = [] := by
  unfold reportError
  split <;> rfl

variable (client node) in
/-- The handler calls of a message that answers a request. -/
theorem answers_matched (request : Nat) (message : JRMessage) :
    answers (node.handleResponse request message ++ reportError client message ++
      passOn client message) =
        if (node.requests.read request).onresponse then [(request, message)] else [] := by
  rw [answers_append, answers_append, answers_passOn, answers_reportError, List.append_nil,
    List.append_nil]
  unfold handleResponse
  split <;> rfl

/-- An entry that is taken out of the table keeps the invariant. -/
theorem waiting_forget (waiting : Waiting node) (name : String) : Waiting (node.forget name) where
  once := waiting.once
  own := waiting.own
  registered := waiting.registered.forget name
  known := waiting.known
  unanswered id request found :=
    waiting.unanswered id request ((node.messages.get?_select_eq_some_iff _ id request).mp found).1

/-- A handler that is called for the first time, with a message of the request's id, keeps the
invariant when the request is not in the table. -/
theorem waiting_of_answer (waiting : Waiting node) {request : Nat} {message : JRMessage}
    (recorded : answers next.calls = answers node.calls ++ [(request, message)])
    (requests : next.requests = node.requests) (messages : next.messages = node.messages)
    (known : request < node.requests.next)
    (own : message.id = (node.requests.read request).id)
    (fresh : request ∉ (answers node.calls).map Prod.fst)
    (absent : ∀ id, node.messages.get? id ≠ some request) : Waiting next := by
  have inside : ∀ answer ∈ answers next.calls,
      answer ∈ answers node.calls ∨ answer = (request, message) := by
    intro answer listed
    rw [recorded, List.mem_append, List.mem_singleton] at listed
    exact listed
  refine ⟨⟨?_, ?_⟩, waiting.registered.of_eq messages requests, ?_, ?_⟩
  · rw [recorded, List.map_append]
    apply List.Nodup.append waiting.once (List.nodup_singleton request)
    exact List.disjoint_singleton.mpr fresh
  · intro answer listed
    rw [requests]
    rcases inside answer listed with before | rfl
    · exact waiting.own answer before
    · exact own
  · intro answer listed
    rw [requests]
    rcases inside answer listed with before | rfl
    · exact waiting.known answer before
    · exact known
  · intro id other found answered
    rw [messages] at found
    obtain ⟨answer, listed, rfl⟩ := List.mem_map.mp answered
    rcases inside answer listed with before | rfl
    · exact waiting.unanswered id answer.1 found (List.mem_map.mpr ⟨answer, before, rfl⟩)
    · exact absent id found

/-- A message that answers a request keeps the invariant if it has the id of the request. -/
theorem waiting_matched (waiting : Waiting node) {message : JRMessage} {request : Nat}
    (found : node.messages.get? (memberName engine message.id) = some request)
    (own : (node.requests.read request).onresponse = true →
      message.id = (node.requests.read request).id) :
    Waiting ((node.forget (memberName engine message.id)).record
      (node.handleResponse request message ++ reportError client message ++
        passOn client message)) := by
  have forgotten := waiting_forget waiting (memberName engine message.id)
  have called := answers_matched client node request message
  cases handler : (node.requests.read request).onresponse with
  | false =>
    rw [handler] at called
    exact waiting_of_calls forgotten rfl called rfl rfl
  | true =>
    rw [handler] at called
    obtain ⟨known, listed⟩ := waiting.registered _ request found
    have recorded : answers ((node.forget (memberName engine message.id)).record
        (node.handleResponse request message ++ reportError client message ++
          passOn client message)).calls = answers node.calls ++ [(request, message)] := by
      rw [record_calls, answers_append, called]
      rfl
    refine waiting_of_answer forgotten recorded rfl rfl known (own handler)
      (waiting.unanswered _ request found) ?_
    intro id present
    -- The request is listed under its own id only, which was taken out.
    obtain ⟨before, kept⟩ := (node.messages.get?_select_eq_some_iff _ id request).mp present
    have same := (waiting.registered id request before).2
    rw [listed] at same
    cases same
    simp at kept

/-- A step in which only expected messages arrive keeps the invariant. -/
theorem waiting_step {action : WsAction} (waiting : Waiting node)
    (stepped : (machine engine native client).step node action = some next)
    (expected : Expected engine native node action) : Waiting next := by
  cases step_cases stepped with
  | openIgnored => exact waiting
  | openConstructed => exact waiting_of_silent waiting rfl rfl rfl
  | openRefused => exact waiting_of_calls waiting rfl rfl rfl rfl
  | invoked bits args =>
    refine waiting_of_calls (waiting_store waiting bits args) (record_calls _ _) ?_
      (record_requests _ _) (record_messages _ _)
    split
    · exact answers_send _
    · rfl
  | closeIgnored => exact waiting
  | closeCalled => exact waiting_of_silent waiting rfl rfl rfl
  | opened socket =>
    refine waiting_of_calls waiting rfl ?_ rfl rfl
    rw [answers_append, answers_sendAll]
    split <;> rfl
  | closed socket =>
    refine waiting_of_calls waiting rfl ?_ rfl rfl
    split <;> rfl
  | failed socket =>
    refine waiting_of_calls waiting rfl ?_ rfl rfl
    split <;> rfl
  | unparsed => exact waiting_of_calls waiting rfl rfl rfl rfl
  | notified socket json message =>
    exact waiting_of_calls waiting rfl (answers_passOn message) rfl rfl
  | unmatched => exact waiting_of_calls waiting rfl rfl rfl rfl
  | matched socket json message request parsed named found =>
    apply waiting_matched waiting found
    rcases expected socket json message rfl parsed with absent | ⟨other, listed, own⟩
    · rw [named] at absent
      cases absent
    · rw [found] at listed
      cases listed
      exact own

/-! ## Steps that handle what arrives -/

/-- A message is passed on once, after calls that are neither exceptions nor of
`message_received`. -/
theorem passed_of_append {before after : WsNode} {socket : Nat} {json : String}
    {message : JRMessage} (parsed : JRMessage.parse engine native json = .ok message)
    {calls : List Call} (recorded : after.calls = before.calls ++ (calls ++ passOn client message))
    (quiet : ∀ call ∈ calls, call.isThrown = false)
    (apart : ∀ other, .messageReceived other ∉ calls) :
    Passed engine native client before (.socketMessage socket json) after := by
  rintro _ _ other ⟨⟩ again
  rw [parsed] at again
  cases again
  refine ⟨calls ++ passOn client message, recorded, ?_, ?_⟩
  · intro call inside
    rcases List.mem_append.mp inside with earlier | last
    · exact quiet call earlier
    · unfold passOn at last
      split at last
      · rw [List.mem_singleton.mp last]
        rfl
      · cases last
  · intro registered
    rw [List.count_append, List.count_eq_zero_of_not_mem (apart message), passOn, if_pos registered]
    simp

variable (client node) in
/-- The handlers of a response are neither exceptions nor `message_received`. -/
theorem response_calls (request : Nat) (message : JRMessage) :
    ∀ call ∈ node.handleResponse request message ++ reportError client message,
      call.isThrown = false ∧ ∀ other, call ≠ .messageReceived other := by
  intro call inside
  rcases List.mem_append.mp inside with handler | report
  · unfold handleResponse at handler
    split at handler
    · rw [List.mem_singleton.mp handler]
      exact ⟨rfl, nofun⟩
    · cases handler
  · unfold reportError at report
    split at report
    · rw [List.mem_singleton.mp report]
      exact ⟨rfl, nofun⟩
    · cases report

/-- An expected message is handled. -/
theorem passed_of_expected {action : WsAction}
    (stepped : (machine engine native client).step node action = some next)
    (expected : Expected engine native node action) :
    Passed engine native client node action next := by
  cases step_cases stepped with
  | notified socket json message parsed =>
    exact passed_of_append parsed rfl (List.forall_mem_nil _) (fun _ => List.not_mem_nil)
  | unmatched socket json message parsed named missing =>
    rcases expected socket json message rfl parsed with absent | ⟨other, listed, -⟩
    · rw [named] at absent
      cases absent
    · rw [missing] at listed
      cases listed
  | matched socket json message request parsed named found =>
    have calls := response_calls client node request message
    apply passed_of_append parsed rfl
    · exact fun call inside => (calls call inside).1
    · exact fun other inside => (calls _ inside).2 other rfl
  | unparsed socket json error failed =>
    rintro _ _ message ⟨⟩ parsed
    rw [failed] at parsed
    cases parsed
  | _ => rintro _ _ _ ⟨⟩

/-- A message that is handled was expected. -/
theorem expected_of_handled {action : WsAction}
    (stepped : (machine engine native client).step node action = some next)
    (handled : Handled engine native client node action next) :
    Expected engine native node action := by
  rintro socket json message rfl parsed
  obtain ⟨calls, recorded, quiet, -⟩ := handled.1 socket json message rfl parsed
  cases step_cases stepped with
  | unparsed _ _ error failed =>
    rw [parsed] at failed
    cases failed
  | notified _ _ other same absent =>
    rw [parsed] at same
    cases same
    exact .inl absent
  | unmatched =>
    have thrown := List.append_cancel_left recorded
    have impossible := quiet (.thrown .typeError) (thrown ▸ List.mem_singleton.mpr rfl)
    cases impossible
  | matched _ _ other request same named found =>
    rw [parsed] at same
    cases same
    refine .inr ⟨request, found, ?_⟩
    intro handler
    have listed : (request, message) ∈ answers ((node.forget (memberName engine
        message.id)).record (node.handleResponse request message ++
          reportError client message ++ passOn client message)).calls := by
      rw [record_calls, answers_append, answers_matched, if_pos handler]
      exact List.mem_append_right _ (List.mem_singleton.mpr rfl)
    exact handled.2.own (request, message) listed

/-- A step handles what arrives exactly when only an expected message arrives. -/
theorem handled_iff {action : WsAction} (waiting : Waiting node)
    (stepped : (machine engine native client).step node action = some next) :
    Handled engine native client node action next ↔ Expected engine native node action := by
  constructor
  · exact expected_of_handled stepped
  · intro expected
    exact ⟨passed_of_expected stepped expected,
      (waiting_step waiting stepped expected).toCorrelated⟩

end Preserved

/-- **When the node handles what it receives.** In every run of a node, with any requests invoked
and any texts arriving while sockets open and close, every message that can be parsed is handled
without an exception, passed to `message_received` once, and every response handler is called at
most once and with a message that has the id of its request, exactly when every such message either
has no id or has an id that names a request still waiting; where that request has a handler, the id
must be the request's own. -/
theorem messages_handled_iff (engine : Engine) (native : NativeJson) (client : Client)
    (nodeId : Json) (actions : List WsAction) :
    (machine engine native client).Along (Handled engine native client) { nodeId := nodeId }
        actions ↔
      (machine engine native client).Along (fun before action _ =>
        Expected engine native before action) { nodeId := nodeId } actions := by
  apply Machine.along_iff (machine engine native client) Waiting
  · exact fun node action next waiting stepped => handled_iff waiting stepped
  · exact fun node action next waiting stepped expected => waiting_step waiting stepped expected
  · exact waiting_new nodeId

/-- A request that a server sends, with an id of its own. -/
def serverRequest : Json := .obj [("id", .str "7"), ("method", .str "ping")]

/-- What the request of the server is parsed to. -/
theorem parse_serverRequest (engine : Engine) (native : NativeJson) :
    JRMessage.parse engine native (native.stringify serverRequest) =
      .ok { id := .str "7", rpcMethod := .str "ping" } := by
  rw [JRMessage.parse, native.parse_stringify serverRequest (by decide)]
  rfl

/-- A client that listens to all messages. -/
def listening : Client := ⟨false, false, false, true⟩

/-- A request of the server, with an id, ends in an exception. -/
theorem server_request_throws :
    ¬(machine SiteCodec.plainEngine SiteCodec.textJson listening).Along
      (Handled SiteCodec.plainEngine SiteCodec.textJson listening) {}
      [.openSocket true, .socketOpened 0,
        .socketMessage 0 (SiteCodec.textJson.stringify serverRequest)] := by
  intro along
  have opening := along _ rfl
  have ready := opening.2 _ rfl
  have arrived := ready.2 _ rfl
  have expected := expected_of_handled rfl arrived.1
  rcases expected 0 _ _ rfl (parse_serverRequest _ _) with absent | ⟨request, listed, -⟩
  · cases absent
  · cases listed

end Rjr.Verif.SiteMessages
