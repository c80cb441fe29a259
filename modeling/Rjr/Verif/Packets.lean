import Rjr.Nodes.Exchange
import Rjr.Verif.Codec
import Rjr.Verif.EchoedHeaders

/-!
# What a text on its way carries

A text that a node sends is a request, a notification or a response, with the headers its sender
had at the time. A receiving node takes it for what it is, whatever its own state, and adds the
headers to its own. Headers that can be sent stay so: merging brings in no standard name.
-/

namespace Rjr.Verif.Packets

open Messages Node Nodes Intermediate Codec EchoedHeaders

/-- The content of a message, without its headers. -/
inductive Packet where
  /-- A request. -/
  | request (id method : String) (args : List Json)
  /-- A notification. -/
  | notification (method : String) (args : List Json)
  /-- A response. -/
  | response (id : String) (result : Result)
  deriving DecidableEq

namespace Packet

/-- The standard members before the headers. -/
def standard : Packet → OrderedHash String Json
  | .request id method args => Messages.Request.standard ⟨.str method, .arr args, .str id, 0⟩
  | .notification method args => Notification.standard ⟨.str method, .arr args, 0⟩
  | .response id result => Response.standard ⟨.str id, result, 0⟩

/-- The standard members after the headers. -/
def last : Packet → OrderedHash String Json
  | .response id result => resultJson ⟨.str id, result, 0⟩
  | _ => OrderedHash.empty

/-- The members its class reserves. -/
def reserved : Packet → List String
  | .request .. => Messages.Request.reserved
  | .notification .. => Notification.reserved
  | .response .. => Response.reserved

/-- Its kind. -/
def kind : Packet → Kind
  | .request .. => .request
  | .notification .. => .notification
  | .response .. => .response

/-- All members on the wire. -/
def members (packet : Packet) (headers : OrderedHash String Json) : OrderedHash String Json :=
  wire packet.standard headers packet.last

/-- Its id; a notification has none. -/
def id : Packet → Json
  | .request id _ _ => .str id
  | .notification _ _ => .null
  | .response id _ => .str id

/-- Its values can be sent. -/
def Plain (createId : String) : Packet → Prop
  | .request _ _ args => (Json.arr args).plain createId = true
  | .notification _ args => (Json.arr args).plain createId = true
  | .response _ result => Proper createId result

/-- The layout of each kind. -/
theorem layout {createId : String} (foreign : Foreign createId) (packet : Packet)
    (plain : packet.Plain createId) :
    Layout createId packet.reserved packet.standard packet.last := by
  cases packet with
  | request id method args =>
    exact request_layout foreign ⟨.str method, .arr args, .str id, 0⟩ rfl plain rfl
  | notification method args =>
    exact notification_layout foreign ⟨.str method, .arr args, 0⟩ rfl plain
  | response id result => exact response_layout foreign ⟨.str id, result, 0⟩ rfl plain

end Packet

/-- A text carries a packet with these headers. -/
structure Carried (platform : Platform) (text : String) (packet : Packet)
    (headers : OrderedHash String Json) : Prop where
  /-- The headers can be sent. -/
  free : Free platform.json.createId headers
  /-- The values can be sent. -/
  plain : packet.Plain platform.json.createId
  /-- The text is what `to_s` writes. -/
  written : platform.json.generate (.obj (packet.members headers).entries) = .ok text

/-- The id of a parsed message. -/
def idOf (message : Intermediate) : Json :=
  match message.data with
  | .hash members => (members.get? "id").getD .null
  | .other _ => .null

/-- What a receiver takes a text for, with its id. -/
def label (platform : Platform) (text : String) : Option (Kind × Json) :=
  match parse platform text with
  | .error _ => none
  | .ok message =>
    match classify platform.runtime message with
    | .ok (some kind) => some (kind, idOf message)
    | _ => none

/-- Headers that can be sent can be merged. -/
theorem free_merge {createId : String} {left right : OrderedHash String Json}
    (first : Free createId left) (second : Free createId right) :
    Free createId (left.merge right) := by
  refine ⟨?_, plainMembers_merge createId left right first.plain second.plain⟩
  intro key inside standard
  have absent : (left.merge right).get? key = none := by
    rw [OrderedHash.get?_merge, first.get?_standard standard, second.get?_standard standard]
    rfl
  exact (OrderedHash.get?_eq_none_iff _ _).mp absent inside

section Receiving

variable {platform : Platform} {text : String} {packet : Packet}
  {headers : OrderedHash String Json} (foreign : Foreign platform.json.createId)

include foreign

/-- A carried text is parsed to the members of its packet. -/
theorem Carried.parsed (carried : Carried platform text packet headers) :
    parse platform text = .ok ⟨text, .hash (packet.members headers)⟩ :=
  parse_generate platform (wire_plain packet.standard packet.last carried.free
    (packet.layout foreign carried.plain)) carried.written

omit text in
/-- A packet that can be sent has a text that carries it. -/
theorem carried_of_plain (packet : Packet) (free : Free platform.json.createId headers)
    (plain : packet.Plain platform.json.createId) :
    ∃ text, platform.json.generate (.obj (packet.members headers).entries) = .ok text ∧
      Carried platform text packet headers := by
  obtain ⟨text, written⟩ := generate_plain platform _
    (wire_plain packet.standard packet.last free (packet.layout foreign plain))
  exact ⟨text, written, free, plain, written⟩

/-- Its members can be sent. -/
theorem Carried.sendable (carried : Carried platform text packet headers) :
    (Json.obj (packet.members headers).entries).plain platform.json.createId = true :=
  plain_obj _ _ (wire_plain packet.standard packet.last carried.free
    (packet.layout foreign carried.plain))

/-- The headers it brings are those it was sent with. -/
theorem Carried.brings (carried : Carried platform text packet headers) :
    unreserved packet.reserved (packet.members headers) = headers :=
  wire_unreserved packet.standard packet.last carried.free (packet.layout foreign carried.plain)

/-- A node that has read it has headers that can be sent, if it had before. -/
theorem Carried.free_withHeaders (carried : Carried platform text packet headers) {node : Node}
    (own : Free platform.json.createId node.headers) :
    Free platform.json.createId
      (node.withHeaders packet.reserved (packet.members headers)).headers := by
  rw [headers_withHeaders, carried.brings foreign]
  exact free_merge own carried.free

omit foreign in
/-- Its method, arguments and id are looked up in its standard members. -/
theorem Carried.get? (carried : Carried platform text packet headers) (key : String)
    (name : key ∈ standardNames) :
    (packet.members headers).get? key = (packet.last.get? key).or (packet.standard.get? key) :=
  wire_get? packet.standard packet.last carried.free key name

omit foreign in
/-- It is taken for its kind. -/
theorem Carried.classified (carried : Carried platform text packet headers) :
    classify platform.runtime ⟨text, .hash (packet.members headers)⟩ =
      .ok (some packet.kind) := by
  have present : ∀ key ∈ standardNames, (packet.members headers).has key =
      ((packet.last.get? key).or (packet.standard.get? key)).isSome := by
    intro key name
    rw [OrderedHash.has, carried.get? key name]
  have isMethod := present "method" (by simp [standardNames])
  have isId := present "id" (by simp [standardNames])
  have isResult := present "result" (by simp [standardNames])
  have isError := present "error" (by simp [standardNames])
  have plain := carried.plain
  rw [classify_hash, isMethod, isId, isResult, isError]
  cases packet with
  | request id method args => rfl
  | notification method args => rfl
  | response id result => cases plain <;> rfl

omit foreign in
/-- Its id is read. -/
theorem Carried.idOf_members (carried : Carried platform text packet headers) (json : String) :
    idOf ⟨json, .hash (packet.members headers)⟩ = packet.id := by
  have plain := carried.plain
  simp only [idOf, carried.get? "id" (by simp [standardNames])]
  cases packet with
  | request id method args => rfl
  | notification method args => rfl
  | response id result => cases plain <;> rfl

/-- It is taken for what it is. -/
theorem Carried.labelled (carried : Carried platform text packet headers) :
    label platform text = some (packet.kind, packet.id) := by
  simp only [label, carried.parsed foreign, carried.classified, carried.idOf_members]

/-- A request that arrives becomes a job. -/
theorem handleMessage_request {id method : String} {args : List Json}
    (carried : Carried platform text (.request id method args) headers) (node : Node)
    (connection : Channel) :
    node.handleMessage platform text connection =
      (node, some ⟨⟨text, .hash ((Packet.request id method args).members headers)⟩, false,
          connection⟩,
        .ok ⟨text, .hash ((Packet.request id method args).members headers)⟩) := by
  simp only [handleMessage, carried.parsed foreign, carried.classified]
  rfl

/-- So does a notification. -/
theorem handleMessage_notification {method : String} {args : List Json}
    (carried : Carried platform text (.notification method args) headers) (node : Node)
    (connection : Channel) :
    node.handleMessage platform text connection =
      (node, some ⟨⟨text, .hash ((Packet.notification method args).members headers)⟩, true,
          connection⟩,
        .ok ⟨text, .hash ((Packet.notification method args).members headers)⟩) := by
  simp only [handleMessage, carried.parsed foreign, carried.classified]
  rfl

/-- A response that arrives is recorded under its id, with the outcome of its result. -/
theorem handleMessage_response {id : String} {result : Result}
    (carried : Carried platform text (.response id result) headers) (node : Node)
    (connection : Channel) :
    node.handleMessage platform text connection =
      ({ node.withHeaders Response.reserved ((Packet.response id result).members headers) with
          correlation := node.correlation.record (.str id, replyOf result) }, none,
        .ok ⟨text, .hash ((Packet.response id result).members headers)⟩) := by
  have read : Response.parseResult platform.runtime
      ⟨text, .hash ((Packet.response id result).members headers)⟩ = .ok result :=
    parseResult_wire platform.runtime text ⟨.str id, result, 0⟩ headers carried.free carried.plain
  have named : ((Packet.response id result).members headers).get? "id" = some (.str id) := by
    rw [carried.get? "id" (by simp [standardNames])]
    simp only [Packet.last, resultJson]
    split <;> rfl
  have recorded : node.handleResponse platform.runtime _ = _ := handleResponse_returns read
  rw [named] at recorded
  simp only [handleMessage, carried.parsed foreign, carried.classified, Packet.kind, recorded]
  rfl

end Receiving

/-! ## What a dispatch gives -/

/-- Whatever the handlers of a dispatcher return for arguments that were sent can be sent, and so
can the headers they leave. -/
structure Serves (createId : String) (handlers : OrderedHash Signature Handler) : Prop where
  /-- What a handler returns. -/
  values : ∀ entry ∈ handlers.entries, ∀ request args value, (Json.arr args).plain createId = true →
    (entry.2 request args).2 = .ok value → value.plain createId = true
  /-- What it leaves of headers that can be sent. -/
  headers : ∀ entry ∈ handlers.entries, ∀ request args, (Json.arr args).plain createId = true →
    Free createId request.rjrHeaders → Free createId (entry.2 request args).1

/-- What a dispatch gives that can be sent, with both tables of the dispatcher as they were. -/
structure Sends (createId : String) (dispatcher : Dispatcher) (performed : Performed) : Prop where
  /-- The result can be sent. -/
  result : Proper createId performed.result
  /-- So can the headers. -/
  headers : Free createId performed.headers
  /-- The handlers stay. -/
  handlers : performed.dispatcher.handlers = dispatcher.handlers
  /-- The environments stay. -/
  environments : performed.dispatcher.environments = dispatcher.environments

/-- A request whose handler was found runs it on its headers and arguments. -/
theorem perform_some (runtime : Runtime) (dispatcher : Dispatcher) (args : DispatchArgs)
    (environment : Option String) (handler : Handler) {list : List Json}
    (given : args.rjrMethodArgs = .arr list) : ∃ request : Request,
      request.rjrHeaders = args.rjrHeaders ∧
      (dispatcher.perform runtime args environment (some handler)).headers =
        (handler request list).1 ∧
      (dispatcher.perform runtime args environment (some handler)).result =
        Dispatcher.resultOf (handler request list).2 := by
  have carried : ((Request.new args).withEnv environment).rjrMethodArgs = .arr list := by
    cases environment <;> simp only [Request.withEnv, Request.new, given] <;> rfl
  refine ⟨(Request.new args).withEnv environment, by cases environment <;> rfl, ?_⟩
  simp only [Dispatcher.perform, Request.handle, carried]
  exact ⟨trivial, trivial⟩

/-- The result of a handler can be sent, if its value can. -/
theorem resultOf_proper {createId : String} {outcome : Except Exn Json}
    (plain : ∀ value, outcome = .ok value → value.plain createId = true) :
    Proper createId (Dispatcher.resultOf outcome) := by
  cases outcome with
  | error raised => exact .failure _ _ _ rfl rfl rfl
  | ok retval =>
    rw [Dispatcher.resultOf, Result.ofReturn_eq]
    apply Proper.success
    split
    · rfl
    · exact plain retval rfl

/-- A request for a method name is dispatched, with a result and headers that can be sent. -/
theorem dispatch_served {createId : String} (runtime : Runtime) {dispatcher : Dispatcher}
    (serves : Serves createId dispatcher.handlers) (args : DispatchArgs) {method : String}
    {list : List Json} (named : args.rjrMethod = .str method)
    (given : args.rjrMethodArgs = .arr list) (plain : (Json.arr list).plain createId = true)
    (free : Free createId args.rjrHeaders) :
    ∃ performed, dispatcher.dispatch runtime args = .ok performed ∧
      Sends createId dispatcher performed := by
  have comparable : Dispatcher.Comparable args.rjrMethod := .inr ⟨method, named⟩
  obtain ⟨handler, handlerFound⟩ := Dispatcher.registeredFor_comparable runtime
    dispatcher.handlers args.rjrMethod comparable
  obtain ⟨environment, environmentFound⟩ := Dispatcher.registeredFor_comparable runtime
    dispatcher.environments args.rjrMethod comparable
  have performed := Dispatcher.dispatch_eq runtime handlerFound environmentFound
  obtain ⟨handlers, environments⟩ := Dispatcher.dispatch_tables runtime performed
  refine ⟨_, performed, ?_, ?_, handlers, environments⟩
  · cases handler with
    | none => exact .failure _ _ _ rfl rfl rfl
    | some handler =>
      obtain ⟨entry, inside, rfl⟩ := Dispatcher.registeredFor_mem runtime _ _ handlerFound
      obtain ⟨request, _, _, result⟩ :=
        perform_some runtime dispatcher args environment entry.2 given
      rw [result]
      exact resultOf_proper fun value => serves.values entry inside request list value plain
  · cases handler with
    | none => exact free
    | some handler =>
      obtain ⟨entry, inside, rfl⟩ := Dispatcher.registeredFor_mem runtime _ _ handlerFound
      obtain ⟨request, found, headers, _⟩ :=
        perform_some runtime dispatcher args environment entry.2 given
      rw [headers]
      exact serves.headers entry inside request list plain (found ▸ free)

/-- The result of a dispatch depends on the two tables alone. -/
theorem dispatch_congr {runtime : Runtime} {dispatcher other : Dispatcher}
    {args : DispatchArgs} {performed : Performed}
    (handlers : other.handlers = dispatcher.handlers)
    (environments : other.environments = dispatcher.environments)
    (returned : dispatcher.dispatch runtime args = .ok performed) :
    ∃ again, other.dispatch runtime args = .ok again ∧ again.result = performed.result := by
  obtain ⟨handler, environment, handlerFound, environmentFound, rfl⟩ :=
    Dispatcher.dispatch_cases runtime returned
  have sameHandler : other.handlerFor runtime args.rjrMethod = .ok handler := by
    rw [Dispatcher.handlerFor, handlers]
    exact handlerFound
  have sameEnvironment : other.envFor runtime args.rjrMethod = .ok environment := by
    rw [Dispatcher.envFor, environments]
    exact environmentFound
  refine ⟨_, Dispatcher.dispatch_eq runtime sameHandler sameEnvironment, ?_⟩
  cases handler with
  | none => rfl
  | some found => rfl

end Rjr.Verif.Packets
