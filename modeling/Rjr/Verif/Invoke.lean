import Rjr.Nodes.Local
import Rjr.Verif.Codec

/-!
# The outcome of a local invoke

A call through the local node should end like the handler it reaches: with its value, with an
error that has the message of its exception, or with the method-not-found error. The request and
the response cross the codec, the result and the tables of the node on the way, while the invoking
thread already waits. One value does not survive: `Result#initialize` takes `args[:result] ||
args['result']`, which turns a returned `false` into `nil`. Every other outcome arrives unchanged,
in every interleaving.
-/

namespace Rjr.Verif.Invoke

open Messages Node Nodes.Local Codec

section Calls

variable (platform : Platform) (node : Node) (rpcMethod : String) (args : List Argument)

/-- What the request of an `invoke` is dispatched with. -/
def dispatched : DispatchArgs :=
  node.dispatchArgs (.str rpcMethod) (.arr (args.map Argument.toJson)) node.messageHeaders
    noConnection

/-- The environment registered for the method. -/
def environment : Option String :=
  (node.dispatcher.envFor platform.runtime (.str rpcMethod)).toOption.join

/-- The request object the handler runs in. -/
def requestObject : Request :=
  (Request.new (dispatched node rpcMethod args)).withEnv (environment platform node rpcMethod)

/-- What the handler registered for the method does with the headers and the arguments, if there
is one. -/
def handlerRun : Option (OrderedHash String Json × Except Exn Json) :=
  (node.dispatcher.handlerFor platform.runtime (.str rpcMethod)).toOption.join.map fun handler =>
    handler (requestObject platform node rpcMethod args) (args.map Argument.toJson)

/-- What it returns or raises. -/
def handlerOutcome : Option (Except Exn Json) :=
  (handlerRun platform node rpcMethod args).map Prod.snd

/-- The headers of the node as it leaves them. -/
def headersLeft : OrderedHash String Json :=
  ((handlerRun platform node rpcMethod args).map Prod.fst).getD node.headers

/-- How the `invoke` should end: with the value of the handler, or with an error that has the
message of its exception, or of a missing method. -/
def expected : Except Exn Json :=
  match handlerOutcome platform node rpcMethod args with
  | some (.ok value) => .ok value
  | some (.error raised) => .error ⟨"RuntimeError", raised.message⟩
  | none => .error ⟨"RuntimeError", "Method '" ++ rpcMethod ++ "' not found"⟩

/-- The result of dispatching the request. -/
def resultOfCall : Result :=
  match handlerOutcome platform node rpcMethod args with
  | some (.ok value) => .ofReturn value
  | some (.error raised) => .ofRaise raised
  | none => .methodNotFound platform.runtime (.str rpcMethod)

/-- A request for a method name is dispatched to its handler, and has that result. -/
theorem dispatch_call : ∃ performed,
    node.dispatcher.dispatch platform.runtime (dispatched node rpcMethod args) = .ok performed ∧
      performed.result = resultOfCall platform node rpcMethod args ∧
      performed.headers = headersLeft platform node rpcMethod args := by
  have comparable : Dispatcher.Comparable (.str rpcMethod) := .inr ⟨rpcMethod, rfl⟩
  obtain ⟨handler, found⟩ := Dispatcher.registeredFor_comparable platform.runtime
    node.dispatcher.handlers _ comparable
  obtain ⟨extension, extended⟩ := Dispatcher.registeredFor_comparable platform.runtime
    node.dispatcher.environments _ comparable
  have handlerFound : node.dispatcher.handlerFor platform.runtime (.str rpcMethod) = .ok handler :=
    found
  have environmentFound : node.dispatcher.envFor platform.runtime (.str rpcMethod) =
      .ok extension := extended
  refine ⟨_, Dispatcher.dispatch_eq platform.runtime handlerFound environmentFound, ?_⟩
  simp only [resultOfCall, headersLeft, handlerOutcome, handlerRun, requestObject, environment,
    handlerFound, environmentFound]
  cases handler with
  | none => exact ⟨rfl, rfl⟩
  | some handler =>
    have arguments : ((Request.new (dispatched node rpcMethod args)).withEnv
        extension).rjrMethodArgs = .arr (args.map Argument.toJson) := by
      cases extension <;> rfl
    simp only [Dispatcher.perform, Dispatcher.resultOf, Request.handle, arguments,
      Except.toOption, Option.join_some, Option.map_some]
    cases (handler _ _).2 <;> exact ⟨rfl, rfl⟩

/-- What is recorded for the outcome of a handler. -/
def replyTo (rpcMethod : String) : Option (Except Exn Json) → Reply
  | some (.ok value) => ⟨if value = .bool false then .null else value, none⟩
  | some (.error raised) => ⟨.null, some ⟨"RuntimeError", raised.message⟩⟩
  | none => ⟨.null, some ⟨"RuntimeError", "Method '" ++ rpcMethod ++ "' not found"⟩⟩

/-- The values a call sends over the wire are plain. -/
structure Plain : Prop where
  /-- `create_id` is not a standard name. -/
  foreign : Foreign platform.json.createId
  /-- The headers of the node can be sent. -/
  headers : Free platform.json.createId node.headers
  /-- So can what the handler leaves there. -/
  left : Free platform.json.createId (headersLeft platform node rpcMethod args)
  /-- The arguments are plain. -/
  arguments : ∀ arg ∈ args, arg.toJson.plain platform.json.createId = true
  /-- So is the value the handler returns. -/
  value : ∀ value, handlerOutcome platform node rpcMethod args = some (.ok value) →
    value.plain platform.json.createId = true

/-- The result of a call can be sent. -/
theorem resultOfCall_proper (plain : Plain platform node rpcMethod args) :
    Proper platform.json.createId (resultOfCall platform node rpcMethod args) := by
  have value := plain.value
  unfold resultOfCall
  cases outcome : handlerOutcome platform node rpcMethod args with
  | none => exact .failure _ _ _ rfl rfl rfl
  | some result =>
    cases result with
    | error raised => exact .failure _ _ _ rfl rfl rfl
    | ok returned =>
      have returnedPlain := value returned outcome
      dsimp only
      rw [Result.ofReturn_eq]
      apply Proper.success
      split
      · rfl
      · exact returnedPlain

/-- The result of a call is recorded as its reply. -/
theorem replyOf_call :
    replyOf (resultOfCall platform node rpcMethod args) =
      replyTo rpcMethod (handlerOutcome platform node rpcMethod args) := by
  unfold resultOfCall
  cases handlerOutcome platform node rpcMethod args with
  | none => rfl
  | some result =>
    cases result with
    | error raised => rfl
    | ok returned =>
      dsimp only
      rw [Result.ofReturn_eq]
      rfl

/-- The members of a response on the wire. -/
def members (response : Response) (hashes : Hashes) : OrderedHash String Json :=
  wire response.standard (hashes.read response.headers) (resultJson response)

/-- A response that can be sent has a text, which is parsed back to its members. -/
theorem parse_response (response : Response) (hashes : Hashes)
    (foreign : Foreign platform.json.createId)
    (sendable : Sendable platform.json.createId hashes (.response response)) :
    ∃ text, response.toS platform.json hashes = .ok text ∧
      Intermediate.parse platform text = .ok ⟨text, .hash (members response hashes)⟩ :=
  wire_parsed response.standard (resultJson response) platform sendable.1
    (response_layout foreign response sendable.2.1 sendable.2.2)

/-- `send_msg` drops the text of every response. -/
theorem sendMsg_response (response : Response) (hashes : Hashes) {text : String}
    (parsed : Intermediate.parse platform text = .ok ⟨text, .hash (members response hashes)⟩)
    (sendable : Sendable platform.json.createId hashes (.response response)) :
    Nodes.Local.sendMsg platform text = .ok none := by
  have kind := response_onlyKind platform.runtime text response (hashes.read response.headers)
    sendable.1 sendable.2.2
  have isResponse : Response.isResponseMessage platform.runtime
      ⟨text, .hash (members response hashes)⟩ = .ok true := kind.2.2
  simp only [Nodes.Local.sendMsg, parsed, bind, Except.bind, isResponse]
  rfl

/-- The members of the request of an `invoke` on the wire. -/
def requestMembers (uuid : String) : OrderedHash String Json :=
  wire (invokeMessage node uuid rpcMethod args).standard node.headers OrderedHash.empty

/-- The node once the request has been read. -/
def readNode (uuid : String) : Node :=
  node.withHeaders Messages.Request.reserved (requestMembers node rpcMethod args uuid)

/-- The answer to a call: it carries the result and the headers of the node under its id. -/
def responseTo (uuid : String) : Response :=
  ⟨.str uuid, resultOfCall platform node rpcMethod args, node.messageHeaders⟩

/-- The node once the request has been answered, with what its dispatcher has become and what it
has sent. -/
def answeredNode (uuid : String) (dispatcher : Dispatcher) (sent : List Sent) : Node :=
  { readNode node rpcMethod args uuid with
    hashes := (readNode node rpcMethod args uuid).hashes.write node.messageHeaders
      (headersLeft platform node rpcMethod args)
    dispatcher := dispatcher
    sent := sent }

section Served

variable (uuid : String) (plain : Plain platform node rpcMethod args)

include plain

/-- The request is laid out on the wire with the node's headers. -/
theorem call_layout : Layout platform.json.createId Messages.Request.reserved
    (invokeMessage node uuid rpcMethod args).standard OrderedHash.empty := by
  have argsPlain : (Json.arr (args.map Argument.toJson)).plain platform.json.createId = true := by
    rw [Json.plain, Json.plainElements_iff]
    intro value inside
    obtain ⟨arg, member, rfl⟩ := List.mem_map.mp inside
    exact plain.arguments arg member
  exact request_layout plain.foreign (invokeMessage node uuid rpcMethod args) rfl argsPlain rfl

/-- Reading the request leaves the headers of the node as they are: it brings the same ones. -/
theorem readNode_headers : (readNode node rpcMethod args uuid).headers = node.headers := by
  have layout := call_layout platform node rpcMethod args uuid plain
  have own : unreserved Messages.Request.reserved (requestMembers node rpcMethod args uuid) =
      node.headers := wire_unreserved _ _ plain.headers layout
  rw [readNode, headers_withHeaders, own, OrderedHash.merge_self]

/-- The request is dispatched as a call of its method with its arguments. -/
theorem argsFor_call : (readNode node rpcMethod args uuid).argsFor
    (requestMembers node rpcMethod args uuid) noConnection = dispatched node rpcMethod args := by
  have named := wire_get? (invokeMessage node uuid rpcMethod args).standard OrderedHash.empty
    plain.headers
  have method : (requestMembers node rpcMethod args uuid).get? "method" =
      some (.str rpcMethod) := named "method" (by simp [standardNames])
  have params : (requestMembers node rpcMethod args uuid).get? "params" =
      some (.arr (args.map Argument.toJson)) := named "params" (by simp [standardNames])
  have headers : (readNode node rpcMethod args uuid).hashes.read node.messageHeaders =
      node.hashes.read node.messageHeaders :=
    readNode_headers platform node rpcMethod args uuid plain
  simp only [argsFor, dispatched, dispatchArgs, method, params, Option.getD_some]
  change DispatchArgs.mk _ _ ((readNode node rpcMethod args uuid).hashes.read
    node.messageHeaders) _ _ _ _ = _
  rw [headers]
  rfl

/-- The answer can be sent. -/
theorem responseTo_sendable (dispatcher : Dispatcher) (sent : List Sent) :
    Sendable platform.json.createId
      (answeredNode platform node rpcMethod args uuid dispatcher sent).hashes
      (.response (responseTo platform node rpcMethod args uuid)) := by
  refine ⟨?_, rfl, resultOfCall_proper platform node rpcMethod args plain⟩
  change Free _ (Heap.read (Heap.write _ node.messageHeaders _) node.messageHeaders)
  rw [Heap.read_write_same]
  exact plain.left

/-- The request is answered: the response is built, dropped by `send_msg`, and returned. -/
theorem handleRequest_call (json : String) : ∃ dispatcher sent,
    node.handleRequest platform (fun msg => (Nodes.Local.sendMsg platform msg).map fun _ => ())
        ⟨json, .hash (requestMembers node rpcMethod args uuid)⟩ false noConnection =
      ⟨answeredNode platform node rpcMethod args uuid dispatcher sent,
        some (dispatched node rpcMethod args),
        .ok (some (responseTo platform node rpcMethod args uuid))⟩ := by
  have arguments := argsFor_call platform node rpcMethod args uuid plain
  have id : (requestMembers node rpcMethod args uuid).get? "id" = some (.str uuid) :=
    wire_get? (invokeMessage node uuid rpcMethod args).standard OrderedHash.empty plain.headers
      "id" (by simp [standardNames])
  obtain ⟨⟨result, left, dispatcher⟩, performed, rfl, rfl⟩ :=
    dispatch_call platform node rpcMethod args
  have sendable := responseTo_sendable platform node rpcMethod args uuid plain dispatcher []
  obtain ⟨text, written, parsed⟩ := parse_response platform _ _ plain.foreign sendable
  have dropped := sendMsg_response platform _ _ parsed sendable
  have response : (Response.mk (.str uuid) (resultOfCall platform node rpcMethod args)
      node.messageHeaders).toS platform.json
        ((readNode node rpcMethod args uuid).afterDispatch node.messageHeaders
          ⟨resultOfCall platform node rpcMethod args, headersLeft platform node rpcMethod args,
            dispatcher⟩).hashes = .ok text := written
  refine ⟨dispatcher, node.sent ++ [⟨text, noConnection⟩], ?_⟩
  rw [handleRequest, if_neg (by decide), handleCall_hash]
  rw [readNode] at arguments response
  simp only [arguments, performed, id, Option.getD_some, answer, Response.new, openHeaders,
    response, dropped]
  rfl

/-- **The request's thread.** It records the reply to the outcome of the handler under the id of
the request, after everything recorded before, and leaves the timeout as it is. -/
theorem requestThread_records {text : String}
    (written : (invokeMessage node uuid rpcMethod args).toS platform.json node.hashes =
      .ok text) :
    (requestThread platform node text false).1.correlation = node.correlation.record
        (.str uuid, replyTo rpcMethod (handlerOutcome platform node rpcMethod args)) ∧
      (requestThread platform node text false).1.timeout = node.timeout := by
  have layout := call_layout platform node rpcMethod args uuid plain
  have parsed : Intermediate.parse platform text =
      .ok ⟨text, .hash (requestMembers node rpcMethod args uuid)⟩ :=
    Intermediate.parse_generate platform (wire_plain _ _ plain.headers layout) written
  obtain ⟨dispatcher, sent, answered⟩ :=
    handleRequest_call platform node rpcMethod args uuid plain text
  have sendable := responseTo_sendable platform node rpcMethod args uuid plain dispatcher sent
  obtain ⟨reply, writtenAgain, parsedAgain⟩ :=
    parse_response platform (responseTo platform node rpcMethod args uuid)
      (answeredNode platform node rpcMethod args uuid dispatcher sent).hashes plain.foreign sendable
  have result : Response.parseResult platform.runtime
      ⟨reply, .hash (members (responseTo platform node rpcMethod args uuid)
        (answeredNode platform node rpcMethod args uuid dispatcher sent).hashes)⟩ =
      .ok (resultOfCall platform node rpcMethod args) :=
    parseResult_wire platform.runtime _ (responseTo platform node rpcMethod args uuid) _
      sendable.1 sendable.2.2
  have id : (members (responseTo platform node rpcMethod args uuid)
      (answeredNode platform node rpcMethod args uuid dispatcher sent).hashes).get? "id" =
        some (.str uuid) := by
    rw [members, wire_get? _ _ sendable.1 "id" (by simp [standardNames])]
    unfold resultJson
    split <;> rfl
  simp only [requestThread, parsed, answered, writtenAgain, Except.bind, parsedAgain,
    handleResponse_returns result, id, replyOf_call]
  exact ⟨rfl, rfl⟩

/-- An `invoke` is launched. -/
theorem launch_call : ∃ req,
    (invokeMessage node uuid rpcMethod args).toS platform.json node.hashes = .ok req ∧
      launch platform node uuid rpcMethod args =
        .ok ⟨node, req, false, .str uuid, .sent, 0⟩ := by
  have layout := call_layout platform node rpcMethod args uuid plain
  obtain ⟨req, written, _⟩ := wire_parsed _ _ platform plain.headers layout
  have isWritten : (invokeMessage node uuid rpcMethod args).toS platform.json node.hashes =
      .ok req := written
  refine ⟨req, isWritten, ?_⟩
  simp only [launch, isWritten]
  rfl

end Served

/-! ## Interleavings -/

omit node rpcMethod args in
/-- Handling a request leaves the tables of the node alone. -/
theorem handleRequest_kept (sendMsg : String → Except Exn Unit) (node : Node)
    (message : Intermediate) (notification : Bool) (connection : Channel) :
    let handled := node.handleRequest platform sendMsg message notification connection
    handled.node.correlation = node.correlation ∧ handled.node.timeout = node.timeout := by
  cases notification with
  | true =>
    simp only [handleRequest, handleNotification, ↓reduceIte]
    split
    · exact ⟨rfl, rfl⟩
    · simp only [finish]
      split <;> exact ⟨rfl, rfl⟩
  | false =>
    simp only [handleRequest, handleCall, Bool.false_eq_true, ↓reduceIte]
    split
    · exact ⟨rfl, rfl⟩
    · simp only [answer]
      split
      · exact ⟨rfl, rfl⟩
      · split <;> exact ⟨rfl, rfl⟩

omit node rpcMethod args in
/-- The request's thread registers no wait, and leaves the timeout as it is. -/
theorem requestThread_kept (node : Node) (req : String) (notification : Bool) :
    (requestThread platform node req notification).1.correlation.pending =
        node.correlation.pending ∧
      (requestThread platform node req notification).1.timeout = node.timeout := by
  simp only [requestThread]
  split
  · exact ⟨rfl, rfl⟩
  · rename_i message _
    have kept := handleRequest_kept platform
      (fun msg => (Nodes.Local.sendMsg platform msg).map fun _ => ()) node message notification
      noConnection
    have pending := congrArg Correlation.pending kept.1
    split
    · exact ⟨pending, kept.2⟩
    · exact ⟨pending, kept.2⟩
    · split
      · exact ⟨pending, kept.2⟩
      · simp only [handleResponse]
        split <;> exact ⟨pending, kept.2⟩

variable (uuid : String)

/-- The entry of `@responses` for the request. -/
def entry : Json × Reply :=
  (.str uuid, replyTo rpcMethod (handlerOutcome platform node rpcMethod args))

/-- The wait has not timed out, and would not if it iterated now: no more than the node's timeout
has passed since it was registered. -/
def InTime (invocation : Invocation) : Prop :=
  invocation.phase ≠ .timedOut ∧
    (invocation.phase = .waiting → ∀ limit start, invocation.node.timeout = some limit →
      invocation.node.correlation.pending.get? invocation.msgId = some start →
      invocation.clock - start ≤ limit)

/-- What holds of an invocation at every point: before the request is served nothing is recorded
for it, afterwards its entry and nothing else, until the wait returns that entry. -/
structure Progress (invocation : Invocation) : Prop where
  /-- The wait is for the request. -/
  msgId : invocation.msgId = .str uuid
  /-- The thread handles the request. -/
  req : (invokeMessage node uuid rpcMethod args).toS platform.json node.hashes =
    .ok invocation.req
  /-- The timeout is that of the node. -/
  timeout : invocation.node.timeout = node.timeout
  /-- Before the thread has run the node differs in its tables alone, with no entry. -/
  unserved : invocation.served = false →
    invocation.node = { node with correlation := invocation.node.correlation } ∧
      ∀ response ∈ invocation.node.correlation.responses, response.1 ≠ .str uuid
  /-- Afterwards the entry is there, until it is returned. -/
  served : invocation.served = true →
    invocation.phase = .sent ∨ invocation.phase = .waiting →
      entry platform node rpcMethod args uuid ∈ invocation.node.correlation.responses ∧
        ∀ response ∈ invocation.node.correlation.responses, response.1 = .str uuid →
          response = entry platform node rpcMethod args uuid
  /-- The wait is registered while it iterates, and returns the entry. -/
  phase : invocation.phase = .sent ∨
    (invocation.phase = .waiting ∧ ∃ start ≤ invocation.clock,
      invocation.node.correlation.pending.get? (.str uuid) = some start) ∨
    (invocation.phase = .returned (entry platform node rpcMethod args uuid) ∧
      invocation.served = true)

/-- The launched invocation, on a node that has recorded nothing under the fresh id. -/
theorem progress_launch {req : String}
    (written : (invokeMessage node uuid rpcMethod args).toS platform.json node.hashes = .ok req)
    (fresh : ∀ response ∈ node.correlation.responses, response.1 ≠ .str uuid) :
    Progress platform node rpcMethod args uuid ⟨node, req, false, .str uuid, .sent, 0⟩ where
  msgId := rfl
  req := written
  timeout := rfl
  unserved _ := ⟨rfl, fresh⟩
  served := nofun
  phase := .inl rfl

omit node rpcMethod args uuid in
/-- An invocation is still in time once its request was served. -/
theorem inTime_serve {invocation : Invocation} (inTime : InTime invocation) :
    InTime (invocation.serve platform) := by
  obtain ⟨pending, timeout⟩ := requestThread_kept platform invocation.node invocation.req false
  refine ⟨inTime.1, ?_⟩
  intro waiting limit start isLimit found
  exact inTime.2 waiting limit start (timeout.symm.trans isLimit)
    ((congrArg (·.get? invocation.msgId) pending.symm).trans found)

omit platform node rpcMethod args uuid in
/-- A wait that was just registered is in time. -/
theorem inTime_register (invocation : Invocation) : InTime invocation.register := by
  refine ⟨nofun, ?_⟩
  intro _ limit start _ found
  have now : start = invocation.clock := by
    simpa [Invocation.register, Correlation.register, eq_comm] using found
  rw [now]
  simp [Invocation.register]

section Steps

variable {platform node rpcMethod args uuid} {invocation : Invocation}
  (progress : Progress platform node rpcMethod args uuid invocation)

include progress

/-- Serving the request records its entry. -/
theorem progress_serve (plain : Plain platform node rpcMethod args)
    (unserved : invocation.served = false) :
    Progress platform node rpcMethod args uuid (invocation.serve platform) := by
  obtain ⟨same, absent⟩ := progress.unserved unserved
  -- The thread works on a node that differs in its tables alone, which no field of `Plain` reads.
  have recorded := requestThread_records platform
    { node with correlation := invocation.node.correlation } rpcMethod args uuid
    ⟨plain.foreign, plain.headers, plain.left, plain.arguments, plain.value⟩ progress.req
  have threadOf : requestThread platform invocation.node invocation.req false =
      requestThread platform { node with correlation := invocation.node.correlation }
        invocation.req false := by
    rw [← same]
  have tables : (invocation.serve platform).node.correlation =
      invocation.node.correlation.record (entry platform node rpcMethod args uuid) := by
    have first := recorded.1
    change (requestThread platform invocation.node invocation.req false).1.correlation = _
    rw [threadOf]
    exact first
  refine ⟨progress.msgId, progress.req, ?_, nofun, ?_, ?_⟩
  · change (requestThread platform invocation.node invocation.req false).1.timeout = _
    rw [threadOf]
    exact recorded.2
  · intro _ _
    rw [tables]
    refine ⟨List.mem_append_right _ (List.mem_singleton.mpr rfl), ?_⟩
    intro response inside own
    rcases List.mem_append.mp inside with before | new
    · exact absurd own (absent response before)
    · exact List.mem_singleton.mp new
  · rcases progress.phase with sent | ⟨waiting, start, begun, found⟩ | ⟨_, served⟩
    · exact .inl sent
    · refine .inr (.inl ⟨waiting, start, begun, ?_⟩)
      rw [tables]
      exact found
    · rw [unserved] at served
      exact absurd served (by decide)

/-- Registering the wait leaves the responses alone. -/
theorem progress_register (sent : invocation.phase = .sent) :
    Progress platform node rpcMethod args uuid invocation.register where
  msgId := progress.msgId
  req := progress.req
  timeout := progress.timeout
  unserved := by
    intro unserved
    obtain ⟨same, absent⟩ := progress.unserved unserved
    refine ⟨?_, absent⟩
    simp only [Invocation.register]
    rw [same]
  served served _ := progress.served served (.inl sent)
  phase := by
    refine .inr (.inl ⟨rfl, invocation.clock, Nat.le_refl _, ?_⟩)
    simp [Invocation.register, Correlation.register, progress.msgId]

/-- A wait that is in time is still registered after the old ids are pruned. -/
theorem registered_inTime (waiting : invocation.phase = .waiting)
    (inTime : InTime invocation) : ∃ start ≤ invocation.clock,
      (Correlation.prunePending invocation.node.timeout invocation.clock
        invocation.node.correlation.pending).get? (.str uuid) = some start := by
  rcases progress.phase with sent | ⟨_, start, begun, found⟩ | ⟨returned, _⟩
  · rw [waiting] at sent
    cases sent
  · refine ⟨start, begun, Correlation.prunePending_recent _ _ _ _ _ found ?_⟩
    intro limit isLimit
    rw [← progress.msgId] at found
    exact inTime.2 waiting limit start isLimit found
  · rw [waiting] at returned
    cases returned

/-- An iteration goes on with its wait until the request is served, and then returns its entry. -/
theorem progress_poll (waiting : invocation.phase = .waiting) (inTime : InTime invocation) :
    Progress platform node rpcMethod args uuid invocation.poll ∧
      (invocation.served = true →
        invocation.poll.phase = .returned (entry platform node rpcMethod args uuid)) := by
  obtain ⟨start, begun, kept⟩ := registered_inTime progress waiting inTime
  have registered : (Correlation.prunePending invocation.node.timeout invocation.clock
      invocation.node.correlation.pending).has (.str uuid) = true := by
    rw [OrderedHash.has, kept]
    rfl
  have iterated : invocation.poll.phase = Clients.phaseAfter (invocation.node.correlation.iterate
      invocation.node.timeout invocation.clock (.str uuid)).1 := by
    simp only [Invocation.poll, progress.msgId]
  have tables : invocation.poll.node.correlation = (invocation.node.correlation.iterate
      invocation.node.timeout invocation.clock (.str uuid)).2 := by
    simp only [Invocation.poll, progress.msgId]
  cases served : invocation.served with
  | false =>
    obtain ⟨same, absent⟩ := progress.unserved served
    obtain ⟨goesOn, pending, responses⟩ := Correlation.iterate_waits invocation.node.timeout
      invocation.clock (.str uuid) invocation.node.correlation registered absent
    rw [goesOn] at iterated
    refine ⟨⟨progress.msgId, progress.req, progress.timeout, ?_, ?_, ?_⟩, ?_⟩
    · intro _
      rw [tables]
      refine ⟨?_, responses⟩
      simp only [Invocation.poll, progress.msgId]
      rw [same]
    · intro isServed
      have unchanged : invocation.served = true := isServed
      rw [served] at unchanged
      cases unchanged
    · refine .inr (.inl ⟨iterated, start, begun, ?_⟩)
      rw [tables, pending]
      exact kept
    · intro isServed
      cases isServed
  | true =>
    obtain ⟨present, only⟩ := progress.served served (.inr waiting)
    have returned := Correlation.iterate_returns invocation.node.timeout invocation.clock
      (.str uuid) invocation.node.correlation _ registered present only
    rw [returned] at iterated
    refine ⟨⟨progress.msgId, progress.req, progress.timeout, ?_, ?_, ?_⟩, fun _ => iterated⟩
    · intro unserved
      have unchanged : invocation.served = false := unserved
      rw [served] at unchanged
      cases unchanged
    · intro _ open_
      rw [iterated] at open_
      simp [Clients.phaseAfter] at open_
    · exact .inr (.inr ⟨iterated, served⟩)

/-- Time passes. -/
theorem progress_tick :
    Progress platform node rpcMethod args uuid
      { invocation with clock := invocation.clock + 1 } where
  msgId := progress.msgId
  req := progress.req
  timeout := progress.timeout
  unserved := progress.unserved
  served := progress.served
  phase := by
    rcases progress.phase with sent | ⟨waiting, start, begun, found⟩ | returned
    · exact .inl sent
    · exact .inr (.inl ⟨waiting, start, Nat.le_succ_of_le begun, found⟩)
    · exact .inr (.inr returned)

/-- Every step keeps the invariant, while the timeout has not passed. -/
theorem progress_step (plain : Plain platform node rpcMethod args) {action : InvokeAction}
    {next : Invocation} (stepped : (invoking platform).step invocation action = some next)
    (inTime : InTime invocation) : Progress platform node rpcMethod args uuid next := by
  cases action with
  | serve =>
    obtain ⟨unserved, ⟨⟩⟩ := Option.ite_none_left_eq_some.mp stepped
    exact progress_serve progress plain (by simpa using unserved)
  | register =>
    obtain ⟨sent, ⟨⟩⟩ := Option.ite_none_right_eq_some.mp stepped
    exact progress_register progress sent
  | poll =>
    obtain ⟨waiting, ⟨⟩⟩ := Option.ite_none_right_eq_some.mp stepped
    exact (progress_poll progress waiting inTime).1
  | tick =>
    cases stepped
    exact progress_tick progress

/-- Without further delay the invocation ends, with its entry. -/
theorem complete_returns (plain : Plain platform node rpcMethod args)
    (inTime : InTime invocation) :
    (invocation.complete platform).phase =
      .returned (entry platform node rpcMethod args uuid) := by
  -- One part of `complete` after the other keeps the invariant and the clock.
  obtain ⟨reply, replyEq, replied, isServed, replyTime⟩ : ∃ reply,
      (if invocation.served then invocation else invocation.serve platform) = reply ∧
        Progress platform node rpcMethod args uuid reply ∧ reply.served = true ∧
        InTime reply := by
    cases served : invocation.served with
    | true => exact ⟨invocation, rfl, progress, served, inTime⟩
    | false =>
      exact ⟨_, rfl, progress_serve progress plain served, rfl, inTime_serve platform inTime⟩
  obtain ⟨wait, waitEq, waits, stillServed, waitTime, begun⟩ : ∃ wait,
      (if reply.phase = .sent then reply.register else reply) = wait ∧
        Progress platform node rpcMethod args uuid wait ∧ wait.served = true ∧
        InTime wait ∧ wait.phase ≠ .sent := by
    by_cases sent : reply.phase = .sent
    · exact ⟨_, if_pos sent, progress_register replied sent, isServed, inTime_register reply, nofun⟩
    · exact ⟨_, if_neg sent, replied, isServed, replyTime, sent⟩
  simp only [Invocation.complete, replyEq, waitEq]
  rcases waits.phase with sent | ⟨waiting, _⟩ | ⟨returned, _⟩
  · exact absurd sent begun
  · rw [if_pos waiting]
    exact (progress_poll waits waiting waitTime).2 stillServed
  · rw [if_neg (by rw [returned]; nofun)]
    exact returned

end Steps

/-- An invocation that is in time was in time one step before. -/
theorem inTime_of_step {invocation next : Invocation} {action : InvokeAction}
    (stepped : (invoking platform).step invocation action = some next) (inTime : InTime next) :
    InTime invocation := by
  cases action with
  | serve =>
    obtain ⟨_, ⟨⟩⟩ := Option.ite_none_left_eq_some.mp stepped
    obtain ⟨pending, timeout⟩ := requestThread_kept platform invocation.node invocation.req false
    refine ⟨inTime.1, ?_⟩
    intro waiting limit start isLimit found
    exact inTime.2 waiting limit start (timeout.trans isLimit)
      ((congrArg (·.get? invocation.msgId) pending).trans found)
  | register =>
    obtain ⟨sent, ⟨⟩⟩ := Option.ite_none_right_eq_some.mp stepped
    refine ⟨by rw [sent]; nofun, ?_⟩
    intro waiting
    rw [sent] at waiting
    cases waiting
  | poll =>
    obtain ⟨waiting, ⟨⟩⟩ := Option.ite_none_right_eq_some.mp stepped
    refine ⟨by rw [waiting]; nofun, ?_⟩
    intro _ limit start isLimit found
    refine Correlation.recent_of_prunePending found ?_ isLimit
    -- a wait whose id was pruned would have timed out
    by_contra pruned
    apply inTime.1
    simp only [Invocation.poll, Correlation.iterate, pruned]
    rfl
  | tick =>
    cases stepped
    refine ⟨inTime.1, ?_⟩
    intro waiting limit start isLimit found
    have later := inTime.2 waiting limit start isLimit found
    dsimp only at later
    omega

/-- The invariant holds after every run that is in time. -/
theorem progress_run (plain : Plain platform node rpcMethod args) {req : String}
    (written : (invokeMessage node uuid rpcMethod args).toS platform.json node.hashes = .ok req)
    (fresh : ∀ response ∈ node.correlation.responses, response.1 ≠ .str uuid)
    (actions : List InvokeAction) (invocation : Invocation)
    (ran : (invoking platform).run ⟨node, req, false, .str uuid, .sent, 0⟩ actions =
      some invocation) (inTime : InTime invocation) :
    Progress platform node rpcMethod args uuid invocation := by
  refine (invoking platform).run_invariant
    (fun invocation => InTime invocation → Progress platform node rpcMethod args uuid invocation)
    ?_ actions _ _ (fun _ => progress_launch platform node rpcMethod args uuid written fresh) ran
    inTime
  intro state action next holds stepped nextInTime
  have stateInTime := inTime_of_step platform stepped nextInTime
  exact progress_step (holds stateInTime) plain stepped stateInTime

/-- The entry ends the `invoke` as the handler did, unless the handler returned `false`. -/
theorem outcome_entry_iff (invocation : Invocation)
    (returned : invocation.phase = .returned (entry platform node rpcMethod args uuid)) :
    invocation.outcome = some (expected platform node rpcMethod args) ↔
      handlerOutcome platform node rpcMethod args ≠ some (.ok (.bool false)) := by
  simp only [Invocation.outcome, returned, entry, expected]
  cases handlerOutcome platform node rpcMethod args with
  | none => simp [replyTo]
  | some result =>
    cases result with
    | error raised => simp [replyTo]
    | ok value =>
      by_cases isFalse : value = .bool false
      · simp [replyTo, isFalse]
      · simp [replyTo, isFalse]

/-- **An `invoke` ends like its handler exactly when the handler does not return `false`.** For
every node, method and list of arguments the request is launched, and at whatever point in time of
whatever interleaving of the two threads, the value of the handler is returned, the message of its
exception or of the missing method is raised. -/
theorem invoke_outcome_iff (plain : Plain platform node rpcMethod args)
    (fresh : ∀ response ∈ node.correlation.responses, response.1 ≠ .str uuid) :
    (∃ launched, launch platform node uuid rpcMethod args = .ok launched ∧
      ∀ actions invocation, (invoking platform).run launched actions = some invocation →
        InTime invocation →
          (invocation.complete platform).outcome = some (expected platform node rpcMethod args)) ↔
    handlerOutcome platform node rpcMethod args ≠ some (.ok (.bool false)) := by
  obtain ⟨req, written, isLaunched⟩ := launch_call platform node rpcMethod args uuid plain
  constructor
  · rintro ⟨launched, same, all⟩
    rw [isLaunched] at same
    cases same
    have inTime : InTime ⟨node, req, false, .str uuid, .sent, 0⟩ := ⟨nofun, nofun⟩
    have start := progress_launch platform node rpcMethod args uuid written fresh
    rw [← outcome_entry_iff platform node rpcMethod args uuid _
      (complete_returns start plain inTime)]
    exact all [] _ rfl inTime
  · intro notFalse
    refine ⟨_, isLaunched, ?_⟩
    intro actions invocation ran inTime
    have progress := progress_run platform node rpcMethod args uuid plain written fresh actions
      invocation ran inTime
    rw [outcome_entry_iff platform node rpcMethod args uuid _
      (complete_returns progress plain inTime)]
    exact notFalse

end Calls

/-- A local node with one handler, `answer`, that returns a value. -/
def answering (value : Json) : Node :=
  Node.new
    { nodeType := some .localNode
      timeout := some 10
      dispatcher := some { Dispatcher.new false with
        handlers := ⟨[(.name "answer", Handler.ofBody fun _ _ => .ok value)], by simp⟩ } }

/-- What that handler does. -/
theorem answering_outcome (value : Json) :
    handlerOutcome JsonText.platform (answering value) "answer" [] = some (.ok value) := rfl

/-- Calls of `answer` without arguments are plain if the value is. -/
theorem answering_plain (value : Json) (valuePlain : value.plain "json_class" = true) :
    Plain JsonText.platform (answering value) "answer" [] where
  foreign := by
    change "json_class" ∉ standardNames ++ errorNames
    decide
  headers := by
    rw [answering, new_headers]
    exact ⟨nofun, nofun⟩
  left := by
    change Free _ OrderedHash.empty
    exact ⟨nofun, nofun⟩
  arguments := nofun
  value := by
    intro returned isReturned
    rw [answering_outcome] at isReturned
    cases isReturned
    exact valuePlain

/-- A handler that returns `true`: so does the `invoke`, though its wait has begun, at time 1,
before the request's thread runs. -/
theorem invoke_outcome_true : ∃ launched invocation,
    launch JsonText.platform (answering (.bool true)) "1" "answer" [] = .ok launched ∧
      (invoking JsonText.platform).run launched [.tick, .register] = some invocation ∧
      (invocation.complete JsonText.platform).outcome = some (.ok (.bool true)) := by
  have notFalse : handlerOutcome JsonText.platform (answering (.bool true)) "answer" [] ≠
      some (.ok (.bool false)) := by
    rw [answering_outcome]
    decide
  obtain ⟨launched, isLaunched, all⟩ := (invoke_outcome_iff JsonText.platform
    (answering (.bool true)) "answer" [] "1" (answering_plain _ rfl) nofun).mpr notFalse
  have phase : launched.phase = .sent := by
    cases isLaunched
    rfl
  have ran : (invoking JsonText.platform).run launched [.tick, .register] =
      some ({ launched with clock := launched.clock + 1 } : Invocation).register := by
    simp [Machine.run, invoking, Invocation.step, phase]
  exact ⟨launched, _, isLaunched, ran, all _ _ ran (inTime_register _)⟩

/-- A handler that returns `false`: the `invoke` returns `nil`, though nothing is delayed. -/
theorem invoke_returns_nil :
    handlerOutcome JsonText.platform (answering (.bool false)) "answer" [] =
        some (.ok (.bool false)) ∧
      ∃ launched invocation,
        launch JsonText.platform (answering (.bool false)) "1" "answer" [] = .ok launched ∧
        (invoking JsonText.platform).run launched [.serve, .register, .poll] = some invocation ∧
        invocation.outcome = some (.ok .null) := by
  have plain := answering_plain (.bool false) rfl
  obtain ⟨req, written, isLaunched⟩ := launch_call JsonText.platform (answering (.bool false))
    "answer" [] "1" plain
  have returned := complete_returns (progress_launch JsonText.platform (answering (.bool false))
    "answer" [] "1" written nofun) plain ⟨nofun, nofun⟩
  have undelayed : ∀ launched : Invocation, launched.served = false → launched.phase = .sent →
      (invoking JsonText.platform).run launched [.serve, .register, .poll] =
        some (launched.complete JsonText.platform) := by
    rintro ⟨node, req, served, msgId, phase, clock⟩ rfl rfl
    rfl
  refine ⟨answering_outcome _, _, _, isLaunched, undelayed _ rfl rfl, ?_⟩
  simp only [Invocation.outcome, returned, entry, answering_outcome]
  rfl

end Rjr.Verif.Invoke
