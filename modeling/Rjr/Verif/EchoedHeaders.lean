import Rjr.Verif.Codec

/-!
# Answers with echoed headers

Every member of a request that is not reserved is echoed as a header of its response, beside
what the handler adds. The list a request reserves is not the list a response reserves: `result`
and `error` are headers of a request. A response is written with its own result last, so a success
overwrites an echoed `result`; a failure writes `error` only, and the receiver takes the presence of
`result` for a success. A request with a member `result` thus turns its own failure into a success
with a value of its choice.
-/

namespace Rjr.Verif.EchoedHeaders

open Messages Node Intermediate Codec

/-! ## Reading a response with arbitrary headers -/

/-- The result a receiver reads from a response with these headers. -/
def receivedResult (headers : OrderedHash String Json) (result : Result) : Result :=
  if result.success then result
  else
    match headers.get? "result" with
    | none => result
    | some forged => ⟨true, false, forged, .null, .null, .null⟩

/-- `parse_result` of a response with arbitrary headers. -/
theorem parseResult_received {createId : String} (runtime : Runtime) (json : String)
    (msg : Response) (headers : OrderedHash String Json) (proper : Proper createId msg.result) :
    Response.parseResult runtime ⟨json, .hash (wire msg.standard headers (resultJson msg))⟩ =
      .ok (receivedResult headers msg.result) := by
  obtain ⟨msgId, result, ref⟩ := msg
  have lookup := wire_lookup (Response.standard ⟨msgId, result, ref⟩)
    (resultJson ⟨msgId, result, ref⟩) headers
  cases proper with
  | success value =>
    simp only [Response.parseResult, Intermediate.has, OrderedHash.has, Intermediate.get, lookup]
    rfl
  | failure code message cls =>
    have noResult : (resultJson ⟨msgId, ⟨false, true, .null, code, message, cls⟩, ref⟩).get?
        "result" = none := rfl
    have noStandard : (Response.standard
        ⟨msgId, ⟨false, true, .null, code, message, cls⟩, ref⟩).get? "result" = none := rfl
    simp only [Response.parseResult, Intermediate.has, OrderedHash.has, Intermediate.get, lookup,
      noResult, noStandard, Option.none_or, Option.or_none, receivedResult]
    cases headers.get? "result" with
    | none => rfl
    | some forged => rfl

/-- The id and the result `Messages::Response` reads from a text. -/
def received (platform : Platform) (hashes : Hashes) (headers : Option Nat) (text : String) :
    Except Exn (Json × Result) := do
  let intermediate ← Intermediate.parse platform text
  let built ← Response.ofMessage platform.runtime hashes intermediate headers
  return (built.1.msgId, built.1.result)

/-- What is read from the text of a response: its id unless a header has that name, and its
result unless a header forges another. -/
theorem received_toS (platform : Platform) (foreign : Foreign platform.json.createId)
    (sender receiver : Hashes) (headers : Option Nat) (msg : Response)
    (echo : OrderedHash String Json) (held : sender.read msg.headers = echo)
    (plain : PlainMembers platform.json.createId echo)
    (id : msg.msgId.plain platform.json.createId = true)
    (proper : Proper platform.json.createId msg.result) :
    ∃ text, msg.toS platform.json sender = .ok text ∧
      received platform receiver headers text =
        .ok ((echo.get? "id").getD msg.msgId, receivedResult echo msg.result) := by
  subst held
  have layout := response_layout foreign msg id proper
  have members : PlainMembers platform.json.createId
      (wire msg.standard (sender.read msg.headers) (resultJson msg)) :=
    plainMembers_merge _ _ _ (plainMembers_merge _ _ _ layout.plain plain) layout.plainLast
  obtain ⟨text, written⟩ := generate_plain platform _ members
  have parsed := parse_generate platform members written
  have result := parseResult_received platform.runtime text msg (sender.read msg.headers) proper
  have built := Response.ofMessage_hash platform.runtime receiver text
    (wire msg.standard (sender.read msg.headers) (resultJson msg)) headers
  have noId : (resultJson msg).get? "id" = none := by
    unfold resultJson
    split <;> rfl
  have ownId : (Response.standard msg).get? "id" = some msg.msgId := rfl
  have idRead : ((wire msg.standard (sender.read msg.headers) (resultJson msg)).get? "id").getD
      .null = ((sender.read msg.headers).get? "id").getD msg.msgId := by
    rw [wire_lookup, noId, ownId]
    cases (sender.read msg.headers).get? "id" <;> rfl
  refine ⟨text, written, ?_⟩
  rw [result] at built
  rw [← idRead, received, parsed]
  exact congrArg (fun outcome => outcome >>= fun built =>
    Except.ok (built.1.msgId, built.1.result)) built

/-! ## The answer to a request -/

/-- What a dispatch that returned gives is a result a response can carry, if its value is
plain. -/
theorem dispatch_proper (runtime : Runtime) (createId : String) (dispatcher : Dispatcher)
    (args : DispatchArgs) (performed : Performed)
    (dispatched : dispatcher.dispatch runtime args = .ok performed)
    (plain : performed.result.result.plain createId = true) :
    Proper createId performed.result := by
  obtain ⟨handler, environment, -, -, rfl⟩ := Dispatcher.dispatch_cases runtime dispatched
  cases handler with
  | none => exact .failure _ _ _ rfl rfl rfl
  | some handler =>
    simp only [Dispatcher.perform] at plain ⊢
    cases ran : (((Request.new args).withEnv environment).handle runtime handler).2 with
    | error raised => exact .failure _ _ _ rfl rfl rfl
    | ok retval =>
      simp only [ran, Dispatcher.resultOf] at plain ⊢
      rw [Result.ofReturn_eq] at plain ⊢
      exact .success _ plain

/-- The headers a handler finds: the node's own and what the request brought. -/
def echoed (node : Node) (members : OrderedHash String Json) : OrderedHash String Json :=
  node.headers.merge (unreserved Messages.Request.reserved members)

section Answering

variable (platform : Platform) (sendMsg : String → Except Exn Unit) (node : Node)
  (json : String) (members : OrderedHash String Json) (connection : Channel)
  (performed : Performed) (receiver : Hashes) (headers : Option Nat)

/-- The dispatch of a request returned. -/
def Dispatched : Prop :=
  node.dispatcher.dispatch platform.runtime
    ((node.withHeaders Messages.Request.reserved members).argsFor members connection) =
      .ok performed

/-- `handle_request` sends one text, from which the receiver reads the id and the result as the
headers leave them. -/
theorem handleCall_received (foreign : Foreign platform.json.createId)
    (id : ((members.get? "id").getD .null).plain platform.json.createId = true)
    (left : PlainMembers platform.json.createId performed.headers)
    (value : performed.result.result.plain platform.json.createId = true)
    (dispatched : Dispatched platform node members connection performed) :
    ∃ text, (node.handleCall platform sendMsg ⟨json, .hash members⟩ connection).node.sent =
        node.sent ++ [⟨text, connection⟩] ∧
      received platform receiver headers text =
        .ok ((performed.headers.get? "id").getD ((members.get? "id").getD .null),
          receivedResult performed.headers performed.result) := by
  have proper := dispatch_proper _ _ _ _ _ dispatched value
  obtain ⟨text, written, read⟩ := received_toS platform foreign
    ((node.withHeaders Messages.Request.reserved members).afterDispatch node.messageHeaders
      performed).hashes receiver headers
    ⟨(members.get? "id").getD .null, performed.result, node.messageHeaders⟩ performed.headers
    (Heap.read_write_same _ _ _) left id proper
  refine ⟨text, ?_, read⟩
  rw [handleCall_hash, show Dispatcher.dispatch _ _ _ = _ from dispatched]
  simp only [answer, Response.new, openHeaders, written]
  rfl

/-- The outcome of a request reaches the receiver: `handle_request` sends one text, from which
`Messages::Response` reads the id of the request and the result of the dispatch. -/
def OutcomeReceived : Prop :=
  ∃ text, (node.handleCall platform sendMsg ⟨json, .hash members⟩ connection).node.sent =
      node.sent ++ [⟨text, connection⟩] ∧
    received platform receiver headers text =
      .ok ((members.get? "id").getD .null, performed.result)

/-- No header takes the place of the outcome: none is named `id` with another id, and none is
named `result` when the call failed. -/
def Unforged (id : Json) (result : Result) (echo : OrderedHash String Json) : Prop :=
  (∀ other, echo.get? "id" = some other → other = id) ∧
    (result.success = true ∨ echo.get? "result" = none)

omit platform sendMsg json connection performed receiver headers in
/-- An echoed `id` is the node's own. -/
theorem echoed_id : (echoed node members).get? "id" = node.headers.get? "id" := by
  have reserved : (unreserved Messages.Request.reserved members).get? "id" = none := by
    rw [OrderedHash.get?_eq_none_iff]
    intro inside
    obtain ⟨member, kept, name⟩ := List.mem_map.mp inside
    have free := (List.mem_filter.mp kept).2
    rw [name] at free
    exact absurd free (by decide)
  rw [echoed, OrderedHash.get?_merge, reserved]
  rfl

omit platform sendMsg json connection performed receiver headers in
/-- An echoed `result` is that of the request, or else the node's own. -/
theorem echoed_result :
    (echoed node members).get? "result" =
      (members.get? "result").or (node.headers.get? "result") := by
  have kept : (unreserved Messages.Request.reserved members).get? "result" =
      members.get? "result" := by
    apply Option.ext
    intro value
    rw [OrderedHash.get?_eq_some_iff, OrderedHash.get?_eq_some_iff]
    constructor
    · intro inside
      exact (List.mem_filter.mp inside).1
    · intro inside
      have free : (!Messages.Request.reserved.contains "result") = true := by decide
      exact List.mem_filter.mpr ⟨inside, free⟩
  rw [echoed, OrderedHash.get?_merge, kept]

omit platform sendMsg node json members connection performed receiver headers in
/-- A result is received as it is exactly when it is a success or no header forges another. -/
theorem receivedResult_eq_iff (result : Result) (echo : OrderedHash String Json) :
    receivedResult echo result = result ↔ result.success = true ∨ echo.get? "result" = none := by
  unfold receivedResult
  by_cases success : result.success = true
  · simp [success]
  · simp only [success, Bool.false_eq_true, ↓reduceIte, false_or]
    cases echo.get? "result" with
    | none => simp
    | some forged =>
      simp only [reduceCtorEq, iff_false]
      intro same
      exact success (congrArg Result.success same).symm

/-- **A request receives its own outcome if and only if no header of its response forges it.** For
every node, every request with arbitrary further members, and whatever its dispatch gave. Where
the handler leaves the headers as it found them, this is so if the node has no header named `id`
with another id, and neither the request nor the node has one named `result` when the call
failed. -/
theorem outcome_received_iff (foreign : Foreign platform.json.createId)
    (id : ((members.get? "id").getD .null).plain platform.json.createId = true)
    (left : PlainMembers platform.json.createId performed.headers)
    (value : performed.result.result.plain platform.json.createId = true)
    (dispatched : Dispatched platform node members connection performed) :
    (OutcomeReceived platform sendMsg node json members connection performed receiver headers ↔
        Unforged ((members.get? "id").getD .null) performed.result performed.headers) ∧
      (performed.headers = echoed node members →
        (Unforged ((members.get? "id").getD .null) performed.result performed.headers ↔
          (∀ other, node.headers.get? "id" = some other →
              other = (members.get? "id").getD .null) ∧
            (performed.result.success = true ∨
              (members.get? "result" = none ∧ node.headers.get? "result" = none)))) := by
  constructor
  · obtain ⟨text, sent, read⟩ := handleCall_received platform sendMsg node json members connection
      performed receiver headers foreign id left value dispatched
    have unique : OutcomeReceived platform sendMsg node json members connection performed receiver
        headers ↔
          (performed.headers.get? "id").getD ((members.get? "id").getD .null) =
              (members.get? "id").getD .null ∧
            receivedResult performed.headers performed.result = performed.result := by
      constructor
      · rintro ⟨other, again, same⟩
        have texts : text = other := by
          have tail := List.append_cancel_left (sent.symm.trans again)
          exact congrArg Sent.text (List.cons.inj tail).1
        rw [← texts, read] at same
        exact ⟨congrArg Prod.fst (Except.ok.inj same), congrArg Prod.snd (Except.ok.inj same)⟩
      · rintro ⟨same, kept⟩
        exact ⟨text, sent, by rw [read, same, kept]⟩
    rw [unique, receivedResult_eq_iff, Unforged]
    apply and_congr_left
    intro _
    cases performed.headers.get? "id" with
    | none => simp
    | some other => simp
  · intro unchanged
    rw [Unforged, unchanged, echoed_id, echoed_result, Option.or_eq_none_iff]

end Answering

/-- A node with a handler that returns 7, under one name. -/
def sevenNode : Node :=
  Node.new { dispatcher := some { Dispatcher.new false with
    handlers := ⟨[(.name "seven", Handler.ofBody fun _ _ => .ok (.int 7))], by simp⟩ } }

/-- A request with a member `result`. -/
def forgedRequest (method : String) : OrderedHash String Json :=
  ⟨[("id", .int 1), ("method", .str method), ("params", .arr []), ("result", .int 42)], by simp⟩

/-- The headers a handler finds for such a request. -/
def forgedHeaders : OrderedHash String Json := ⟨[("result", .int 42)], by simp⟩

/-- They are plain. -/
theorem forgedHeaders_plain :
    PlainMembers JsonText.platform.json.createId forgedHeaders := by
  apply plainMembers_of
  change ∀ member ∈ [("result", Json.int 42)], _
  decide

/-- `create_id` is none of the names JSON-RPC defines. -/
theorem foreign_jsonClass : Foreign JsonText.platform.json.createId := by
  change "json_class" ∉ standardNames ++ errorNames
  decide

/-- A successful call keeps its outcome although its request has a member `result`. -/
theorem outcome_received_seven :
    OutcomeReceived JsonText.platform (fun _ => .ok ()) sevenNode "" (forgedRequest "seven")
      ⟨1, none⟩ ⟨⟨true, false, .int 7, .null, .null, .null⟩, forgedHeaders, sevenNode.dispatcher⟩
      (Heap.new OrderedHash.empty) none :=
  (outcome_received_iff JsonText.platform (fun _ => .ok ()) sevenNode "" (forgedRequest "seven")
    ⟨1, none⟩ ⟨⟨true, false, .int 7, .null, .null, .null⟩, forgedHeaders, sevenNode.dispatcher⟩
    (Heap.new OrderedHash.empty) none foreign_jsonClass rfl forgedHeaders_plain rfl rfl).1.mpr
      ⟨nofun, .inl rfl⟩

/-- **A failed call is taken for a success.** A request for a method that does not exist, with a
member `result` of 42, is answered by a text that is read as a success with the value 42. -/
theorem outcome_forged :
    let missing : Performed := ⟨Result.methodNotFound JsonText.platform.runtime (.str "eight"),
      forgedHeaders, sevenNode.dispatcher⟩
    let receiver : Hashes := Heap.new OrderedHash.empty
    Dispatched JsonText.platform sevenNode (forgedRequest "eight") ⟨1, none⟩ missing ∧
      (∃ text, (sevenNode.handleCall JsonText.platform (fun _ => .ok ())
            ⟨"", .hash (forgedRequest "eight")⟩ ⟨1, none⟩).node.sent = [⟨text, ⟨1, none⟩⟩] ∧
          received JsonText.platform receiver none text =
            .ok (.int 1, ⟨true, false, .int 42, .null, .null, .null⟩)) ∧
      ¬ OutcomeReceived JsonText.platform (fun _ => .ok ()) sevenNode "" (forgedRequest "eight")
        ⟨1, none⟩ missing receiver none := by
  intro missing receiver
  have dispatched : Dispatched JsonText.platform sevenNode (forgedRequest "eight") ⟨1, none⟩
      missing := rfl
  obtain ⟨text, sent, read⟩ := handleCall_received JsonText.platform (fun _ => .ok ()) sevenNode ""
    (forgedRequest "eight") ⟨1, none⟩ missing receiver none foreign_jsonClass rfl
    forgedHeaders_plain rfl dispatched
  refine ⟨dispatched, ⟨text, sent, read⟩, ?_⟩
  rintro ⟨other, again, same⟩
  have texts : [Sent.mk text ⟨1, none⟩] = [⟨other, ⟨1, none⟩⟩] := sent.symm.trans again
  cases texts
  have results := congrArg Prod.snd (Except.ok.inj (read.symm.trans same))
  exact absurd (congrArg Result.success results) (by decide)

end Rjr.Verif.EchoedHeaders
