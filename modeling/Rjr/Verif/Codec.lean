import Rjr.Node
import Rjr.Util.JsonText

/-!
# Messages on the wire

Standard members and headers of a message share one hash on the wire. As long as no header has
the name of a standard member, a message that is written and parsed is taken for a message of its
own kind and no other, and the class reads back everything it was built with: the method, the
arguments, the id, the result and the headers, in their order. Three parsers with three lists of
reserved members agree on this.
-/

namespace Rjr.Verif.Codec

open Messages Node Intermediate

/-- The names JSON-RPC gives to top-level members. -/
def standardNames : List String := ["jsonrpc", "id", "method", "params", "result", "error"]

/-- The names of the members of an error. -/
def errorNames : List String := ["code", "message", "class"]

/-- Headers that can be sent: none has a standard name, and their values are plain. -/
structure Free (createId : String) (headers : OrderedHash String Json) : Prop where
  /-- No header has the name of a standard member. -/
  names : ∀ key ∈ headers.keys, key ∉ standardNames
  /-- The values are plain, and no header is named `create_id`. -/
  plain : PlainMembers createId headers

/-- No header answers to a standard name. -/
theorem Free.get?_standard {createId : String} {headers : OrderedHash String Json}
    (free : Free createId headers) {key : String} (standard : key ∈ standardNames) :
    headers.get? key = none := by
  rw [OrderedHash.get?_eq_none_iff]
  intro present
  exact free.names key present standard

/-! ## Standard members and headers in one hash -/

/-- A hash with the headers in its middle, between reserved members, gives the headers back. -/
theorem unreserved_between (reserved : List String) (wire headers : OrderedHash String Json)
    (before after : List (String × Json))
    (shape : wire.entries = before ++ headers.entries ++ after)
    (left : ∀ member ∈ before, member.1 ∈ reserved)
    (right : ∀ member ∈ after, member.1 ∈ reserved)
    (middle : ∀ key ∈ headers.keys, key ∉ reserved) : unreserved reserved wire = headers := by
  apply OrderedHash.ext_entries
  have dropped : ∀ members : List (String × Json), (∀ member ∈ members, member.1 ∈ reserved) →
      members.filter (fun member => !reserved.contains member.1) = [] := by
    intro members all
    rw [List.filter_eq_nil_iff]
    intro member inside
    simpa using all member inside
  have kept : headers.entries.filter (fun member => !reserved.contains member.1) =
      headers.entries := by
    rw [List.filter_eq_self]
    intro member inside
    have free := middle member.1 (List.mem_map.mpr ⟨member, inside, rfl⟩)
    simpa using free
  change wire.entries.filter (fun member => !reserved.contains member.1) = headers.entries
  rw [shape, List.filter_append, List.filter_append, dropped before left, dropped after right,
    kept]
  simp

/-- Plain members stay plain when plain members are merged in. -/
theorem plainMembers_merge (createId : String) (left right : OrderedHash String Json)
    (first : PlainMembers createId left) (second : PlainMembers createId right) :
    PlainMembers createId (left.merge right) := by
  intro key value found
  rw [OrderedHash.get?_merge] at found
  cases later : right.get? key with
  | none =>
    rw [later] at found
    exact first key value found
  | some other =>
    rw [later] at found
    cases found
    exact second key value later

/-- Members with distinct names, each plain and not named `create_id`. -/
theorem plainMembers_of (createId : String) (hash : OrderedHash String Json)
    (each : ∀ member ∈ hash.entries, member.1 ≠ createId ∧ member.2.plain createId = true) :
    PlainMembers createId hash := by
  intro key value found
  exact each (key, value) ((hash.get?_eq_some_iff key value).mp found)

/-- The members of a message on the wire: standard ones, the headers, and standard ones again. -/
def wire (standard headers last : OrderedHash String Json) : OrderedHash String Json :=
  (standard.merge headers).merge last

/-- How the standard members of a class go with the members it reserves. -/
structure Layout (createId : String) (reserved : List String)
    (standard last : OrderedHash String Json) : Prop where
  /-- Reserved members have standard names. -/
  names : ∀ key ∈ reserved, key ∈ standardNames
  /-- The members before the headers are reserved. -/
  first : ∀ key ∈ standard.keys, key ∈ reserved
  /-- The members after the headers are reserved. -/
  final : ∀ key ∈ last.keys, key ∈ reserved
  /-- They are other members. -/
  apart : ∀ key ∈ last.keys, key ∉ standard.keys
  /-- The members before the headers are plain. -/
  plain : PlainMembers createId standard
  /-- The members after the headers are plain. -/
  plainLast : PlainMembers createId last

section Wire

variable {createId : String} {reserved : List String} {headers : OrderedHash String Json}
  (standard last : OrderedHash String Json)

/-- A member is looked up in the members after the headers, the headers, and those before them. -/
theorem wire_lookup (headers : OrderedHash String Json) (key : String) :
    (wire standard headers last).get? key =
      (last.get? key).or ((headers.get? key).or (standard.get? key)) := by
  rw [wire, OrderedHash.get?_merge, OrderedHash.get?_merge]

/-- A standard name is looked up in the standard members. -/
theorem wire_get? (free : Free createId headers) (key : String) (name : key ∈ standardNames) :
    (wire standard headers last).get? key = (last.get? key).or (standard.get? key) := by
  rw [wire_lookup, free.get?_standard name]
  rfl

/-- The headers stand between the standard members. -/
theorem wire_entries (free : Free createId headers)
    (layout : Layout createId reserved standard last) :
    (wire standard headers last).entries =
      standard.entries ++ headers.entries ++ last.entries := by
  have headersApart : ∀ key ∈ headers.keys, key ∉ standard.keys := by
    intro key header member
    exact free.names key header (layout.names key (layout.first key member))
  have lastApart : ∀ key ∈ last.keys, key ∉ (standard.merge headers).keys := by
    intro key member
    have name := layout.names key (layout.final key member)
    have absent := layout.apart key member
    rw [← OrderedHash.get?_eq_none_iff] at absent ⊢
    rw [OrderedHash.get?_merge, free.get?_standard name, absent]
    rfl
  rw [wire, OrderedHash.merge_disjoint _ _ lastApart, OrderedHash.merge_disjoint _ _ headersApart]

/-- The members that are not reserved are the headers, in their order. -/
theorem wire_unreserved (free : Free createId headers)
    (layout : Layout createId reserved standard last) :
    unreserved reserved (wire standard headers last) = headers := by
  refine unreserved_between reserved _ headers standard.entries last.entries
    (wire_entries standard last free layout) ?_ ?_ ?_
  · intro member inside
    exact layout.first member.1 (List.mem_map.mpr ⟨member, inside, rfl⟩)
  · intro member inside
    exact layout.final member.1 (List.mem_map.mpr ⟨member, inside, rfl⟩)
  · intro key header inside
    exact free.names key header (layout.names key inside)

/-- All members of a message are plain. -/
theorem wire_plain (free : Free createId headers)
    (layout : Layout createId reserved standard last) :
    PlainMembers createId (wire standard headers last) := by
  apply plainMembers_merge
  · exact plainMembers_merge _ _ _ layout.plain free.plain
  · exact layout.plainLast

/-- A message has a text, which is parsed back to its members. -/
theorem wire_parsed (platform : Platform) (free : Free platform.json.createId headers)
    (layout : Layout platform.json.createId reserved standard last) :
    ∃ text, platform.json.generate (.obj (wire standard headers last).entries) = .ok text ∧
      parse platform text = .ok ⟨text, .hash (wire standard headers last)⟩ := by
  have plain := wire_plain standard last free layout
  obtain ⟨text, written⟩ := generate_plain platform _ plain
  exact ⟨text, written, parse_generate platform plain written⟩

end Wire

/-! ## The three kinds -/

/-- A message of any kind. -/
inductive Message where
  /-- A request. -/
  | request (request : Messages.Request)
  /-- A notification. -/
  | notification (notification : Notification)
  /-- A response. -/
  | response (response : Response)

namespace Message

/-- The kind of a message. -/
def kind : Message → Kind
  | .request _ => .request
  | .notification _ => .notification
  | .response _ => .response

/-- `to_s` of a message. -/
def toS (lib : JsonLib) (hashes : Hashes) : Message → Except Exn String
  | .request msg => msg.toS lib hashes
  | .notification msg => msg.toS lib hashes
  | .response msg => msg.toS lib hashes

/-- The class of a kind, constructed from a parsed message without headers. -/
def rebuild (runtime : Runtime) (hashes : Hashes) (message : Intermediate) :
    Kind → Except Exn (Message × Hashes)
  | .request => (Messages.Request.ofMessage runtime hashes message none).map fun built =>
      (.request built.1, built.2)
  | .notification => (Notification.ofMessage runtime hashes message none).map fun built =>
      (.notification built.1, built.2)
  | .response => (Response.ofMessage runtime hashes message none).map fun built =>
      (.response built.1, built.2)

/-- What a message carries; a member its kind does not have is absent. -/
structure Content where
  /-- Method. -/
  jrMethod : Option Json
  /-- Arguments. -/
  jrArgs : Option Json
  /-- Id. -/
  msgId : Option Json
  /-- Result. -/
  result : Option Result
  /-- Headers. -/
  headers : OrderedHash String Json

/-- What a message carries, its headers as they are. -/
def content (hashes : Hashes) : Message → Content
  | .request msg =>
    ⟨some msg.jrMethod, some msg.jrArgs, some msg.msgId, none, hashes.read msg.headers⟩
  | .notification msg =>
    ⟨some msg.jrMethod, some msg.jrArgs, none, none, hashes.read msg.headers⟩
  | .response msg => ⟨none, none, some msg.msgId, some msg.result, hashes.read msg.headers⟩

end Message

/-- A result a response can carry: a success with a value, or a failure with a code, a message
and a class. -/
inductive Proper (createId : String) : Result → Prop where
  /-- A success. -/
  | success (value : Json) : value.plain createId = true →
      Proper createId ⟨true, false, value, .null, .null, .null⟩
  /-- A failure. -/
  | failure (code message cls : Json) : code.plain createId = true →
      message.plain createId = true → cls.plain createId = true →
        Proper createId ⟨false, true, .null, code, message, cls⟩

/-- A message that can be sent: its headers are free, and its values are plain. -/
def Sendable (createId : String) (hashes : Hashes) : Message → Prop
  | .request msg => Free createId (hashes.read msg.headers) ∧
      msg.jrMethod.plain createId = true ∧ msg.jrArgs.plain createId = true ∧
        msg.msgId.plain createId = true
  | .notification msg => Free createId (hashes.read msg.headers) ∧
      msg.jrMethod.plain createId = true ∧ msg.jrArgs.plain createId = true
  | .response msg => Free createId (hashes.read msg.headers) ∧
      msg.msgId.plain createId = true ∧ Proper createId msg.result

/-- `create_id` is not the name of a member that JSON-RPC defines. -/
def Foreign (createId : String) : Prop := createId ∉ standardNames ++ errorNames

/-- A hash in which no member is named `create_id` and all are plain, by its entries. -/
theorem plainMembers_foreign {createId : String} (foreign : Foreign createId)
    (hash : OrderedHash String Json)
    (each : ∀ member ∈ hash.entries, member.1 ∈ standardNames ++ errorNames ∧
      member.2.plain createId = true) : PlainMembers createId hash := by
  apply plainMembers_of
  intro member inside
  refine ⟨?_, (each member inside).2⟩
  intro same
  exact foreign (same ▸ (each member inside).1)

section Layouts

variable {createId : String} (foreign : Foreign createId)

/-- The empty hash is plain. -/
theorem plainMembers_empty : PlainMembers createId OrderedHash.empty := nofun

include foreign

/-- The layout of a request. -/
theorem request_layout (msg : Messages.Request) (method : msg.jrMethod.plain createId = true)
    (args : msg.jrArgs.plain createId = true) (id : msg.msgId.plain createId = true) :
    Layout createId Messages.Request.reserved msg.standard OrderedHash.empty where
  names := by simp [Messages.Request.reserved, standardNames]
  first := by simp [Messages.Request.reserved, Messages.Request.standard, OrderedHash.keys]
  final := nofun
  apart := nofun
  plain := by
    apply plainMembers_foreign foreign
    simp [Messages.Request.standard, standardNames, errorNames, method, args, id, Json.plain]
  plainLast := plainMembers_empty

/-- The layout of a notification. -/
theorem notification_layout (msg : Notification) (method : msg.jrMethod.plain createId = true)
    (args : msg.jrArgs.plain createId = true) :
    Layout createId Notification.reserved msg.standard OrderedHash.empty where
  names := by simp [Notification.reserved, standardNames]
  first := by simp [Notification.reserved, Notification.standard, OrderedHash.keys]
  final := nofun
  apart := nofun
  plain := by
    apply plainMembers_foreign foreign
    simp [Notification.standard, standardNames, errorNames, method, args, Json.plain]
  plainLast := plainMembers_empty

/-- The result or the error of a response, by its result. -/
def resultJson (msg : Response) : OrderedHash String Json :=
  if msg.result.success then msg.successJson else msg.errorJson

/-- The layout of a response. -/
theorem response_layout (msg : Response) (id : msg.msgId.plain createId = true)
    (proper : Proper createId msg.result) :
    Layout createId Response.reserved msg.standard (resultJson msg) := by
  obtain ⟨msgId, result, headers⟩ := msg
  have names : ∀ key ∈ Response.reserved, key ∈ standardNames := by
    simp [Response.reserved, standardNames]
  have first : ∀ key ∈ (Response.standard ⟨msgId, result, headers⟩).keys,
      key ∈ Response.reserved := by
    simp [Response.reserved, Response.standard, OrderedHash.keys]
  have plain : PlainMembers createId (Response.standard ⟨msgId, result, headers⟩) := by
    have idPlain : msgId.plain createId = true := id
    apply plainMembers_foreign foreign
    simp [Response.standard, standardNames, errorNames, Json.plain, idPlain]
  cases proper with
  | success value valuePlain =>
    refine ⟨names, first, ?_, ?_, plain, ?_⟩
    · simp [resultJson, Response.successJson, OrderedHash.keys, Response.reserved]
    · simp [resultJson, Response.successJson, OrderedHash.keys, Response.standard]
    · apply plainMembers_foreign foreign
      simp [resultJson, Response.successJson, standardNames, errorNames, valuePlain]
  | failure code message cls codePlain messagePlain clsPlain =>
    have error : (Json.obj [("code", code), ("message", message), ("class", cls)]).plain createId =
        true := by
      apply plain_obj createId ⟨_, by simp⟩
      apply plainMembers_foreign foreign
      simp [standardNames, errorNames, codePlain, messagePlain, clsPlain]
    refine ⟨names, first, ?_, ?_, plain, ?_⟩
    · simp [resultJson, Response.errorJson, OrderedHash.keys, Response.reserved]
    · simp [resultJson, Response.errorJson, OrderedHash.keys, Response.standard]
    · apply plainMembers_foreign foreign
      simp [resultJson, Response.errorJson, standardNames, errorNames, error]

end Layouts

/-! ## Reading back -/

section RoundTrips

variable (platform : Platform) (hashes : Hashes)

/-- The three tests of `handle_message` hold for a kind and no other. -/
def OnlyKind (runtime : Runtime) (message : Intermediate) (kind : Kind) : Prop :=
  Messages.Request.isRequestMessage runtime message = .ok (decide (kind = .request)) ∧
    Notification.isNotificationMessage runtime message = .ok (decide (kind = .notification)) ∧
    Response.isResponseMessage runtime message = .ok (decide (kind = .response))

/-- Whether a message on the wire has a member of a standard name: its headers do not matter. -/
def named (standard last : OrderedHash String Json) (key : String) : Bool :=
  ((last.get? key).or (standard.get? key)).isSome

/-- The tests look at standard names, so they are decided by the standard members. -/
theorem onlyKind_wire {createId : String} {headers : OrderedHash String Json}
    (standard last : OrderedHash String Json) (free : Free createId headers) (runtime : Runtime)
    (json : String) (kind : Kind)
    (request : (named standard last "method" && named standard last "id") =
      decide (kind = .request))
    (notification : (named standard last "method" && !named standard last "id") =
      decide (kind = .notification))
    (response : (named standard last "result" || named standard last "error") =
      decide (kind = .response)) :
    OnlyKind runtime ⟨json, .hash (wire standard headers last)⟩ kind := by
  have tested : ∀ key ∈ standardNames,
      (wire standard headers last).has key = named standard last key := by
    intro key name
    rw [OrderedHash.has, wire_get? standard last free key name, named]
  have isMethod := tested "method" (by simp [standardNames])
  have isId := tested "id" (by simp [standardNames])
  have isResult := tested "result" (by simp [standardNames])
  have isError := tested "error" (by simp [standardNames])
  simp only [OnlyKind, Messages.Request.isRequestMessage, Notification.isNotificationMessage,
    Response.isResponseMessage, Intermediate.has, isMethod, isId, isResult, isError]
  exact ⟨congrArg _ request, congrArg _ notification, congrArg _ response⟩

/-- The result of a proper response is read back from its members. -/
theorem parseResult_wire {createId : String} (runtime : Runtime) (json : String)
    (msg : Response) (headers : OrderedHash String Json) (free : Free createId headers)
    (proper : Proper createId msg.result) :
    Response.parseResult runtime ⟨json, .hash (wire msg.standard headers (resultJson msg))⟩ =
      .ok msg.result := by
  obtain ⟨msgId, result, ref⟩ := msg
  have lookup := wire_get? (Response.standard ⟨msgId, result, ref⟩)
    (resultJson ⟨msgId, result, ref⟩) free
  have present := lookup "result" (by simp [standardNames])
  have failed := lookup "error" (by simp [standardNames])
  cases proper with
  | success value valuePlain =>
    simp only [Response.parseResult, Intermediate.has, OrderedHash.has, Intermediate.get, present]
    rfl
  | failure code message cls codePlain messagePlain clsPlain =>
    simp only [Response.parseResult, Intermediate.has, OrderedHash.has, Intermediate.get, present,
      failed]
    rfl

/-- A message is read back: it is written, parsed, taken for its kind and no other, and the class
of its kind carries what it carried. -/
def ReadBack (message : Message) : Prop :=
  ∃ text intermediate rebuilt, message.toS platform.json hashes = .ok text ∧
    parse platform text = .ok intermediate ∧
    OnlyKind platform.runtime intermediate message.kind ∧
    Message.rebuild platform.runtime hashes intermediate message.kind = .ok rebuilt ∧
    rebuilt.1.content rebuilt.2 = message.content hashes

/-- A request is read back. -/
theorem request_readBack (foreign : Foreign platform.json.createId) (msg : Messages.Request)
    (sendable : Sendable platform.json.createId hashes (.request msg)) :
    ReadBack platform hashes (.request msg) := by
  obtain ⟨free, method, args, id⟩ := sendable
  have layout := request_layout foreign msg method args id
  obtain ⟨text, written, parsed⟩ :=
    wire_parsed msg.standard OrderedHash.empty platform free layout
  have headers := wire_unreserved msg.standard OrderedHash.empty free layout
  have lookup := wire_get? msg.standard OrderedHash.empty free
  have isMethod := lookup "method" (by simp [standardNames])
  have isParams := lookup "params" (by simp [standardNames])
  have isId := lookup "id" (by simp [standardNames])
  have kind := onlyKind_wire msg.standard OrderedHash.empty free platform.runtime text .request rfl
    rfl rfl
  refine ⟨text, _, _, written, parsed, kind, rfl, ?_⟩
  simp only [Message.content, isMethod, isParams, isId, headers, openHeaders,
    Heap.read_write_same, Heap.read_alloc, OrderedHash.empty_merge]
  rfl

/-- A notification is read back. -/
theorem notification_readBack (foreign : Foreign platform.json.createId) (msg : Notification)
    (sendable : Sendable platform.json.createId hashes (.notification msg)) :
    ReadBack platform hashes (.notification msg) := by
  obtain ⟨free, method, args⟩ := sendable
  have layout := notification_layout foreign msg method args
  obtain ⟨text, written, parsed⟩ :=
    wire_parsed msg.standard OrderedHash.empty platform free layout
  have headers := wire_unreserved msg.standard OrderedHash.empty free layout
  have lookup := wire_get? msg.standard OrderedHash.empty free
  have isMethod := lookup "method" (by simp [standardNames])
  have isParams := lookup "params" (by simp [standardNames])
  have kind := onlyKind_wire msg.standard OrderedHash.empty free platform.runtime text
    .notification rfl rfl rfl
  refine ⟨text, _, _, written, parsed, kind, rfl, ?_⟩
  simp only [Message.content, isMethod, isParams, headers, openHeaders, Heap.read_write_same,
    Heap.read_alloc, OrderedHash.empty_merge]
  rfl

/-- A response has a result or an error, and no method. -/
theorem response_onlyKind {createId : String} (runtime : Runtime) (json : String)
    (msg : Response) (headers : OrderedHash String Json) (free : Free createId headers)
    (proper : Proper createId msg.result) :
    OnlyKind runtime ⟨json, .hash (wire msg.standard headers (resultJson msg))⟩ .response := by
  obtain ⟨msgId, result, ref⟩ := msg
  cases proper with
  | success => exact onlyKind_wire _ _ free runtime json .response rfl rfl rfl
  | failure => exact onlyKind_wire _ _ free runtime json .response rfl rfl rfl

/-- A response is read back. -/
theorem response_readBack (foreign : Foreign platform.json.createId) (msg : Response)
    (sendable : Sendable platform.json.createId hashes (.response msg)) :
    ReadBack platform hashes (.response msg) := by
  obtain ⟨free, id, proper⟩ := sendable
  have layout := response_layout foreign msg id proper
  obtain ⟨text, written, parsed⟩ :=
    wire_parsed msg.standard (resultJson msg) platform free layout
  have headers := wire_unreserved msg.standard (resultJson msg) free layout
  have isId := wire_get? msg.standard (resultJson msg) free "id" (by simp [standardNames])
  have noId : (resultJson msg).get? "id" = none := by
    unfold resultJson
    split <;> rfl
  have kind := response_onlyKind platform.runtime text msg _ free proper
  have result := parseResult_wire platform.runtime text msg _ free proper
  have built := Response.ofMessage_hash platform.runtime hashes text
    (wire msg.standard (hashes.read msg.headers) (resultJson msg)) none
  rw [result] at built
  have rebuilt := congrArg (Except.map fun built => (Message.response built.1, built.2)) built
  refine ⟨text, _, _, written, parsed, kind, rebuilt, ?_⟩
  simp only [Message.content, isId, noId, headers, openHeaders, Heap.read_write_same,
    Heap.read_alloc, OrderedHash.empty_merge]
  rfl

/-- **Every message that is sent is read back.** Whatever a request, a notification or a response
carries, with any headers that do not take the name of a standard member, it has a text, which is
parsed to a message of its kind and no other, from which its class rebuilds the same method,
arguments, id, result and headers. -/
theorem messages_read_back (foreign : Foreign platform.json.createId) (message : Message)
    (sendable : Sendable platform.json.createId hashes message) :
    ReadBack platform hashes message := by
  cases message with
  | request msg => exact request_readBack platform hashes foreign msg sendable
  | notification msg => exact notification_readBack platform hashes foreign msg sendable
  | response msg => exact response_readBack platform hashes foreign msg sendable

end RoundTrips

/-- A response with the value `false` and a header is read back. -/
theorem messages_read_back_false :
    let hashes : Hashes := (Heap.new OrderedHash.empty).write 0 ⟨[("session", .int 7)], by simp⟩
    ReadBack JsonText.platform hashes
      (.response ⟨.str "1", ⟨true, false, .bool false, .null, .null, .null⟩, 0⟩) := by
  intro hashes
  apply messages_read_back
  · change "json_class" ∉ standardNames ++ errorNames
    decide
  · refine ⟨⟨?_, ?_⟩, rfl, .success _ rfl⟩
    · decide
    · exact plainMembers_of _ _ (by decide)

end Rjr.Verif.Codec
