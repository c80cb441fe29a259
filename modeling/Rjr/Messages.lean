import Mathlib.Data.List.Infix
import Rjr.Lib.Heap
import Rjr.Result
import Rjr.Util.JsonParser

/-!
# Messages

`lib/rjr/messages`: the intermediate form of a received document and the three kinds of message.
Standard members and headers share the top level of a message. A message does not copy the hash
it is given for its headers: `@headers = args[:headers] || {}` keeps the reference, and
`parse_headers` writes into it, so headers are references into a heap of hashes here.

Each constructor of the source has two uses, with `:message` and without. They are two
definitions: `ofMessage` reads a received message, and `new` builds one to be sent.
-/

namespace Rjr

/-- What the library runs on: the Ruby runtime, the top-level constants, the `json` library and
the table of classes that may be instantiated. -/
structure Platform where
  /-- The Ruby runtime. -/
  runtime : Runtime
  /-- The top-level constants. -/
  object : Constant
  /-- The `json` library. -/
  json : JsonLib
  /-- Classes that may be instantiated from JSON. -/
  classes : JsonClasses

/-- The hashes messages use for their headers. -/
abbrev Hashes := Heap (OrderedHash String Json)

/-- `receiver[key]` with a string key: a hash looks it up, a string looks for it as a substring,
an array and an integer want a number, anything else has no such method. -/
def Runtime.index (runtime : Runtime) (receiver : Json) (key : String) : Except Exn Json :=
  match receiver with
  | .obj members => .ok (((OrderedHash.ofList members).get? key).getD .null)
  | .str text => .ok (if key.toList <:+: text.toList then .str key else .null)
  | .arr _ => .error (runtime.typeError (.str key))
  | .int _ => .error (runtime.typeError (.str key))
  | other => .error (runtime.noMethodError "[]" (runtime.inspect other))

namespace Messages

/-! ## Intermediate messages -/

/-- The data of a message: a hash, or whatever else the document was. -/
inductive Data where
  /-- A hash. -/
  | hash (members : OrderedHash String Json)
  /-- Any other value than a hash, `nil` or `false`. -/
  | other (value : Json)
  deriving DecidableEq

/-- A parsed document that has not been analysed. -/
structure Intermediate where
  /-- Text the data was parsed from. -/
  json : String
  /-- Data extracted from the text. -/
  data : Data
  deriving DecidableEq

namespace Intermediate

/-- `Intermediate#initialize`; `args[:data] || {}` replaces `nil` and `false`. -/
def new (json : String) (data : Json) : Intermediate :=
  ⟨json, match data with
    | .obj members => .hash (OrderedHash.ofList members)
    | .null => .hash OrderedHash.empty
    | .bool false => .hash OrderedHash.empty
    | value => .other value⟩

/-- `Intermediate.parse`; errors of the parser propagate. -/
def parse (platform : Platform) (json : String) : Except Exn Intermediate :=
  (JsonParser.parse platform.runtime platform.object platform.json platform.classes
    json).outcome.map
    (new json)

/-- `Intermediate#keys`. -/
def keys (runtime : Runtime) (message : Intermediate) : Except Exn (List String) :=
  match message.data with
  | .hash members => .ok members.keys
  | .other value => .error (runtime.noMethodError "keys" (runtime.inspect value))

/-- `Intermediate#[]`. -/
def get (runtime : Runtime) (message : Intermediate) (key : String) : Except Exn Json :=
  match message.data with
  | .hash members => .ok ((members.get? key).getD .null)
  | .other value => runtime.index value key

/-- `Intermediate#has?`. -/
def has (runtime : Runtime) (message : Intermediate) (key : String) : Except Exn Bool :=
  match message.data with
  | .hash members => .ok (members.has key)
  | .other value => .error (runtime.noMethodError "key?" (runtime.inspect value))

/-- A hash whose members are plain and not named `create_id`. -/
def PlainMembers (createId : String) (members : OrderedHash String Json) : Prop :=
  ∀ key value, members.get? key = some value → key ≠ createId ∧ value.plain createId = true

/-- A hash with plain members is a plain tree. -/
theorem plain_obj (createId : String) (members : OrderedHash String Json)
    (plain : PlainMembers createId members) :
    (Json.obj members.entries).plain createId = true := by
  rw [Json.plain, Bool.and_eq_true, decide_eq_true_eq, Json.plainMembers_iff]
  refine ⟨members.distinct, ?_⟩
  rintro ⟨key, value⟩ inside
  exact plain key value ((members.get?_eq_some_iff key value).mpr inside)

/-- A hash with plain members can be written. -/
theorem generate_plain (platform : Platform) (members : OrderedHash String Json)
    (plain : PlainMembers platform.json.createId members) :
    ∃ text, platform.json.generate (.obj members.entries) = .ok text := by
  obtain ⟨text, written, _⟩ := platform.json.roundTrip _ (plain_obj _ members plain)
  exact ⟨text, written⟩

/-- The text of a hash with plain members is parsed back to the hash. -/
theorem parse_generate (platform : Platform) {members : OrderedHash String Json} {text : String}
    (plain : PlainMembers platform.json.createId members)
    (written : platform.json.generate (.obj members.entries) = .ok text) :
    parse platform text = .ok ⟨text, .hash members⟩ := by
  have read := JsonParser.parse_plain platform.runtime platform.object platform.json
    platform.classes (plain_obj _ members plain) written
  rw [parse, read]
  simp only [Except.map, new, OrderedHash.ofList_entries]

end Intermediate

/-- `args[:headers] || {}`: the given reference itself, or a fresh empty hash. -/
def openHeaders (hashes : Hashes) : Option Nat → Nat × Hashes
  | some given => (given, hashes)
  | none => hashes.alloc OrderedHash.empty

/-- The members of a message that are not reserved, as `parse_headers` selects them. -/
def unreserved (reserved : List String) (members : OrderedHash String Json) :
    OrderedHash String Json :=
  members.select fun member => !reserved.contains member.1

/-- The body the three `parse_headers` share: every member of the message that is not reserved is
written into the hash of headers. -/
def parseHeaders (reserved : List String) (runtime : Runtime) (hashes : Hashes) (headers : Nat)
    (message : Intermediate) : Except Exn Hashes :=
  match message.data with
  | .hash members =>
    .ok (hashes.write headers ((hashes.read headers).merge (unreserved reserved members)))
  | .other value => .error (runtime.noMethodError "keys" (runtime.inspect value))

/-! ## Requests -/

/-- `Messages::Request`. -/
structure Request where
  /-- Method invoked on the destination. -/
  jrMethod : Json
  /-- Arguments passed to the method. -/
  jrArgs : Json
  /-- Id of the message. -/
  msgId : Json
  /-- Headers beside the standard members. -/
  headers : Nat
  deriving DecidableEq

namespace Request

/-- Members that are not headers of a request. -/
def reserved : List String := ["jsonrpc", "id", "method", "params"]

/-- `Request#parse_headers`. -/
def parseHeaders : Runtime → Hashes → Nat → Intermediate → Except Exn Hashes :=
  Messages.parseHeaders reserved

/-- `Request.new` without a message; `uuid` is what `gen_uuid` would return. -/
def new (hashes : Hashes) (uuid : String) (method args id : Json) (headers : Option Nat) :
    Request × Hashes :=
  let opened := openHeaders hashes headers
  (⟨method, args.orElse (.arr []), id.orElse (.str uuid), opened.1⟩, opened.2)

/-- `Request.new` with a message. -/
def ofMessage (runtime : Runtime) (hashes : Hashes) (message : Intermediate)
    (headers : Option Nat) : Except Exn (Request × Hashes) := do
  let opened := openHeaders hashes headers
  let method ← message.get runtime "method"
  let params ← message.get runtime "params"
  let id ← message.get runtime "id"
  let written ← parseHeaders runtime opened.2 opened.1 message
  return (⟨method, params, id, opened.1⟩, written)

/-- `Request.is_request_message?`. -/
def isRequestMessage (runtime : Runtime) (message : Intermediate) : Except Exn Bool := do
  return (← message.has runtime "method") && (← message.has runtime "id")

/-- The standard members of a request on the wire. -/
def standard (request : Request) : OrderedHash String Json :=
  ⟨[("jsonrpc", .str "2.0"), ("id", request.msgId), ("method", request.jrMethod),
    ("params", request.jrArgs)], by simp⟩

/-- `Request#to_json`, as a tree. -/
def toJson (hashes : Hashes) (request : Request) : Json :=
  .obj (request.standard.merge (hashes.read request.headers)).entries

/-- `Request#to_s`. -/
def toS (lib : JsonLib) (hashes : Hashes) (request : Request) : Except Exn String :=
  lib.generate (request.toJson hashes)

end Request

/-! ## Notifications -/

/-- `Messages::Notification`. -/
structure Notification where
  /-- Method invoked on the destination. -/
  jrMethod : Json
  /-- Arguments passed to the method. -/
  jrArgs : Json
  /-- Headers beside the standard members. -/
  headers : Nat
  deriving DecidableEq

namespace Notification

/-- Members that are not headers of a notification. -/
def reserved : List String := ["jsonrpc", "method", "params"]

/-- `Notification#parse_headers`. -/
def parseHeaders : Runtime → Hashes → Nat → Intermediate → Except Exn Hashes :=
  Messages.parseHeaders reserved

/-- `Notification.new` without a message. -/
def new (hashes : Hashes) (method args : Json) (headers : Option Nat) : Notification × Hashes :=
  let opened := openHeaders hashes headers
  (⟨method, args.orElse (.arr []), opened.1⟩, opened.2)

/-- `Notification.new` with a message. -/
def ofMessage (runtime : Runtime) (hashes : Hashes) (message : Intermediate)
    (headers : Option Nat) : Except Exn (Notification × Hashes) := do
  let opened := openHeaders hashes headers
  let method ← message.get runtime "method"
  let params ← message.get runtime "params"
  let written ← parseHeaders runtime opened.2 opened.1 message
  return (⟨method, params, opened.1⟩, written)

/-- `Notification.is_notification_message?`. -/
def isNotificationMessage (runtime : Runtime) (message : Intermediate) : Except Exn Bool := do
  return (← message.has runtime "method") && !(← message.has runtime "id")

/-- The standard members of a notification on the wire. -/
def standard (notification : Notification) : OrderedHash String Json :=
  ⟨[("jsonrpc", .str "2.0"), ("method", notification.jrMethod),
    ("params", notification.jrArgs)], by simp⟩

/-- `Notification#to_json`, as a tree. -/
def toJson (hashes : Hashes) (notification : Notification) : Json :=
  .obj (notification.standard.merge (hashes.read notification.headers)).entries

/-- `Notification#to_s`. -/
def toS (lib : JsonLib) (hashes : Hashes) (notification : Notification) : Except Exn String :=
  lib.generate (notification.toJson hashes)

end Notification

/-! ## Responses -/

/-- `Messages::Response`. -/
structure Response where
  /-- Id of the message, that of the request it answers. -/
  msgId : Json
  /-- Result encapsulated in the message. -/
  result : Result
  /-- Headers beside the standard members. -/
  headers : Nat
  deriving DecidableEq

namespace Response

/-- Members that are not headers of a response. -/
def reserved : List String := ["jsonrpc", "id", "method", "result", "error"]

/-- `Response#parse_headers`. -/
def parseHeaders : Runtime → Hashes → Nat → Intermediate → Except Exn Hashes :=
  Messages.parseHeaders reserved

/-- `Response#parse_result`. The flags follow the presence of `result`; the value of `error` is
indexed whatever it is. -/
def parseResult (runtime : Runtime) (message : Intermediate) : Except Exn Result := do
  let success ← message.has runtime "result"
  if success then
    let result ← message.get runtime "result"
    return { Result.new {} with success := true, failed := false, result := result }
  else if ← message.has runtime "error" then
    let error ← message.get runtime "error"
    let code ← runtime.index error "code"
    let msg ← runtime.index error "message"
    let cls ← runtime.index error "class"
    return { Result.new {} with
      success := false, failed := true, errorCode := code, errorMsg := msg, errorClass := cls }
  else
    return { Result.new {} with success := false, failed := true }

/-- `Response.new` without a message. -/
def new (hashes : Hashes) (id : Json) (result : Result) (headers : Option Nat) :
    Response × Hashes :=
  let opened := openHeaders hashes headers
  (⟨id, result, opened.1⟩, opened.2)

/-- `Response.new` with a message. The result is read before any header is written. -/
def ofMessage (runtime : Runtime) (hashes : Hashes) (message : Intermediate)
    (headers : Option Nat) : Except Exn (Response × Hashes) := do
  let opened := openHeaders hashes headers
  let id ← message.get runtime "id"
  let result ← parseResult runtime message
  let written ← parseHeaders runtime opened.2 opened.1 message
  return (⟨id, result, opened.1⟩, written)

/-- `Response.is_response_message?`. -/
def isResponseMessage (runtime : Runtime) (message : Intermediate) : Except Exn Bool := do
  return (← message.has runtime "result") || (← message.has runtime "error")

/-- `Response#success_json`. -/
def successJson (response : Response) : OrderedHash String Json :=
  ⟨[("result", response.result.result)], by simp⟩

/-- `Response#error_json`. -/
def errorJson (response : Response) : OrderedHash String Json :=
  ⟨[("error", .obj [("code", response.result.errorCode), ("message", response.result.errorMsg),
    ("class", response.result.errorClass)])], by simp⟩

/-- The standard members of a response that precede its headers. -/
def standard (response : Response) : OrderedHash String Json :=
  ⟨[("jsonrpc", .str "2.0"), ("id", response.msgId)], by simp⟩

/-- `Response#to_json`, as a tree. -/
def toJson (hashes : Hashes) (response : Response) : Json :=
  let resultJson := if response.result.success then response.successJson else response.errorJson
  .obj ((response.standard.merge (hashes.read response.headers)).merge resultJson).entries

/-- `Response#to_s`. -/
def toS (lib : JsonLib) (hashes : Hashes) (response : Response) : Except Exn String :=
  lib.generate (response.toJson hashes)

end Response

/-! ## Messages with a hash -/

section Hash

variable (runtime : Runtime) (hashes : Hashes) (json : String)
  (members : OrderedHash String Json) (headers : Option Nat)

/-- A request read from a hash: the members are looked up, and the rest goes into the headers. -/
theorem Request.ofMessage_hash :
    Request.ofMessage runtime hashes ⟨json, .hash members⟩ headers =
      let opened := openHeaders hashes headers
      .ok (⟨(members.get? "method").getD .null, (members.get? "params").getD .null,
          (members.get? "id").getD .null, opened.1⟩,
        opened.2.write opened.1
          ((opened.2.read opened.1).merge (unreserved Request.reserved members))) := rfl

/-- A notification read from a hash. -/
theorem Notification.ofMessage_hash :
    Notification.ofMessage runtime hashes ⟨json, .hash members⟩ headers =
      let opened := openHeaders hashes headers
      .ok (⟨(members.get? "method").getD .null, (members.get? "params").getD .null, opened.1⟩,
        opened.2.write opened.1
          ((opened.2.read opened.1).merge (unreserved Notification.reserved members))) := rfl

/-- A response read from a hash: an unusable `error` raises before any header is written. -/
theorem Response.ofMessage_hash :
    Response.ofMessage runtime hashes ⟨json, .hash members⟩ headers =
      let opened := openHeaders hashes headers
      (Response.parseResult runtime ⟨json, .hash members⟩).map fun result =>
        (⟨(members.get? "id").getD .null, result, opened.1⟩,
          opened.2.write opened.1
            ((opened.2.read opened.1).merge (unreserved Response.reserved members))) := by
  cases read : Response.parseResult runtime ⟨json, .hash members⟩ with
  | error raised =>
    simp only [Response.ofMessage, read]
    rfl
  | ok result =>
    simp only [Response.ofMessage, read]
    rfl

end Hash

end Messages

end Rjr
