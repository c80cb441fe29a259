import Rjr.Messages.Compressed
import Rjr.Verif.Codec

/-!
# Compressed and plain messages

A compressed message that is written and parsed should carry what the plain one carries. The
method, the result and, where they are neither `nil` nor `false`, the id and the arguments arrive.
The headers never do: the compressed classes enter the constructor of their superclass again
without the message, and only the branch with a message reads headers.
-/

namespace Rjr.Verif.CompressedCodec

open Messages Messages.Compressed Intermediate Codec

/-- The names the compressed classes give to top-level members. -/
def compressedNames : List String := ["j", "i", "m", "p", "r", "e"]

/-- The names of the members of a compressed error. -/
def compressedErrorNames : List String := ["co", "m", "cl"]

/-- A message of any kind; a response may know the class of the request it answers. -/
inductive Compressible where
  /-- A request. -/
  | request (request : Messages.Request)
  /-- A notification. -/
  | notification (notification : Messages.Notification)
  /-- A response. -/
  | response (response : Messages.Response) (request : Option RequestClass)

namespace Compressible

/-- The message of the plain classes. -/
def message : Compressible → Message
  | .request msg => .request msg
  | .notification msg => .notification msg
  | .response msg _ => .response msg

/-- The headers of a message. -/
def headers (hashes : Hashes) : Compressible → OrderedHash String Json
  | .request msg => hashes.read msg.headers
  | .notification msg => hashes.read msg.headers
  | .response msg _ => hashes.read msg.headers

end Compressible

section Contents

variable (platform : Platform) (zlib : Zlib) (uuid : String) (hashes : Hashes)

/-- What the plain class reads from the text of the plain message. -/
def plainContent (message : Message) : Except Exn Message.Content := do
  let text ← message.toS platform.json hashes
  let intermediate ← Intermediate.parse platform text
  let rebuilt ← Message.rebuild platform.runtime hashes intermediate message.kind
  return rebuilt.1.content rebuilt.2

/-- What the compressed class reads from the text of the compressed message. -/
def compressedContent : Compressible → Except Exn Message.Content
  | .request msg => do
    let text ← Compressed.Request.toS platform.json zlib hashes msg
    let built ← Compressed.Request.ofMessage platform zlib uuid hashes text none
    return (Message.request built.1).content built.2
  | .notification msg => do
    let text ← Compressed.Notification.toS platform.json zlib hashes msg
    let built ← Compressed.Notification.ofMessage platform zlib hashes text none
    return (Message.notification built.1).content built.2
  | .response msg request => do
    let text ← Compressed.Response.toS platform.json zlib hashes msg request
    let built ← Compressed.Response.ofMessage platform zlib hashes text none
    return (Message.response built.1).content built.2

/-- Both codecs read the same from a message. -/
def SameContent (compressible : Compressible) : Prop :=
  ∃ content, compressedContent platform zlib uuid hashes compressible = .ok content ∧
    plainContent platform hashes compressible.message = .ok content

/-- A message whose content survives compression: it has no headers, its id and its arguments are
neither `nil` nor `false`, and it does not answer an uncompressed request. -/
def Carried (compressible : Compressible) : Prop :=
  compressible.headers hashes = OrderedHash.empty ∧
    match compressible with
    | .request msg => msg.msgId.truthy = true ∧ msg.jrArgs.truthy = true
    | .notification msg => msg.jrArgs.truthy = true
    | .response _ request => request ≠ some .uncompressed

/-! ## Reading a compressed text -/

/-- A hash with plain members has a text, which is parsed back to the hash. -/
theorem parseHash_generate (members : OrderedHash String Json)
    (plain : PlainMembers platform.json.createId members) :
    ∃ text, platform.json.generate (.obj members.entries) = .ok text ∧
      parseHash platform text = .ok members := by
  obtain ⟨text, written⟩ := generate_plain platform members plain
  have read := JsonParser.parse_plain platform.runtime platform.object platform.json
    platform.classes (plain_obj _ members plain) written
  refine ⟨text, written, ?_⟩
  simp only [parseHash, parseJson, read]
  exact congrArg Except.ok (OrderedHash.ofList_entries members)

/-- A plain value is packed, and is read back. -/
theorem unpackJson_packJson (value : Json) (plain : value.plain platform.json.createId = true) :
    ∃ text, packJson platform.json zlib value = .ok (.str text) ∧
      unpackJson platform zlib (.str text) = .ok value := by
  obtain ⟨text, written, _⟩ := platform.json.roundTrip value plain
  have read := JsonParser.parse_plain platform.runtime platform.object platform.json
    platform.classes plain written
  refine ⟨zlib.pack text, ?_, ?_⟩
  · simp only [packJson, written]
    rfl
  · simp only [unpackJson, Zlib.unpack_pack]
    exact read

/-- The names of the compressed classes do not clash with `create_id`. -/
def CompressedForeign (createId : String) : Prop :=
  createId ∉ compressedNames ++ compressedErrorNames

variable {platform hashes}

/-- A hash of members with compressed names and plain values. -/
theorem plainMembers_compressed {createId : String} (foreign : CompressedForeign createId)
    (hash : OrderedHash String Json)
    (each : ∀ member ∈ hash.entries, member.1 ∈ compressedNames ++ compressedErrorNames ∧
      member.2.plain createId = true) : PlainMembers createId hash := by
  apply plainMembers_of
  intro member inside
  refine ⟨?_, (each member inside).2⟩
  intro same
  exact foreign (same ▸ (each member inside).1)

/-- A compressed name is looked up beside headers that use none of these names. -/
theorem wire_get?_compressed {headers : OrderedHash String Json}
    (apart : ∀ key ∈ headers.keys, key ∉ compressedNames)
    (standard last : OrderedHash String Json) (key : String) (name : key ∈ compressedNames) :
    (wire standard headers last).get? key = (last.get? key).or (standard.get? key) := by
  have absent : headers.get? key = none := by
    rw [OrderedHash.get?_eq_none_iff]
    intro present
    exact apart key present name
  rw [wire_lookup, absent]
  rfl

/-- The version of a compressed message is plain. -/
theorem version_plain (createId : String) : version.plain createId = true := by
  change Json.finiteWord _ = true
  decide

/-! ## What each compressed class reads -/

section Classes

variable (foreign : CompressedForeign platform.json.createId)

include foreign

/-- A compressed request arrives with its method, with defaults for a missing id and missing
arguments, and without headers. -/
theorem compressedContent_request (msg : Messages.Request)
    (sendable : Sendable platform.json.createId hashes (.request msg))
    (apart : ∀ key ∈ (hashes.read msg.headers).keys, key ∉ compressedNames) :
    compressedContent platform zlib uuid hashes (.request msg) =
      .ok ⟨some msg.jrMethod, some (msg.jrArgs.orElse (.arr [])),
        some (msg.msgId.orElse (.str uuid)), none, OrderedHash.empty⟩ := by
  obtain ⟨free, method, args, id⟩ := sendable
  obtain ⟨packed, packs, unpacks⟩ := unpackJson_packJson platform zlib msg.jrArgs args
  have standard : PlainMembers platform.json.createId
      (Compressed.Request.standard msg (.str packed)) := by
    apply plainMembers_compressed foreign
    simp [Compressed.Request.standard, compressedNames, version_plain, Json.plain, method, id]
  obtain ⟨text, generated, parsed⟩ := parseHash_generate platform
    (wire (Compressed.Request.standard msg (.str packed)) (hashes.read msg.headers)
      OrderedHash.empty)
    (plainMembers_merge _ _ _ (plainMembers_merge _ _ _ standard free.plain) plainMembers_empty)
  have written : Compressed.Request.toS platform.json zlib hashes msg = .ok text := by
    simp only [Compressed.Request.toS, packs]
    exact generated
  have lookup := wire_get?_compressed apart
    (Compressed.Request.standard msg (.str packed)) OrderedHash.empty
  have isMethod := lookup "m" (by decide)
  have isParams := lookup "p" (by decide)
  have isId := lookup "i" (by decide)
  have built : Compressed.Request.ofMessage platform zlib uuid hashes text none =
      .ok (Messages.Request.new hashes uuid msg.jrMethod msg.jrArgs msg.msgId none) := by
    simp only [Compressed.Request.ofMessage, parsed, bind, Except.bind, OrderedHash.has, isMethod,
      isParams, isId]
    change Except.bind (unpackJson platform zlib (.str _)) _ = _
    rw [unpacks]
    rfl
  simp only [compressedContent, written, built, bind, Except.bind, pure, Except.pure,
    Message.content, Messages.Request.new, openHeaders, Heap.read_alloc]

/-- A compressed notification arrives with its method, with an empty list for missing arguments,
and without headers. -/
theorem compressedContent_notification (msg : Messages.Notification)
    (sendable : Sendable platform.json.createId hashes (.notification msg))
    (apart : ∀ key ∈ (hashes.read msg.headers).keys, key ∉ compressedNames) :
    compressedContent platform zlib uuid hashes (.notification msg) =
      .ok ⟨some msg.jrMethod, some (msg.jrArgs.orElse (.arr [])), none, none,
        OrderedHash.empty⟩ := by
  obtain ⟨free, method, args⟩ := sendable
  obtain ⟨packed, packs, unpacks⟩ := unpackJson_packJson platform zlib msg.jrArgs args
  have standard : PlainMembers platform.json.createId
      (Compressed.Notification.standard msg (.str packed)) := by
    apply plainMembers_compressed foreign
    simp [Compressed.Notification.standard, compressedNames, version_plain, Json.plain, method]
  obtain ⟨text, generated, parsed⟩ := parseHash_generate platform
    (wire (Compressed.Notification.standard msg (.str packed)) (hashes.read msg.headers)
      OrderedHash.empty)
    (plainMembers_merge _ _ _ (plainMembers_merge _ _ _ standard free.plain) plainMembers_empty)
  have written : Compressed.Notification.toS platform.json zlib hashes msg = .ok text := by
    simp only [Compressed.Notification.toS, packs]
    exact generated
  have lookup := wire_get?_compressed apart
    (Compressed.Notification.standard msg (.str packed)) OrderedHash.empty
  have isMethod := lookup "m" (by decide)
  have isParams := lookup "p" (by decide)
  have built : Compressed.Notification.ofMessage platform zlib hashes text none =
      .ok (Messages.Notification.new hashes msg.jrMethod msg.jrArgs none) := by
    simp only [Compressed.Notification.ofMessage, parsed, bind, Except.bind, OrderedHash.has,
      isMethod, isParams]
    change Except.bind (unpackJson platform zlib (.str _)) _ = _
    rw [unpacks]
    rfl
  simp only [compressedContent, written, built, bind, Except.bind, pure, Except.pure,
    Message.content, Messages.Notification.new, openHeaders, Heap.read_alloc]

variable (platform) in
/-- What a proper response has in the place of its result: plain members, from which the result is
read whatever else the message has. -/
structure Packs (msg : Messages.Response) (result : OrderedHash String Json) : Prop where
  /-- They are what the response is written with. -/
  written : Compressed.Response.resultJson platform.json zlib msg = .ok result
  /-- They are plain. -/
  plain : PlainMembers platform.json.createId result
  /-- One of them is the result or the error. -/
  some : (result.has "r" || result.has "e") = true
  /-- None of them is the id. -/
  noId : result.get? "i" = none
  /-- The result is read from them. -/
  read : ∀ members : OrderedHash String Json, members.get? "r" = result.get? "r" →
    members.get? "e" = result.get? "e" →
      Compressed.Response.parseCompressedResult platform zlib members = .ok msg.result

/-- A proper response is written with its packed result, or with its error. -/
theorem packs_proper (msg : Messages.Response) (proper : Proper platform.json.createId msg.result) :
    ∃ result, Packs platform zlib msg result := by
  obtain ⟨msgId, result, ref⟩ := msg
  cases proper with
  | success value valuePlain =>
    have listed : (Json.arr [value]).plain platform.json.createId = true := by
      simp [Json.plain, Json.plainElements, valuePlain]
    obtain ⟨packed, packs, unpacks⟩ := unpackJson_packJson platform zlib (.arr [value]) listed
    refine ⟨⟨[("r", .str packed)], by simp⟩, ?_, ?_, rfl, rfl, ?_⟩
    · simp only [Compressed.Response.resultJson, Compressed.Response.compressedSuccessJson, packs]
      rfl
    · apply plainMembers_compressed foreign
      simp [compressedNames, Json.plain]
    · intro members success error
      simp only [Compressed.Response.parseCompressedResult, OrderedHash.has, success]
      change Except.bind (unpackJson platform zlib (.str packed)) _ = _
      rw [unpacks]
      rfl
  | failure code message cls codePlain messagePlain clsPlain =>
    have error : (Json.obj [("co", code), ("m", message), ("cl", cls)]).plain
        platform.json.createId = true := by
      apply plain_obj _ ⟨_, by simp⟩
      apply plainMembers_compressed foreign
      simp [compressedNames, compressedErrorNames, codePlain, messagePlain, clsPlain]
    refine ⟨_, rfl, ?_, rfl, rfl, ?_⟩
    · apply plainMembers_compressed foreign
      simp [Compressed.Response.compressedErrorJson, compressedNames, error]
    · intro members success error
      simp only [Compressed.Response.parseCompressedResult, OrderedHash.has, success, error]
      rfl

/-- A compressed response arrives with its id and its result, and without headers. -/
theorem compressedContent_response (msg : Messages.Response) (request : Option RequestClass)
    (compressed : request ≠ some .uncompressed)
    (sendable : Sendable platform.json.createId hashes (.response msg))
    (apart : ∀ key ∈ (hashes.read msg.headers).keys, key ∉ compressedNames) :
    compressedContent platform zlib uuid hashes (.response msg request) =
      .ok ⟨none, none, some msg.msgId, some msg.result, OrderedHash.empty⟩ := by
  obtain ⟨free, id, proper⟩ := sendable
  obtain ⟨result, packs⟩ := packs_proper zlib foreign msg proper
  have standard : PlainMembers platform.json.createId (Compressed.Response.standard msg) := by
    apply plainMembers_compressed foreign
    simp [Compressed.Response.standard, compressedNames, version_plain, id]
  obtain ⟨text, generated, parsed⟩ := parseHash_generate platform
    (wire (Compressed.Response.standard msg) (hashes.read msg.headers) result)
    (plainMembers_merge _ _ _ (plainMembers_merge _ _ _ standard free.plain) packs.plain)
  have written : Compressed.Response.toS platform.json zlib hashes msg request = .ok text := by
    cases request with
    | none =>
      simp only [Compressed.Response.toS, packs.written]
      exact generated
    | some cls =>
      cases cls with
      | compressed =>
        simp only [Compressed.Response.toS, packs.written]
        exact generated
      | uncompressed => exact absurd rfl compressed
  have lookup := wire_get?_compressed apart (Compressed.Response.standard msg) result
  have isSuccess := (lookup "r" (by decide)).trans Option.or_none
  have isError := (lookup "e" (by decide)).trans Option.or_none
  have isId := lookup "i" (by decide)
  have read := packs.read _ isSuccess isError
  have built : Compressed.Response.ofMessage platform zlib hashes text none =
      .ok (Messages.Response.new hashes msg.msgId msg.result none) := by
    simp only [Compressed.Response.ofMessage, parsed, bind, Except.bind, OrderedHash.has,
      isSuccess, isError, read, isId, packs.noId]
    rw [← OrderedHash.has, ← OrderedHash.has, packs.some]
    rfl
  simp only [compressedContent, written, built, bind, Except.bind, pure, Except.pure,
    Message.content, Messages.Response.new, openHeaders, Heap.read_alloc]

omit foreign in
/-- The answer to an uncompressed request is written by the plain class, and the compressed class
cannot read it: the parser of the superclass asks a hash with `has?`. -/
theorem compressedContent_uncompressed (plainForeign : Foreign platform.json.createId)
    (msg : Messages.Response) (sendable : Sendable platform.json.createId hashes (.response msg))
    (apart : ∀ key ∈ (hashes.read msg.headers).keys, key ∉ compressedNames) :
    compressedContent platform zlib uuid hashes (.response msg (some .uncompressed)) =
      .error (platform.runtime.noMethodError "has?" (platform.runtime.inspect
        (.obj (wire msg.standard (hashes.read msg.headers) (Codec.resultJson msg)).entries))) := by
  obtain ⟨free, id, proper⟩ := sendable
  have layout := response_layout plainForeign msg id proper
  obtain ⟨text, generated, parsed⟩ := parseHash_generate platform _
    (wire_plain msg.standard (Codec.resultJson msg) free layout)
  have written : Compressed.Response.toS platform.json zlib hashes msg (some .uncompressed) =
      .ok text := generated
  have lookup := wire_get?_compressed apart msg.standard (Codec.resultJson msg)
  have isSuccess := (lookup "r" (by decide)).trans Option.or_none
  have isError := (lookup "e" (by decide)).trans Option.or_none
  have noSuccess : (Codec.resultJson msg).get? "r" = none := by
    unfold Codec.resultJson
    split <;> rfl
  have noError : (Codec.resultJson msg).get? "e" = none := by
    unfold Codec.resultJson
    split <;> rfl
  simp only [compressedContent, Compressed.Response.ofMessage, written, parsed, bind, Except.bind,
    OrderedHash.has, isSuccess, isError, noSuccess, noError]
  rfl

end Classes

/-! ## The same content -/

/-- The plain codec reads what a message carries. -/
theorem plainContent_readBack (message : Message) (readBack : ReadBack platform hashes message) :
    plainContent platform hashes message = .ok (message.content hashes) := by
  obtain ⟨text, intermediate, rebuilt, written, parsed, -, built, same⟩ := readBack
  simp only [plainContent, written, parsed, bind, Except.bind, built, same]
  rfl

/-- The codecs read the same when the compressed one reads what the message carries. -/
theorem sameContent_iff (compressible : Compressible)
    (readBack : ReadBack platform hashes compressible.message) :
    SameContent platform zlib uuid hashes compressible ↔
      compressedContent platform zlib uuid hashes compressible =
        .ok (compressible.message.content hashes) := by
  have plain := plainContent_readBack compressible.message readBack
  constructor
  · rintro ⟨content, read, same⟩
    rw [plain] at same
    rw [read, same]
  · intro read
    exact ⟨_, read, plain⟩

/-- A default is taken exactly for `nil` and `false`. -/
theorem orElse_eq_iff (default : Json) (truthy : default.truthy = true) (value : Json) :
    value.orElse default = value ↔ value.truthy = true := by
  constructor
  · intro same
    cases held : value.truthy with
    | true => rfl
    | false =>
      rw [Json.orElse, held] at same
      rw [← held, ← same]
      exact truthy
  · intro held
    rw [Json.orElse, held]
    rfl

section Same

variable (plainForeign : Foreign platform.json.createId)
  (foreign : CompressedForeign platform.json.createId)

include plainForeign foreign

/-- A request is read the same when it has no headers and neither default is taken. -/
theorem request_same_iff (msg : Messages.Request)
    (sendable : Sendable platform.json.createId hashes (.request msg))
    (apart : ∀ key ∈ (hashes.read msg.headers).keys, key ∉ compressedNames) :
    SameContent platform zlib uuid hashes (.request msg) ↔ Carried hashes (.request msg) := by
  have readBack := request_readBack platform hashes plainForeign msg sendable
  have read := compressedContent_request zlib uuid foreign msg sendable apart
  have args := orElse_eq_iff (.arr []) rfl msg.jrArgs
  have id := orElse_eq_iff (.str uuid) rfl msg.msgId
  rw [sameContent_iff zlib uuid (.request msg) readBack, read, Carried, ← args, ← id]
  simp only [Compressible.message, Compressible.headers, Message.content, Except.ok.injEq,
    Message.Content.mk.injEq, Option.some.injEq, true_and]
  constructor
  · rintro ⟨sameArgs, sameId, headers⟩
    exact ⟨headers.symm, sameId, sameArgs⟩
  · rintro ⟨headers, sameId, sameArgs⟩
    exact ⟨sameArgs, sameId, headers.symm⟩

/-- A notification is read the same when it has no headers and has arguments. -/
theorem notification_same_iff (msg : Messages.Notification)
    (sendable : Sendable platform.json.createId hashes (.notification msg))
    (apart : ∀ key ∈ (hashes.read msg.headers).keys, key ∉ compressedNames) :
    SameContent platform zlib uuid hashes (.notification msg) ↔
      Carried hashes (.notification msg) := by
  have readBack := notification_readBack platform hashes plainForeign msg sendable
  have read := compressedContent_notification zlib uuid foreign msg sendable apart
  have args := orElse_eq_iff (.arr []) rfl msg.jrArgs
  rw [sameContent_iff zlib uuid (.notification msg) readBack, read, Carried, ← args]
  simp only [Compressible.message, Compressible.headers, Message.content, Except.ok.injEq,
    Message.Content.mk.injEq, Option.some.injEq, true_and]
  constructor
  · rintro ⟨sameArgs, headers⟩
    exact ⟨headers.symm, sameArgs⟩
  · rintro ⟨headers, sameArgs⟩
    exact ⟨sameArgs, headers.symm⟩

/-- A response is read the same when it has no headers and answers no uncompressed request. -/
theorem response_same_iff (msg : Messages.Response) (request : Option RequestClass)
    (sendable : Sendable platform.json.createId hashes (.response msg))
    (apart : ∀ key ∈ (hashes.read msg.headers).keys, key ∉ compressedNames) :
    SameContent platform zlib uuid hashes (.response msg request) ↔
      Carried hashes (.response msg request) := by
  have readBack := response_readBack platform hashes plainForeign msg sendable
  rw [sameContent_iff zlib uuid (.response msg request) readBack, Carried]
  by_cases uncompressed : request = some .uncompressed
  · have raised := compressedContent_uncompressed zlib uuid plainForeign msg sendable apart
    subst uncompressed
    rw [raised]
    simp
  · have read := compressedContent_response zlib uuid foreign msg request uncompressed sendable
      apart
    rw [read]
    simp only [Compressible.message, Compressible.headers, Message.content, Except.ok.injEq,
      Message.Content.mk.injEq, true_and]
    constructor
    · intro headers
      exact ⟨headers.symm, uncompressed⟩
    · rintro ⟨headers, -⟩
      exact headers.symm

/-- **When compression changes nothing.** For every request, notification and response that can be
sent, with headers that avoid the reserved names of both codecs, the compressed class reads from
the compressed text what the plain class reads from the plain text exactly when the message has no
headers, no id or arguments that are `nil` or `false`, and does not answer an uncompressed
request. -/
theorem compressed_same_iff (compressible : Compressible)
    (sendable : Sendable platform.json.createId hashes compressible.message)
    (apart : ∀ key ∈ (compressible.headers hashes).keys, key ∉ compressedNames) :
    SameContent platform zlib uuid hashes compressible ↔ Carried hashes compressible := by
  cases compressible with
  | request msg => exact request_same_iff zlib uuid plainForeign foreign msg sendable apart
  | notification msg =>
    exact notification_same_iff zlib uuid plainForeign foreign msg sendable apart
  | response msg request =>
    exact response_same_iff zlib uuid plainForeign foreign msg request sendable apart

end Same

end Contents

/-! ## Two messages -/

/-- A library that stores what it is given. -/
def stored : Zlib := ⟨id, .ok, id, id, fun _ => rfl, fun _ => rfl⟩

/-- An error without headers is read the same from its compressed text. -/
theorem compressed_same_error :
    let hashes : Hashes := Heap.new OrderedHash.empty
    SameContent JsonText.platform stored "uuid" hashes (.response
      ⟨.str "1", ⟨false, true, .null, .int (-32601), .str "no method", .str "NameError"⟩, 0⟩
      (some .compressed)) := by
  intro hashes
  have plainForeign : Foreign "json_class" := by
    change "json_class" ∉ _
    decide
  have foreign : CompressedForeign "json_class" := by
    change "json_class" ∉ _
    decide
  rw [compressed_same_iff stored "uuid" plainForeign foreign]
  · exact ⟨rfl, nofun⟩
  · exact ⟨⟨nofun, plainMembers_empty⟩, rfl, .failure _ _ _ rfl rfl rfl⟩
  · nofun

/-- A request with one header is read without it from its compressed text. -/
theorem compressed_header_lost :
    let hashes : Hashes := (Heap.new OrderedHash.empty).write 0 ⟨[("session", .int 7)], by simp⟩
    ¬SameContent JsonText.platform stored "uuid" hashes
      (.request ⟨.str "echo", .arr [.int 1], .str "1", 0⟩) := by
  intro hashes
  have plainForeign : Foreign "json_class" := by
    change "json_class" ∉ _
    decide
  have foreign : CompressedForeign "json_class" := by
    change "json_class" ∉ _
    decide
  rw [request_same_iff stored "uuid" plainForeign foreign]
  · rintro ⟨lost, -⟩
    cases lost
  · refine ⟨⟨?_, ?_⟩, rfl, rfl, rfl⟩
    · decide
    · exact plainMembers_of _ _ (by decide)
  · decide

end Rjr.Verif.CompressedCodec
