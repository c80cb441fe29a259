import Rjr.Messages

/-!
# Compressed messages

`lib/rjr/messages/compressed.rb`. Subclasses of the three message classes write the standard
members under one-letter names, with the arguments or the result as deflated and encoded text. A
text that is parsed is read by the subclass itself, which then enters the constructor of the
superclass again with rebuilt arguments, as if the message were to be sent: the branch without
`:message`, which replaces what is missing by defaults and reads no headers.

A compressed message has the fields of its superclass, so the structures of the plain messages are
used. Only a response knows one thing more, the request it answers.
-/

namespace Rjr.Messages

/-- `Zlib` and `Base64`, as inverse pairs on the texts and bytes that are Ruby strings. -/
structure Zlib where
  /-- `Zlib::Deflate.deflate`. -/
  deflate : String → String
  /-- `Zlib::Inflate.inflate`. -/
  inflate : String → Except Exn String
  /-- `Base64.encode64`. -/
  encode64 : String → String
  /-- `Base64.decode64`. -/
  decode64 : String → String
  /-- What was deflated is inflated. -/
  inflate_deflate : ∀ text, inflate (deflate text) = .ok text
  /-- What was encoded is decoded. -/
  decode_encode : ∀ text, decode64 (encode64 text) = text

namespace Zlib

variable (zlib : Zlib)

/-- A text, deflated and encoded. -/
def pack (text : String) : String := zlib.encode64 (zlib.deflate text)

/-- A member, decoded and inflated; only a string can be decoded. -/
def unpack (runtime : Runtime) : Json → Except Exn String
  | .str text => zlib.inflate (zlib.decode64 text)
  | other => .error (runtime.noMethodError "unpack1" (runtime.inspect other))

/-- A packed text is unpacked. -/
@[simp]
theorem unpack_pack (runtime : Runtime) (text : String) :
    zlib.unpack runtime (.str (zlib.pack text)) = .ok text := by
  rw [unpack, pack, zlib.decode_encode, zlib.inflate_deflate]

end Zlib

namespace Compressed

/-- `2.0`. -/
def version : Json := .float 0x4000000000000000

section Parsing

variable (platform : Platform) (zlib : Zlib)

/-- `JSONParser.parse`. -/
def parseJson (text : String) : Except Exn Json :=
  (JsonParser.parse platform.runtime platform.object platform.json platform.classes text).outcome

/-- `JSONParser.parse`, for a document that is asked with `has_key?`: it must be a hash. -/
def parseHash (text : String) : Except Exn (OrderedHash String Json) := do
  match ← parseJson platform text with
  | .obj members => return OrderedHash.ofList members
  | other =>
    .error (platform.runtime.noMethodError "has_key?" (platform.runtime.inspect other))

/-- A member that was packed, as data. -/
def unpackJson (packed : Json) : Except Exn Json := do
  parseJson platform (← zlib.unpack platform.runtime packed)

/-- A value as packed text. -/
def packJson (lib : JsonLib) (zlib : Zlib) (value : Json) : Except Exn Json := do
  return .str (zlib.pack (← lib.generate value))

/-- `first` of a parsed document. -/
def first (runtime : Runtime) : Json → Except Exn Json
  | .arr elements => .ok (elements.head?.getD .null)
  | .obj members =>
    .ok ((members.head?.map fun member => .arr [.str member.1, member.2]).getD .null)
  | other => .error (runtime.noMethodError "first" (runtime.inspect other))

end Parsing

/-! ## Requests -/

namespace Request

/-- The standard members of a compressed request, with its packed arguments. -/
def standard (request : Messages.Request) (packed : Json) : OrderedHash String Json :=
  ⟨[("j", version), ("i", request.msgId), ("m", request.jrMethod), ("p", packed)], by simp⟩

/-- `Compressed::Request#to_s`. -/
def toS (lib : JsonLib) (zlib : Zlib) (hashes : Hashes) (request : Messages.Request) :
    Except Exn String := do
  let packed ← packJson lib zlib request.jrArgs
  lib.generate (.obj ((standard request packed).merge (hashes.read request.headers)).entries)

/-- `Compressed::Request.new` with a message. `parse_args` is entered again without one, so the id
and the arguments are replaced where they are `nil` or `false`, and no header is read. -/
def ofMessage (platform : Platform) (zlib : Zlib) (uuid : String) (hashes : Hashes)
    (text : String) (headers : Option Nat) : Except Exn (Messages.Request × Hashes) := do
  let request ← parseHash platform text
  if request.has "m" then
    let converted ← unpackJson platform zlib ((request.get? "p").getD .null)
    return Messages.Request.new hashes uuid ((request.get? "m").getD .null) converted
      ((request.get? "i").getD .null) headers
  else
    return Messages.Request.new hashes uuid ((request.get? "method").getD .null)
      ((request.get? "params").getD .null) ((request.get? "id").getD .null) headers

end Request

/-! ## Notifications -/

namespace Notification

/-- The standard members of a compressed notification, with its packed arguments. -/
def standard (notification : Messages.Notification) (packed : Json) : OrderedHash String Json :=
  ⟨[("j", version), ("m", notification.jrMethod), ("p", packed)], by simp⟩

/-- `Compressed::Notification#to_s`. -/
def toS (lib : JsonLib) (zlib : Zlib) (hashes : Hashes) (notification : Messages.Notification) :
    Except Exn String := do
  let packed ← packJson lib zlib notification.jrArgs
  lib.generate
    (.obj ((standard notification packed).merge (hashes.read notification.headers)).entries)

/-- `Compressed::Notification.new` with a message. -/
def ofMessage (platform : Platform) (zlib : Zlib) (hashes : Hashes) (text : String)
    (headers : Option Nat) : Except Exn (Messages.Notification × Hashes) := do
  let request ← parseHash platform text
  if request.has "m" then
    let converted ← unpackJson platform zlib ((request.get? "p").getD .null)
    return Messages.Notification.new hashes ((request.get? "m").getD .null) converted headers
  else
    return Messages.Notification.new hashes ((request.get? "method").getD .null)
      ((request.get? "params").getD .null) headers

end Notification

/-! ## Responses -/

/-- The class of a request, by its constant `COMPRESSED`. -/
inductive RequestClass where
  /-- A class of `Compressed`. -/
  | compressed
  /-- A class of `Uncompressed`. -/
  | uncompressed
  deriving DecidableEq, Repr

namespace Response

/-- The standard members of a compressed response that precede its headers. -/
def standard (response : Messages.Response) : OrderedHash String Json :=
  ⟨[("j", version), ("i", response.msgId)], by simp⟩

/-- `compressed_success_json`. -/
def compressedSuccessJson (lib : JsonLib) (zlib : Zlib) (response : Messages.Response) :
    Except Exn (OrderedHash String Json) := do
  let packed ← packJson lib zlib (.arr [response.result.result])
  return ⟨[("r", packed)], by simp⟩

/-- `compressed_error_json`. -/
def compressedErrorJson (response : Messages.Response) : OrderedHash String Json :=
  ⟨[("e", .obj [("co", response.result.errorCode), ("m", response.result.errorMsg),
    ("cl", response.result.errorClass)])], by simp⟩

/-- The result or the error of a compressed response. -/
def resultJson (lib : JsonLib) (zlib : Zlib) (response : Messages.Response) :
    Except Exn (OrderedHash String Json) :=
  if response.result.success then compressedSuccessJson lib zlib response
  else return compressedErrorJson response

/-- `Compressed::Response#to_s`; the answer to an uncompressed request is not compressed. -/
def toS (lib : JsonLib) (zlib : Zlib) (hashes : Hashes) (response : Messages.Response) :
    Option RequestClass → Except Exn String
  | some .uncompressed => response.toS lib hashes
  | _ => do
    let result ← resultJson lib zlib response
    lib.generate (.obj (((standard response).merge (hashes.read response.headers)).merge
      result).entries)

/-- `parse_compressed_result`. -/
def parseCompressedResult (platform : Platform) (zlib : Zlib)
    (response : OrderedHash String Json) : Except Exn Result := do
  if response.has "r" then
    let inflated ← unpackJson platform zlib ((response.get? "r").getD .null)
    let converted ← first platform.runtime inflated
    return { Result.new {} with success := true, failed := false, result := converted }
  else if response.has "e" then
    let error := (response.get? "e").getD .null
    let code ← platform.runtime.index error "co"
    let msg ← platform.runtime.index error "m"
    let cls ← platform.runtime.index error "cl"
    return { Result.new {} with
      success := false, failed := true, errorCode := code, errorMsg := msg, errorClass := cls }
  else
    return { Result.new {} with success := false, failed := true }

/-- `Compressed::Response.new` with a message. A text that is not compressed is given as a `Hash`
to `parse_result` of the superclass, which asks it with `has?`. -/
def ofMessage (platform : Platform) (zlib : Zlib) (hashes : Hashes) (text : String)
    (headers : Option Nat) : Except Exn (Messages.Response × Hashes) := do
  let response ← parseHash platform text
  if response.has "r" || response.has "e" then
    let result ← parseCompressedResult platform zlib response
    return Messages.Response.new hashes ((response.get? "i").getD .null) result headers
  else
    .error (platform.runtime.noMethodError "has?"
      (platform.runtime.inspect (.obj response.entries)))

end Response

end Compressed

end Rjr.Messages
