import Rjr.Messages
import Rjr.Site.Value

/-!
# Requests as JSON

`to_json` and `json_create` of `lib/rjr/request.rb`, with which requests that a dispatcher keeps
are passed on. A request is written with five of its attributes and with its result, if it has
one. It is read by the constructors of `Result` and `Request`, which take their arguments from a
hash under symbols or strings; a parsed hash has strings. The reader asks for the result whether or
not one was written.

`JSON.parse` without additions takes a class name for data like any other, so the law of the
library holds here for every tree that JSON can express.
-/

namespace Rjr

/-- A `json` library that reads back every tree JSON can express. -/
structure DataLib extends JsonLib where
  /-- A tree is written and read back, whatever its members are named. -/
  readsBack : ∀ tree, Site.wellFormed tree = true →
    ∃ text, generate tree = .ok text ∧ parse text = .ok tree

/-- The arguments of `Request.new` under one kind of key; an absent one is `nil`. -/
structure RequestArgs where
  /-- Method which the request is for. -/
  rjrMethod : Json := .null
  /-- Arguments to be passed to the method. -/
  rjrMethodArgs : Json := .null
  /-- Headers which came with the request. -/
  rjrHeaders : Json := .null
  /-- Type of the node which the request came in on. -/
  rjrNodeType : Json := .null
  /-- Id of the node which the request came in on. -/
  rjrNodeId : Json := .null
  deriving DecidableEq

/-- `RJR::Request`, as far as its JSON form goes. -/
structure StoredRequest extends RequestArgs where
  /-- Result of the request, if it was set. -/
  result : Option Result
  deriving DecidableEq

/-- `args[:key] || args['key']` with a hash that was parsed, which has no symbols for keys. -/
def Runtime.argument (runtime : Runtime) (args : Json) (key : String) : Except Exn Json :=
  match args with
  | .obj members => .ok (((OrderedHash.ofList members).get? key).getD .null)
  | .str _ | .arr _ | .int _ => .error ⟨"TypeError", runtime.noConversion (":" ++ key)⟩
  | other => .error (runtime.noMethodError "[]" (runtime.inspect other))

/-- `Result.new` with a parsed value. -/
def Result.ofParsed (runtime : Runtime) (args : Json) : Except Exn Result := do
  let result ← runtime.argument args "result"
  let errorCode ← runtime.argument args "error_code"
  let errorMsg ← runtime.argument args "error_msg"
  let errorClass ← runtime.argument args "error_class"
  return Result.new {}
    { result := result, errorCode := errorCode, errorMsg := errorMsg, errorClass := errorClass }

namespace StoredRequest

/-- `Request#initialize`, from the arguments under symbols and those under strings. -/
def new (symbols : RequestArgs) (strings : RequestArgs := {}) : StoredRequest where
  rjrMethod := symbols.rjrMethod.orElse strings.rjrMethod
  rjrMethodArgs := (symbols.rjrMethodArgs.orElse strings.rjrMethodArgs).orElse (.arr [])
  rjrHeaders := symbols.rjrHeaders.orElse strings.rjrHeaders
  rjrNodeType := symbols.rjrNodeType.orElse strings.rjrNodeType
  rjrNodeId := symbols.rjrNodeId.orElse strings.rjrNodeId
  result := none

/-- `Request.new` with a parsed value. -/
def ofParsed (runtime : Runtime) (args : Json) : Except Exn StoredRequest := do
  let rjrMethod ← runtime.argument args "rjr_method"
  let rjrMethodArgs ← runtime.argument args "rjr_method_args"
  let rjrHeaders ← runtime.argument args "rjr_headers"
  let rjrNodeId ← runtime.argument args "rjr_node_id"
  let rjrNodeType ← runtime.argument args "rjr_node_type"
  return new {}
    { rjrMethod := rjrMethod, rjrMethodArgs := rjrMethodArgs, rjrHeaders := rjrHeaders
      rjrNodeType := rjrNodeType, rjrNodeId := rjrNodeId }

/-- `Request#request_json`. -/
def requestJson (request : StoredRequest) : List (String × Json) :=
  [("request", .obj [("rjr_method", request.rjrMethod),
    ("rjr_method_args", request.rjrMethodArgs), ("rjr_headers", request.rjrHeaders),
    ("rjr_node_type", request.rjrNodeType), ("rjr_node_id", request.rjrNodeId)])]

/-- `Request#result_json`. -/
def resultJson (request : StoredRequest) : List (String × Json) :=
  match request.result with
  | none => []
  | some result => [("result", .obj [("result", result.result), ("error_code", result.errorCode),
      ("error_msg", result.errorMsg), ("error_class", result.errorClass)])]

/-- `Request#to_json`, as a tree. -/
def toJson (request : StoredRequest) : Json :=
  .obj [("json_class", .str "RJR::Request"),
    ("data", .obj (request.requestJson ++ request.resultJson))]

/-- `Request.json_create`. -/
def jsonCreate (runtime : Runtime) (o : Json) : Except Exn StoredRequest := do
  let data ← runtime.index o "data"
  let result ← Result.ofParsed runtime (← runtime.index data "result")
  let request ← ofParsed runtime (← runtime.index data "request")
  return { request with result := some result }

end StoredRequest

end Rjr
