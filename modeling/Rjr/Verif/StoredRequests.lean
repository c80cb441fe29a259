import Rjr.StoredRequest
import Rjr.Util.JsonText

/-!
# Stored requests that are read back

The JSON form of a request should be read back as the request it was written from. The five
attributes and every result survive, also a result that is `false` or `nil`, since the parsed
arguments come second in their `||`. A request without a result is written without one, and the
reader gives the missing member to `Result.new`, which raises on `nil`.
-/

namespace Rjr.Verif.StoredRequests

open Site StoredRequest

/-- A result as its constructor leaves it: the flags follow the error code. -/
structure Storable (result : Result) : Prop where
  /-- A success has no error code. -/
  success : result.success = result.errorCode.isNil
  /-- A failure has one. -/
  failed : result.failed = !result.errorCode.isNil
  /-- The value is well formed. -/
  value : wellFormed result.result = true
  /-- The error code is well formed. -/
  errorCode : wellFormed result.errorCode = true
  /-- The error message is well formed. -/
  errorMsg : wellFormed result.errorMsg = true
  /-- The error class is well formed. -/
  errorClass : wellFormed result.errorClass = true

/-- A request whose attributes JSON can express, with no result or one that a constructor left. -/
structure StorableRequest (request : StoredRequest) : Prop where
  /-- The method is well formed. -/
  rjrMethod : wellFormed request.rjrMethod = true
  /-- The arguments are well formed. -/
  rjrMethodArgs : wellFormed request.rjrMethodArgs = true
  /-- The headers are well formed. -/
  rjrHeaders : wellFormed request.rjrHeaders = true
  /-- The type of the node is well formed. -/
  rjrNodeType : wellFormed request.rjrNodeType = true
  /-- The id of the node is well formed. -/
  rjrNodeId : wellFormed request.rjrNodeId = true
  /-- The result, if there is one, is as its constructor left it. -/
  result : ∀ result, request.result = some result → Storable result

/-- The text of a request is parsed, and `json_create` returns the request. -/
def Restored (lib : DataLib) (runtime : Runtime) (request : StoredRequest) : Prop :=
  ∃ text tree, lib.generate request.toJson = .ok text ∧ lib.parse text = .ok tree ∧
    jsonCreate runtime tree = .ok request

/-- The JSON form of a storable request can be expressed. -/
theorem toJson_wellFormed {request : StoredRequest} (storable : StorableRequest request) :
    wellFormed request.toJson = true := by
  obtain ⟨⟨method, args, headers, nodeType, nodeId⟩, result⟩ := request
  obtain ⟨methodFormed, argsFormed, headersFormed, typeFormed, idFormed, resultFormed⟩ := storable
  cases result with
  | none => simp_all [toJson, requestJson, resultJson, wellFormed, wellFormedMembers]
  | some result =>
    obtain ⟨-, -, value, code, msg, cls⟩ := resultFormed result rfl
    simp_all [toJson, requestJson, resultJson, wellFormed, wellFormedMembers]

section Reading

variable (runtime : Runtime)

/-- The attributes are read back; arguments that are `nil` or `false` become the empty list. -/
theorem ofParsed_requestJson (method args headers nodeType nodeId : Json) :
    ofParsed runtime (.obj [("rjr_method", method), ("rjr_method_args", args),
        ("rjr_headers", headers), ("rjr_node_type", nodeType), ("rjr_node_id", nodeId)]) =
      .ok ⟨⟨method, args.orElse (.arr []), headers, nodeType, nodeId⟩, none⟩ := rfl

/-- A result as its constructor left it is read back. -/
theorem ofParsed_resultJson {result : Result} (storable : Storable result) :
    Result.ofParsed runtime (.obj [("result", result.result), ("error_code", result.errorCode),
        ("error_msg", result.errorMsg), ("error_class", result.errorClass)]) = .ok result := by
  obtain ⟨success, failed, value, code, msg, cls⟩ := result
  obtain rfl : success = code.isNil := storable.success
  obtain rfl : failed = !code.isNil := storable.failed
  rfl

/-- Without a result there is nothing to construct one from. -/
theorem jsonCreate_without_result {request : StoredRequest} (missing : request.result = none) :
    jsonCreate runtime request.toJson =
      .error (runtime.noMethodError "[]" (runtime.inspect .null)) := by
  simp only [toJson, resultJson, missing]
  rfl

/-- With a result, everything is read back but arguments that are `nil` or `false`. -/
theorem jsonCreate_with_result {request : StoredRequest} {result : Result}
    (present : request.result = some result) (storable : Storable result) :
    jsonCreate runtime request.toJson =
      .ok { request with rjrMethodArgs := request.rjrMethodArgs.orElse (.arr []) } := by
  obtain ⟨⟨method, args, headers, nodeType, nodeId⟩, own⟩ := request
  obtain rfl : own = some result := present
  have resultRead := ofParsed_resultJson runtime storable
  have requestRead := ofParsed_requestJson runtime method args headers nodeType nodeId
  have unfolded : jsonCreate runtime (toJson ⟨⟨method, args, headers, nodeType, nodeId⟩,
      some result⟩) = (do
        let read ← Result.ofParsed runtime (.obj [("result", result.result),
          ("error_code", result.errorCode), ("error_msg", result.errorMsg),
          ("error_class", result.errorClass)])
        let request ← ofParsed runtime (.obj [("rjr_method", method), ("rjr_method_args", args),
          ("rjr_headers", headers), ("rjr_node_type", nodeType), ("rjr_node_id", nodeId)])
        return { request with result := some read }) := rfl
  rw [unfolded, resultRead, requestRead]
  rfl

end Reading

/-- **A stored request is read back if and only if it has a result and its arguments are neither
`nil` nor `false`.** For every request whose attributes are JSON values, and every result that is
a success with any value or an error. -/
theorem request_restored_iff (lib : DataLib) (runtime : Runtime) (request : StoredRequest)
    (storable : StorableRequest request) :
    Restored lib runtime request ↔
      request.result.isSome = true ∧ request.rjrMethodArgs.truthy = true := by
  obtain ⟨text, written, read⟩ := lib.readsBack request.toJson (toJson_wellFormed storable)
  have created : Restored lib runtime request ↔
      jsonCreate runtime request.toJson = .ok request := by
    simp [Restored, written, read]
  rw [created]
  cases present : request.result with
  | none =>
    rw [jsonCreate_without_result runtime present]
    simp
  | some result =>
    rw [jsonCreate_with_result runtime present (storable.result result present)]
    obtain ⟨⟨method, args, headers, nodeType, nodeId⟩, own⟩ := request
    cases truth : args.truthy with
    | true => simp [Json.orElse, truth]
    | false =>
      have replaced : Json.arr [] ≠ args := by
        rintro rfl
        cases truth
      simp [Json.orElse, truth, replaced]

/-- The `json` library with a printer and a reader that are proved to be inverse. -/
def textLib : DataLib where
  toJsonLib := JsonText.lib
  readsBack _ formed := ⟨_, JsonText.generate_wellFormed formed, JsonText.read_write formed⟩

/-- A request for a method with one argument. -/
def storedEcho (result : Option Result) : StoredRequest where
  rjrMethod := .str "echo"
  rjrMethodArgs := .arr [.int 1]
  rjrNodeType := .str "tcp"
  result := result

/-- A request whose result is `false` is read back. -/
theorem request_restored_false :
    Restored textLib JsonText.terse
      (storedEcho (some ⟨true, false, .bool false, .null, .null, .null⟩)) := by
  rw [request_restored_iff textLib JsonText.terse]
  · exact ⟨rfl, rfl⟩
  · refine ⟨rfl, rfl, rfl, rfl, rfl, ?_⟩
    intro result same
    obtain rfl := Option.some.inj same
    exact ⟨rfl, rfl, rfl, rfl, rfl, rfl⟩

/-- A request without a result cannot be read: `json_create` raises. -/
theorem request_without_result :
    jsonCreate JsonText.terse (storedEcho none).toJson = .error ⟨"NoMethodError", "[]"⟩ ∧
      ¬Restored textLib JsonText.terse (storedEcho none) := by
  have raised : jsonCreate JsonText.terse (storedEcho none).toJson =
      .error ⟨"NoMethodError", "[]"⟩ := rfl
  refine ⟨raised, ?_⟩
  rintro ⟨text, tree, written, read, created⟩
  obtain ⟨other, generated, back⟩ := textLib.readsBack (storedEcho none).toJson (by decide)
  rw [written] at generated
  cases generated
  rw [back] at read
  cases read
  rw [raised] at created
  cases created

end Rjr.Verif.StoredRequests
