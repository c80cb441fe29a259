import Rjr.Node
import Rjr.Util.JsonText

/-!
# Responses that are recorded

A thread that invoked a method is woken by an entry of `@responses`, so every response that
arrives should leave one there. `handle_response` turns what `fail` raises into an entry, but the
message is parsed before its `begin` block, and `parse_result` indexes the member `error` whatever
it is. Only a hash and a string can be indexed with a string; on anything else the exception
leaves `handle_response` and nothing is recorded.
-/

namespace Rjr.Verif.Responses

open Messages Node

/-- The call returned, and one entry was appended under the id of the message: the value of
`result` without an error, or else an exception. -/
structure Recorded (before : Node) (members : OrderedHash String Json)
    (after : Node × Except Exn Unit) : Prop where
  /-- The call does not raise. -/
  returns : after.2 = .ok ()
  /-- One entry is appended and nothing else changes in the two tables. -/
  entry : ∃ reply : Reply,
    after.1.correlation =
        before.correlation.record ((members.get? "id").getD .null, reply) ∧
      (∀ value, members.get? "result" = some value → reply = ⟨value, none⟩) ∧
      (members.get? "result" = none → reply.err.isSome = true)

/-- A value that can be indexed with a string. -/
def indexable : Json → Bool
  | .obj _ | .str _ => true
  | _ => false

/-- A response that is read: it has a result, or its error can be indexed. -/
def Usable (members : OrderedHash String Json) : Prop :=
  members.has "result" = true ∨ indexable ((members.get? "error").getD .null) = true

section Reading

variable (runtime : Runtime) (json : String) {members : OrderedHash String Json}

/-- A message with a result is read as a success. -/
theorem parseResult_result {value : Json} (present : members.get? "result" = some value) :
    Response.parseResult runtime ⟨json, .hash members⟩ =
      .ok ⟨true, false, value, .null, .null, .null⟩ := by
  simp only [Response.parseResult, Intermediate.has, Intermediate.get, OrderedHash.has, present]
  rfl

/-- A message without a result is read as a failure if its error can be indexed; else reading it
raises. -/
theorem parseResult_error (absent : members.get? "result" = none)
    (failure : members.has "error" = true) :
    (∃ raised, Response.parseResult runtime ⟨json, .hash members⟩ = .error raised) ∧
        indexable ((members.get? "error").getD .null) = false ∨
      (∃ result, Response.parseResult runtime ⟨json, .hash members⟩ = .ok result ∧
          result.success = false) ∧
        indexable ((members.get? "error").getD .null) = true := by
  have missing : members.has "result" = false := by simp [OrderedHash.has, absent]
  simp only [Response.parseResult, Intermediate.has, Intermediate.get, missing, failure]
  generalize (members.get? "error").getD .null = error
  cases error with
  | obj fields => exact .inr ⟨⟨_, rfl, rfl⟩, rfl⟩
  | str text => exact .inr ⟨⟨_, rfl, rfl⟩, rfl⟩
  | null | bool | int | float | arr | object => exact .inl ⟨⟨_, rfl⟩, rfl⟩

end Reading

/-- What is recorded for a failure is an exception. -/
theorem replyOf_failure {result : Result} (failure : result.success = false) :
    (replyOf result).err.isSome = true := by
  simp [replyOf, Dispatcher.handleResponse, failure]

/-- **A response is recorded if and only if it has a result or its error is a hash or a string.**
For every node and every message that `handle_message` takes for a response, with arbitrary
members. -/
theorem response_recorded_iff (runtime : Runtime) (node : Node) (json : String)
    (members : OrderedHash String Json)
    (response : classify runtime ⟨json, .hash members⟩ = .ok (some .response)) :
    Recorded node members (node.handleResponse runtime ⟨json, .hash members⟩) ↔
      Usable members := by
  cases found : members.get? "result" with
  | some value =>
    have present : members.has "result" = true := by simp [OrderedHash.has, found]
    refine iff_of_true ?_ (.inl present)
    rw [handleResponse_returns (parseResult_result runtime json found)]
    refine ⟨rfl, ⟨value, none⟩, rfl, ?_, ?_⟩
    · intro other same
      rw [found, Option.some.injEq] at same
      rw [same]
    · intro missing
      rw [found] at missing
      cases missing
  | none =>
    have absent : members.has "result" = false := by simp [OrderedHash.has, found]
    have failure : members.has "error" = true := by
      rw [classify_hash, absent] at response
      cases method : members.has "method" <;> cases error : members.has "error" <;>
        cases id : members.has "id" <;> simp [method, error, id] at response ⊢
    rcases parseResult_error runtime json found failure with
      ⟨⟨raised, read⟩, useless⟩ | ⟨⟨result, read, failed⟩, useful⟩
    · refine iff_of_false ?_ ?_
      · rw [handleResponse_raises read]
        intro recorded
        cases recorded.returns
      · rintro (present | indexed)
        · rw [absent] at present
          cases present
        · rw [useless] at indexed
          cases indexed
    · refine iff_of_true ?_ (.inr useful)
      rw [handleResponse_returns read]
      refine ⟨rfl, replyOf result, rfl, ?_, fun _ => replyOf_failure failed⟩
      intro value present
      rw [found] at present
      cases present

/-- A response with this error. -/
def errorResponse (error : Json) : OrderedHash String Json :=
  ⟨[("jsonrpc", .str "2.0"), ("id", .int 1), ("error", error)], by simp⟩

/-- A response whose error is a text without the expected members is recorded. -/
theorem response_recorded_text :
    Recorded (Node.new {}) (errorResponse (.str "broken"))
      ((Node.new {}).handleResponse JsonText.terse ⟨"", .hash (errorResponse (.str "broken"))⟩) :=
  (response_recorded_iff JsonText.terse (Node.new {}) "" (errorResponse (.str "broken")) rfl).mpr
    (.inr rfl)

/-- A response whose error is `null` is taken for a response, but handling it raises and records
nothing. -/
theorem response_null_error :
    classify JsonText.terse ⟨"", .hash (errorResponse .null)⟩ = .ok (some .response) ∧
      (((Node.new {}).handleResponse JsonText.terse
        ⟨"", .hash (errorResponse .null)⟩).1.correlation.responses = []) ∧
      ¬ Recorded (Node.new {}) (errorResponse .null)
        ((Node.new {}).handleResponse JsonText.terse ⟨"", .hash (errorResponse .null)⟩) := by
  refine ⟨rfl, rfl, fun recorded => ?_⟩
  cases recorded.returns

end Rjr.Verif.Responses
