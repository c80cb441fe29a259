import Rjr.Node
import Rjr.Util.JsonText

/-!
# Answers to requests

A caller waits for the answer to its request, so `handle_request` should call `send_msg` once for
every request and never for a notification. Whatever the handler and the arguments do becomes a
result, but the lookups of `dispatch` are outside of its `begin` block, and a `Regexp` raises when
it is compared with a method that is neither a string nor `nil`. The request is then dropped. So
it is when its response cannot be written: an id or a header of the request may be a number that
is not finite, and `to_s` raises before `send_msg` is called.
-/

namespace Rjr.Verif.Answers

open Messages Node

/-- What `handle_request` does with a message whose document is a hash with a `method`;
`handle_message` takes it for a notification when it has no `id`. -/
def handled (platform : Platform) (sendMsg : String → Except Exn Unit) (node : Node)
    (json : String) (members : OrderedHash String Json) (connection : Channel) : Handled :=
  node.handleRequest platform sendMsg ⟨json, .hash members⟩ (!members.has "id") connection

/-- `send_msg` was called once more, with the text of a response under the given id, on the given
connection. -/
def AnsweredOnce (platform : Platform) (before : Node) (id : Json) (connection : Channel)
    (after : Node) : Prop :=
  ∃ (response : Response) (text : String), response.msgId = id ∧
    response.toS platform.json after.hashes = .ok text ∧
    after.sent = before.sent ++ [⟨text, connection⟩]

section Answering

variable (platform : Platform) (sendMsg : String → Except Exn Unit) (node : Node)

/-- What `to_s` makes of the response to a request that was dispatched: its headers are those the
handler has left. -/
def responseText (msgId : Json) (headers : Nat) (performed : Performed) : Except Exn String :=
  (Response.mk msgId performed.result headers).toS platform.json
    (node.afterDispatch headers performed).hashes

/-- A dispatch that returns is answered once, if its response has a text; one that raises is not
answered. -/
theorem answer_once_iff (args : DispatchArgs) (msgId : Json) (headers : Nat)
    (connection : Channel) (outcome : Except Exn Performed) :
    AnsweredOnce platform node msgId connection
        (node.answer platform sendMsg args msgId headers connection outcome).node ↔
      ∃ performed text, outcome = .ok performed ∧
        responseText platform node msgId headers performed = .ok text := by
  have unsent : ∀ after : Node, after.sent = node.sent →
      ¬AnsweredOnce platform node msgId connection after := by
    rintro after same ⟨response, text, _, _, sent⟩
    have longer := congrArg List.length sent
    simp [same] at longer
  cases outcome with
  | error raised =>
    refine iff_of_false (unsent _ rfl) ?_
    rintro ⟨performed, text, impossible, _⟩
    cases impossible
  | ok performed =>
    cases written : responseText platform node msgId headers performed with
    | error raised =>
      have dropped : (node.answer platform sendMsg args msgId headers connection
          (.ok performed)).node = node.afterDispatch headers performed := by
        unfold responseText at written
        simp only [answer, Response.new, openHeaders, written]
      refine iff_of_false (unsent _ (by rw [dropped]; rfl)) ?_
      rintro ⟨other, text, same, impossible⟩
      cases same
      rw [written] at impossible
      cases impossible
    | ok text =>
      refine iff_of_true ?_ ⟨performed, text, rfl, written⟩
      unfold responseText at written
      simp only [answer, Response.new, openHeaders, written]
      exact ⟨⟨msgId, performed.result, headers⟩, text, rfl, written, rfl⟩

/-- Whatever the dispatch of a request gives, its response has a text. -/
def Writable (members : OrderedHash String Json) (connection : Channel) : Prop :=
  let read := node.withHeaders Request.reserved members
  ∀ performed, node.dispatcher.dispatch platform.runtime (read.argsFor members connection) =
      .ok performed →
    ∃ text, responseText platform read ((members.get? "id").getD .null) node.messageHeaders
      performed = .ok text

/-- **A request is answered exactly once if and only if its method can be looked up and its
response can be written; a notification is never answered.** For every node, every message with
arbitrary members, whatever the handlers do and whatever `send_msg` does. -/
theorem handleRequest_answers_iff (json : String) (members : OrderedHash String Json)
    (connection : Channel) :
    (members.has "id" = true →
      (AnsweredOnce platform node ((members.get? "id").getD .null) connection
          (handled platform sendMsg node json members connection).node ↔
        node.dispatcher.Searchable ((members.get? "method").getD .null) ∧
          Writable platform node members connection)) ∧
      (members.has "id" = false →
        (handled platform sendMsg node json members connection).node.sent = node.sent) := by
  constructor
  · intro request
    have call : handled platform sendMsg node json members connection =
        node.handleCall platform sendMsg ⟨json, .hash members⟩ connection := by
      simp [handled, handleRequest, request]
    have once := answer_once_iff platform sendMsg (node.withHeaders Request.reserved members)
      ((node.withHeaders Request.reserved members).argsFor members connection)
      ((members.get? "id").getD .null) node.messageHeaders connection
      (node.dispatcher.dispatch platform.runtime
        ((node.withHeaders Request.reserved members).argsFor members connection))
    have returns := Dispatcher.dispatch_returns_iff platform.runtime node.dispatcher
      ((node.withHeaders Request.reserved members).argsFor members connection)
    rw [call, handleCall_hash]
    refine Iff.trans once (Iff.trans ?_ (and_congr_left' returns))
    constructor
    · rintro ⟨performed, text, returned, written⟩
      refine ⟨⟨performed, returned⟩, ?_⟩
      intro other same
      rw [returned] at same
      cases same
      exact ⟨text, written⟩
    · rintro ⟨⟨performed, returned⟩, writable⟩
      obtain ⟨text, written⟩ := writable performed returned
      exact ⟨performed, text, returned, written⟩
  · intro notification
    have silent : handled platform sendMsg node json members connection =
        node.handleNotification platform ⟨json, .hash members⟩ connection := by
      simp [handled, handleRequest, notification]
    rw [silent, handleNotification_hash]
    cases node.dispatcher.dispatch platform.runtime
        ((node.withHeaders Notification.reserved members).argsFor members connection) with
    | error raised => rfl
    | ok performed => rfl

end Answering

/-- A dispatcher with one handler, under a pattern. -/
def patternDispatcher : Dispatcher :=
  { Dispatcher.new false with
    handlers := ⟨[(.pattern "echo", Handler.ofBody fun _ _ => .ok .null)], by simp⟩ }

/-- A node with that dispatcher. -/
def patternNode : Node := Node.new { dispatcher := some patternDispatcher }

/-- A request for a method. -/
def requestFor (id method : Json) : OrderedHash String Json :=
  ⟨[("jsonrpc", .str "2.0"), ("id", id), ("method", method)], by simp⟩

/-- A `send_msg` that returns. -/
def delivers : String → Except Exn Unit := fun _ => .ok ()

/-- A request whose method is a string is answered, whatever signatures there are. -/
theorem handleRequest_answers_string :
    AnsweredOnce JsonText.platform patternNode (.int 1) ⟨1, none⟩
      (handled JsonText.platform delivers patternNode "" (requestFor (.int 1) (.str "echo"))
        ⟨1, none⟩).node := by
  refine ((handleRequest_answers_iff JsonText.platform delivers patternNode ""
    (requestFor (.int 1) (.str "echo")) ⟨1, none⟩).1 rfl).mpr ⟨.inl (.inr ⟨"echo", rfl⟩), ?_⟩
  intro performed returned
  cases returned
  exact ⟨_, rfl⟩

/-- The number that `1e400` is read as. -/
def infinite : Json := .float 0x7ff0000000000000

/-- A request whose method is the number 5 is dropped: the `TypeError` of the pattern leaves
`handle_request` and nothing is sent. So is a request with the id `1e400`, whose response cannot
be written. -/
theorem handleRequest_drops_number :
    let unsearched := handled JsonText.platform delivers patternNode ""
      (requestFor (.int 1) (.int 5)) ⟨1, none⟩
    let unwritten := handled JsonText.platform delivers patternNode ""
      (requestFor infinite (.str "echo")) ⟨1, none⟩
    unsearched.node.sent = [] ∧ unsearched.outcome.toOption = none ∧
      ¬ AnsweredOnce JsonText.platform patternNode (.int 1) ⟨1, none⟩ unsearched.node ∧
      unwritten.node.sent = [] ∧ unwritten.outcome.toOption = none ∧
      ¬ AnsweredOnce JsonText.platform patternNode infinite ⟨1, none⟩ unwritten.node := by
  refine ⟨rfl, rfl, ?_, rfl, rfl, ?_⟩
  · rintro ⟨response, text, _, _, sent⟩
    cases sent
  · rintro ⟨response, text, _, _, sent⟩
    cases sent

end Rjr.Verif.Answers
