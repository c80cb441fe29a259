import Rjr.Nodes.Exchange
import Rjr.Nodes.Web

/-!
# Nodes connected by HTTP

The web nodes (`lib/rjr/nodes/web.rb`) with the threads that call them. Every call of `invoke` or
`notify` makes a post of its own. The server hands its content to `handle_message`; a job answers
a request with a response to the post, and `process_http_request` itself answers a notification
with an empty one. The callback and the errback of a post are the same: for `invoke` it hands the
content of the response, which is empty after a failure, to `handle_message`, and for `notify` it
only reports. One of them runs, once. The node is not persistent, so the callback of a handler
sends nothing.

Posts are numbered in the order of the calls. The connection arguments of the two nodes are the
two ends of a post.
-/

namespace Rjr.Nodes

/-- An end of a post: the `HttpRequest` of the client, or the `WebConnection` of the server. -/
structure HttpEnd where
  /-- The number of the post. -/
  number : Nat
  /-- Whether it is the server's end. -/
  server : Bool
  deriving DecidableEq

/-- Which nodes posts go between. -/
structure Routes (ι : Type) where
  /-- The node that makes a post. -/
  client : Nat → ι
  /-- The node a post is made to. -/
  server : Nat → ι
  /-- What `client_for` sees of an end. -/
  channel : HttpEnd → Channel

/-- The ends of posts. -/
def Routes.wiring {ι : Type} (routes : Routes ι) : Wiring ι HttpEnd where
  owner connection :=
    if connection.server then routes.server connection.number else routes.client connection.number
  opposite connection := { connection with server := !connection.server }
  channel := routes.channel
  involutive connection := by simp

/-- Web nodes and the posts between them. -/
structure Http (ι : Type) where
  /-- The nodes and their threads. -/
  hosts : Hosts ι HttpEnd
  /-- How many posts were asked for. -/
  next : Nat
  /-- Posts that `invoke` asked for; their callback is `handle_message`. -/
  calls : List Nat
  /-- Blocks of `invoke` and `notify` for the reactor. -/
  scheduled : List (Outgoing HttpEnd)
  /-- Posts on their way, with the end they arrive at. -/
  posts : List (HttpEnd × String)
  /-- Blocks of `send_msg` for the reactor. -/
  texts : List (Outgoing HttpEnd)
  /-- Responses on their way. -/
  responses : List (HttpEnd × String)
  /-- Empty responses to notifications on their way. -/
  empties : List HttpEnd
  /-- Posts that were made, as the client's ends. -/
  posted : List HttpEnd
  /-- Those whose callback or errback has run. -/
  finished : List HttpEnd
  /-- Those whose errback has run. -/
  failed : List HttpEnd
  /-- What will never be handled. -/
  dropped : List (HttpEnd × String)

/-- A step of a thread, of the reactor, or of a post. -/
inductive HttpAction (ι : Type) where
  /-- A client thread calls `invoke`. -/
  | invoke (id method : String) (args : List Json)
  /-- A thread calls `notify`. -/
  | notify (method : String) (args : List Json)
  /-- The reactor runs a block that posts. -/
  | post (index : Nat)
  /-- A post arrives, and `process_http_request` is called. -/
  | process (index : Nat)
  /-- The reactor runs a block of `send_msg`. -/
  | sendMsg (index : Nat)
  /-- A response arrives. -/
  | receive (index : Nat)
  /-- An empty response arrives. -/
  | receiveEmpty (index : Nat)
  /-- A post fails. -/
  | fail (connection : HttpEnd)
  /-- A post that has failed does not arrive. -/
  | lose (index : Nat)
  /-- A worker dispatches the job it has begun and answers it. -/
  | finish (index : Nat)
  /-- A step that sends nothing. -/
  | host (action : HostAction ι)

namespace Http

variable {ι : Type}

/-- Nothing has been posted. -/
def initial (nodes : ι → Node) : Http ι where
  hosts := Hosts.new nodes
  next := 0
  calls := []
  scheduled := []
  posts := []
  texts := []
  responses := []
  empties := []
  posted := []
  finished := []
  failed := []
  dropped := []

/-- Whether `process_http_request` answers a message itself. -/
def answersEmpty (platform : Platform) (msg : String) : Bool :=
  match (Messages.Intermediate.parse platform msg).bind
    (Messages.Notification.isNotificationMessage platform.runtime) with
  | .ok notification => notification
  | .error _ => false

/-- What `process_http_request` does beyond `handle_message`, if that returns: it sends an empty
text for a message that it answers itself. -/
theorem processHttpRequest_eq (platform : Platform) (sendMsg : String → Except Exn Unit)
    (node : Node) (msg : String) (connection : Channel) {inter : Messages.Intermediate}
    (returned : (node.handleMessage platform msg connection).2.2 = .ok inter) :
    (WebConnection.processHttpRequest platform sendMsg node (some msg) connection).job =
        (node.handleMessage platform msg connection).2.1 ∧
      (WebConnection.processHttpRequest platform sendMsg node (some msg) connection).node =
        let handled := (node.handleMessage platform msg connection).1
        if answersEmpty platform msg then
          { handled with sent := handled.sent ++ [⟨"", connection⟩] }
        else handled := by
  have parsed : Messages.Intermediate.parse platform msg = .ok inter := by
    simp only [Node.handleMessage] at returned
    split at returned
    · cases returned
    · rename_i intermediate parsed
      split at returned
      · cases returned
      · cases returned
        exact parsed
      · cases returned
        exact parsed
      · obtain ⟨_, _, rfl⟩ := (Traversal.map_eq_ok_iff _ _ _).mp returned
        exact parsed
      · cases returned
        exact parsed
  have same : node.handleMessage platform msg connection =
      ((node.handleMessage platform msg connection).1,
        (node.handleMessage platform msg connection).2.1, .ok inter) := by
    rw [← returned]
  have tested : answersEmpty platform msg =
      match Messages.Notification.isNotificationMessage platform.runtime inter with
      | .ok notification => notification
      | .error _ => false := by
    rw [answersEmpty, parsed]
    rfl
  rw [WebConnection.processHttpRequest, Option.getD_some, same, tested]
  cases test : Messages.Notification.isNotificationMessage platform.runtime inter with
  | error raised => simp [test]
  | ok notification => cases notification <;> simp [test]

variable [DecidableEq ι] (platform : Platform) (routes : Routes ι)

/-- The callback of a post, with the content of the response; that of `notify` does not look at
it. -/
def callback (http : Http ι) (connection : HttpEnd) (response : String) : Http ι :=
  let finished := { http with finished := http.finished ++ [connection] }
  if connection.number ∈ http.calls then
    { finished with hosts := (http.hosts.arrive platform routes.wiring connection response).1 }
  else finished

/-- The steps. -/
def step (http : Http ι) : HttpAction ι → Option (Http ι)
  | .invoke id method args =>
    (http.hosts.invoke routes.wiring ⟨http.next, false⟩ id method args).map fun (hosts, block) =>
      { http with
        hosts := hosts
        next := http.next + 1
        calls := http.calls ++ [http.next]
        scheduled := http.scheduled ++ [block] }
  | .notify method args =>
    some { http with
      next := http.next + 1
      scheduled := http.scheduled ++
        [http.hosts.notify routes.wiring ⟨http.next, false⟩ method args] }
  | .post index =>
    http.scheduled[index]?.map fun message =>
      let written := http.hosts.write platform routes.wiring message
      { http with
        scheduled := http.scheduled.eraseIdx index
        posts := http.posts ++ (written.map fun text =>
          (routes.wiring.opposite message.connection, text)).toList
        posted := http.posted ++ (written.map fun _ => message.connection).toList }
  | .process index =>
    http.posts[index]?.map fun (connection, msg) =>
      let arrived := http.hosts.arrive platform routes.wiring connection msg
      { http with
        hosts := arrived.1
        posts := http.posts.eraseIdx index
        empties := http.empties ++
          if arrived.2 && answersEmpty platform msg then [routes.wiring.opposite connection]
          else [] }
  | .sendMsg index =>
    http.texts[index]?.map fun message =>
      { http with
        texts := http.texts.eraseIdx index
        responses := http.responses ++ ((http.hosts.write platform routes.wiring message).map
          fun text => (routes.wiring.opposite message.connection, text)).toList }
  | .receive index =>
    http.responses[index]?.map fun (connection, response) =>
      let left := { http with responses := http.responses.eraseIdx index }
      if connection ∈ http.finished then
        { left with dropped := http.dropped ++ [(connection, response)] }
      else if connection.number ∈ http.calls then
        left.callback platform routes connection response
      else { left.callback platform routes connection response with
        dropped := http.dropped ++ [(connection, response)] }
  | .receiveEmpty index =>
    http.empties[index]?.map fun connection =>
      let left := { http with empties := http.empties.eraseIdx index }
      if connection ∈ http.finished then left else left.callback platform routes connection ""
  | .fail connection =>
    if connection ∈ http.posted ∧ connection ∉ http.finished then
      some { http.callback platform routes connection "" with
        failed := http.failed ++ [connection] }
    else none
  | .lose index =>
    match http.posts[index]? with
    | none => none
    | some (connection, msg) =>
      if routes.wiring.opposite connection ∈ http.failed then
        some { http with
          posts := http.posts.eraseIdx index, dropped := http.dropped ++ [(connection, msg)] }
      else none
  | .finish index =>
    (http.hosts.finish platform routes.wiring index).map fun (hosts, answer) =>
      { http with hosts := hosts, texts := http.texts ++ answer.toList }
  | .host action =>
    (http.hosts.step platform routes.wiring action).map fun hosts => { http with hosts := hosts }

/-- The nodes and their posts, in any interleaving. -/
def machine : Machine (Http ι) (HttpAction ι) := ⟨step platform routes⟩

end Http

end Rjr.Nodes
