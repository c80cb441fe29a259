import Rjr.Lib.Machine
import Rjr.Node

/-!
# The web node

`lib/rjr/nodes/web.rb`, on the side that serves requests. A request that was posted is handled
like a message on any other connection, and its job answers it. A notification is never answered
by its job, so `process_http_request` itself sends an empty text for it, as every post needs a
response. The node is not persistent: the callback of a handler sends nothing on it.
-/

namespace Rjr.Nodes

open Messages Node

/-- What a call of `process_http_request` does. -/
structure Processed where
  /-- The node after the call. -/
  node : Node
  /-- The job put on the thread pool, if there is one. -/
  job : Option Job
  /-- The exception that left the call, if there is one. -/
  outcome : Except Exn Unit

section Serving

variable (platform : Platform) (sendMsg : String → Except Exn Unit)

/-- `WebConnection#process_http_request`, with the content that was posted. `send_msg` is that of
the node. -/
def WebConnection.processHttpRequest (node : Node) (httpPostContent : Option String)
    (connection : Channel) : Processed :=
  let msg := httpPostContent.getD ""
  match node.handleMessage platform msg connection with
  | (node, job, .error raised) => ⟨node, job, .error raised⟩
  | (node, job, .ok inter) =>
    match Notification.isNotificationMessage platform.runtime inter with
    | .error raised => ⟨node, job, .error raised⟩
    | .ok false => ⟨node, job, .ok ()⟩
    | .ok true => ⟨{ node with sent := node.sent ++ [⟨"", connection⟩] }, job, sendMsg ""⟩

/-- A web node that serves requests, with its jobs on the thread pool. -/
structure Web where
  /-- The node. -/
  node : Node
  /-- The jobs that have not run. -/
  jobs : List Job

/-- What happens to a web node. -/
inductive WebAction where
  /-- Content is posted on a connection. -/
  | post (httpPostContent : Option String) (connection : Channel)
  /-- A worker runs one of the jobs. -/
  | work (index : Nat)

/-- Posts are processed as they come in, and jobs run in any order. -/
def Web.step (web : Web) : WebAction → Option Web
  | .post httpPostContent connection =>
    let processed :=
      WebConnection.processHttpRequest platform sendMsg web.node httpPostContent connection
    some ⟨processed.node, web.jobs ++ processed.job.toList⟩
  | .work index =>
    match web.jobs[index]? with
    | some job => some ⟨(job.run platform sendMsg web.node).node, web.jobs.eraseIdx index⟩
    | none => none

/-- A worker runs one of the jobs there are. -/
theorem Web.step_work {web next : Web} {index : Nat}
    (stepped : Web.step platform sendMsg web (.work index) = some next) :
    ∃ job, web.jobs[index]? = some job ∧
      next = ⟨(job.run platform sendMsg web.node).node, web.jobs.eraseIdx index⟩ := by
  unfold Web.step at stepped
  dsimp only at stepped
  cases taken : web.jobs[index]? with
  | none =>
    rw [taken] at stepped
    cases stepped
  | some job =>
    rw [taken] at stepped
    exact ⟨job, rfl, (Option.some.inj stepped).symm⟩

/-- The web node, its clients and its workers, in any interleaving. -/
def Web.machine : Machine Web WebAction := ⟨Web.step platform sendMsg⟩

end Serving

end Rjr.Nodes
