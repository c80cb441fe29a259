import Mathlib.Data.List.Perm.Basic
import Rjr.Lib.Traversal
import Rjr.Nodes.Web
import Rjr.Util.JsonText
import Rjr.Verif.Answers

/-!
# Answers to posts

An HTTP client waits for the response to its post, so every post should be answered once,
whatever was posted. A request is answered by its job and a notification by
`process_http_request`. Nothing else is answered: content that is not JSON, a document whose
classes cannot be instantiated and one that is no hash raise in `handle_message`, and a hash
without a method, a response for one, is passed over in silence. A request whose method cannot be
looked up, or whose response cannot be written, is dropped by its job.
-/

namespace Rjr.Verif.HttpAnswers

open Messages Node Nodes WebConnection Answers

/-- The calls of `send_msg` made on a connection so far. -/
def sends (connection : Channel) (node : Node) : Nat :=
  node.sent.countP (·.connection == connection)

/-- One more call on a connection. -/
theorem sends_append {before after : Node} {text : String} {channel : Channel}
    (sent : after.sent = before.sent ++ [⟨text, channel⟩]) (connection : Channel) :
    sends connection after = sends connection before + if channel = connection then 1 else 0 := by
  simp [sends, sent, List.countP_append, List.countP_singleton]

/-- No call. -/
theorem sends_congr {before after : Node} (sent : after.sent = before.sent)
    (connection : Channel) : sends connection after = sends connection before := by
  rw [sends, sent]
  rfl

/-! ## One post -/

/-- The content is a hash with a method. -/
def Callable (platform : Platform) (content : Option String) (members : OrderedHash String Json) :
    Prop :=
  Intermediate.parse platform (content.getD "") = .ok ⟨content.getD "", .hash members⟩ ∧
    members.has "method" = true

/-- The content is owed an answer: it is a hash with a method, and if it has an id too, every
lookup of the method returns. -/
def Answerable (platform : Platform) (dispatcher : Dispatcher) (content : Option String) : Prop :=
  ∃ members, Callable platform content members ∧
    (members.has "id" = true → dispatcher.Searchable ((members.get? "method").getD .null))

/-- The job of a message with these members. -/
def jobFor (content : Option String) (members : OrderedHash String Json)
    (connection : Channel) : Job :=
  ⟨⟨content.getD "", .hash members⟩, !members.has "id", connection⟩

/-- Everything `process_http_request` can do. -/
inductive Posting (platform : Platform) (node : Node) (content : Option String)
    (connection : Channel) : Node → Option Job → Prop where
  /-- The content is no hash with a method, and nothing is sent. -/
  | ignored (after : Node) (other : ∀ members, ¬ Callable platform content members)
      (sent : after.sent = node.sent) (dispatcher : after.dispatcher = node.dispatcher) :
      Posting platform node content connection after none
  /-- A request is left to its job. -/
  | request (members : OrderedHash String Json) (callable : Callable platform content members)
      (id : members.has "id" = true) :
      Posting platform node content connection node (some (jobFor content members connection))
  /-- An empty text is sent for a notification. -/
  | notification (members : OrderedHash String Json)
      (callable : Callable platform content members) (noId : members.has "id" = false) :
      Posting platform node content connection
        { node with sent := node.sent ++ [⟨"", connection⟩] }
        (some (jobFor content members connection))

/-- Recording a response sends nothing. -/
theorem handleResponse_sent (runtime : Runtime) (node : Node) (message : Intermediate) :
    (node.handleResponse runtime message).1.sent = node.sent ∧
      (node.handleResponse runtime message).1.dispatcher = node.dispatcher := by
  unfold handleResponse
  split
  · exact ⟨rfl, rfl⟩
  · exact ⟨rfl, rfl⟩

section Posts

variable (platform : Platform) (sendMsg : String → Except Exn Unit)

omit sendMsg in
/-- Content that is not a hash with a method is not callable. -/
theorem not_callable {content : Option String} {message : Intermediate}
    (parsed : Intermediate.parse platform (content.getD "") = .ok message)
    (other : ∀ members, message.data = .hash members → members.has "method" = false) :
    ∀ members, ¬ Callable platform content members := by
  rintro members ⟨isHash, method⟩
  have same := parsed.symm.trans isHash
  cases same
  rw [other members rfl] at method
  cases method

/-- A hash that is posted. -/
theorem posting_of_hash (node : Node) {content : Option String}
    {members : OrderedHash String Json}
    (parsed : Intermediate.parse platform (content.getD "") =
      .ok ⟨content.getD "", .hash members⟩) (connection : Channel) :
    Posting platform node content connection
      (processHttpRequest platform sendMsg node content connection).node
      (processHttpRequest platform sendMsg node content connection).job := by
  have kind := classify_hash platform.runtime (content.getD "") members
  have test : Notification.isNotificationMessage platform.runtime
      ⟨content.getD "", .hash members⟩ = .ok (members.has "method" && !members.has "id") := rfl
  unfold processHttpRequest handleMessage
  cases method : members.has "method" with
  | true =>
    have callable : Callable platform content members := ⟨parsed, method⟩
    cases id : members.has "id" with
    | true =>
      have posting : Posting platform node content connection node
          (some (jobFor content members connection)) := .request members callable id
      simpa [parsed, kind, test, method, id, jobFor] using posting
    | false =>
      have posting : Posting platform node content connection
          { node with sent := node.sent ++ [⟨"", connection⟩] }
          (some (jobFor content members connection)) := .notification members callable id
      simpa [parsed, kind, test, method, id, jobFor] using posting
  | false =>
    have other := not_callable platform parsed (by rintro _ ⟨⟩; exact method)
    cases response : members.has "result" || members.has "error" with
    | false =>
      have ignored : Posting platform node content connection node none :=
        .ignored node other rfl rfl
      simpa [parsed, kind, test, method, response] using ignored
    | true =>
      obtain ⟨sent, dispatcher⟩ := handleResponse_sent platform.runtime node
        ⟨content.getD "", .hash members⟩
      have posting : Posting platform node content connection
          (node.handleResponse platform.runtime ⟨content.getD "", .hash members⟩).1 none :=
        .ignored _ other sent dispatcher
      cases handled : (node.handleResponse platform.runtime
          ⟨content.getD "", .hash members⟩).2 with
      | error raised =>
        simpa [parsed, kind, test, method, response, handled, Except.map] using posting
      | ok _ => simpa [parsed, kind, test, method, response, handled, Except.map] using posting

/-- Every post is one of these. -/
theorem posting_of_process (node : Node) (content : Option String) (connection : Channel) :
    Posting platform node content connection
      (processHttpRequest platform sendMsg node content connection).node
      (processHttpRequest platform sendMsg node content connection).job := by
  cases parsed : Intermediate.parse platform (content.getD "") with
  | error raised =>
    unfold processHttpRequest handleMessage
    simp only [parsed]
    refine .ignored node ?_ rfl rfl
    rintro members ⟨isHash, _⟩
    rw [parsed] at isHash
    cases isHash
  | ok intermediate =>
    have keepsText : intermediate.json = content.getD "" := by
      unfold Intermediate.parse at parsed
      obtain ⟨tree, _, rfl⟩ := (Traversal.map_eq_ok_iff _ _ _).mp parsed
      rfl
    obtain ⟨json, data⟩ := intermediate
    subst keepsText
    cases data with
    | other value =>
      unfold processHttpRequest handleMessage
      simp only [parsed]
      exact .ignored node (not_callable platform parsed nofun) rfl rfl
    | hash members => exact posting_of_hash platform sendMsg node parsed connection

/-! ## Jobs -/

/-- A job that was made for a hash. -/
def OfHash (job : Job) : Prop := ∃ members, job.message.data = .hash members

/-- A job that is to answer: it is that of a request whose method can be looked up. -/
def Owed (dispatcher : Dispatcher) (job : Job) : Prop :=
  job.notification = false ∧ ∃ members, job.message.data = .hash members ∧
    dispatcher.Searchable ((members.get? "method").getD .null)

/-- The job of a post is owed exactly for a request whose method can be looked up. -/
theorem owed_jobFor (dispatcher : Dispatcher) (content : Option String)
    (members : OrderedHash String Json) (connection : Channel) :
    Owed dispatcher (jobFor content members connection) ↔
      members.has "id" = true ∧ dispatcher.Searchable ((members.get? "method").getD .null) := by
  constructor
  · rintro ⟨request, others, isHash, searchable⟩
    cases isHash
    exact ⟨by simpa [jobFor] using request, searchable⟩
  · rintro ⟨id, searchable⟩
    exact ⟨by simp [jobFor, id], members, rfl, searchable⟩

/-- The response of a job can be written, if it has one. -/
def Writes (node : Node) (job : Job) : Prop :=
  ∀ members, job.message.data = .hash members → job.notification = false →
    Writable platform node members job.connection

/-- What a job leaves: one more call of `send_msg` on its connection if an answer is owed and can
be written, and else none, and the tables of signatures as they were. -/
structure Ran (node : Node) (job : Job) (after : Node) : Prop where
  /-- The answer of an owed job. -/
  answers : Owed node.dispatcher job → Writes platform node job →
    ∃ text, after.sent = node.sent ++ [⟨text, job.connection⟩]
  /-- Any other job is silent. -/
  silent : ¬ (Owed node.dispatcher job ∧ Writes platform node job) → after.sent = node.sent
  /-- The handlers stay. -/
  handlers : after.dispatcher.handlers = node.dispatcher.handlers
  /-- The environments stay. -/
  environments : after.dispatcher.environments = node.dispatcher.environments

/-- The job of a notification runs. -/
theorem ran_notification (node : Node) (json : String) (members : OrderedHash String Json)
    (connection : Channel) :
    Ran platform node ⟨⟨json, .hash members⟩, true, connection⟩
      (node.handleNotification platform ⟨json, .hash members⟩ connection).node := by
  have unowed : ¬ Owed node.dispatcher ⟨⟨json, .hash members⟩, true, connection⟩ := by
    rintro ⟨request, _⟩
    cases request
  rw [handleNotification_hash]
  cases returned : node.dispatcher.dispatch platform.runtime
      ((node.withHeaders Notification.reserved members).argsFor members connection) with
  | error raised => exact ⟨fun owed => absurd owed unowed, fun _ => rfl, rfl, rfl⟩
  | ok performed =>
    obtain ⟨handlers, environments⟩ := Dispatcher.dispatch_tables platform.runtime returned
    exact ⟨fun owed => absurd owed unowed, fun _ => rfl, handlers, environments⟩

/-- The job of a request runs. -/
theorem ran_request (node : Node) (json : String) (members : OrderedHash String Json)
    (connection : Channel) :
    Ran platform node ⟨⟨json, .hash members⟩, false, connection⟩
      (node.handleCall platform sendMsg ⟨json, .hash members⟩ connection).node := by
  have owed : Owed node.dispatcher ⟨⟨json, .hash members⟩, false, connection⟩ ↔
      ∃ performed, node.dispatcher.dispatch platform.runtime
        ((node.withHeaders Request.reserved members).argsFor members connection) =
          .ok performed := by
    refine Iff.trans ?_ (Dispatcher.dispatch_returns_iff platform.runtime _ _).symm
    constructor
    · rintro ⟨_, others, isHash, searchable⟩
      cases isHash
      exact searchable
    · intro searchable
      exact ⟨rfl, members, rfl, searchable⟩
  have writes : Writes platform node ⟨⟨json, .hash members⟩, false, connection⟩ ↔
      Writable platform node members connection := by
    constructor
    · intro writes
      exact writes members rfl rfl
    · rintro writable others isHash -
      cases isHash
      exact writable
  rw [handleCall_hash]
  cases returned : node.dispatcher.dispatch platform.runtime
      ((node.withHeaders Request.reserved members).argsFor members connection) with
  | error raised =>
    rw [returned] at owed
    have unowed : ¬ Owed node.dispatcher ⟨⟨json, .hash members⟩, false, connection⟩ := by
      rw [owed]
      rintro ⟨performed, impossible⟩
      cases impossible
    exact ⟨fun isOwed => absurd isOwed unowed, fun _ => rfl, rfl, rfl⟩
  | ok performed =>
    obtain ⟨handlers, environments⟩ := Dispatcher.dispatch_tables platform.runtime returned
    cases written : responseText platform (node.withHeaders Request.reserved members)
        ((members.get? "id").getD .null) node.messageHeaders performed with
    | error raised =>
      have unwritten : ¬ Writes platform node ⟨⟨json, .hash members⟩, false, connection⟩ := by
        rw [writes]
        intro writable
        obtain ⟨text, again⟩ := writable performed returned
        rw [written] at again
        cases again
      unfold responseText at written
      simp only [answer, Response.new, openHeaders, written]
      exact ⟨fun _ isWritten => absurd isWritten unwritten, fun _ => rfl, handlers, environments⟩
    | ok text =>
      have isOwed := owed.mpr ⟨performed, returned⟩
      have isWritten : Writes platform node ⟨⟨json, .hash members⟩, false, connection⟩ := by
        rw [writes]
        intro other same
        rw [returned] at same
        cases same
        exact ⟨text, written⟩
      unfold responseText at written
      simp only [answer, Response.new, openHeaders, written]
      exact ⟨fun _ _ => ⟨text, rfl⟩, fun not => absurd ⟨isOwed, isWritten⟩ not, handlers,
        environments⟩

/-- A job runs. -/
theorem ran_of_run (node : Node) (job : Job) (ofHash : OfHash job) :
    Ran platform node job (job.run platform sendMsg node).node := by
  obtain ⟨⟨json, data⟩, notification, connection⟩ := job
  obtain ⟨members, rfl⟩ : ∃ members, data = .hash members := ofHash
  cases notification with
  | true => exact ran_notification platform node json members connection
  | false => exact ran_request platform sendMsg node json members connection

/-! ## Exactly one answer -/

/-- The calls of `send_msg` made on a connection for a post in total: by `process_http_request`,
called on one state of the node, and by the job it put on the thread pool, run on another. -/
def issued (node later : Node) (content : Option String) (connection : Channel) : Nat :=
  let processed := processHttpRequest platform sendMsg node content connection
  (sends connection processed.node - sends connection node) +
    match processed.job with
    | none => 0
    | some job => sends connection (job.run platform sendMsg later).node - sends connection later

omit sendMsg in
/-- The members of a hash that was posted. -/
theorem callable_unique {content : Option String} {members others : OrderedHash String Json}
    (first : Callable platform content members) (second : Callable platform content others) :
    others = members := by
  have same := second.1.symm.trans first.1
  cases same
  rfl

omit sendMsg in
/-- A request that was posted is answerable if its job is owed. -/
theorem answerable_request (dispatcher : Dispatcher) {content : Option String}
    {members : OrderedHash String Json} (callable : Callable platform content members)
    (id : members.has "id" = true) (connection : Channel) :
    Answerable platform dispatcher content ↔
      Owed dispatcher (jobFor content members connection) := by
  rw [owed_jobFor]
  constructor
  · rintro ⟨others, again, looked⟩
    obtain rfl := callable_unique platform callable again
    exact ⟨id, looked id⟩
  · rintro ⟨_, searchable⟩
    exact ⟨members, callable, fun _ => searchable⟩

omit sendMsg in
/-- A notification that was posted is answerable, and its job is not owed. -/
theorem answerable_notification (dispatcher : Dispatcher) {content : Option String}
    {members : OrderedHash String Json} (callable : Callable platform content members)
    (noId : members.has "id" = false) (connection : Channel) :
    Answerable platform dispatcher content ∧
      ¬ Owed dispatcher (jobFor content members connection) := by
  have differs : ¬ members.has "id" = true := by
    rw [noId]
    decide
  refine ⟨⟨members, callable, fun id => absurd id differs⟩, ?_⟩
  rw [owed_jobFor]
  exact fun owed => differs owed.1

/-- The response to a request that was posted can be written. -/
def ResponseWritable (node : Node) (content : Option String) (connection : Channel) : Prop :=
  ∀ members, Callable platform content members → members.has "id" = true →
    Writable platform node members connection

omit sendMsg in
/-- It is the response of the job of the post. -/
theorem responseWritable_iff (node : Node) {content : Option String}
    {members : OrderedHash String Json} (callable : Callable platform content members)
    (id : members.has "id" = true) (connection : Channel) :
    ResponseWritable platform node content connection ↔
      Writes platform node (jobFor content members connection) := by
  constructor
  · rintro writable others isHash -
    cases isHash
    exact writable members callable id
  · intro writes others again _
    obtain rfl := callable_unique platform callable again
    exact writes others rfl (by simp [jobFor, id])

/-- **A post is answered exactly once if and only if it is a hash with a method and, if it has an
id too, its method can be looked up and its response can be written.** For every content, whatever
`send_msg` does, every state of the node when the post comes in and every state of it when the job
runs. -/
theorem post_answered_iff (node later : Node) (content : Option String) (connection : Channel) :
    issued platform sendMsg node later content connection = 1 ↔
      Answerable platform later.dispatcher content ∧
        ResponseWritable platform later content connection := by
  have posting := posting_of_process platform sendMsg node content connection
  unfold issued
  dsimp only
  generalize (processHttpRequest platform sendMsg node content connection).node = after at posting
  generalize (processHttpRequest platform sendMsg node content connection).job = queued at posting
  cases posting with
  | ignored after other sent =>
    refine iff_of_false ?_ fun ⟨⟨members, callable, _⟩, _⟩ => other members callable
    dsimp only
    rw [sends_congr sent]
    omega
  | request members callable id =>
    have ran := ran_of_run platform sendMsg later (jobFor content members connection)
      ⟨members, rfl⟩
    rw [answerable_request platform later.dispatcher callable id connection,
      responseWritable_iff platform later callable id connection]
    by_cases answers : Owed later.dispatcher (jobFor content members connection) ∧
        Writes platform later (jobFor content members connection)
    · obtain ⟨text, sent⟩ := ran.answers answers.1 answers.2
      have once : sends connection
          ((jobFor content members connection).run platform sendMsg later).node =
            sends connection later + 1 := by
        rw [sends_append sent]
        exact congrArg _ (if_pos rfl)
      refine iff_of_true ?_ answers
      dsimp only
      omega
    · refine iff_of_false ?_ answers
      dsimp only
      rw [sends_congr (ran.silent answers)]
      omega
  | notification members callable noId =>
    have ran := ran_of_run platform sendMsg later (jobFor content members connection)
      ⟨members, rfl⟩
    obtain ⟨isAnswerable, unowed⟩ :=
      answerable_notification platform later.dispatcher callable noId connection
    have once : sends connection { node with sent := node.sent ++ [⟨"", connection⟩] } =
        sends connection node + 1 := by
      rw [sends_append rfl]
      exact congrArg _ (if_pos rfl)
    have writable : ResponseWritable platform later content connection := by
      intro others again id
      obtain rfl := callable_unique platform callable again
      rw [noId] at id
      cases id
    refine iff_of_true ?_ ⟨isAnswerable, writable⟩
    dsimp only
    rw [sends_congr (ran.silent fun both => unowed both.1), once]
    omega

end Posts

/-! ## Any number of posts

Over a whole run of the web node, with its jobs run in any order, the calls of `send_msg` made on a
connection and the jobs that still owe one are the posts on it that are answerable, as long as
every response can be written. -/

section Runs

open scoped Classical

variable (platform : Platform) (sendMsg : String → Except Exn Unit)

/-- The jobs that owe an answer on a connection. -/
noncomputable def owing (dispatcher : Dispatcher) (connection : Channel) (jobs : List Job) : Nat :=
  jobs.countP fun job => decide (job.connection = connection ∧ Owed dispatcher job)

/-- The action posts answerable content on a connection. -/
def Posts (dispatcher : Dispatcher) (connection : Channel) : WebAction → Prop
  | .post content channel => channel = connection ∧ Answerable platform dispatcher content
  | .work _ => False

/-- The posts of answerable content on a connection. -/
noncomputable def answerable (dispatcher : Dispatcher) (connection : Channel)
    (actions : List WebAction) : Nat :=
  actions.countP fun action => decide (Posts platform dispatcher connection action)

/-- Between two actions, for the tables of signatures of a dispatcher: every job is that of a hash,
and what was sent and is owed on a connection is what was sent there at first and a number of
posts. -/
structure Accounted (dispatcher : Dispatcher) (posted : Channel → Nat) (web : Web) : Prop where
  /-- The handlers are those of the dispatcher. -/
  handlers : web.node.dispatcher.handlers = dispatcher.handlers
  /-- The environments are those of the dispatcher. -/
  environments : web.node.dispatcher.environments = dispatcher.environments
  /-- Every job is that of a hash. -/
  jobs : ∀ job ∈ web.jobs, OfHash job
  /-- Nothing else is sent. -/
  count : ∀ connection,
    sends connection web.node + owing dispatcher connection web.jobs = posted connection

omit platform sendMsg in
/-- Only the signatures matter for what can be looked up. -/
theorem owed_congr {before after : Dispatcher} (handlers : after.handlers = before.handlers)
    (environments : after.environments = before.environments) (job : Job) :
    Owed after job ↔ Owed before job := by
  simp only [Owed, Dispatcher.Searchable, handlers, environments]

omit platform sendMsg in
/-- One more job. -/
theorem owing_append (dispatcher : Dispatcher) (connection : Channel) (jobs : List Job)
    (job : Job) :
    owing dispatcher connection (jobs ++ [job]) = owing dispatcher connection jobs +
      if job.connection = connection ∧ Owed dispatcher job then 1 else 0 := by
  simp [owing, List.countP_append, List.countP_singleton]

omit platform sendMsg in
/-- One job less. -/
theorem owing_eraseIdx (dispatcher : Dispatcher) (connection : Channel) {jobs : List Job}
    {index : Nat} {job : Job} (taken : jobs[index]? = some job) :
    owing dispatcher connection jobs = owing dispatcher connection (jobs.eraseIdx index) +
      if job.connection = connection ∧ Owed dispatcher job then 1 else 0 := by
  obtain ⟨inside, rfl⟩ := List.getElem?_eq_some_iff.mp taken
  have split := (List.getElem_cons_eraseIdx_perm inside).countP_eq fun job =>
    decide (job.connection = connection ∧ Owed dispatcher job)
  rw [List.countP_cons] at split
  simpa [owing] using split.symm

/-- What a post adds to what was sent and is owed on a connection. -/
theorem posting_count (dispatcher : Dispatcher) {node after : Node} {content : Option String}
    {channel : Channel} {queued : Option Job}
    (posting : Posting platform node content channel after queued) (connection : Channel)
    (jobs : List Job) :
    sends connection after + owing dispatcher connection (jobs ++ queued.toList) =
      sends connection node + owing dispatcher connection jobs +
        if Posts platform dispatcher connection (.post content channel) then 1 else 0 := by
  cases posting with
  | ignored after other sent =>
    have not : ¬ Posts platform dispatcher connection (.post content channel) := by
      rintro ⟨_, members, callable, _⟩
      exact other members callable
    rw [if_neg not, sends_congr sent]
    simp
  | request members callable id =>
    have same : Posts platform dispatcher connection (.post content channel) ↔
        (jobFor content members channel).connection = connection ∧
          Owed dispatcher (jobFor content members channel) := by
      rw [Posts, answerable_request platform dispatcher callable id channel]
      rfl
    simp only [Option.toList_some, owing_append, same]
    omega
  | notification members callable noId =>
    obtain ⟨isAnswerable, unowed⟩ :=
      answerable_notification platform dispatcher callable noId channel
    have sent : sends connection { node with sent := node.sent ++ [⟨"", channel⟩] } =
        sends connection node + if channel = connection then 1 else 0 :=
      sends_append rfl connection
    have same : Posts platform dispatcher connection (.post content channel) ↔
        channel = connection := and_iff_left isAnswerable
    simp only [Option.toList_some, owing_append, unowed, and_false, if_false, sent, same]
    omega

/-- A post keeps the account, with one more on its connection if it is answerable. -/
theorem accounted_post {dispatcher : Dispatcher} {posted : Channel → Nat} {web : Web}
    (accounted : Accounted dispatcher posted web) {content : Option String} {channel : Channel}
    {after : Node} {queued : Option Job}
    (posting : Posting platform web.node content channel after queued) :
    Accounted dispatcher (fun connection => posted connection +
        if Posts platform dispatcher connection (.post content channel) then 1 else 0)
      ⟨after, web.jobs ++ queued.toList⟩ := by
  have count := posting_count platform dispatcher posting
  have tables : after.dispatcher = web.node.dispatcher := by
    cases posting with
    | ignored after other sent dispatcher => exact dispatcher
    | request => rfl
    | notification => rfl
  refine ⟨tables ▸ accounted.handlers, tables ▸ accounted.environments, ?_, ?_⟩
  · intro job inside
    rcases List.mem_append.mp inside with old | new
    · exact accounted.jobs job old
    · cases posting with
      | ignored => cases new
      | request members | notification members =>
        rw [Option.toList_some, List.mem_singleton] at new
        exact ⟨members, by rw [new]; rfl⟩
  · intro connection
    rw [count, accounted.count]

/-- The response of the job that runs, if one does, can be written. -/
def JobWrites (web : Web) : WebAction → Prop
  | .post _ _ => True
  | .work index => ∀ job, web.jobs[index]? = some job → Writes platform web.node job

/-- A job keeps the account: what it owed is sent. -/
theorem accounted_work {dispatcher : Dispatcher} {posted : Channel → Nat} {web : Web}
    (accounted : Accounted dispatcher posted web) {index : Nat} {job : Job}
    (taken : web.jobs[index]? = some job) (writes : Writes platform web.node job) :
    Accounted dispatcher posted
      ⟨(job.run platform sendMsg web.node).node, web.jobs.eraseIdx index⟩ := by
  have inside : job ∈ web.jobs := List.mem_of_getElem? taken
  have ran := ran_of_run platform sendMsg web.node job (accounted.jobs job inside)
  have owed := owed_congr accounted.handlers accounted.environments job
  refine ⟨ran.handlers.trans accounted.handlers, ran.environments.trans accounted.environments,
    ?_, ?_⟩
  · intro other remains
    exact accounted.jobs other (List.mem_of_mem_eraseIdx remains)
  · intro connection
    have before := accounted.count connection
    rw [owing_eraseIdx dispatcher connection taken] at before
    dsimp only
    by_cases isOwed : Owed dispatcher job
    · obtain ⟨text, sent⟩ := ran.answers (owed.mpr isOwed) writes
      rw [sends_append sent]
      simp only [isOwed, and_true] at before
      omega
    · rw [sends_congr (ran.silent fun both => isOwed (owed.mp both.1))]
      simp only [isOwed, and_false, if_false] at before
      omega

/-- Every run keeps the account, with the answerable posts of the run. -/
theorem accounted_run {dispatcher : Dispatcher} (actions : List WebAction) :
    ∀ (posted : Channel → Nat) (web final : Web), Accounted dispatcher posted web →
      (Web.machine platform sendMsg).Along (fun web action _ => JobWrites platform web action) web
        actions →
      (Web.machine platform sendMsg).run web actions = some final →
      Accounted dispatcher (fun connection => posted connection +
        answerable platform dispatcher connection actions) final := by
  induction actions with
  | nil =>
    intro posted web final accounted _ ran
    cases ran
    exact accounted
  | cons action rest ih =>
    intro posted web final accounted writes ran
    obtain ⟨next, stepped, after⟩ := Option.bind_eq_some_iff.mp ran
    obtain ⟨here, along⟩ := writes next stepped
    have counted : ∀ connection, answerable platform dispatcher connection (action :: rest) =
        (if Posts platform dispatcher connection action then 1 else 0) +
          answerable platform dispatcher connection rest := by
      intro connection
      rw [answerable, List.countP_cons, Nat.add_comm]
      simp [answerable]
    cases action with
    | post content channel =>
      have posting := posting_of_process platform sendMsg web.node content channel
      have kept := accounted_post platform accounted posting
      cases stepped
      have later := ih _ _ final kept along after
      simp only [counted, ← Nat.add_assoc]
      exact later
    | work index =>
      obtain ⟨job, taken, rfl⟩ := Web.step_work platform sendMsg stepped
      have kept := accounted_work platform sendMsg accounted taken (here job taken)
      have later := ih _ _ final kept along after
      have noPost : ∀ connection, ¬ Posts platform dispatcher connection (.work index) :=
        fun _ => id
      simp only [counted, if_neg (noPost _), Nat.zero_add]
      exact later

/-- **Every answerable post is answered once, and nothing else is sent.** For every interleaving of
posts and jobs on a web node in which every response can be written, once all jobs have run, the
calls of `send_msg` made on a connection since the start are as many as the answerable posts on
it. -/
theorem posts_answered (node : Node) (actions : List WebAction) (final : Web)
    (writes : (Web.machine platform sendMsg).Along
      (fun web action _ => JobWrites platform web action) ⟨node, []⟩ actions)
    (ran : (Web.machine platform sendMsg).run ⟨node, []⟩ actions = some final)
    (idle : final.jobs = []) (connection : Channel) :
    sends connection final.node =
      sends connection node + answerable platform node.dispatcher connection actions := by
  have start : Accounted node.dispatcher (fun connection => sends connection node) ⟨node, []⟩ :=
    ⟨rfl, rfl, nofun, fun _ => rfl⟩
  have account := (accounted_run platform sendMsg actions _ _ _ start writes ran).count connection
  rw [idle] at account
  exact account

end Runs

/-- A web node without handlers. -/
def webNode : Node := Node.new { nodeType := some .web }

/-- A `send_msg` that returns. -/
def replies : String → Except Exn Unit := fun _ => .ok ()

/-- Content that is not JSON, no content, and an empty hash: nothing is sent, neither by
`process_http_request` nor by a job, for there is none. -/
theorem post_unanswered :
    issued JsonText.platform replies webNode webNode (some "x") ⟨1, none⟩ = 0 ∧
      issued JsonText.platform replies webNode webNode none ⟨1, none⟩ = 0 ∧
      issued JsonText.platform replies webNode webNode (some "\x7b\x7d") ⟨1, none⟩ = 0 := by
  refine ⟨rfl, rfl, rfl⟩

end Rjr.Verif.HttpAnswers
