import Rjr.Nodes.Http
import Rjr.Verif.Carriers
import Rjr.Verif.JobEnds

/-!
# Posts and their responses

Every call makes a post of its own, and its answer is the response to that post. Posts and responses
are whole texts, so web nodes carry texts as an exchange does. A post that fails may not arrive, and
the response to it is lost if it comes later. A failure, and the response to a notification, hand an
empty text to the callback: `handle_message` raises on it, and nothing changes.

Only requests and notifications are posted, and only answers come back, each to the post of its own
call. So the callback of a call runs after its errback has, or with its answer.
-/

namespace Rjr.Verif.HttpPosts

open Messages Node Nodes Codec Packets Provenance Agreement Carriers JobEnds

variable {ι : Type}

/-! ## The exchange that web nodes stand for -/

/-- The exchange. -/
def view (http : Http ι) : Exchange ι HttpEnd :=
  ⟨http.hosts, http.scheduled ++ http.texts, http.posts ++ http.responses, http.dropped⟩

/-- The arguments of calls can be sent. -/
def PlainArgs (createId : String) : HttpAction ι → Prop
  | .invoke _ _ args => (Json.arr args).plain createId = true
  | .notify _ args => (Json.arr args).plain createId = true
  | _ => True

/-- The empty text is not JSON. -/
def Silent (platform : Platform) : Prop := ∀ tree, platform.json.parse "" ≠ .ok tree

section Refinement

variable [DecidableEq ι] {platform : Platform} {routes : Routes ι} {http next : Http ι}

/-- The empty text changes nothing. -/
theorem arrive_empty (silent : Silent platform) (wiring : Wiring ι HttpEnd)
    (hosts : Hosts ι HttpEnd) (connection : HttpEnd) :
    (hosts.arrive platform wiring connection "").1 = hosts := by
  have refused : ∀ node : Node, ∃ raised,
      node.handleMessage platform "" (wiring.channel connection) = (node, none, .error raised) := by
    intro node
    cases read : platform.json.parse "" with
    | ok tree => exact absurd read (silent tree)
    | error raised =>
      refine ⟨raised, ?_⟩
      simp only [handleMessage, Intermediate.parse, JsonParser.parse, read, Except.map]
  obtain ⟨raised, handled⟩ := refused (hosts.nodes (wiring.owner connection))
  simp [Hosts.arrive, handled, setNode_same, newResponses_same]

/-- A callback without content only ends a post. -/
theorem callback_empty (silent : Silent platform) (connection : HttpEnd) :
    http.callback platform routes connection "" =
      { http with finished := http.finished ++ [connection] } := by
  rw [Http.callback]
  split
  · simp only [arrive_empty silent]
  · rfl

/-- A step of web nodes is a run of the exchange they stand for. -/
theorem carried_step (silent : Silent platform) {action : HttpAction ι}
    (plain : PlainArgs platform.json.createId action)
    (stepped : (Http.machine platform routes).step http action = some next) :
    (Exchange.machine platform routes.wiring).Reaches (Plain platform.json.createId) (view http)
      (Reordered · (view next)) := by
  cases action with
  | invoke id method args =>
    obtain ⟨⟨hosts, block⟩, called, rfl⟩ := Option.map_eq_some_iff.mp stepped
    exact Machine.reaches_step (Exchange.step_invoke called) plain
      ⟨rfl, List.perm_added_left _ _ _, .refl _, .refl _⟩
  | notify method args =>
    cases stepped
    exact Machine.reaches_step (Exchange.step_notify (view http) _ method args) plain
      ⟨rfl, List.perm_added_left _ _ _, .refl _, .refl _⟩
  | post index =>
    obtain ⟨message, found, rfl⟩ := Option.map_eq_some_iff.mp stepped
    exact (sends _ (List.perm_taken_left found _)).trans fun exchange same =>
      Machine.reaches_here (same.trans ⟨rfl, .refl _, List.perm_added_left _ _ _, .refl _⟩)
  | process index =>
    obtain ⟨⟨connection, msg⟩, found, rfl⟩ := Option.map_eq_some_iff.mp stepped
    exact receives _ (List.perm_taken_left found _)
  | sendMsg index =>
    obtain ⟨message, found, rfl⟩ := Option.map_eq_some_iff.mp stepped
    refine (sends _ (List.perm_taken_right _ found)).trans fun exchange same =>
      Machine.reaches_here (same.trans ⟨rfl, .refl _, ?_, .refl _⟩)
    simp only [view, List.append_assoc]
    exact .refl _
  | receive index =>
    obtain ⟨⟨connection, response⟩, found, rfl⟩ := Option.map_eq_some_iff.mp stepped
    dsimp only
    split
    · exact misses _ (List.perm_taken_right _ found)
    · split
      · rename_i call
        rw [Http.callback, if_pos call]
        exact receives _ (List.perm_taken_right _ found)
      · rename_i notified
        rw [Http.callback, if_neg notified]
        exact misses _ (List.perm_taken_right _ found)
  | receiveEmpty index =>
    obtain ⟨connection, found, rfl⟩ := Option.map_eq_some_iff.mp stepped
    refine Machine.reaches_here ?_
    dsimp only
    split
    · exact reordered_refl _
    · rw [callback_empty silent]
      exact reordered_refl _
  | fail connection =>
    simp only [Http.machine, Http.step, callback_empty silent] at stepped
    split at stepped
    · cases stepped
      exact Machine.reaches_here (reordered_refl _)
    · cases stepped
  | lose index =>
    simp only [Http.machine, Http.step] at stepped
    split at stepped
    · cases stepped
    · rename_i connection msg found
      split at stepped
      · cases stepped
        exact misses _ (List.perm_taken_left found _)
      · cases stepped
  | finish index =>
    obtain ⟨⟨hosts, answer⟩, done, rfl⟩ := Option.map_eq_some_iff.mp stepped
    refine Machine.reaches_step (Exchange.step_finish done) trivial ⟨rfl, ?_, .refl _, .refl _⟩
    simp only [view, List.append_assoc]
    exact .refl _
  | host action =>
    obtain ⟨hosts, moved, rfl⟩ := Option.map_eq_some_iff.mp stepped
    exact Machine.reaches_step (Exchange.step_host moved) trivial (reordered_refl _)

/-- Web nodes carry whole texts. -/
def carrier (silent : Silent platform) (routes : Routes ι) (nodes : ι → Node) :
    Carrier platform routes.wiring nodes (Http.machine platform routes)
      (PlainArgs platform.json.createId) where
  initial := Http.initial nodes
  view := view
  begins := rfl
  carries _ _ _ _ plain stepped := carried_step silent plain stepped

end Refinement

/-! ## What is posted and what comes back -/

/-- An end, on a side, of a post that was asked for. -/
def Known (next : Nat) (server : Bool) (connection : HttpEnd) : Prop :=
  connection.server = server ∧ connection.number < next

/-- What goes to the server with the post of a call is a request. -/
def Asks (calls : List Nat) (connection : HttpEnd) (taken : Option (Kind × Json)) : Prop :=
  connection.number ∈ calls → ∃ id, taken = some (.request, id)

/-- What comes back is a response. -/
def Responds (taken : Option (Kind × Json)) : Prop := ∃ id, taken = some (.response, id)

/-- Everything is on its side of a post, and is what goes there. -/
structure Placed (platform : Platform) (http : Http ι) : Prop where
  /-- Posts of calls were asked for. -/
  calls : ∀ number ∈ http.calls, number < http.next
  /-- Every call has the client's end of a post. -/
  asked : ∀ call ∈ http.hosts.asked, call.on.server = false ∧ call.on.number ∈ http.calls
  /-- No two calls have the same. -/
  distinct : http.hosts.asked.Pairwise fun first second => first.on ≠ second.on
  /-- Blocks that post do so from the client's end. -/
  scheduled : ∀ block ∈ http.scheduled, Known http.next false block.connection ∧
    Asks http.calls block.connection (blockLabel platform block)
  /-- Posts arrive at the server's end. -/
  posts : ∀ post ∈ http.posts, Known http.next true post.1 ∧
    Asks http.calls post.1 (label platform post.2)
  /-- Jobs came in there. -/
  working : Working (Known http.next true) http.hosts
  /-- They are answered there. -/
  texts : ∀ block ∈ http.texts, Known http.next true block.connection ∧
    Responds (blockLabel platform block)
  /-- Responses arrive at the client's end. -/
  responses : ∀ response ∈ http.responses, Known http.next false response.1 ∧
    Responds (label platform response.2)
  /-- Empty ones do not answer calls. -/
  empties : ∀ connection ∈ http.empties, connection.number < http.next ∧
    connection.number ∉ http.calls

/-- The callback of a call has run, if at all, for a failure or with an answer. -/
def Ended (http : Http ι) (connection : HttpEnd) : Prop :=
  connection.number ∈ http.calls → connection ∈ http.failed ∨
    ∃ recorded ∈ http.hosts.recorded, recorded.on = connection

/-- What has become of the posts. -/
structure Fates (routes : Routes ι) (http : Http ι) : Prop where
  /-- Posts are made from the client's end. -/
  posted : ∀ connection ∈ http.posted, Known http.next false connection
  /-- Those that are over failed, or were answered. -/
  finished : ∀ connection ∈ http.finished, connection.number < http.next ∧ Ended http connection
  /-- Those that failed are over. -/
  failed : ∀ connection ∈ http.failed, connection ∈ http.finished
  /-- Those that were answered are over and did not fail. -/
  recorded : ∀ recorded ∈ http.hosts.recorded, recorded.on.server = false →
    recorded.on ∈ http.finished ∧ recorded.on ∉ http.failed
  /-- What was lost was a post that failed, or came back when the post was over. -/
  dropped : ∀ text ∈ http.dropped, text.1.number < http.next ∧
    (text.1.server = true → routes.wiring.opposite text.1 ∈ http.failed) ∧
    (text.1.server = false → Ended http text.1)

section Ends

variable {next : Nat} {calls : List Nat} {server : Bool} {connection : HttpEnd}
  {taken : Option (Kind × Json)}

/-- An end stays one when more posts are asked for. -/
theorem Known.later (known : Known next server connection) : Known (next + 1) server connection :=
  ⟨known.1, Nat.lt_succ_of_lt known.2⟩

/-- The other end is an end as well. -/
theorem Known.opposite (routes : Routes ι) (known : Known next server connection) :
    Known next (!server) (routes.wiring.opposite connection) :=
  ⟨congrArg (!·) known.1, known.2⟩

/-- A post that was asked for before is not the next one. -/
theorem mem_calls_earlier {number : Nat} {more : List Nat} (new : ∀ other ∈ more, other = next)
    (earlier : number < next) : number ∈ calls ++ more ↔ number ∈ calls := by
  refine ⟨fun inside => ?_, List.mem_append_left more⟩
  rcases List.mem_append.mp inside with before | last
  · exact before
  · rw [new number last] at earlier
    exact absurd earlier (Nat.lt_irrefl next)

end Ends

section Posts

variable [DecidableEq ι] {platform : Platform} {routes : Routes ι} {nodes : ι → Node}
  {http next : Http ι}

/-- Web nodes after one more post was asked for. -/
def asking (http : Http ι) (hosts : Hosts ι HttpEnd) (more : List Nat)
    (block : Outgoing HttpEnd) : Http ι :=
  { http with
    hosts := hosts
    next := http.next + 1
    calls := http.calls ++ more
    scheduled := http.scheduled ++ [block] }

/-- A call asks for a post of its own. -/
theorem step_invoke {id method : String} {args : List Json}
    (stepped : (Http.machine platform routes).step http (.invoke id method args) = some next) :
    ∃ hosts block, http.hosts.invoke routes.wiring ⟨http.next, false⟩ id method args =
        some (hosts, block) ∧ next = asking http hosts [http.next] block := by
  obtain ⟨⟨hosts, block⟩, called, rfl⟩ := Option.map_eq_some_iff.mp stepped
  exact ⟨hosts, block, called, rfl⟩

/-- So does a notification. -/
theorem step_notify {method : String} {args : List Json}
    (stepped : (Http.machine platform routes).step http (.notify method args) = some next) :
    next = asking http http.hosts []
      (http.hosts.notify routes.wiring ⟨http.next, false⟩ method args) := by
  cases stepped
  rw [asking, List.append_nil]

omit [DecidableEq ι] in
/-- Another post leaves everything where it is. -/
theorem Placed.asking (placed : Placed platform http) {hosts : Hosts ι HttpEnd} {more : List Nat}
    {block : Outgoing HttpEnd} (new : ∀ number ∈ more, number = http.next)
    (on : block.connection = ⟨http.next, false⟩)
    (asks : http.next ∈ more → ∃ id, blockLabel platform block = some (.request, id))
    (moves : Moves http.hosts hosts)
    (asked : ∀ call ∈ hosts.asked, call ∈ http.hosts.asked ∨
      (call.on = ⟨http.next, false⟩ ∧ http.next ∈ more))
    (distinct : hosts.asked.Pairwise fun first second => first.on ≠ second.on) :
    Placed platform (asking http hosts more block) := by
  have later : ∀ {server connection label}, Known http.next server connection ∧
      Asks http.calls connection label → Known (http.next + 1) server connection ∧
        Asks (http.calls ++ more) connection label := fun ⟨known, own⟩ =>
    ⟨known.later, fun inside => own ((mem_calls_earlier new known.2).mp inside)⟩
  refine ⟨fun number inside => ?_, fun call inside => ?_, distinct, fun other inside => ?_,
    fun post inside => later (placed.posts post inside),
    (placed.working.moved moves).mono fun _ known => known.later,
    fun text inside => (placed.texts text inside).imp_left Known.later,
    fun response inside => (placed.responses response inside).imp_left Known.later,
    fun connection inside => ?_⟩
  · rcases List.mem_append.mp inside with before | last
    · exact Nat.lt_succ_of_lt (placed.calls number before)
    · rw [new number last]
      exact Nat.lt_succ_self http.next
  · rcases asked call inside with before | ⟨own, made⟩
    · exact (placed.asked call before).imp_right (List.mem_append_left more)
    · rw [own]
      exact ⟨rfl, List.mem_append_right _ made⟩
  · rcases List.mem_append.mp inside with before | last
    · exact later (placed.scheduled other before)
    · rw [List.mem_singleton.mp last]
      refine ⟨by rw [on]; exact ⟨rfl, Nat.lt_succ_self http.next⟩, fun call => ?_⟩
      rw [on] at call
      rcases List.mem_append.mp call with before | made
      · exact absurd (placed.calls _ before) (Nat.lt_irrefl http.next)
      · exact asks made
  · obtain ⟨earlier, none⟩ := placed.empties connection inside
    exact ⟨Nat.lt_succ_of_lt earlier, fun call => none ((mem_calls_earlier new earlier).mp call)⟩

omit [DecidableEq ι] in
/-- It changes nothing about the others. -/
theorem Fates.asking (fates : Fates routes http) {hosts : Hosts ι HttpEnd} {more : List Nat}
    (block : Outgoing HttpEnd) (new : ∀ number ∈ more, number = http.next)
    (recorded : hosts.recorded = http.hosts.recorded) :
    Fates routes (asking http hosts more block) := by
  have ended : ∀ connection : HttpEnd, connection.number < http.next → Ended http connection →
      Ended (HttpPosts.asking http hosts more block) connection := by
    intro connection earlier own inside
    rw [HttpPosts.asking, recorded]
    exact own ((mem_calls_earlier new earlier).mp inside)
  refine ⟨fun connection inside => (fates.posted connection inside).later,
    fun connection inside => ?_, fates.failed, ?_, fun text inside => ?_⟩
  · obtain ⟨earlier, own⟩ := fates.finished connection inside
    exact ⟨Nat.lt_succ_of_lt earlier, ended connection earlier own⟩
  · rw [HttpPosts.asking, recorded]
    exact fates.recorded
  · obtain ⟨earlier, post, response⟩ := fates.dropped text inside
    exact ⟨Nat.lt_succ_of_lt earlier, post, fun client => ended _ earlier (response client)⟩

/-! ## Texts on their way -/

omit [DecidableEq ι] in
/-- A request is not answered with an empty text. -/
theorem answersEmpty_request (foreign : Foreign platform.json.createId) {text : String}
    {packet : Packet} {headers : OrderedHash String Json}
    (carried : Carried platform text packet headers) (request : packet.kind = .request) :
    Http.answersEmpty platform text = false := by
  have kind := carried.classified
  rw [classify_hash, request] at kind
  have test : Notification.isNotificationMessage platform.runtime
      ⟨text, .hash (packet.members headers)⟩ = .ok ((packet.members headers).has "method" &&
        !(packet.members headers).has "id") := rfl
  simp only [Http.answersEmpty, carried.parsed foreign, Except.bind, test]
  cases method : (packet.members headers).has "method" with
  | false => rfl
  | true =>
    cases id : (packet.members headers).has "id" with
    | true => rfl
    | false =>
      rw [method, id] at kind
      cases kind

/-- A response that arrives is recorded, and is no job. -/
theorem arrive_answer (wiring : Wiring ι HttpEnd) (foreign : Foreign platform.json.createId)
    {history : History HttpEnd} {other : HttpEnd} {text : String}
    (traced : TextSound platform history other text) (responds : Responds (label platform text))
    (hosts : Hosts ι HttpEnd) (connection : HttpEnd) :
    let arrived := (hosts.arrive platform wiring connection text).1
    arrived.jobs = hosts.jobs ∧ arrived.running = hosts.running ∧ arrived.asked = hosts.asked ∧
      ∃ response, arrived.recorded = hosts.recorded ++ [⟨response, connection⟩] := by
  intro arrived
  obtain ⟨packet, headers, carried, _⟩ := traced
  obtain ⟨id, taken⟩ := responds
  rw [carried.labelled foreign] at taken
  cases packet with
  | request number method args => cases taken
  | notification method args => cases taken
  | response number result =>
    simp only [arrived, arrive_response connection foreign hosts carried]
    exact ⟨rfl, rfl, rfl, _, rfl⟩

/-- A job is answered with a response. -/
theorem finish_responds (fit : Fit platform nodes) {hosts after : Hosts ι HttpEnd}
    (sound : HostsSound platform routes.wiring nodes hosts) {index : Nat}
    {answer : Option (Outgoing HttpEnd)}
    (done : hosts.finish platform routes.wiring index = some (after, answer)) :
    ∀ block ∈ answer.toList, Responds (blockLabel platform block) := by
  cases found : hosts.running[index]? with
  | none => simp only [Hosts.finish, found, reduceCtorEq] at done
  | some running =>
    have begun := sound.running running (List.mem_of_getElem? found)
    obtain ⟨performed, returned, sends⟩ := running_dispatched fit sound begun
    cases answered : running.msgId with
    | none =>
      rw [finish_silent found answered returned] at done
      cases done
      exact fun block inside => absurd inside List.not_mem_nil
    | some number =>
      obtain ⟨_, _, _, _, _, _, asked⟩ := begun
      obtain ⟨number, rfl, _⟩ := asked number answered
      obtain ⟨text, wrote, carried⟩ := answer_carried fit.foreign running sends number
      rw [finish_answer found answered returned wrote] at done
      cases done
      intro block inside
      rw [List.mem_singleton.mp inside]
      exact ⟨_, carried.labelled fit.foreign⟩

/-! ## Places -/

/-- A call has the end of the next post. -/
theorem placed_invoke (placed : Placed platform http) {hosts : Hosts ι HttpEnd}
    {block : Outgoing HttpEnd} {id method : String} {args : List Json}
    (called : http.hosts.invoke routes.wiring ⟨http.next, false⟩ id method args =
      some (hosts, block)) :
    Placed platform (asking http hosts [http.next] block) := by
  have moves := moves_invoke called
  obtain ⟨_, rfl, rfl⟩ := Hosts.invoke_some called
  refine placed.asking (by simp) rfl (fun _ => ⟨_, rfl⟩) moves (fun call inside => ?_) ?_
  · rcases List.mem_append.mp inside with before | last
    · exact .inl before
    · rw [List.mem_singleton.mp last]
      exact .inr ⟨rfl, List.mem_singleton.mpr rfl⟩
  · refine List.pairwise_append.mpr ⟨placed.distinct, List.pairwise_singleton _ _, ?_⟩
    intro call before last inside same
    rw [List.mem_singleton.mp inside] at same
    have earlier := placed.calls _ (placed.asked call before).2
    rw [same] at earlier
    exact absurd earlier (Nat.lt_irrefl http.next)

/-- What a block posts goes to the other end. -/
theorem placed_post (fit : Fit platform nodes)
    (sound : Sound platform routes.wiring nodes (view http)) (placed : Placed platform http)
    {index : Nat} (stepped : (Http.machine platform routes).step http (.post index) = some next) :
    Placed platform next := by
  obtain ⟨block, found, rfl⟩ := Option.map_eq_some_iff.mp stepped
  have inside := List.mem_of_getElem? found
  obtain ⟨known, asks⟩ := placed.scheduled block inside
  refine { placed with
    scheduled := fun other left => placed.scheduled other (List.mem_of_mem_eraseIdx left)
    posts := fun post arrived => ?_ }
  rcases List.mem_append.mp arrived with before | last
  · exact placed.posts post before
  · obtain ⟨text, wrote, same⟩ := written_label fit.foreign sound.hosts
      (sound.scheduled block (List.mem_append_left _ inside))
    obtain ⟨_, written, rfl⟩ := Option.map_eq_some_iff.mp (Option.mem_toList.mp last)
    cases wrote.symm.trans written
    refine ⟨known.opposite routes, fun call => ?_⟩
    rw [same]
    exact asks call

/-- A post that arrives makes a job at the server's end, or is answered if it is not that of a
call. -/
theorem placed_process (fit : Fit platform nodes)
    (sound : Sound platform routes.wiring nodes (view http)) (placed : Placed platform http)
    {index : Nat}
    (stepped : (Http.machine platform routes).step http (.process index) = some next) :
    Placed platform next := by
  obtain ⟨⟨connection, msg⟩, found, rfl⟩ := Option.map_eq_some_iff.mp stepped
  have inside := List.mem_of_getElem? found
  obtain ⟨known, asks⟩ := placed.posts _ inside
  refine { placed with
    posts := fun post left => placed.posts post (List.mem_of_mem_eraseIdx left)
    working := placed.working.arrive known msg
    empties := fun other answered => ?_ }
  rcases List.mem_append.mp answered with before | last
  · exact placed.empties other before
  · split at last
    · rename_i empty
      rw [List.mem_singleton.mp last]
      refine ⟨known.2, fun call => ?_⟩
      obtain ⟨id, taken⟩ := asks call
      obtain ⟨packet, headers, carried, _⟩ := sound.inFlight _ (List.mem_append_left _ inside)
      have both := (carried.labelled fit.foreign).symm.trans taken
      have request : packet.kind = .request := (Prod.mk.inj (Option.some.inj both)).1
      rw [answersEmpty_request fit.foreign carried request, Bool.and_false] at empty
      cases empty
    · exact absurd last List.not_mem_nil

/-- An answer goes back to the client's end. -/
theorem placed_sendMsg (fit : Fit platform nodes)
    (sound : Sound platform routes.wiring nodes (view http)) (placed : Placed platform http)
    {index : Nat}
    (stepped : (Http.machine platform routes).step http (.sendMsg index) = some next) :
    Placed platform next := by
  obtain ⟨block, found, rfl⟩ := Option.map_eq_some_iff.mp stepped
  have inside := List.mem_of_getElem? found
  obtain ⟨known, responds⟩ := placed.texts block inside
  refine { placed with
    texts := fun other left => placed.texts other (List.mem_of_mem_eraseIdx left)
    responses := fun response arrived => ?_ }
  rcases List.mem_append.mp arrived with before | last
  · exact placed.responses response before
  · obtain ⟨text, wrote, same⟩ := written_label fit.foreign sound.hosts
      (sound.scheduled block (List.mem_append_right _ inside))
    obtain ⟨_, written, rfl⟩ := Option.map_eq_some_iff.mp (Option.mem_toList.mp last)
    cases wrote.symm.trans written
    refine ⟨known.opposite routes, ?_⟩
    rw [same]
    exact responds

/-- A response that arrives makes no job. -/
theorem placed_receive (fit : Fit platform nodes)
    (sound : Sound platform routes.wiring nodes (view http)) (placed : Placed platform http)
    {index : Nat}
    (stepped : (Http.machine platform routes).step http (.receive index) = some next) :
    Placed platform next := by
  obtain ⟨⟨connection, response⟩, found, rfl⟩ := Option.map_eq_some_iff.mp stepped
  have inside := List.mem_of_getElem? found
  obtain ⟨_, responds⟩ := placed.responses _ inside
  have left : ∀ other ∈ http.responses.eraseIdx index, Known http.next false other.1 ∧
      Responds (label platform other.2) :=
    fun other arrived => placed.responses other (List.mem_of_mem_eraseIdx arrived)
  obtain ⟨jobs, running, _⟩ := arrive_answer routes.wiring fit.foreign
    (sound.inFlight _ (List.mem_append_right _ inside)) responds http.hosts connection
  dsimp only
  split
  · exact { placed with responses := left }
  · split
    · rename_i call
      rw [Http.callback, if_pos call]
      exact { placed with
        responses := left
        working := ⟨jobs ▸ placed.working.jobs, running ▸ placed.working.running⟩ }
    · rename_i notified
      rw [Http.callback, if_neg notified]
      exact { placed with responses := left }

/-- A job is answered at the server's end. -/
theorem placed_finish (fit : Fit platform nodes)
    (sound : Sound platform routes.wiring nodes (view http)) (placed : Placed platform http)
    {index : Nat}
    (stepped : (Http.machine platform routes).step http (.finish index) = some next) :
    Placed platform next := by
  obtain ⟨⟨hosts, answer⟩, done, rfl⟩ := Option.map_eq_some_iff.mp stepped
  obtain ⟨working, answers⟩ := placed.working.finish done
  obtain ⟨_, _, _, asked, _⟩ := finish_counts fit sound.hosts done ⟨0, false⟩ ""
  have asked : hosts.asked = http.hosts.asked := asked
  refine { placed with
    asked := asked ▸ placed.asked
    distinct := asked ▸ placed.distinct
    working := working
    texts := fun block inside => ?_ }
  rcases List.mem_append.mp inside with before | last
  · exact placed.texts block before
  · exact ⟨answers block last, finish_responds fit sound.hosts done block last⟩

/-- Everything stays on its side. -/
theorem placed_step (fit : Fit platform nodes) (silent : Silent platform)
    (sound : Sound platform routes.wiring nodes (view http)) (placed : Placed platform http)
    {action : HttpAction ι}
    (stepped : (Http.machine platform routes).step http action = some next) :
    Placed platform next := by
  cases action with
  | invoke id method args =>
    obtain ⟨hosts, block, called, rfl⟩ := step_invoke stepped
    exact placed_invoke placed called
  | notify method args =>
    cases step_notify stepped
    exact placed.asking (by simp) rfl (by simp)
      ⟨fun _ inside => inside, fun _ inside => .inl inside⟩ (fun call inside => .inl inside)
      placed.distinct
  | post index => exact placed_post fit sound placed stepped
  | process index => exact placed_process fit sound placed stepped
  | sendMsg index => exact placed_sendMsg fit sound placed stepped
  | receive index => exact placed_receive fit sound placed stepped
  | receiveEmpty index =>
    obtain ⟨connection, found, rfl⟩ := Option.map_eq_some_iff.mp stepped
    have left : ∀ other ∈ http.empties.eraseIdx index, other.number < http.next ∧
        other.number ∉ http.calls :=
      fun other arrived => placed.empties other (List.mem_of_mem_eraseIdx arrived)
    dsimp only
    split
    · exact { placed with empties := left }
    · rw [callback_empty silent]
      exact { placed with empties := left }
  | fail connection =>
    simp only [Http.machine, Http.step, callback_empty silent] at stepped
    split at stepped
    · cases stepped
      exact { placed with }
    · cases stepped
  | lose index =>
    simp only [Http.machine, Http.step] at stepped
    split at stepped
    · cases stepped
    · split at stepped
      · cases stepped
        exact { placed with
          posts := fun post left => placed.posts post (List.mem_of_mem_eraseIdx left) }
      · cases stepped
  | finish index => exact placed_finish fit sound placed stepped
  | host action =>
    obtain ⟨hosts, moved, rfl⟩ := Option.map_eq_some_iff.mp stepped
    obtain ⟨_, asked, _, _⟩ := host_counts sound.hosts moved
    have asked : hosts.asked = http.hosts.asked := asked
    exact { placed with
      asked := asked ▸ placed.asked
      distinct := asked ▸ placed.distinct
      working := placed.working.moved (moves_host moved) }

omit [DecidableEq ι] in
/-- Nothing is anywhere before the first call. -/
theorem placed_initial (platform : Platform) (nodes : ι → Node) :
    Placed platform (Http.initial nodes) where
  calls _ inside := absurd inside List.not_mem_nil
  asked _ inside := absurd inside List.not_mem_nil
  distinct := .nil
  scheduled _ inside := absurd inside List.not_mem_nil
  posts _ inside := absurd inside List.not_mem_nil
  working := ⟨fun _ inside => absurd inside List.not_mem_nil,
    fun _ inside => absurd inside List.not_mem_nil⟩
  texts _ inside := absurd inside List.not_mem_nil
  responses _ inside := absurd inside List.not_mem_nil
  empties _ inside := absurd inside List.not_mem_nil

/-! ## Fates -/

omit [DecidableEq ι] in
/-- More may be recorded at the servers' ends. -/
theorem Fates.hosts (fates : Fates routes http) (hosts : Hosts ι HttpEnd)
    (kept : ∀ recorded ∈ http.hosts.recorded, recorded ∈ hosts.recorded)
    (new : ∀ recorded ∈ hosts.recorded, recorded ∈ http.hosts.recorded ∨
      recorded.on.server = true) :
    Fates routes { http with hosts := hosts } := by
  have ended : ∀ connection, Ended http connection →
      Ended { http with hosts := hosts } connection := by
    intro connection own call
    exact (own call).imp_right fun ⟨recorded, inside, on⟩ => ⟨recorded, kept recorded inside, on⟩
  refine { fates with
    finished := fun connection inside => (fates.finished connection inside).imp_right (ended _)
    recorded := fun recorded inside client => ?_
    dropped := fun text inside => ?_ }
  · rcases new recorded inside with before | server
    · exact fates.recorded recorded before client
    · rw [client] at server
      cases server
  · obtain ⟨earlier, post, response⟩ := fates.dropped text inside
    exact ⟨earlier, post, fun client => ended _ (response client)⟩

omit [DecidableEq ι] in
/-- A call is answered: its callback runs. -/
theorem Fates.answered (fates : Fates routes http) {connection : HttpEnd}
    (earlier : connection.number < http.next) (waits : connection ∉ http.finished)
    {hosts : Hosts ι HttpEnd} {response : Json × Reply}
    (recorded : hosts.recorded = http.hosts.recorded ++ [⟨response, connection⟩]) :
    Fates routes { http with
      hosts := hosts, finished := http.finished ++ [connection] } := by
  have ended : ∀ other, Ended http other → Ended { http with
      hosts := hosts, finished := http.finished ++ [connection] } other := by
    intro other own call
    refine (own call).imp_right fun ⟨before, inside, on⟩ => ⟨before, ?_, on⟩
    rw [recorded]
    exact List.mem_append_left _ inside
  refine ⟨fates.posted, fun other inside => ?_,
    fun other inside => List.mem_append_left _ (fates.failed other inside),
    fun other inside client => ?_, fun text inside => ?_⟩
  · rcases List.mem_append.mp inside with before | last
    · exact (fates.finished other before).imp_right (ended other)
    · rw [List.mem_singleton.mp last]
      refine ⟨earlier, fun _ => .inr ⟨⟨response, connection⟩, ?_, rfl⟩⟩
      rw [recorded]
      exact List.mem_append_right _ (List.mem_singleton.mpr rfl)
  · rw [recorded] at inside
    rcases List.mem_append.mp inside with before | last
    · exact (fates.recorded other before client).imp_left (List.mem_append_left _)
    · rw [List.mem_singleton.mp last]
      exact ⟨List.mem_append_right _ (List.mem_singleton.mpr rfl),
        fun failed => waits (fates.failed connection failed)⟩
  · obtain ⟨early, post, back⟩ := fates.dropped text inside
    exact ⟨early, post, fun client => ended _ (back client)⟩

omit [DecidableEq ι] in
/-- A post is over without an answer: it fails, or it is not that of a call. -/
theorem Fates.unanswered (fates : Fates routes http) {connection : HttpEnd}
    (earlier : connection.number < http.next) (waits : connection ∉ http.finished)
    (failures : List HttpEnd) (own : ∀ other ∈ failures, other = connection)
    (fails : connection.number ∈ http.calls → connection ∈ failures) :
    Fates routes { http with
      finished := http.finished ++ [connection], failed := http.failed ++ failures } := by
  have ended : ∀ other, Ended http other → Ended { http with
      finished := http.finished ++ [connection], failed := http.failed ++ failures } other :=
    fun other before call => (before call).imp_left (List.mem_append_left _)
  refine ⟨fates.posted, fun other inside => ?_, fun other inside => ?_,
    fun recorded inside client => ?_, fun text inside => ?_⟩
  · rcases List.mem_append.mp inside with before | last
    · exact (fates.finished other before).imp_right (ended other)
    · rw [List.mem_singleton.mp last]
      exact ⟨earlier, fun call => .inl (List.mem_append_right _ (fails call))⟩
  · rcases List.mem_append.mp inside with before | last
    · exact List.mem_append_left _ (fates.failed other before)
    · rw [own other last]
      exact List.mem_append_right _ (List.mem_singleton.mpr rfl)
  · obtain ⟨ended, succeeded⟩ := fates.recorded recorded inside client
    refine ⟨List.mem_append_left _ ended, fun failed => ?_⟩
    rcases List.mem_append.mp failed with before | last
    · exact succeeded before
    · rw [own _ last] at ended
      exact waits ended
  · obtain ⟨early, post, back⟩ := fates.dropped text inside
    exact ⟨early, fun server => List.mem_append_left _ (post server),
      fun client => ended _ (back client)⟩

omit [DecidableEq ι] in
/-- A post that has failed is lost. -/
theorem Fates.dropPost (fates : Fates routes http) {connection : HttpEnd}
    (known : Known http.next true connection)
    (failed : routes.wiring.opposite connection ∈ http.failed) (msg : String) :
    Fates routes { http with dropped := http.dropped ++ [(connection, msg)] } := by
  refine { fates with dropped := fun other inside => ?_ }
  rcases List.mem_append.mp inside with before | last
  · exact fates.dropped other before
  · rw [List.mem_singleton.mp last]
    exact ⟨known.2, fun _ => failed, fun client => Bool.noConfusion (known.1.symm.trans client)⟩

omit [DecidableEq ι] in
/-- A response to a post that is over is lost. -/
theorem Fates.dropResponse (fates : Fates routes http) {connection : HttpEnd}
    (known : Known http.next false connection) (ended : Ended http connection)
    (response : String) :
    Fates routes { http with dropped := http.dropped ++ [(connection, response)] } := by
  refine { fates with dropped := fun other inside => ?_ }
  rcases List.mem_append.mp inside with before | last
  · exact fates.dropped other before
  · rw [List.mem_singleton.mp last]
    exact ⟨known.2, fun server => Bool.noConfusion (known.1.symm.trans server), fun _ => ended⟩

/-- A post that arrives is recorded at the server's end only. -/
theorem fates_process (placed : Placed platform http) (fates : Fates routes http) {index : Nat}
    (stepped : (Http.machine platform routes).step http (.process index) = some next) :
    Fates routes next := by
  obtain ⟨⟨connection, msg⟩, found, rfl⟩ := Option.map_eq_some_iff.mp stepped
  obtain ⟨known, _⟩ := placed.posts _ (List.mem_of_getElem? found)
  have arrived := fates.hosts (http.hosts.arrive platform routes.wiring connection msg).1
    (fun _ inside => List.mem_append_left _ inside) fun recorded inside => by
      rcases List.mem_append.mp inside with before | new
      · exact .inl before
      · obtain ⟨_, _, rfl⟩ := List.mem_map.mp new
        exact .inr known.1
  exact { arrived with }

/-- A response ends the post of a call, or is lost. -/
theorem fates_receive (fit : Fit platform nodes)
    (sound : Sound platform routes.wiring nodes (view http)) (placed : Placed platform http)
    (fates : Fates routes http) {index : Nat}
    (stepped : (Http.machine platform routes).step http (.receive index) = some next) :
    Fates routes next := by
  obtain ⟨⟨connection, response⟩, found, rfl⟩ := Option.map_eq_some_iff.mp stepped
  have inside := List.mem_of_getElem? found
  obtain ⟨known, responds⟩ := placed.responses _ inside
  obtain ⟨_, _, _, answer, recorded⟩ := arrive_answer routes.wiring fit.foreign
    (sound.inFlight _ (List.mem_append_right _ inside)) responds http.hosts connection
  dsimp only
  split
  · rename_i ended
    exact { fates.dropResponse known (fates.finished connection ended).2 response with }
  · rename_i waits
    split
    · rename_i call
      rw [Http.callback, if_pos call]
      exact { fates.answered known.2 waits recorded with }
    · rename_i notified
      rw [Http.callback, if_neg notified]
      have finished := fates.unanswered known.2 waits [] (by simp) (absurd · notified)
      rw [List.append_nil] at finished
      exact { finished.dropResponse known (fun call => absurd call notified) response with }

/-- What has become of the posts stays so. -/
theorem fates_step (fit : Fit platform nodes) (silent : Silent platform)
    (sound : Sound platform routes.wiring nodes (view http)) (placed : Placed platform http)
    (fates : Fates routes http) {action : HttpAction ι}
    (stepped : (Http.machine platform routes).step http action = some next) :
    Fates routes next := by
  cases action with
  | invoke id method args =>
    obtain ⟨hosts, block, called, rfl⟩ := step_invoke stepped
    obtain ⟨_, rfl, rfl⟩ := Hosts.invoke_some called
    exact fates.asking _ (by simp) rfl
  | notify method args =>
    cases step_notify stepped
    exact fates.asking _ (by simp) rfl
  | post index =>
    obtain ⟨message, found, rfl⟩ := Option.map_eq_some_iff.mp stepped
    obtain ⟨known, _⟩ := placed.scheduled message (List.mem_of_getElem? found)
    refine { fates with posted := fun connection inside => ?_ }
    rcases List.mem_append.mp inside with before | last
    · exact fates.posted connection before
    · obtain ⟨_, _, rfl⟩ := Option.map_eq_some_iff.mp (Option.mem_toList.mp last)
      exact known
  | process index => exact fates_process placed fates stepped
  | sendMsg index =>
    obtain ⟨message, found, rfl⟩ := Option.map_eq_some_iff.mp stepped
    exact { fates with }
  | receive index => exact fates_receive fit sound placed fates stepped
  | receiveEmpty index =>
    obtain ⟨connection, found, rfl⟩ := Option.map_eq_some_iff.mp stepped
    obtain ⟨earlier, notified⟩ := placed.empties connection (List.mem_of_getElem? found)
    dsimp only
    split
    · exact { fates with }
    · rename_i waits
      have finished := fates.unanswered earlier waits [] (by simp) (absurd · notified)
      rw [List.append_nil] at finished
      rw [callback_empty silent]
      exact { finished with }
  | fail connection =>
    simp only [Http.machine, Http.step, callback_empty silent] at stepped
    split at stepped
    · rename_i pending
      cases stepped
      exact fates.unanswered (fates.posted connection pending.1).2 pending.2 [connection]
        (by simp) fun _ => List.mem_singleton.mpr rfl
    · cases stepped
  | lose index =>
    simp only [Http.machine, Http.step] at stepped
    split at stepped
    · cases stepped
    · rename_i connection msg found
      obtain ⟨known, _⟩ := placed.posts _ (List.mem_of_getElem? found)
      split at stepped
      · rename_i failed
        cases stepped
        exact { fates.dropPost known failed msg with }
      · cases stepped
  | finish index =>
    obtain ⟨⟨hosts, answer⟩, done, rfl⟩ := Option.map_eq_some_iff.mp stepped
    obtain ⟨_, _, _, _, recorded⟩ := finish_counts fit sound.hosts done ⟨0, false⟩ ""
    have recorded : hosts.recorded = http.hosts.recorded := recorded
    exact { fates.hosts hosts (recorded ▸ fun _ inside => inside)
      (recorded ▸ fun _ inside => .inl inside) with }
  | host action =>
    obtain ⟨hosts, moved, rfl⟩ := Option.map_eq_some_iff.mp stepped
    obtain ⟨_, _, _, recorded⟩ := host_counts sound.hosts moved
    have recorded : hosts.recorded = http.hosts.recorded := recorded
    exact fates.hosts hosts (recorded ▸ fun _ inside => inside)
      (recorded ▸ fun _ inside => .inl inside)

omit [DecidableEq ι] in
/-- Nothing has become of any post before the first. -/
theorem fates_initial (routes : Routes ι) (nodes : ι → Node) :
    Fates routes (Http.initial nodes) where
  posted _ inside := absurd inside List.not_mem_nil
  finished _ inside := absurd inside List.not_mem_nil
  failed _ inside := absurd inside List.not_mem_nil
  recorded _ inside := absurd inside List.not_mem_nil
  dropped _ inside := absurd inside List.not_mem_nil

/-- After every run everything is on its side, and what has become of the posts is known. -/
theorem fates_run (fit : Fit platform nodes) (silent : Silent platform)
    {actions : List (HttpAction ι)} {final : Http ι}
    (plain : ∀ act ∈ actions, PlainArgs platform.json.createId act)
    (ran : (Http.machine platform routes).run (Http.initial nodes) actions = some final) :
    Placed platform final ∧ Fates routes final :=
  (carrier silent routes nodes).invariant fit
    (fun http => Placed platform http ∧ Fates routes http)
    ⟨placed_initial platform nodes, fates_initial routes nodes⟩
    (fun _ _ _ sound _ holds stepped =>
      ⟨placed_step fit silent sound holds.1 stepped,
        fates_step fit silent sound holds.1 holds.2 stepped⟩) plain ran

end Posts

end Rjr.Verif.HttpPosts
