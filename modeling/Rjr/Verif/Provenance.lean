import Rjr.Lib.Taking
import Rjr.Verif.Packets
import Rjr.Verif.Waits

/-!
# Where the messages of an exchange come from

Every text on its way, every job and every recorded response can be traced back to a call of
`invoke` and to the dispatch that answered it. The threads of all nodes interleave freely, and
what they share is written by all of them: a request is written with whatever headers its node has
when the reactor gets to it, and an answer with those the node has by then. None of this changes
what a message is about.
-/

namespace Rjr.Verif.Provenance

open Messages Node Nodes Codec Packets

variable {ι ε : Type}

/-- What has been asked and answered so far. -/
structure History (ε : Type) where
  /-- Calls of `invoke`. -/
  asked : List (Asked ε)
  /-- Requests that were answered. -/
  served : List (Served ε)

namespace History

/-- A history goes on from another. -/
structure Extends (later earlier : History ε) : Prop where
  /-- What was asked stays asked. -/
  asked : ∀ call ∈ earlier.asked, call ∈ later.asked
  /-- What was answered stays answered. -/
  served : ∀ call ∈ earlier.served, call ∈ later.served

/-- A history goes on from itself. -/
theorem extends_refl (history : History ε) : history.Extends history :=
  ⟨fun _ inside => inside, fun _ inside => inside⟩

end History

/-- The history of nodes. -/
def historyOf (hosts : Hosts ι ε) : History ε := ⟨hosts.asked, hosts.served⟩

/-- The owner of an end has sent a packet on it: it has asked it, or answered with it. -/
def SentOn (history : History ε) (connection : ε) : Packet → Prop
  | .request id method args => ⟨id, method, args, connection⟩ ∈ history.asked
  | .notification .. => True
  | .response id result => ∃ served ∈ history.served,
      served.id = .str id ∧ served.result = result ∧ served.on = connection

/-- What was sent stays sent. -/
theorem SentOn.mono {later earlier : History ε} (extended : later.Extends earlier)
    {connection : ε} {packet : Packet} (sent : SentOn earlier connection packet) :
    SentOn later connection packet := by
  cases packet with
  | request id method args => exact extended.asked _ sent
  | notification method args => trivial
  | response id result =>
    obtain ⟨served, inside, rest⟩ := sent
    exact ⟨served, extended.served served inside, rest⟩

/-- What the text of a block will be taken for. -/
def blockLabel (platform : Platform) : Outgoing ε → Option (Kind × Json)
  | .request message _ => some (.request, message.msgId)
  | .notification _ _ => some (.notification, .null)
  | .text data _ => label platform data

section Places

variable (platform : Platform) (wiring : Wiring ι ε) (nodes : ι → Node) (history : History ε)

/-- What the results need of the nodes: they are new, their headers can be sent, and so can
whatever their handlers return and leave in the headers. -/
structure Fit : Prop where
  /-- `create_id` is not a standard name. -/
  foreign : Foreign platform.json.createId
  /-- The configured headers can be sent. -/
  headers : ∀ node, Free platform.json.createId (nodes node).headers
  /-- So can what the handlers return and leave there. -/
  handlers : ∀ node, Serves platform.json.createId (nodes node).dispatcher.handlers
  /-- Nothing has been recorded. -/
  fresh : ∀ node, (nodes node).correlation.responses = []

/-- A node during an exchange: its handlers are those it began with. -/
structure NodeSound (began node : Node) : Prop where
  /-- Its headers can be sent. -/
  headers : Free platform.json.createId node.headers
  /-- It has the same handlers. -/
  handlers : node.dispatcher.handlers = began.dispatcher.handlers
  /-- It has the same environments. -/
  environments : node.dispatcher.environments = began.dispatcher.environments
  /-- It has the same hash of headers. -/
  reference : node.messageHeaders = began.messageHeaders

/-- A text that was sent on an end. -/
def TextSound (connection : ε) (text : String) : Prop :=
  ∃ packet headers, Carried platform text packet headers ∧ SentOn history connection packet

/-- Something that waits to be sent. -/
def BlockSound : Outgoing ε → Prop
  | .request message connection => ∃ id method args,
      message = ⟨.str method, .arr args, .str id,
        (nodes (wiring.owner connection)).messageHeaders⟩ ∧
      (Json.arr args).plain platform.json.createId = true ∧
      ⟨id, method, args, connection⟩ ∈ history.asked
  | .notification message connection => ∃ method args,
      message = ⟨.str method, .arr args, (nodes (wiring.owner connection)).messageHeaders⟩ ∧
      (Json.arr args).plain platform.json.createId = true
  | .text data connection => TextSound platform history connection data

/-- A job: the packet it was made of was sent on the other end. -/
def JobSound (queued : Queued ε) : Prop :=
  ∃ packet text headers, Carried platform text packet headers ∧ packet.kind ≠ .response ∧
    queued.job = ⟨⟨text, .hash (packet.members headers)⟩, decide (packet.kind = .notification),
      wiring.channel queued.on⟩ ∧
    SentOn history (wiring.opposite queued.on) packet

/-- A job that was begun: if it is to be answered, it was asked on the other end. -/
def RunningSound (running : Running ε) : Prop :=
  ∃ method args, running.args.rjrMethod = .str method ∧ running.args.rjrMethodArgs = .arr args ∧
    (Json.arr args).plain platform.json.createId = true ∧
    running.headers = (nodes (wiring.owner running.on)).messageHeaders ∧
    ∀ given, running.msgId = some given → ∃ id, given = .str id ∧
      ⟨id, method, args, wiring.opposite running.on⟩ ∈ history.asked

/-- An answer to a call: it has the id and the arguments of the call, and the result is what the
handlers of the node it came to make of them. -/
structure Answers (call : Asked ε) (served : Served ε) : Prop where
  /-- It came in on the other end. -/
  on : served.on = wiring.opposite call.on
  /-- The id is that of the call. -/
  id : served.id = .str call.id
  /-- The method is that of the call. -/
  method : served.args.rjrMethod = .str call.method
  /-- The arguments are those of the call. -/
  args : served.args.rjrMethodArgs = .arr call.args
  /-- The result is that of the node's own handlers. -/
  result : ∃ performed, (nodes (wiring.owner served.on)).dispatcher.dispatch platform.runtime
    served.args = .ok performed ∧ performed.result = served.result

/-- A response that was recorded is an answer. -/
def RecordedSound (recorded : Recorded ε) : Prop :=
  ∃ id result, recorded.response = (.str id, replyOf result) ∧
    SentOn history (wiring.opposite recorded.on) (.response id result)

end Places

section Invariant

variable (platform : Platform) (wiring : Wiring ι ε) (nodes : ι → Node)

/-- An entry of `@responses` of a node was recorded there. -/
def RecordedAt (hosts : Hosts ι ε) (node : ι) (response : Json × Reply) : Prop :=
  ∃ recorded ∈ hosts.recorded, recorded.response = response ∧ wiring.owner recorded.on = node

/-- Everything the nodes hold can be traced back. -/
structure HostsSound (hosts : Hosts ι ε) : Prop where
  /-- The nodes are what they were, apart from headers, tables and logs. -/
  kept : ∀ node, NodeSound platform (nodes node) (hosts.nodes node)
  /-- So can every job. -/
  jobs : ∀ queued ∈ hosts.jobs, JobSound platform wiring (historyOf hosts) queued
  /-- So can every job that was begun. -/
  running : ∀ running ∈ hosts.running, RunningSound platform wiring nodes (historyOf hosts) running
  /-- Every request that was answered was asked. -/
  served : ∀ served ∈ hosts.served, ∃ call ∈ hosts.asked,
    Answers platform wiring nodes call served
  /-- Every response that was recorded was sent. -/
  recorded : ∀ recorded ∈ hosts.recorded, RecordedSound wiring (historyOf hosts) recorded
  /-- Every entry of `@responses` was recorded. -/
  responses : ∀ node, ∀ response ∈ (hosts.nodes node).correlation.responses,
    RecordedAt wiring hosts node response
  /-- So was every entry a client returned, and it has the client's id. -/
  returned : ∀ node id response, hosts.phase node id = .returned response →
    response.1 = .str id ∧ RecordedAt wiring hosts node response
  /-- A call that was asked is not idle. -/
  begun : ∀ call ∈ hosts.asked, hosts.phase (wiring.owner call.on) call.id ≠ .idle
  /-- A node has asked one call under an id. -/
  unique : hosts.asked.Pairwise fun first second =>
    ¬ (wiring.owner first.on = wiring.owner second.on ∧ first.id = second.id)

end Invariant

/-! ## Longer histories -/

section Mono

variable {platform : Platform} {wiring : Wiring ι ε} {nodes : ι → Node}
  {later earlier : History ε} (extended : later.Extends earlier)

include extended

/-- Texts stay sound. -/
theorem TextSound.mono {connection : ε} {text : String}
    (sound : TextSound platform earlier connection text) :
    TextSound platform later connection text := by
  obtain ⟨packet, headers, carried, sent⟩ := sound
  exact ⟨packet, headers, carried, sent.mono extended⟩

/-- Blocks stay sound. -/
theorem BlockSound.mono {block : Outgoing ε}
    (sound : BlockSound platform wiring nodes earlier block) :
    BlockSound platform wiring nodes later block := by
  cases block with
  | request message connection =>
    obtain ⟨id, method, args, same, plain, asked⟩ := sound
    exact ⟨id, method, args, same, plain, extended.asked _ asked⟩
  | notification message connection => exact sound
  | text data connection => exact TextSound.mono extended sound

/-- Jobs stay sound. -/
theorem JobSound.mono {queued : Queued ε} (sound : JobSound platform wiring earlier queued) :
    JobSound platform wiring later queued := by
  obtain ⟨packet, text, headers, carried, kind, same, sent⟩ := sound
  exact ⟨packet, text, headers, carried, kind, same, sent.mono extended⟩

/-- Jobs that were begun stay sound. -/
theorem RunningSound.mono {running : Running ε}
    (sound : RunningSound platform wiring nodes earlier running) :
    RunningSound platform wiring nodes later running := by
  obtain ⟨method, args, named, given, plain, headers, asked⟩ := sound
  refine ⟨method, args, named, given, plain, headers, ?_⟩
  intro id answered
  obtain ⟨text, same, inside⟩ := asked id answered
  exact ⟨text, same, extended.asked _ inside⟩

/-- Recorded responses stay sound. -/
theorem RecordedSound.mono {recorded : Recorded ε} (sound : RecordedSound wiring earlier recorded) :
    RecordedSound wiring later recorded := by
  obtain ⟨id, result, same, sent⟩ := sound
  exact ⟨id, result, same, sent.mono extended⟩

end Mono

/-! ## What the steps of the nodes do -/

section Steps

variable [DecidableEq ι] {platform : Platform} {wiring : Wiring ι ε} {nodes : ι → Node}
  {hosts : Hosts ι ε}

/-- A call of `invoke` is asked, and its request waits to be sent. -/
theorem sound_invoke (sound : HostsSound platform wiring nodes hosts) {connection : ε}
    {id method : String} {args : List Json} {next : Hosts ι ε} {block : Outgoing ε}
    (plain : (Json.arr args).plain platform.json.createId = true)
    (called : hosts.invoke wiring connection id method args = some (next, block)) :
    HostsSound platform wiring nodes next ∧
      BlockSound platform wiring nodes (historyOf next) block ∧
      (historyOf next).Extends (historyOf hosts) := by
  obtain ⟨idle, rfl, rfl⟩ := Hosts.invoke_some called
  have extended : (⟨hosts.asked ++ [⟨id, method, args, connection⟩], hosts.served⟩ :
      History ε).Extends (historyOf hosts) :=
    ⟨fun _ inside => List.mem_append_left _ inside, fun _ inside => inside⟩
  have reference := (sound.kept (wiring.owner connection)).reference
  refine ⟨⟨sound.kept, ?_, ?_, ?_, ?_, sound.responses, ?_, ?_, ?_⟩, ?_, extended⟩
  · exact fun queued inside => (sound.jobs queued inside).mono extended
  · exact fun running inside => (sound.running running inside).mono extended
  · intro served inside
    obtain ⟨call, asked, answers⟩ := sound.served served inside
    exact ⟨call, List.mem_append_left _ asked, answers⟩
  · exact fun recorded inside => (sound.recorded recorded inside).mono extended
  · intro node text response returned
    change (hosts.setPhase _ _ _).phase node text = _ at returned
    rw [Hosts.phase_setPhase] at returned
    split at returned
    · cases returned
    · exact sound.returned node text response returned
  · intro call inside
    change (hosts.setPhase _ _ _).phase _ _ ≠ _
    rw [Hosts.phase_setPhase]
    split
    · nofun
    · rename_i other
      rcases List.mem_append.mp inside with before | new
      · exact sound.begun call before
      · cases List.mem_singleton.mp new
        exact absurd ⟨rfl, rfl⟩ other
  · refine List.pairwise_append.mpr ⟨sound.unique, List.pairwise_singleton _ _, ?_⟩
    intro call before other new
    cases List.mem_singleton.mp new
    rintro ⟨owner, same⟩
    have begun := sound.begun call before
    rw [owner, same] at begun
    exact begun idle
  · refine ⟨id, method, args, ?_, plain, List.mem_append_right _ (List.mem_singleton.mpr rfl)⟩
    rw [← reference]

omit [DecidableEq ι] in
/-- A notification waits to be sent. -/
theorem sound_notify (sound : HostsSound platform wiring nodes hosts) (connection : ε)
    (method : String) {args : List Json}
    (plain : (Json.arr args).plain platform.json.createId = true) :
    BlockSound platform wiring nodes (historyOf hosts)
      (hosts.notify wiring connection method args) := by
  refine ⟨method, args, ?_, plain⟩
  rw [← (sound.kept (wiring.owner connection)).reference]
  rfl

omit [DecidableEq ι] in
/-- So does a callback's notification, which is written already. -/
theorem sound_callback (sound : HostsSound platform wiring nodes hosts) {connection : ε}
    {method : String} {data : List Json} {block : Outgoing ε}
    (plain : (Json.arr data).plain platform.json.createId = true)
    (called : hosts.callback platform wiring connection method data = some block) :
    BlockSound platform wiring nodes (historyOf hosts) block := by
  obtain ⟨text, written, rfl⟩ := Hosts.callback_some called
  exact ⟨.notification method data, (hosts.nodes (wiring.owner connection)).headers,
    ⟨(sound.kept (wiring.owner connection)).headers, plain, written⟩, trivial⟩

omit [DecidableEq ι] in
/-- Whatever is sent has a text, which carries a packet that was sent on its end, with the headers
of its node. -/
theorem written (foreign : Foreign platform.json.createId)
    (sound : HostsSound platform wiring nodes hosts) {block : Outgoing ε}
    (sendable : BlockSound platform wiring nodes (historyOf hosts) block) :
    ∃ text packet headers, hosts.write platform wiring block = some text ∧
      Carried platform text packet headers ∧
      SentOn (historyOf hosts) block.connection packet ∧
      blockLabel platform block = some (packet.kind, packet.id) := by
  cases block with
  | request message connection =>
    obtain ⟨id, method, args, rfl, plain, asked⟩ := sendable
    have node := sound.kept (wiring.owner connection)
    obtain ⟨text, generated, carried⟩ := carried_of_plain foreign
      (.request id method args) node.headers plain
    refine ⟨text, _, _, ?_, carried, asked, rfl⟩
    rw [← node.reference]
    exact congrArg Except.toOption generated
  | notification message connection =>
    obtain ⟨method, args, rfl, plain⟩ := sendable
    have node := sound.kept (wiring.owner connection)
    obtain ⟨text, generated, carried⟩ := carried_of_plain foreign
      (.notification method args) node.headers plain
    refine ⟨text, _, _, ?_, carried, trivial, rfl⟩
    rw [← node.reference]
    exact congrArg Except.toOption generated
  | text data connection =>
    obtain ⟨packet, headers, carried, sent⟩ := sendable
    exact ⟨data, packet, headers, rfl, carried, sent, carried.labelled foreign⟩

omit [DecidableEq ι] in
/-- The text of what is sent is taken for what it is. -/
theorem written_label (foreign : Foreign platform.json.createId)
    (sound : HostsSound platform wiring nodes hosts) {block : Outgoing ε}
    (sendable : BlockSound platform wiring nodes (historyOf hosts) block) :
    ∃ text, hosts.write platform wiring block = some text ∧
      label platform text = blockLabel platform block := by
  obtain ⟨text, packet, headers, wrote, carried, _, same⟩ := written foreign sound sendable
  exact ⟨text, wrote, (carried.labelled foreign).trans same.symm⟩

section Arrivals

variable {text : String} {headers : OrderedHash String Json} (connection : ε)
  (foreign : Foreign platform.json.createId)

/-- A node that is set to what it was has not changed. -/
theorem setNode_same (hosts : Hosts ι ε) (node : ι) :
    hosts.setNode node (hosts.nodes node) = hosts := by
  rw [Hosts.setNode, Function.update_eq_self]

/-- A node whose tables have not changed has recorded nothing. -/
theorem newResponses_same (node : Node) : Hosts.newResponses node node = [] :=
  List.drop_length

include foreign

/-- A request that arrives becomes a job. -/
theorem arrive_request (hosts : Hosts ι ε) {id method : String} {args : List Json}
    (carried : Carried platform text (.request id method args) headers) :
    hosts.arrive platform wiring connection text =
      ({ hosts with jobs := hosts.jobs ++
          [⟨⟨⟨text, .hash ((Packet.request id method args).members headers)⟩, false,
            wiring.channel connection⟩, connection⟩] }, true) := by
  simp only [Hosts.arrive, handleMessage_request foreign carried, setNode_same,
    newResponses_same, List.map_nil, List.append_nil, Option.map_some, Option.toList_some]

/-- So does a notification. -/
theorem arrive_notification (hosts : Hosts ι ε) {method : String} {args : List Json}
    (carried : Carried platform text (.notification method args) headers) :
    hosts.arrive platform wiring connection text =
      ({ hosts with jobs := hosts.jobs ++
          [⟨⟨⟨text, .hash ((Packet.notification method args).members headers)⟩, true,
            wiring.channel connection⟩, connection⟩] }, true) := by
  simp only [Hosts.arrive, handleMessage_notification foreign carried, setNode_same,
    newResponses_same, List.map_nil, List.append_nil, Option.map_some, Option.toList_some]

/-- The node after a response has been recorded. -/
def recordedNode (node : Node) (members : OrderedHash String Json) (response : Json × Reply) :
    Node :=
  { node.withHeaders Response.reserved members with
    correlation := node.correlation.record response }

/-- A response that arrives is recorded. -/
theorem arrive_response (hosts : Hosts ι ε) {id : String} {result : Result}
    (carried : Carried platform text (.response id result) headers) :
    hosts.arrive platform wiring connection text =
      ({ hosts.setNode (wiring.owner connection) (recordedNode
            (hosts.nodes (wiring.owner connection))
            ((Packet.response id result).members headers) (.str id, replyOf result)) with
          recorded := hosts.recorded ++ [⟨(.str id, replyOf result), connection⟩] }, true) := by
  have added : Hosts.newResponses (hosts.nodes (wiring.owner connection)) (recordedNode
      (hosts.nodes (wiring.owner connection)) ((Packet.response id result).members headers)
        (.str id, replyOf result)) = [(.str id, replyOf result)] := List.drop_left
  simp only [Hosts.arrive, handleMessage_response foreign carried]
  simp only [recordedNode] at added
  simp only [added, Option.map_none, Option.toList_none, List.append_nil, List.map_cons,
    List.map_nil]
  rfl

/-- A node that has recorded a response is still sound. -/
theorem nodeSound_recorded {began node : Node} {id : String} {result : Result}
    (carried : Carried platform text (.response id result) headers)
    (sound : NodeSound platform began node) (response : Json × Reply) :
    NodeSound platform began
      (recordedNode node ((Packet.response id result).members headers) response) :=
  ⟨carried.free_withHeaders foreign sound.headers, sound.handlers, sound.environments,
    sound.reference⟩

end Arrivals

/-- One node changes, and stays sound. -/
theorem kept_setNode (sound : HostsSound platform wiring nodes hosts) {node : ι} {changed : Node}
    (still : NodeSound platform (nodes node) changed) (other : ι) :
    NodeSound platform (nodes other) ((hosts.setNode node changed).nodes other) := by
  rw [Hosts.nodes_setNode]
  split
  · rename_i same
    rw [same]
    exact still
  · exact sound.kept other

/-- One node changes, with no new response. -/
theorem responses_setNode (sound : HostsSound platform wiring nodes hosts) {node : ι}
    {changed : Node} (fewer : ∀ response ∈ changed.correlation.responses,
      response ∈ (hosts.nodes node).correlation.responses) (other : ι) :
    ∀ response ∈ ((hosts.setNode node changed).nodes other).correlation.responses,
      RecordedAt wiring hosts other response := by
  intro response inside
  rw [Hosts.nodes_setNode] at inside
  split at inside
  · rename_i same
    rw [same]
    exact sound.responses node response (fewer response inside)
  · exact sound.responses other response inside

/-- A client thread that moves on does not become idle. -/
theorem begun_setPhase (sound : HostsSound platform wiring nodes hosts) {node : ι} {id : String}
    {phase : Phase Json Reply} (begun : phase ≠ .idle) (call : Asked ε)
    (asked : call ∈ hosts.asked) :
    (hosts.setPhase node id phase).phase (wiring.owner call.on) call.id ≠ .idle := by
  rw [Hosts.phase_setPhase]
  split
  · exact begun
  · exact sound.begun call asked

/-- A text that was sent on the other end is handled: it returns, and everything can still be
traced back. -/
theorem sound_arrive (foreign : Foreign platform.json.createId)
    (sound : HostsSound platform wiring nodes hosts) {connection : ε} {text : String}
    (sent : TextSound platform (historyOf hosts) (wiring.opposite connection) text) :
    HostsSound platform wiring nodes (hosts.arrive platform wiring connection text).1 ∧
      historyOf (hosts.arrive platform wiring connection text).1 = historyOf hosts ∧
      (hosts.arrive platform wiring connection text).2 = true := by
  obtain ⟨packet, headers, carried, origin⟩ := sent
  have queue : ∀ queued, JobSound platform wiring (historyOf hosts) queued →
      ∀ other ∈ hosts.jobs ++ [queued], JobSound platform wiring (historyOf hosts) other := by
    intro queued new other inside
    rcases List.mem_append.mp inside with before | last
    · exact sound.jobs other before
    · rw [List.mem_singleton.mp last]
      exact new
  cases packet with
  | request id method args =>
    rw [arrive_request connection foreign hosts carried]
    refine ⟨{ sound with jobs := queue _ ?_ }, rfl, rfl⟩
    exact ⟨_, text, headers, carried, nofun, rfl, origin⟩
  | notification method args =>
    rw [arrive_notification connection foreign hosts carried]
    refine ⟨{ sound with jobs := queue _ ?_ }, rfl, rfl⟩
    exact ⟨_, text, headers, carried, nofun, rfl, origin⟩
  | response id result =>
    rw [arrive_response connection foreign hosts carried]
    have still := nodeSound_recorded foreign carried (sound.kept (wiring.owner connection))
      (.str id, replyOf result)
    have remember : ∀ node response, RecordedAt wiring hosts node response →
        ∃ recorded ∈ hosts.recorded ++ [⟨(.str id, replyOf result), connection⟩],
          recorded.response = response ∧ wiring.owner recorded.on = node := by
      rintro node response ⟨recorded, inside, rest⟩
      exact ⟨recorded, List.mem_append_left _ inside, rest⟩
    refine ⟨{ sound with kept := ?_, recorded := ?_, responses := ?_, returned := ?_ }, rfl, rfl⟩
    · exact kept_setNode sound still
    · intro recorded inside
      rcases List.mem_append.mp inside with before | last
      · exact sound.recorded recorded before
      · rw [List.mem_singleton.mp last]
        exact ⟨id, result, rfl, origin⟩
    · intro node response inside
      change response ∈ ((hosts.setNode _ _).nodes node).correlation.responses at inside
      rw [Hosts.nodes_setNode] at inside
      split at inside
      · rename_i own
        subst own
        rcases List.mem_append.mp inside with before | last
        · exact remember _ response (sound.responses _ response before)
        · rw [List.mem_singleton.mp last]
          exact ⟨_, List.mem_append_right _ (List.mem_singleton.mpr rfl), rfl, rfl⟩
      · exact remember node response (sound.responses node response inside)
    · intro node text response returned
      obtain ⟨own, recorded⟩ := sound.returned node text response returned
      exact ⟨own, remember node response recorded⟩

/-- The job a worker takes is read: the node merges its headers, and the job is begun. -/
theorem begin_eq (sound : HostsSound platform wiring nodes hosts) {index : Nat}
    {queued : Queued ε} (found : hosts.jobs[index]? = some queued) :
    ∃ packet text headers, Carried platform text packet headers ∧ packet.kind ≠ .response ∧
      queued.job = ⟨⟨text, .hash (packet.members headers)⟩,
        decide (packet.kind = .notification), wiring.channel queued.on⟩ ∧
      SentOn (historyOf hosts) (wiring.opposite queued.on) packet ∧
      hosts.begin platform wiring index = some
        { ({ hosts with jobs := hosts.jobs.eraseIdx index } : Hosts ι ε).setNode
            (wiring.owner queued.on)
            ((hosts.nodes (wiring.owner queued.on)).withHeaders packet.reserved
              (packet.members headers)) with
          running := hosts.running ++ [⟨⟨
            ((hosts.nodes (wiring.owner queued.on)).withHeaders packet.reserved
              (packet.members headers)).argsFor (packet.members headers)
                (wiring.channel queued.on),
            if packet.kind = .notification then none
            else some (((packet.members headers).get? "id").getD .null),
            (hosts.nodes (wiring.owner queued.on)).messageHeaders⟩, queued.on⟩] } := by
  obtain ⟨packet, text, headers, carried, kind, same, sent⟩ :=
    sound.jobs queued (List.mem_of_getElem? found)
  refine ⟨packet, text, headers, carried, kind, same, sent, ?_⟩
  cases packet with
  | request id method args =>
    simp only [Hosts.begin, found, same, Packet.kind, reduceCtorEq, decide_false,
      beginRequest_request, ↓reduceIte, Packet.reserved]
  | notification method args =>
    simp only [Hosts.begin, found, same, Packet.kind, decide_true, beginRequest_notification,
      ↓reduceIte, Packet.reserved]
  | response id result => exact absurd rfl kind

/-- A job that is begun can be traced back. -/
theorem sound_begin (foreign : Foreign platform.json.createId)
    (sound : HostsSound platform wiring nodes hosts) {index : Nat} {next : Hosts ι ε}
    (stepped : hosts.begin platform wiring index = some next) :
    HostsSound platform wiring nodes next ∧ historyOf next = historyOf hosts := by
  cases found : hosts.jobs[index]? with
  | none => simp only [Hosts.begin, found, reduceCtorEq] at stepped
  | some queued =>
    obtain ⟨packet, text, headers, carried, kind, same, sent, taken⟩ := begin_eq sound found
    rw [taken] at stepped
    cases stepped
    have node := sound.kept (wiring.owner queued.on)
    have still : NodeSound platform (nodes (wiring.owner queued.on))
        ((hosts.nodes (wiring.owner queued.on)).withHeaders packet.reserved
          (packet.members headers)) :=
      ⟨carried.free_withHeaders foreign node.headers, node.handlers, node.environments,
        node.reference⟩
    refine ⟨{ sound with kept := ?_, jobs := ?_, running := ?_, responses := ?_ }, rfl⟩
    · exact kept_setNode sound still
    · exact fun other inside => sound.jobs other (List.mem_of_mem_eraseIdx inside)
    · intro running inside
      rcases List.mem_append.mp inside with before | last
      · exact sound.running running before
      · rw [List.mem_singleton.mp last]
        have method := carried.get? "method" (by simp [standardNames])
        have params := carried.get? "params" (by simp [standardNames])
        have id := carried.get? "id" (by simp [standardNames])
        simp only [RunningSound, argsFor, method, params, id]
        cases packet with
        | request text name args =>
          refine ⟨name, args, rfl, rfl, carried.plain, node.reference, ?_⟩
          intro given answered
          cases answered
          exact ⟨text, rfl, sent⟩
        | notification name args =>
          refine ⟨name, args, rfl, rfl, carried.plain, node.reference, ?_⟩
          intro given answered
          cases answered
        | response text result => exact absurd rfl kind
    · exact responses_setNode sound fun response inside => inside

/-- The answer to a request that was dispatched. -/
theorem finish_answer {index : Nat} {running : Running ε}
    (found : hosts.running[index]? = some running) {id : Json} (given : running.msgId = some id)
    {performed : Performed} {text : String}
    (returned : (hosts.nodes (wiring.owner running.on)).dispatcher.dispatch platform.runtime
      (running.current (hosts.nodes (wiring.owner running.on))) = .ok performed)
    (written : (Response.mk id performed.result running.headers).toS platform.json
      ((hosts.nodes (wiring.owner running.on)).afterDispatch running.headers performed).hashes =
        .ok text) :
    hosts.finish platform wiring index =
      let node := (hosts.nodes (wiring.owner running.on)).afterDispatch running.headers performed
      some ({ hosts.setNode (wiring.owner running.on) { node with
            sent := node.sent ++ [⟨text, wiring.channel running.on⟩] } with
          running := hosts.running.eraseIdx index
          served := hosts.served ++ [⟨id, running.current (hosts.nodes (wiring.owner running.on)),
            performed.result, running.on⟩] },
        some (.text text running.on)) := by
  simp only [Hosts.finish, found, endRequest, given, returned, answer, Response.new, openHeaders,
    written]
  simp only [Except.map, written]
  rfl

/-- A notification that was dispatched is not answered. -/
theorem finish_silent {index : Nat} {running : Running ε}
    (found : hosts.running[index]? = some running) (given : running.msgId = none)
    {performed : Performed}
    (returned : (hosts.nodes (wiring.owner running.on)).dispatcher.dispatch platform.runtime
      (running.current (hosts.nodes (wiring.owner running.on))) = .ok performed) :
    hosts.finish platform wiring index =
      some ({ hosts.setNode (wiring.owner running.on)
            ((hosts.nodes (wiring.owner running.on)).afterDispatch running.headers performed) with
          running := hosts.running.eraseIdx index }, none) := by
  simp only [Hosts.finish, found, endRequest, given, returned]
  rfl

omit [DecidableEq ι] in
/-- A node is still sound once a job that was begun has been dispatched. -/
theorem nodeSound_dispatched (sound : HostsSound platform wiring nodes hosts)
    {running : Running ε} (begun : RunningSound platform wiring nodes (historyOf hosts) running)
    {performed : Performed}
    (sends : Sends platform.json.createId (hosts.nodes (wiring.owner running.on)).dispatcher
      performed) :
    NodeSound platform (nodes (wiring.owner running.on))
      ((hosts.nodes (wiring.owner running.on)).afterDispatch running.headers performed) := by
  obtain ⟨method, args, named, given, plain, reference, asked⟩ := begun
  have node := sound.kept (wiring.owner running.on)
  refine ⟨?_, sends.handlers.trans node.handlers, sends.environments.trans node.environments,
    node.reference⟩
  have same : running.headers = (hosts.nodes (wiring.owner running.on)).messageHeaders :=
    reference.trans node.reference.symm
  change Free _ (Heap.read (Heap.write _ running.headers _) _)
  rw [same]
  exact (Heap.read_write_same _ _ _).symm ▸ sends.headers

omit [DecidableEq ι] in
/-- The answer to a request has a text, which carries its result under its id. -/
theorem answer_carried (foreign : Foreign platform.json.createId) {node : Node}
    (running : Running ε) {performed : Performed}
    (sends : Sends platform.json.createId node.dispatcher performed) (id : String) :
    ∃ text, (Response.mk (.str id) performed.result running.headers).toS platform.json
        (node.afterDispatch running.headers performed).hashes = .ok text ∧
      Carried platform text (.response id performed.result) performed.headers := by
  obtain ⟨text, generated, carried⟩ := carried_of_plain foreign
    (.response id performed.result) sends.headers sends.result
  refine ⟨text, ?_, carried⟩
  have left : (node.afterDispatch running.headers performed).hashes.read running.headers =
      performed.headers := Heap.read_write_same _ _ _
  simp only [Response.toS, Response.toJson, left]
  exact generated

omit [DecidableEq ι] in
/-- A job that was begun is dispatched, with a result and headers that can be sent. -/
theorem running_dispatched (fit : Fit platform nodes)
    (sound : HostsSound platform wiring nodes hosts) {running : Running ε}
    (begun : RunningSound platform wiring nodes (historyOf hosts) running) :
    ∃ performed, (hosts.nodes (wiring.owner running.on)).dispatcher.dispatch platform.runtime
        (running.current (hosts.nodes (wiring.owner running.on))) = .ok performed ∧
      Sends platform.json.createId (hosts.nodes (wiring.owner running.on)).dispatcher
        performed := by
  obtain ⟨method, args, named, given, plain, reference, _⟩ := begun
  have node := sound.kept (wiring.owner running.on)
  have serves := fit.handlers (wiring.owner running.on)
  rw [← node.handlers] at serves
  have free : Free platform.json.createId
      (running.current (hosts.nodes (wiring.owner running.on))).rjrHeaders := by
    have headers := node.headers
    rw [Node.headers, node.reference, ← reference] at headers
    exact headers
  exact dispatch_served platform.runtime serves (running.current _) named given plain free

/-- A job that is finished is answered with what its node's handlers made of it. -/
theorem sound_finish (fit : Fit platform nodes) (sound : HostsSound platform wiring nodes hosts)
    {index : Nat} {next : Hosts ι ε} {answer : Option (Outgoing ε)}
    (stepped : hosts.finish platform wiring index = some (next, answer)) :
    HostsSound platform wiring nodes next ∧
      (∀ block, answer = some block →
        BlockSound platform wiring nodes (historyOf next) block) ∧
      (historyOf next).Extends (historyOf hosts) := by
  cases found : hosts.running[index]? with
  | none => simp only [Hosts.finish, found, reduceCtorEq] at stepped
  | some running =>
    have begun := sound.running running (List.mem_of_getElem? found)
    obtain ⟨performed, returned, sends⟩ := running_dispatched fit sound begun
    have still := nodeSound_dispatched sound begun sends
    have left : ∀ other ∈ hosts.running.eraseIdx index,
        RunningSound platform wiring nodes (historyOf hosts) other :=
      fun other inside => sound.running other (List.mem_of_mem_eraseIdx inside)
    cases answered : running.msgId with
    | none =>
      rw [finish_silent found answered returned] at stepped
      cases stepped
      refine ⟨{ sound with kept := ?_, running := left, responses := ?_ }, nofun,
        History.extends_refl _⟩
      · exact kept_setNode sound still
      · exact responses_setNode sound fun response inside => inside
    | some number =>
      have traced := begun
      obtain ⟨method, args, named, given, plain, reference, asked⟩ := traced
      obtain ⟨id, rfl, call⟩ := asked number answered
      obtain ⟨text, written, carried⟩ := answer_carried fit.foreign running sends id
      rw [finish_answer found answered returned written] at stepped
      cases stepped
      have extended : (⟨hosts.asked, hosts.served ++ [⟨.str id,
          running.current (hosts.nodes (wiring.owner running.on)), performed.result,
          running.on⟩]⟩ : History ε).Extends (historyOf hosts) :=
        ⟨fun _ inside => inside, fun _ inside => List.mem_append_left _ inside⟩
      refine ⟨{ sound with
        kept := ?_, jobs := ?_, running := ?_, served := ?_, recorded := ?_, responses := ?_ },
        ?_, extended⟩
      · exact kept_setNode sound
          ⟨still.headers, still.handlers, still.environments, still.reference⟩
      · exact fun queued inside => (sound.jobs queued inside).mono extended
      · exact fun other inside => (left other inside).mono extended
      · intro served inside
        rcases List.mem_append.mp inside with before | last
        · exact sound.served served before
        · rw [List.mem_singleton.mp last]
          have node := sound.kept (wiring.owner running.on)
          refine ⟨_, call, (wiring.involutive running.on).symm, rfl, named, given, ?_⟩
          exact dispatch_congr node.handlers.symm node.environments.symm returned
      · exact fun recorded inside => (sound.recorded recorded inside).mono extended
      · exact responses_setNode sound fun response inside => inside
      · intro block same
        cases same
        exact ⟨.response id performed.result, _, carried, _,
          List.mem_append_right _ (List.mem_singleton.mpr rfl), rfl, rfl, rfl⟩

omit [DecidableEq ι] in
/-- A killed job leaves no trace but its own. -/
theorem sound_kill (sound : HostsSound platform wiring nodes hosts) {index : Nat}
    {next : Hosts ι ε} (stepped : hosts.kill index = some next) :
    HostsSound platform wiring nodes next ∧ historyOf next = historyOf hosts := by
  obtain ⟨running, found, rfl⟩ := Option.map_eq_some_iff.mp stepped
  refine ⟨{ sound with running := ?_ }, rfl⟩
  exact fun other inside => sound.running other (List.mem_of_mem_eraseIdx inside)

/-- A client that registers still waits for its own response. -/
theorem sound_register (sound : HostsSound platform wiring nodes hosts) {node : ι} {id : String}
    {next : Hosts ι ε} (stepped : hosts.register node id = some next) :
    HostsSound platform wiring nodes next ∧ historyOf next = historyOf hosts := by
  simp only [Hosts.register] at stepped
  split at stepped
  · cases stepped
    have own := sound.kept node
    refine ⟨{ sound with kept := ?_, responses := ?_, returned := ?_, begun := ?_ }, rfl⟩
    · exact kept_setNode sound ⟨own.headers, own.handlers, own.environments, own.reference⟩
    · exact responses_setNode sound fun response inside => inside
    · intro other text response returned
      change (hosts.setPhase _ _ _).phase other text = _ at returned
      rw [Hosts.phase_setPhase] at returned
      split at returned
      · cases returned
      · exact sound.returned other text response returned
    · exact begun_setPhase sound nofun
  · cases stepped

/-- An iteration of a wait only removes responses. -/
theorem mem_iterate_responses {tables : Rjr.Correlation Json Reply} {timeout : Option Nat}
    {now : Nat} {id : Json} {response : Json × Reply}
    (left : response ∈ (tables.iterate timeout now id).2.responses) :
    response ∈ tables.responses := by
  unfold Rjr.Correlation.iterate at left
  dsimp only at left
  split at left
  · split at left
    · exact (List.mem_filter.mp (List.mem_filter.mp left).1).1
    · exact (List.mem_filter.mp left).1
  · exact left

/-- A client returns an entry that was recorded at its node, under its own id. -/
theorem sound_poll (sound : HostsSound platform wiring nodes hosts) {node : ι} {id : String}
    {next : Hosts ι ε} (stepped : hosts.poll node id = some next) :
    HostsSound platform wiring nodes next ∧ historyOf next = historyOf hosts := by
  simp only [Hosts.poll] at stepped
  split at stepped
  · cases stepped
    have own := sound.kept node
    refine ⟨{ sound with kept := ?_, responses := ?_, returned := ?_, begun := ?_ }, rfl⟩
    · exact kept_setNode sound ⟨own.headers, own.handlers, own.environments, own.reference⟩
    · exact responses_setNode sound fun response inside => mem_iterate_responses inside
    · intro other text response returned
      change (hosts.setPhase _ _ _).phase other text = _ at returned
      rw [Hosts.phase_setPhase] at returned
      split at returned
      · rename_i same
        obtain ⟨rfl, rfl⟩ := same
        rcases Waits.iterate_cases (hosts.nodes other).timeout hosts.clock (.str text)
          (hosts.nodes other).correlation with ⟨_, ended, _⟩ | ⟨_, res, _, inside, same, ended⟩ |
            ⟨_, _, _, ended⟩
        · rw [ended] at returned
          cases returned
        · rw [ended] at returned
          cases returned
          exact ⟨same, sound.responses other _ inside⟩
        · rw [ended] at returned
          cases returned
      · exact sound.returned other text response returned
    · exact begun_setPhase sound (Correlation.begun_phaseAfter _).1
  · cases stepped

/-- Every step that sends nothing keeps everything traceable. -/
theorem sound_host (foreign : Foreign platform.json.createId)
    (sound : HostsSound platform wiring nodes hosts) {action : HostAction ι} {next : Hosts ι ε}
    (stepped : hosts.step platform wiring action = some next) :
    HostsSound platform wiring nodes next ∧ historyOf next = historyOf hosts := by
  cases action with
  | begin index => exact sound_begin foreign sound stepped
  | kill index => exact sound_kill sound stepped
  | register node id => exact sound_register sound stepped
  | poll node id => exact sound_poll sound stepped
  | tick =>
    cases stepped
    exact ⟨{ sound with }, rfl⟩

end Steps

end Rjr.Verif.Provenance
