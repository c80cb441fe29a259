import Rjr.Nodes.WebSockets
import Rjr.Verif.Carriers
import Rjr.Verif.JobEnds

/-!
# Calls over web sockets

What waits to be sent is in a block of `invoke` or `notify`, with the callback of a connection, or
in a block of `send_msg`, and what is on its way is a frame. So calls over web sockets agree with
their answers, and each is answered at most once, whatever handshakes fail and connections close.
Nothing is lost at all if nothing is sent on a connection before its handshake has completed, and
no connection fails or closes.
-/

namespace Rjr.Verif.WebSocketCalls

open Messages Node Nodes Provenance Agreement Carriers JobEnds

variable {ι ε : Type}

/-! ## The exchange that web sockets stand for -/

/-- Everything that waits to be sent. -/
def pending (sockets : WebSockets ι ε) : List (Outgoing ε) :=
  sockets.texts ++ (sockets.scheduled ++ sockets.waiting)

/-- The exchange. -/
def view (sockets : WebSockets ι ε) : Exchange ι ε :=
  ⟨sockets.hosts, pending sockets, sockets.frames, sockets.dropped⟩

/-- The arguments of calls can be sent. -/
def PlainArgs (createId : String) : WebSocketAction ι ε → Prop
  | .invoke _ _ _ args => (Json.arr args).plain createId = true
  | .notify _ _ args => (Json.arr args).plain createId = true
  | .callback _ _ data => (Json.arr data).plain createId = true
  | _ => True

section Places

variable (sockets : WebSockets ι ε)

/-- One more block for the reactor. -/
theorem pending_block (block : Outgoing ε) : (pending sockets ++ [block]).Perm
    (pending { sockets with scheduled := sockets.scheduled ++ [block] }) := by
  rw [pending, List.append_assoc]
  exact (List.perm_added_left _ _ _).append_left _

/-- More texts for `send_msg`. -/
theorem pending_texts (texts : List (Outgoing ε)) : (pending sockets ++ texts).Perm
    (pending { sockets with texts := sockets.texts ++ texts }) :=
  List.perm_added_left _ _ _

variable {sockets} {index : Nat} {message : Outgoing ε}

/-- A block that the reactor runs was waiting. -/
theorem scheduled_taken (found : sockets.scheduled[index]? = some message) :
    (pending sockets).Perm (message ::
      pending { sockets with scheduled := sockets.scheduled.eraseIdx index }) :=
  ((List.perm_taken_left found _).append_left _).trans List.perm_middle

/-- So was what the callback of a connection sends. -/
theorem waiting_taken (found : sockets.waiting[index]? = some message) :
    (pending sockets).Perm (message ::
      pending { sockets with waiting := sockets.waiting.eraseIdx index }) :=
  ((List.perm_taken_right _ found).append_left _).trans List.perm_middle

/-- So was a text for `send_msg`. -/
theorem texts_taken (found : sockets.texts[index]? = some message) :
    (pending sockets).Perm (message ::
      pending { sockets with texts := sockets.texts.eraseIdx index }) :=
  List.perm_taken_left found _

end Places

section Refinement

variable [DecidableEq ι] [DecidableEq ε] {platform : Platform} {wiring : Wiring ι ε}
  {sockets next : WebSockets ι ε}

/-- A block that calls `init_client` sends its message, leaves it to a callback, or loses it. -/
theorem carried_initClient {index : Nat} {message : Outgoing ε}
    (found : sockets.scheduled[index]? = some message) (connects : Bool) :
    (Exchange.machine platform wiring).Reaches (Plain platform.json.createId) (view sockets)
      (Reordered · (view ({ sockets with
        scheduled := sockets.scheduled.eraseIdx index }.initClient platform wiring message
          connects))) := by
  have waits := scheduled_taken found
  rw [WebSockets.initClient]
  split
  · exact sends _ waits
  · split
    · refine Machine.reaches_here ⟨rfl, waits.trans ?_, .refl _, .refl _⟩
      simp only [view, pending, ← List.append_assoc]
      exact (List.perm_append_singleton _ _).symm
    · exact loses waits

/-- Every step of web sockets is a run of the exchange they stand for. -/
theorem carried_step {action : WebSocketAction ι ε}
    (plain : PlainArgs platform.json.createId action)
    (stepped : (WebSockets.machine platform wiring).step sockets action = some next) :
    (Exchange.machine platform wiring).Reaches (Plain platform.json.createId) (view sockets)
      (Reordered · (view next)) := by
  cases action with
  | invoke connection id method args =>
    obtain ⟨⟨hosts, block⟩, called, rfl⟩ := Option.map_eq_some_iff.mp stepped
    exact Machine.reaches_step (Exchange.step_invoke called) plain
      ⟨rfl, pending_block sockets block, .refl _, .refl _⟩
  | notify connection method args =>
    cases stepped
    exact Machine.reaches_step (Exchange.step_notify (view sockets) connection method args) plain
      ⟨rfl, pending_block sockets _, .refl _, .refl _⟩
  | callback connection method data =>
    simp only [WebSockets.machine, WebSockets.step] at stepped
    obtain ⟨block, called, rfl⟩ := Option.map_eq_some_iff.mp stepped
    exact Machine.reaches_step (Exchange.step_callback called) plain
      ⟨rfl, pending_texts sockets [block], .refl _, .refl _⟩
  | run index connects =>
    obtain ⟨message, found, rfl⟩ := Option.map_eq_some_iff.mp stepped
    exact carried_initClient found connects
  | handshake index =>
    obtain ⟨message, found, rfl⟩ := Option.map_eq_some_iff.mp stepped
    exact sends _ (waiting_taken found)
  | failed index =>
    obtain ⟨message, found, rfl⟩ := Option.map_eq_some_iff.mp stepped
    exact loses (waiting_taken found)
  | sendMsg index sent =>
    obtain ⟨message, found, rfl⟩ := Option.map_eq_some_iff.mp stepped
    cases sent with
    | true => exact sends _ (texts_taken found)
    | false => exact loses (texts_taken found)
  | close connection =>
    simp only [WebSockets.machine, WebSockets.step] at stepped
    split at stepped
    · cases stepped
      exact Machine.reaches_here (reordered_refl _)
    · cases stepped
  | receive index =>
    simp only [WebSockets.machine, WebSockets.step] at stepped
    split at stepped
    · cases stepped
    · rename_i connection text found
      split at stepped
      · cases stepped
        exact receives _ (List.perm_taken found)
      · cases stepped
  | lose index =>
    simp only [WebSockets.machine, WebSockets.step] at stepped
    split at stepped
    · cases stepped
    · rename_i frame found
      split at stepped
      · cases stepped
      · cases stepped
        exact misses _ (List.perm_taken found)
  | finish index =>
    obtain ⟨⟨hosts, answer⟩, done, rfl⟩ := Option.map_eq_some_iff.mp stepped
    exact Machine.reaches_step (Exchange.step_finish done) trivial
      ⟨rfl, pending_texts sockets answer.toList, .refl _, .refl _⟩
  | host action =>
    obtain ⟨hosts, moved, rfl⟩ := Option.map_eq_some_iff.mp stepped
    exact Machine.reaches_step (Exchange.step_host moved) trivial (reordered_refl _)

variable (platform wiring) in
/-- Web sockets carry whole texts. -/
def carrier (nodes : ι → Node) : Carrier platform wiring nodes (WebSockets.machine platform wiring)
    (PlainArgs platform.json.createId) where
  initial := WebSockets.initial nodes
  view := view
  begins := rfl
  carries _ _ _ _ plain stepped := carried_step plain stepped

end Refinement

/-! ## Where nothing is lost -/

section Keeping

variable [DecidableEq ι] [DecidableEq ε] {platform : Platform} {wiring : Wiring ι ε}
  {sockets next : WebSockets ι ε}

/-- A step that sends only on open connections, with no connection that fails or closes. -/
def Prompt (sockets : WebSockets ι ε) (action : WebSocketAction ι ε) (_ : WebSockets ι ε) :
    Prop :=
  match action with
  | .callback connection _ _ => sockets.opened connection = true
  | .run index connects => connects = true ∧ ∀ message,
      sockets.scheduled[index]? = some message → message.connection ∈ sockets.connections →
        sockets.opened message.connection = true
  | .failed _ => False
  | .sendMsg _ sends => sends = true
  | .close _ => False
  | _ => True

/-- All that is on its way travels on open connections, and nothing was lost. -/
structure Sending (wiring : Wiring ι ε) (sockets : WebSockets ι ε) : Prop where
  /-- Both ends of a connection are open, or none. -/
  symmetric : ∀ connection, sockets.opened (wiring.opposite connection) =
    sockets.opened connection
  /-- A connection that is listed is open, or its callback still waits. -/
  listed : ∀ connection ∈ sockets.connections, sockets.opened connection = true ∨
    ∃ message ∈ sockets.waiting, message.connection = connection
  /-- Texts for `send_msg` are sent on open connections. -/
  texts : ∀ message ∈ sockets.texts, sockets.opened message.connection = true
  /-- Frames are on their way on open connections. -/
  frames : ∀ frame ∈ sockets.frames, sockets.opened frame.1 = true
  /-- Jobs came in on open connections. -/
  working : Working (sockets.opened · = true) sockets.hosts
  /-- Nothing was lost. -/
  kept : sockets.dropped = []

omit [DecidableEq ι] in
/-- A connection that opens, and those that were open. -/
theorem opened_setOpened (sockets : WebSockets ι ε) (connection other : ε) :
    (sockets.setOpened wiring connection true).opened other = true ↔
      other = connection ∨ other = wiring.opposite connection ∨ sockets.opened other = true := by
  by_cases opposite : other = wiring.opposite connection
  · simp [WebSockets.setOpened, opposite]
  · by_cases same : other = connection
    · subst same
      simp [WebSockets.setOpened, opposite]
    · simp [WebSockets.setOpened, opposite, same]

omit [DecidableEq ι] in
/-- Nothing is lost when a connection opens. -/
theorem Sending.opens (sending : Sending wiring sockets) (connection : ε) :
    Sending wiring (sockets.setOpened wiring connection true) := by
  have more : ∀ other, sockets.opened other = true →
      (sockets.setOpened wiring connection true).opened other = true :=
    fun other before => (opened_setOpened sockets connection other).mpr (.inr (.inr before))
  refine ⟨fun other => ?_, fun other inside => (sending.listed other inside).imp_left (more other),
    fun message inside => more _ (sending.texts message inside),
    fun frame inside => more _ (sending.frames frame inside), sending.working.mono more,
    sending.kept⟩
  rw [Bool.eq_iff_iff, opened_setOpened, opened_setOpened, opposite_inj, sending.symmetric]
  have flipped : wiring.opposite other = connection ↔ other = wiring.opposite connection :=
    ⟨fun same => by rw [← same, wiring.involutive], fun same => by rw [same, wiring.involutive]⟩
  rw [flipped, or_left_comm]

omit [DecidableEq ι] [DecidableEq ε] in
/-- A message is sent on an open connection. -/
theorem Sending.send (sending : Sending wiring sockets) {message : Outgoing ε}
    (opened : sockets.opened message.connection = true) :
    Sending wiring (sockets.send platform wiring message) := by
  refine { sending with frames := fun frame inside => ?_ }
  rcases List.mem_append.mp inside with before | last
  · exact sending.frames frame before
  · obtain ⟨text, _, rfl⟩ := Option.map_eq_some_iff.mp (Option.mem_toList.mp last)
    exact (sending.symmetric _).trans opened

omit [DecidableEq ι] [DecidableEq ε] in
/-- More texts are to be sent on open connections. -/
theorem Sending.more (sending : Sending wiring sockets) {hosts : Hosts ι ε}
    (working : Working (sockets.opened · = true) hosts) {texts : List (Outgoing ε)}
    (opened : ∀ message ∈ texts, sockets.opened message.connection = true) :
    Sending wiring { sockets with hosts := hosts, texts := sockets.texts ++ texts } := by
  refine { sending with texts := fun message inside => ?_, working := working }
  rcases List.mem_append.mp inside with before | new
  · exact sending.texts message before
  · exact opened message new

omit [DecidableEq ι] in
/-- A block that calls `init_client` on an open connection, or for a new one, loses nothing. -/
theorem Sending.initClient (sending : Sending wiring sockets) {message : Outgoing ε}
    (ready : message.connection ∈ sockets.connections →
      sockets.opened message.connection = true) :
    Sending wiring (sockets.initClient platform wiring message true) := by
  rw [WebSockets.initClient]
  split
  · rename_i listed
    exact sending.send (ready listed)
  · refine { sending with listed := fun connection inside => ?_ }
    rcases List.mem_append.mp inside with before | new
    · refine (sending.listed connection before).imp_right ?_
      rintro ⟨other, waits, same⟩
      exact ⟨other, List.mem_append_left _ waits, same⟩
    · rw [List.mem_singleton.mp new]
      exact .inr ⟨message, List.mem_append_right _ List.mem_cons_self, rfl⟩

omit [DecidableEq ι] in
/-- A handshake that completes opens its connection, and its callback sends. -/
theorem Sending.handshake (sending : Sending wiring sockets) {index : Nat} {message : Outgoing ε}
    (found : sockets.waiting[index]? = some message) :
    Sending wiring (({ sockets with waiting := sockets.waiting.eraseIdx index }.setOpened wiring
      message.connection true).send platform wiring message) := by
  have own : (sockets.setOpened wiring message.connection true).opened message.connection =
      true := (opened_setOpened _ _ _).mpr (.inl rfl)
  have opened := sending.opens message.connection
  suffices left : Sending wiring ({ sockets with
      waiting := sockets.waiting.eraseIdx index }.setOpened wiring message.connection true) from
    left.send own
  refine { opened with listed := fun connection inside => ?_ }
  rcases opened.listed connection inside with already | ⟨other, waits, rfl⟩
  · exact .inl already
  · rcases List.mem_cons.mp ((List.perm_taken found).mem_iff.mp waits) with rfl | later
    · exact .inl own
    · exact .inr ⟨other, later, rfl⟩

/-- No prompt step loses anything. -/
theorem sending_step {action : WebSocketAction ι ε} (sending : Sending wiring sockets)
    (stepped : (WebSockets.machine platform wiring).step sockets action = some next)
    (prompt : Prompt sockets action next) : Sending wiring next := by
  cases action with
  | invoke connection id method args =>
    obtain ⟨⟨hosts, block⟩, called, rfl⟩ := Option.map_eq_some_iff.mp stepped
    exact { sending with working := sending.working.moved (moves_invoke called) }
  | notify connection method args =>
    cases stepped
    exact { sending with }
  | callback connection method data =>
    simp only [WebSockets.machine, WebSockets.step] at stepped
    obtain ⟨block, called, rfl⟩ := Option.map_eq_some_iff.mp stepped
    refine sending.more sending.working fun message inside => ?_
    obtain ⟨text, _, rfl⟩ := Hosts.callback_some called
    rw [List.mem_singleton.mp inside]
    exact prompt
  | run index connects =>
    obtain ⟨message, found, rfl⟩ := Option.map_eq_some_iff.mp stepped
    obtain ⟨rfl, ready⟩ := prompt
    have left : Sending wiring
        { sockets with scheduled := sockets.scheduled.eraseIdx index } := { sending with }
    exact left.initClient (ready message found)
  | handshake index =>
    obtain ⟨message, found, rfl⟩ := Option.map_eq_some_iff.mp stepped
    exact sending.handshake found
  | failed index => exact prompt.elim
  | sendMsg index sent =>
    obtain ⟨message, found, rfl⟩ := Option.map_eq_some_iff.mp stepped
    have own : sent = true := prompt
    subst own
    have left : Sending wiring { sockets with texts := sockets.texts.eraseIdx index } :=
      { sending with
        texts := fun other inside => sending.texts other (List.mem_of_mem_eraseIdx inside) }
    exact left.send (sending.texts message (List.mem_of_getElem? found))
  | close connection => exact prompt.elim
  | receive index =>
    simp only [WebSockets.machine, WebSockets.step] at stepped
    split at stepped
    · cases stepped
    · rename_i connection text found
      split at stepped
      · rename_i ready
        cases stepped
        exact { sending with
          frames := fun frame inside => sending.frames frame (List.mem_of_mem_eraseIdx inside)
          working := sending.working.arrive ready.1 text }
      · cases stepped
  | lose index =>
    -- only what travels on a connection that is not open can be lost
    simp only [WebSockets.machine, WebSockets.step] at stepped
    split at stepped
    · cases stepped
    · rename_i frame found
      rw [sending.frames frame (List.mem_of_getElem? found)] at stepped
      cases stepped
  | finish index =>
    obtain ⟨⟨hosts, answer⟩, done, rfl⟩ := Option.map_eq_some_iff.mp stepped
    obtain ⟨working, answers⟩ := sending.working.finish done
    exact sending.more working answers
  | host action =>
    obtain ⟨hosts, moved, rfl⟩ := Option.map_eq_some_iff.mp stepped
    exact { sending with working := sending.working.moved (moves_host moved) }

omit [DecidableEq ι] [DecidableEq ε] in
/-- Nothing is lost before anything is sent. -/
theorem sending_initial (wiring : Wiring ι ε) (nodes : ι → Node) :
    Sending wiring (WebSockets.initial nodes) where
  symmetric _ := rfl
  listed _ inside := absurd inside List.not_mem_nil
  texts _ inside := absurd inside List.not_mem_nil
  frames _ inside := absurd inside List.not_mem_nil
  working := ⟨fun _ inside => absurd inside List.not_mem_nil,
    fun _ inside => absurd inside List.not_mem_nil⟩
  kept := rfl

end Keeping

/-! ## Calls -/

section Calls

variable [DecidableEq ι] [DecidableEq ε] {platform : Platform} {wiring : Wiring ι ε}
  {nodes : ι → Node}

/-- Calls over web sockets that return agree with their answers, and every call is dispatched and
its answer recorded at most once. This holds whatever is sent before a handshake has completed and
whatever connections fail or close. -/
theorem web_socket_calls_agree (fit : Fit platform nodes)
    (actions : List (WebSocketAction ι ε)) (final : WebSockets ι ε)
    (plain : ∀ act ∈ actions, PlainArgs platform.json.createId act)
    (ran : (WebSockets.machine platform wiring).run (WebSockets.initial nodes) actions =
      some final) :
    (∀ node id response, final.hosts.phase node id = .returned response →
      Agrees platform wiring nodes final.hosts node id response) ∧
    ∀ call, Once wiring final.hosts call (· ≤ 1) :=
  ⟨fun _ _ _ returned => (carrier platform wiring nodes).agrees fit plain ran returned,
    fun call => (carrier platform wiring nodes).once fit plain ran call⟩

end Calls

/-- Two calls before the handshake. The request of the second is sent at once and lost; the first
is answered. -/
def hastyCalls : List (WebSocketAction Bool Bool) :=
  [.invoke false "7" "echo" [.int 1], .invoke false "8" "echo" [.int 2], .run 0 true,
    .run 0 true, .lose 0, .handshake 0, .receive 0, .host (.begin 0), .finish 0,
    .sendMsg 0 true, .receive 0, .host (.register false "7"), .host (.poll false "7")]

/-- Their arguments can be sent. -/
theorem hastyCalls_plain :
    ∀ act ∈ hastyCalls, PlainArgs JsonText.platform.json.createId act := by
  intro act inside
  simp only [hastyCalls, List.mem_cons, List.not_mem_nil, or_false] at inside
  rcases inside with rfl | rfl | rfl | rfl | rfl | rfl | rfl | rfl | rfl | rfl | rfl | rfl |
    rfl <;> first | exact trivial | rfl

/-- They run; the first has returned, and something was lost. -/
theorem hastyCalls_run : ∃ final : WebSockets Bool Bool,
    (WebSockets.machine JsonText.platform pair).run (WebSockets.initial fun _ => echoNode)
        hastyCalls = some final ∧
      final.hosts.phase false "7" = .returned (.str "7", ⟨.arr [.int 1], none⟩) ∧
      final.dropped.length = 1 := by
  have evaluated : ((WebSockets.machine JsonText.platform pair).run
      (WebSockets.initial fun _ => echoNode) hastyCalls).map
        (fun final => (final.hosts.phase false "7", final.dropped.length)) =
          some (.returned (.str "7", ⟨.arr [.int 1], none⟩), 1) := by
    decide +kernel
  obtain ⟨final, ran, seen⟩ := Option.map_eq_some_iff.mp evaluated
  exact ⟨final, ran, (Prod.mk.inj seen).1, (Prod.mk.inj seen).2⟩

/-- The first agrees with its answer, and the second is answered at most once. -/
theorem hasty_calls_agree : ∃ final : WebSockets Bool Bool, final.dropped.length = 1 ∧
    Agrees JsonText.platform pair (fun _ => echoNode) final.hosts false "7"
      (.str "7", ⟨.arr [.int 1], none⟩) ∧
    Once pair final.hosts ⟨"8", "echo", [.int 2], false⟩ (· ≤ 1) := by
  obtain ⟨final, ran, returned, dropped⟩ := hastyCalls_run
  obtain ⟨agree, once⟩ := web_socket_calls_agree fit_echo hastyCalls final hastyCalls_plain ran
  exact ⟨final, dropped, agree false "7" _ returned, once _⟩

end Rjr.Verif.WebSocketCalls
