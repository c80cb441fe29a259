import Rjr.Verif.Settling
import Rjr.Verif.WebSocketCalls

/-!
# Calls over web sockets can be completed

As long as nothing is sent on a connection before its handshake has completed, and no connection
fails or closes, nothing is lost. All calls can then still be answered: first every handshake
completes, and then the steps that bring an exchange to its end can be taken over web sockets,
where a new connection is opened and completes its handshake at once.
-/

namespace Rjr.Verif.WebSocketProgress

open Messages Node Nodes Provenance Agreement Carriers Settling WebSocketCalls

variable {ι ε : Type}

/-- The steps of web sockets that bring work to its end: no call is made, and nothing fails, is
closed or killed. -/
inductive Handling : WebSocketAction ι ε → Prop
  /-- A block calls `init_client`. -/
  | run (index : Nat) : Handling (.run index true)
  /-- A handshake completes. -/
  | handshake (index : Nat) : Handling (.handshake index)
  /-- A text is sent. -/
  | sendMsg (index : Nat) : Handling (.sendMsg index true)
  /-- A frame arrives. -/
  | receive (index : Nat) : Handling (.receive index)
  /-- The oldest job is begun. -/
  | begin : Handling (.host (.begin 0))
  /-- The oldest job that was begun is finished. -/
  | finish : Handling (.finish 0)

/-- None of them calls anything. -/
theorem Handling.plain {createId : String} {action : WebSocketAction ι ε}
    (handling : Handling action) : PlainArgs createId action := by
  cases handling <;> exact trivial

section Realising

variable [DecidableEq ι] [DecidableEq ε] {platform : Platform} {wiring : Wiring ι ε}
  {sockets : WebSockets ι ε} {exchange : Exchange ι ε}

/-! ## Handshakes -/

/-- All handshakes can be completed. -/
theorem handshakes (platform : Platform) (sending : Sending wiring sockets) :
    (WebSockets.machine platform wiring).Reaches Handling sockets fun final =>
      (Sending wiring final ∧ final.hosts = sockets.hosts) ∧ final.waiting = [] := by
  refine Machine.reaches_of_descent _ _ (fun state => state.waiting.length) ?_ sockets
    ⟨sending, rfl⟩
  rintro state ⟨kept, same⟩
  cases waits : state.waiting with
  | nil => exact .inl rfl
  | cons message rest =>
    have found : state.waiting[0]? = some message := by rw [waits]; rfl
    have stepped : (WebSockets.machine platform wiring).step state (.handshake 0) =
        some (({ state with waiting := state.waiting.eraseIdx 0 }.setOpened wiring
          message.connection true).send platform wiring message) := by
      simp only [WebSockets.machine, WebSockets.step, found, Option.map_some]
    refine .inr ⟨.handshake 0, _, .handshake 0, stepped, ⟨kept.handshake found, same⟩, ?_⟩
    simp [WebSockets.send, WebSockets.setOpened, waits]

/-! ## Steps of the exchange -/

/-- Web sockets that stand for an exchange, with no handshake left to complete. -/
structure Open (wiring : Wiring ι ε) (exchange : Exchange ι ε) (sockets : WebSockets ι ε) :
    Prop where
  /-- The nodes are the same. -/
  hosts : exchange.hosts = sockets.hosts
  /-- The same waits to be sent. -/
  scheduled : exchange.scheduled.Perm (pending sockets)
  /-- The same is on its way, in this order. -/
  inFlight : exchange.inFlight = sockets.frames
  /-- Nothing was lost. -/
  sending : Sending wiring sockets
  /-- Every handshake has completed. -/
  established : sockets.waiting = []

variable (platform wiring) in
/-- The web sockets can take a step of the exchange. -/
def Realised (sockets : WebSockets ι ε) (after : Exchange ι ε) : Prop :=
  (WebSockets.machine platform wiring).Reaches Handling sockets (Open wiring after)

omit [DecidableEq ι] [DecidableEq ε] in
/-- What is left of what waits when its first block is sent. -/
theorem left_waits {block : Outgoing ε} (found : exchange.scheduled[0]? = some block)
    (scheduled : exchange.scheduled.Perm (pending sockets)) {others : List (Outgoing ε)}
    (taken : (pending sockets).Perm (block :: others)) :
    (exchange.scheduled.eraseIdx 0).Perm others := by
  have both := (List.perm_taken found).symm.trans (scheduled.trans taken)
  exact List.Perm.cons_inv both

/-- A text for `send_msg` is sent. -/
theorem realised_text (realises : Open wiring exchange sockets) {block : Outgoing ε}
    (found : exchange.scheduled[0]? = some block) (inside : block ∈ sockets.texts) :
    Realised platform wiring sockets { exchange with
      scheduled := exchange.scheduled.eraseIdx 0
      inFlight := exchange.inFlight ++ ((exchange.hosts.write platform wiring block).map
        fun text => (wiring.opposite block.connection, text)).toList } := by
  obtain ⟨index, here⟩ := List.mem_iff_getElem?.mp inside
  have stepped : (WebSockets.machine platform wiring).step sockets (.sendMsg index true) =
      some ({ sockets with texts := sockets.texts.eraseIdx index }.send platform wiring block) := by
    simp only [WebSockets.machine, WebSockets.step, here, Option.map_some, ↓reduceIte]
  refine Machine.reaches_step stepped (.sendMsg index) ⟨realises.hosts,
    left_waits found realises.scheduled (texts_taken here), ?_,
    sending_step realises.sending stepped rfl, realises.established⟩
  rw [realises.hosts, realises.inFlight]
  rfl

/-- A block for the reactor is run, on a connection that is open or on a new one. -/
theorem realised_block (realises : Open wiring exchange sockets) {block : Outgoing ε}
    (found : exchange.scheduled[0]? = some block) (inside : block ∈ sockets.scheduled) :
    Realised platform wiring sockets { exchange with
      scheduled := exchange.scheduled.eraseIdx 0
      inFlight := exchange.inFlight ++ ((exchange.hosts.write platform wiring block).map
        fun text => (wiring.opposite block.connection, text)).toList } := by
  obtain ⟨index, here⟩ := List.mem_iff_getElem?.mp inside
  have left := left_waits found realises.scheduled (scheduled_taken here)
  have opened : ∀ connection ∈ sockets.connections, sockets.opened connection = true := by
    intro connection listed
    rcases realises.sending.listed connection listed with already | ⟨message, waits, _⟩
    · exact already
    · rw [realises.established] at waits
      exact absurd waits List.not_mem_nil
  have stepped : (WebSockets.machine platform wiring).step sockets (.run index true) =
      some ({ sockets with scheduled := sockets.scheduled.eraseIdx index }.initClient platform
        wiring block true) := by
    simp only [WebSockets.machine, WebSockets.step, here, Option.map_some]
  have sending := sending_step realises.sending stepped
    ⟨rfl, fun message same listed => opened message.connection listed⟩
  by_cases listed : block.connection ∈ sockets.connections
  · have sent : { sockets with scheduled := sockets.scheduled.eraseIdx index }.initClient platform
        wiring block true = { sockets with
          scheduled := sockets.scheduled.eraseIdx index }.send platform wiring block :=
      if_pos listed
    rw [sent] at stepped sending
    refine Machine.reaches_step stepped (.run index) ⟨realises.hosts, left, ?_, sending,
      realises.established⟩
    rw [realises.hosts, realises.inFlight]
    rfl
  · have waits : { sockets with scheduled := sockets.scheduled.eraseIdx index }.initClient platform
        wiring block true = { sockets with
          scheduled := sockets.scheduled.eraseIdx index
          connections := sockets.connections ++ [block.connection]
          waiting := [block] } := by
      rw [WebSockets.initClient, if_neg listed, if_pos rfl, realises.established]
      rfl
    rw [waits] at stepped sending
    have shaken : (WebSockets.machine platform wiring).step { sockets with
        scheduled := sockets.scheduled.eraseIdx index
        connections := sockets.connections ++ [block.connection]
        waiting := [block] } (.handshake 0) = some _ := rfl
    refine Machine.Reaches.after stepped (.run index) (Machine.reaches_step shaken (.handshake 0)
      ⟨realises.hosts, ?_, ?_, sending_step sending shaken trivial, rfl⟩)
    · rw [pending, realises.established] at left
      exact left
    · rw [realises.hosts, realises.inFlight]
      rfl

/-- The steps that bring an exchange to its end can be taken over web sockets. -/
theorem realised_action (realises : Open wiring exchange sockets) {action : ExchangeAction ι ε}
    (working : Working action) {after : Exchange ι ε}
    (stepped : (Exchange.machine platform wiring).step exchange action = some after) :
    Realised platform wiring sockets after := by
  have hosts := realises.hosts
  cases working with
  | transmit =>
    obtain ⟨block, found, rfl⟩ := Option.map_eq_some_iff.mp stepped
    have inside := realises.scheduled.mem_iff.mp (List.mem_of_getElem? found)
    rw [pending, realises.established, List.append_nil] at inside
    rcases List.mem_append.mp inside with text | block
    · exact realised_text realises found text
    · exact realised_block realises found block
  | deliver =>
    obtain ⟨⟨connection, text⟩, found, rfl⟩ := Option.map_eq_some_iff.mp stepped
    have here : sockets.frames[0]? = some (connection, text) := by
      rw [← realises.inFlight, found]
    have opened := realises.sending.frames _ (List.mem_of_getElem? here)
    have taken : (WebSockets.machine platform wiring).step sockets (.receive 0) =
        some { sockets with
          hosts := (sockets.hosts.arrive platform wiring connection text).1
          frames := sockets.frames.eraseIdx 0 } := by
      simp only [WebSockets.machine, WebSockets.step, here, opened, List.take_zero,
        List.not_mem_nil, false_implies, implies_true, and_self, ↓reduceIte]
    refine Machine.reaches_step taken (.receive 0) ⟨by rw [hosts], realises.scheduled, ?_,
      sending_step realises.sending taken trivial, realises.established⟩
    rw [realises.inFlight]
  | begin =>
    obtain ⟨changed, moved, rfl⟩ := Option.map_eq_some_iff.mp stepped
    have taken : (WebSockets.machine platform wiring).step sockets (.host (.begin 0)) =
        some { sockets with hosts := changed } := by
      simp only [WebSockets.machine, WebSockets.step, ← hosts, moved, Option.map_some]
    exact Machine.reaches_step taken .begin ⟨rfl, realises.scheduled, realises.inFlight,
      sending_step realises.sending taken trivial, realises.established⟩
  | finish =>
    obtain ⟨⟨changed, answer⟩, done, rfl⟩ := Option.map_eq_some_iff.mp stepped
    have taken : (WebSockets.machine platform wiring).step sockets (.finish 0) =
        some { sockets with hosts := changed, texts := sockets.texts ++ answer.toList } := by
      simp only [WebSockets.machine, WebSockets.step, ← hosts, done, Option.map_some]
    exact Machine.reaches_step taken .finish ⟨rfl,
      (realises.scheduled.append_right _).trans (pending_texts sockets answer.toList),
      realises.inFlight, sending_step realises.sending taken trivial, realises.established⟩

variable (platform wiring) in
/-- Web sockets can do what an exchange does to come to its end. -/
def realisation : (Exchange.machine platform wiring).Simulation
    (WebSockets.machine platform wiring) Working Handling where
  related := Open wiring
  answered _ _ _ _ realises working stepped := realised_action realises working stepped

end Realising

section Calls

variable [DecidableEq ι] [DecidableEq ε] {platform : Platform} {wiring : Wiring ι ε}
  {nodes : ι → Node}

/-- As long as nothing is sent on a connection before its handshake has completed, and none fails
or closes, nothing is lost. If no worker was killed either, the reactor and the workers can go on
so that every call made so far is dispatched and its answer recorded, exactly once. -/
theorem web_socket_calls_complete (fit : Fit platform nodes)
    (actions : List (WebSocketAction ι ε)) (reached : WebSockets ι ε)
    (plain : ∀ act ∈ actions, PlainArgs platform.json.createId act)
    (prompt : (WebSockets.machine platform wiring).Along Prompt (WebSockets.initial nodes) actions)
    (ran : (WebSockets.machine platform wiring).run (WebSockets.initial nodes) actions =
      some reached) :
    reached.dropped = [] ∧ (reached.hosts.killed = [] → ∃ more final,
      (∀ act ∈ more, Handling act) ∧
      (WebSockets.machine platform wiring).run reached more = some final ∧
      final.hosts.asked = reached.hosts.asked ∧
      ∀ call ∈ reached.hosts.asked, Once wiring final.hosts call (· = 1)) := by
  have sending := Machine.run_invariant_along _ (Sending wiring) Prompt
    (fun _ _ _ => sending_step) actions _ reached (sending_initial wiring nodes) prompt ran
  refine ⟨sending.kept, fun alive => ?_⟩
  obtain ⟨shakes, shaken, handles, shook, ⟨still, same⟩, established⟩ :=
    handshakes platform sending
  have usual : ∀ act ∈ actions ++ shakes, PlainArgs platform.json.createId act := fun act inside =>
    (List.mem_append.mp inside).elim (plain act) fun late => (handles act late).plain
  have sound : Sound platform wiring nodes (view shaken) := by
    obtain ⟨_, exchange, _, _, reordered, traced⟩ := (carrier platform wiring nodes).reached fit
      usual (Machine.run_trans _ ran shook)
    exact reordered.symm.sound traced
  obtain ⟨work, settled, working, worked, ⟨_, unspoilt⟩, quiet⟩ := settles fit sound
  obtain ⟨more, final, handling, handled, met⟩ := (realisation platform wiring).run work
    (view shaken) shaken settled ⟨rfl, .refl _, rfl, still, established⟩ working worked
  have asked : final.hosts.asked = reached.hosts.asked := by
    rw [← met.hosts, unspoilt.asked, ← same, view]
  have nothing : Settled (view final) := by
    refine ⟨?_, met.inFlight.symm.trans quiet.inFlight, met.sending.kept, ?_, ?_, ?_⟩
    · exact (List.Perm.nil_eq (quiet.scheduled ▸ met.scheduled)).symm
    · rw [view, ← met.hosts, quiet.jobs]
    · rw [view, ← met.hosts, quiet.running]
    · rw [view, ← met.hosts, unspoilt.killed, view, same, alive]
  refine ⟨shakes ++ more, final, ?_, Machine.run_trans _ shook handled, asked, ?_⟩
  · intro act inside
    exact (List.mem_append.mp inside).elim (handles act) (handling act)
  · intro call inside
    rw [← asked] at inside
    have all : ∀ act ∈ actions ++ shakes ++ more, PlainArgs platform.json.createId act :=
      fun act inside => (List.mem_append.mp inside).elim (usual act) fun late =>
        (handling act late).plain
    exact (carrier platform wiring nodes).settled fit all
      (Machine.run_trans _ (Machine.run_trans _ ran shook) handled) nothing inside

end Calls

/-- Two calls, of which the first has opened a connection. -/
def openingCalls : List (WebSocketAction Bool Bool) :=
  [.invoke false "7" "echo" [.int 1], .invoke false "8" "echo" [.int 2], .run 0 true]

/-- Both can be completed. -/
theorem opening_calls_complete : ∃ reached : WebSockets Bool Bool,
    reached.hosts.asked = [⟨"7", "echo", [.int 1], false⟩, ⟨"8", "echo", [.int 2], false⟩] ∧
      ∃ more final, (∀ act ∈ more, Handling act) ∧
        (WebSockets.machine JsonText.platform pair).run reached more = some final ∧
        final.hosts.asked = reached.hosts.asked ∧
        ∀ call ∈ reached.hosts.asked, Once pair final.hosts call (· = 1) := by
  refine ⟨_, rfl, (web_socket_calls_complete fit_echo openingCalls _ ?_ ?_ rfl).2 rfl⟩
  · intro act inside
    simp only [openingCalls, List.mem_cons, List.not_mem_nil, or_false] at inside
    rcases inside with rfl | rfl | rfl
    · rfl
    · rfl
    · exact trivial
  · exact Machine.along_cons _ rfl trivial (Machine.along_cons _ rfl trivial
      (Machine.along_cons _ rfl ⟨rfl, fun _ _ listed => absurd listed List.not_mem_nil⟩ trivial))

end Rjr.Verif.WebSocketProgress
