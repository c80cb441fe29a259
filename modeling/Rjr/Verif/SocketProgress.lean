import Rjr.Verif.Settling
import Rjr.Verif.SocketCalls

/-!
# Calls over sockets can be completed

The steps that bring an exchange to its end can be taken over sockets: a text that is on its way
arrives by receiving what is left of the stream and cutting messages off. So from every state that
sockets reach, on connections that stayed open, all calls can still be answered.
-/

namespace Rjr.Verif.SocketProgress

open Messages Node Nodes JsonParser Codec Packets Provenance Agreement Settling SocketCalls

variable {ι ε : Type}

/-- The steps of sockets that bring work to its end: no call is made, nothing is closed and no
worker is killed. -/
inductive Handling : SocketAction ι ε → Prop
  /-- The oldest block is sent. -/
  | transmit : Handling (.transmit 0)
  /-- Bytes are received. -/
  | receive (connection : ε) (count : Nat) : Handling (.receive connection count)
  /-- The loop of `receive_data` goes on. -/
  | extract (connection : ε) : Handling (.extract connection)
  /-- The oldest job is begun. -/
  | begin : Handling (.host (.begin 0))
  /-- The oldest job that was begun is finished. -/
  | finish : Handling (.finish 0)

section Realising

variable [DecidableEq ι] [DecidableEq ε] {platform : Platform} {wiring : Wiring ι ε}
  {nodes : ι → Node} {encoding : Encoding platform.json} {sockets : Sockets ι ε}
  {exchange : Exchange ι ε}

variable (wiring nodes encoding) in
/-- Sockets that stand for an exchange, with all connections open. -/
def Open (exchange : Exchange ι ε) (sockets : Sockets ι ε) : Prop :=
  Related wiring nodes encoding sockets exchange ∧
    ∀ connection, sockets.closed connection = false

variable (platform wiring nodes encoding) in
/-- The sockets can take a step of the exchange. -/
def Realised (sockets : Sockets ι ε) (after : Exchange ι ε) : Prop :=
  (Sockets.machine platform wiring encoding).Reaches Handling sockets
    (Open wiring nodes encoding after)

omit [DecidableEq ι] in
/-- Sending on an open connection closes nothing. -/
theorem send_closed (sockets : Sockets ι ε) (connection other : ε) (text : String) :
    (sockets.send platform wiring encoding connection text).closed other =
      sockets.closed other := by
  rw [Sockets.send]
  split <;> rfl

/-- An iteration of `receive_data` closes nothing. -/
theorem iterate_closed (sockets : Sockets ι ε) (connection other : ε) :
    (sockets.iterate platform wiring encoding connection).closed other =
      sockets.closed other := by
  cases cut : extractJsonFrom (sockets.data connection) <;> simp only [Sockets.iterate, cut]

/-- The block that is sent next. -/
theorem realised_transmit (realises : Open wiring nodes encoding exchange sockets)
    {block : Outgoing ε} {text : String} (found : exchange.scheduled[0]? = some block)
    (wrote : exchange.hosts.write platform wiring block = some text)
    (sound : Sound platform wiring nodes { exchange with
      scheduled := exchange.scheduled.eraseIdx 0
      inFlight := exchange.inFlight ++ [(wiring.opposite block.connection, text)] }) :
    Realised platform wiring nodes encoding sockets { exchange with
      scheduled := exchange.scheduled.eraseIdx 0
      inFlight := exchange.inFlight ++ [(wiring.opposite block.connection, text)] } := by
  obtain ⟨related, opened⟩ := realises
  have here : sockets.scheduled[0]? = some block := by rw [← related.scheduled, found]
  have stepped : (Sockets.machine platform wiring encoding).step sockets (.transmit 0) =
      some ({ sockets with scheduled := sockets.scheduled.eraseIdx 0 }.send platform wiring encoding
        block.connection text) := by
    rw [related.hosts] at wrote
    simp only [Sockets.machine, Sockets.step, here, wrote, Option.map_some]
  refine Machine.reaches_step stepped .transmit
    ⟨related_send related ?_ sound, fun connection => ?_⟩
  · rw [opened, opened]
    exact Bool.false_ne_true
  · rw [send_closed]
    exact opened connection

/-- A message that is cut off is delivered. -/
theorem realised_cut (fit : Fit platform nodes)
    (realises : Open wiring nodes encoding exchange sockets) {connection : ε} {text : String}
    {rest : List (ε × String)} (travels : exchange.inFlight = (connection, text) :: rest)
    (receiving : sockets.receiving connection = true) {cut : Bytes × Bytes}
    (found : extractJsonFrom (sockets.data connection) = some cut)
    (sound : Sound platform wiring nodes { exchange with
      hosts := (exchange.hosts.arrive platform wiring connection text).1
      inFlight := exchange.inFlight.eraseIdx 0 }) :
    Realised platform wiring nodes encoding sockets { exchange with
      hosts := (exchange.hosts.arrive platform wiring connection text).1
      inFlight := exchange.inFlight.eraseIdx 0 } := by
  obtain ⟨related, opened⟩ := realises
  have stepped : (Sockets.machine platform wiring encoding).step sockets (.extract connection) =
      some (sockets.iterate platform wiring encoding connection) := by
    simp only [Sockets.machine, Sockets.step, receiving, ↓reduceIte]
  have first : exchange.inFlight[0]? = some (connection, text) := by
    rw [travels]
    rfl
  have front : toward exchange.inFlight connection =
      (connection, text) :: toward rest connection := by
    rw [travels]
    exact List.filter_cons_of_pos (decide_eq_true rfl)
  have left : toward (exchange.inFlight.eraseIdx 0) connection = toward rest connection := by
    rw [travels]
    rfl
  refine Machine.reaches_step stepped (.extract connection)
    ⟨related_deliver fit related found first front left sound, fun other => ?_⟩
  rw [iterate_closed]
  exact opened other

/-- Receiving what is left of a stream brings the first text on its way into the buffer. -/
theorem realised_receive (fit : Fit platform nodes)
    (realises : Open wiring nodes encoding exchange sockets) {connection : ε} {text : String}
    {rest : List (ε × String)} (travels : exchange.inFlight = (connection, text) :: rest)
    (resting : sockets.receiving connection = false)
    (sound : Sound platform wiring nodes { exchange with
      hosts := (exchange.hosts.arrive platform wiring connection text).1
      inFlight := exchange.inFlight.eraseIdx 0 }) :
    Realised platform wiring nodes encoding sockets { exchange with
      hosts := (exchange.hosts.arrive platform wiring connection text).1
      inFlight := exchange.inFlight.eraseIdx 0 } := by
  obtain ⟨related, opened⟩ := realises
  have bytes := related.bytes connection
  have front : toward exchange.inFlight connection =
      (connection, text) :: toward rest connection := by
    rw [travels]
    exact List.filter_cons_of_pos (decide_eq_true rfl)
  have framed := related.framed fit.foreign connection (connection, text) (by
    rw [front]
    exact List.mem_cons_self)
  have whole : extractJsonFrom (sockets.data connection ++ sockets.stream connection) =
      some (encoding.encode text, encoded encoding (toward rest connection)) := by
    rw [bytes, front]
    exact jsonFramer.extract_frame framed _
  have cut : extractJsonFrom (Function.update sockets.data connection (sockets.data connection ++
      (sockets.stream connection).take (sockets.stream connection).length) connection) =
        some (encoding.encode text, encoded encoding (toward rest connection)) := by
    rw [Function.update_self, List.take_length, whole]
  refine Machine.Reaches.after ?_ (.receive connection (sockets.stream connection).length)
    (realised_cut fit ⟨related_receive related connection (sockets.stream connection).length,
      opened⟩ travels (Function.update_self connection true sockets.receiving) cut sound)
  simp only [Sockets.machine, Sockets.step, resting, opened connection, Bool.or_self,
    Bool.false_eq_true, ↓reduceIte]

/-- The text that arrives next. -/
theorem realised_deliver (fit : Fit platform nodes)
    (realises : Open wiring nodes encoding exchange sockets) {connection : ε} {text : String}
    (found : exchange.inFlight[0]? = some (connection, text))
    (sound : Sound platform wiring nodes { exchange with
      hosts := (exchange.hosts.arrive platform wiring connection text).1
      inFlight := exchange.inFlight.eraseIdx 0 }) :
    Realised platform wiring nodes encoding sockets { exchange with
      hosts := (exchange.hosts.arrive platform wiring connection text).1
      inFlight := exchange.inFlight.eraseIdx 0 } := by
  obtain ⟨rest, travels⟩ : ∃ rest, exchange.inFlight = (connection, text) :: rest := by
    cases inFlight : exchange.inFlight with
    | nil =>
      rw [inFlight] at found
      cases found
    | cons first rest =>
      rw [inFlight] at found
      cases found
      exact ⟨rest, rfl⟩
  cases receiving : sockets.receiving connection with
  | false => exact realised_receive fit realises travels receiving sound
  | true =>
    cases cut : extractJsonFrom (sockets.data connection) with
    | some message => exact realised_cut fit realises travels receiving cut sound
    | none =>
      -- the loop ends for want of bytes; the next call of `receive_data` brings them
      have stepped : (Sockets.machine platform wiring encoding).step sockets
          (.extract connection) = some { sockets with
            receiving := Function.update sockets.receiving connection false } := by
        simp only [Sockets.machine, Sockets.step, receiving, ↓reduceIte, Sockets.iterate, cut]
      refine Machine.Reaches.after stepped (.extract connection)
        (realised_receive fit ⟨related_rest realises.1 cut, realises.2⟩ travels ?_ sound)
      exact Function.update_self connection false sockets.receiving

/-- The steps that bring an exchange to its end can be taken over sockets. -/
theorem realised_action (fit : Fit platform nodes)
    (realises : Open wiring nodes encoding exchange sockets) {action : ExchangeAction ι ε}
    (working : Working action) {after : Exchange ι ε}
    (stepped : (Exchange.machine platform wiring).step exchange action = some after) :
    Realised platform wiring nodes encoding sockets after := by
  have sound := sound_step fit exchange action after realises.1.sound working.plain stepped
  have hosts := realises.1.hosts
  cases working with
  | transmit =>
    obtain ⟨block, found, _⟩ := Option.map_eq_some_iff.mp stepped
    obtain ⟨text, _, _, wrote, _⟩ := written fit.foreign realises.1.sound.hosts
      (realises.1.sound.scheduled block (List.mem_of_getElem? found))
    obtain rfl := Option.some.inj ((Exchange.step_transmit found wrote).symm.trans stepped)
    exact realised_transmit realises found wrote sound
  | deliver =>
    obtain ⟨⟨connection, text⟩, found, rfl⟩ := Option.map_eq_some_iff.mp stepped
    exact realised_deliver fit realises found sound
  | begin =>
    obtain ⟨changed, moved, rfl⟩ := Option.map_eq_some_iff.mp stepped
    have taken : (Sockets.machine platform wiring encoding).step sockets (.host (.begin 0)) =
        some { sockets with hosts := changed } := by
      simp only [Sockets.machine, Sockets.step, ← hosts, moved, Option.map_some]
    exact Machine.reaches_step taken .begin
      ⟨{ realises.1 with hosts := rfl, sound := sound }, realises.2⟩
  | finish =>
    obtain ⟨⟨changed, answer⟩, done, rfl⟩ := Option.map_eq_some_iff.mp stepped
    have taken : (Sockets.machine platform wiring encoding).step sockets (.finish 0) =
        some { sockets with
          hosts := changed, scheduled := sockets.scheduled ++ answer.toList } := by
      simp only [Sockets.machine, Sockets.step, ← hosts, done, Option.map_some]
    exact Machine.reaches_step taken .finish
      ⟨realises.1.extend changed answer.toList sound, realises.2⟩

/-- Sockets with open connections can do what an exchange does to come to its end. -/
def realisation (fit : Fit platform nodes) (encoding : Encoding platform.json) :
    (Exchange.machine platform wiring).Simulation (Sockets.machine platform wiring encoding)
      Working Handling where
  related := Open wiring nodes encoding
  answered _ _ _ _ realises working stepped := realised_action fit realises working stepped

end Realising

section Calls

variable [DecidableEq ι] [DecidableEq ε] {platform : Platform} {wiring : Wiring ι ε}
  {nodes : ι → Node} {encoding : Encoding platform.json}

/-- From every state that sockets reach, while no connection was closed and no worker killed, the
reactor and the workers can go on so that every call made so far is dispatched and its answer
recorded, exactly once. -/
theorem socket_calls_complete (fit : Fit platform nodes) (actions : List (SocketAction ι ε))
    (reached : Sockets ι ε) (plain : ∀ act ∈ actions, PlainArgs platform.json.createId act)
    (ran : (Sockets.machine platform wiring encoding).run (Sockets.initial nodes) actions =
      some reached)
    (opened : ∀ connection, reached.closed connection = false)
    (alive : reached.hosts.killed = []) :
    ∃ more final, (∀ act ∈ more, Handling act) ∧
      (Sockets.machine platform wiring encoding).run reached more = some final ∧
      final.hosts.asked = reached.hosts.asked ∧
      ∀ call ∈ reached.hosts.asked, Once wiring final.hosts call (· = 1) := by
  obtain ⟨answer, exchange, expected, answered, related⟩ := SocketCalls.reached fit plain ran
  obtain ⟨work, settled, working, worked, ⟨sound, unspoilt⟩, quiet⟩ := settles fit related.sound
  obtain ⟨more, final, handling, handled, met, _⟩ := (realisation fit encoding).run work exchange
    reached settled ⟨related, opened⟩ working worked
  have both : ∀ act ∈ answer ++ work, Plain platform.json.createId act := by
    intro act inside
    rcases List.mem_append.mp inside with early | late
    · exact expected act early
    · exact (working act late).plain
  have accounted := (accounted_run fit (answer ++ work) settled both
    (Machine.run_trans _ answered worked)).2
  have asked : settled.hosts.asked = reached.hosts.asked := by
    rw [unspoilt.asked, related.hosts]
  have nothing : Settled settled :=
    ⟨quiet.scheduled, quiet.inFlight, unspoilt.lost.trans (related.complete opened), quiet.jobs,
      quiet.running, by rw [unspoilt.killed, related.hosts, alive]⟩
  refine ⟨more, final, handling, handled, by rw [← met.hosts, asked], fun call inside => ?_⟩
  rw [← asked] at inside
  rw [← met.hosts]
  exact exactly_once sound.hosts accounted nothing inside

/-- The call of a pair can be completed as soon as it is made. -/
theorem pair_call_completes : ∃ reached : Sockets Bool Bool,
    reached.hosts.asked = [⟨"7", "echo", [.int 1], false⟩] ∧
      ∃ more final, (∀ act ∈ more, Handling act) ∧
        (Sockets.machine JsonText.platform pair JsonBytes.encoding).run reached more =
          some final ∧
        final.hosts.asked = reached.hosts.asked ∧
        ∀ call ∈ reached.hosts.asked, Once pair final.hosts call (· = 1) := by
  refine ⟨_, rfl, socket_calls_complete fit_echo [.invoke false "7" "echo" [.int 1]] _ ?_ rfl
    (fun _ => rfl) rfl⟩
  intro act inside
  rw [List.mem_singleton.mp inside]
  rfl

end Calls

end Rjr.Verif.SocketProgress
