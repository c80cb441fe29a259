import Rjr.Lib.Taking
import Rjr.Verif.Agreement

/-!
# Transports that carry whole texts

A transport keeps what was sent in places of its own: blocks for the reactor, blocks that wait for a
connection, frames, posts. Gathered into one list of what waits, one of what is on its way and one
of what was lost, they are the exchange that the transport stands for, where the order of the lists
does not matter. If every step of the transport is a run of that exchange, calls over the transport
agree with their answers and are answered at most once.
-/

namespace Rjr.Verif.Carriers

open Messages Node Nodes Packets Provenance Agreement

variable {ι ε : Type}

/-! ## Order -/

/-- The same exchange, with what waits, travels and was lost in another order. -/
structure Reordered (first second : Exchange ι ε) : Prop where
  /-- The nodes are the same. -/
  hosts : first.hosts = second.hosts
  /-- The same waits to be sent. -/
  scheduled : first.scheduled.Perm second.scheduled
  /-- The same is on its way. -/
  inFlight : first.inFlight.Perm second.inFlight
  /-- The same was lost. -/
  lost : first.lost.Perm second.lost

/-- The order may stay. -/
theorem reordered_refl (exchange : Exchange ι ε) : Reordered exchange exchange :=
  ⟨rfl, .refl _, .refl _, .refl _⟩

/-- It may change back. -/
theorem Reordered.symm {first second : Exchange ι ε} (same : Reordered first second) :
    Reordered second first :=
  ⟨same.hosts.symm, same.scheduled.symm, same.inFlight.symm, same.lost.symm⟩

/-- It may change again. -/
theorem Reordered.trans {first second third : Exchange ι ε} (same : Reordered first second)
    (other : Reordered second third) : Reordered first third :=
  ⟨same.hosts.trans other.hosts, same.scheduled.trans other.scheduled,
    same.inFlight.trans other.inFlight, same.lost.trans other.lost⟩

variable {platform : Platform} {wiring : Wiring ι ε} {nodes : ι → Node}

/-- What can be traced back can be so in any order. -/
theorem Reordered.sound {first second : Exchange ι ε} (same : Reordered first second)
    (sound : Sound platform wiring nodes second) : Sound platform wiring nodes first := by
  refine ⟨by rw [same.hosts]; exact sound.hosts, fun block inside => ?_, fun text inside => ?_⟩
  · rw [same.hosts]
    exact sound.scheduled block (same.scheduled.mem_iff.mp inside)
  · rw [same.hosts]
    exact sound.inFlight text (same.inFlight.mem_iff.mp inside)

variable [DecidableEq ι]

omit [DecidableEq ι] in
/-- Accounts are kept in any order. -/
theorem Reordered.accounted [DecidableEq ε] {first second : Exchange ι ε}
    (same : Reordered first second) (accounted : Accounted platform wiring second) :
    Accounted platform wiring first := by
  have counts : ∀ kind connection id, travelling platform wiring first kind connection id =
      travelling platform wiring second kind connection id := by
    intro kind connection id
    simp only [travelling, same.scheduled.countP_eq, same.inFlight.countP_eq, same.lost.countP_eq]
  refine ⟨fun connection id => ?_, fun connection id => ?_⟩
  · rw [counts, same.hosts]
    exact accounted.requests connection id
  · rw [counts, same.hosts]
    exact accounted.answers connection id

/-- A step of an exchange can be taken in any order. -/
theorem Reordered.step {createId : String} {first second after : Exchange ι ε}
    {action : ExchangeAction ι ε} (same : Reordered first second) (plain : Plain createId action)
    (stepped : (Exchange.machine platform wiring).step second action = some after) :
    (Exchange.machine platform wiring).Reaches (Plain createId) first (Reordered · after) := by
  cases action with
  | invoke connection id method args =>
    obtain ⟨⟨hosts, block⟩, called, rfl⟩ := Option.map_eq_some_iff.mp stepped
    rw [← same.hosts] at called
    exact Machine.reaches_step (Exchange.step_invoke called) plain
      ⟨rfl, same.scheduled.append_right _, same.inFlight, same.lost⟩
  | notify connection method args =>
    cases stepped
    rw [← same.hosts]
    exact Machine.reaches_step (Exchange.step_notify first connection method args) plain
      ⟨rfl, same.scheduled.append_right _, same.inFlight, same.lost⟩
  | callback connection method data =>
    simp only [Exchange.machine, Exchange.step] at stepped
    obtain ⟨block, called, rfl⟩ := Option.map_eq_some_iff.mp stepped
    rw [← same.hosts] at called
    exact Machine.reaches_step (Exchange.step_callback called) plain
      ⟨same.hosts, same.scheduled.append_right _, same.inFlight, same.lost⟩
  | transmit index =>
    obtain ⟨block, found, rfl⟩ := Option.map_eq_some_iff.mp stepped
    obtain ⟨place, here, left⟩ := same.scheduled.taken found
    rw [← same.hosts]
    exact Machine.reaches_step (Exchange.step_transmit_eq here) trivial
      ⟨rfl, left, same.inFlight.append_right _, same.lost⟩
  | deliver index =>
    obtain ⟨⟨connection, text⟩, found, rfl⟩ := Option.map_eq_some_iff.mp stepped
    obtain ⟨place, here, left⟩ := same.inFlight.taken found
    rw [← same.hosts]
    exact Machine.reaches_step (Exchange.step_deliver here) trivial
      ⟨rfl, same.scheduled, left, same.lost⟩
  | lose index =>
    obtain ⟨text, found, rfl⟩ := Option.map_eq_some_iff.mp stepped
    obtain ⟨place, here, left⟩ := same.inFlight.taken found
    exact Machine.reaches_step (Exchange.step_lose here) trivial
      ⟨same.hosts, same.scheduled, left, same.lost.append_right _⟩
  | finish index =>
    obtain ⟨⟨hosts, answer⟩, done, rfl⟩ := Option.map_eq_some_iff.mp stepped
    rw [← same.hosts] at done
    exact Machine.reaches_step (Exchange.step_finish done) trivial
      ⟨rfl, same.scheduled.append_right _, same.inFlight, same.lost⟩
  | host action =>
    obtain ⟨hosts, moved, rfl⟩ := Option.map_eq_some_iff.mp stepped
    rw [← same.hosts] at moved
    exact Machine.reaches_step (Exchange.step_host moved) trivial
      ⟨rfl, same.scheduled, same.inFlight, same.lost⟩

/-- So can a whole run. -/
theorem Reordered.reaches {createId : String} {first second : Exchange ι ε}
    {goal : Exchange ι ε → Prop} (same : Reordered first second)
    (reaches : (Exchange.machine platform wiring).Reaches (Plain createId) second goal) :
    (Exchange.machine platform wiring).Reaches (Plain createId) first
      fun next => ∃ after, goal after ∧ Reordered next after := by
  obtain ⟨actions, after, plain, ran, met⟩ := reaches
  let reordering : (Exchange.machine platform wiring).Simulation
      (Exchange.machine platform wiring) (Plain createId) (Plain createId) :=
    ⟨fun other exchange => Reordered exchange other, fun _ _ _ _ => Reordered.step⟩
  exact (reordering.run actions second first after same plain ran).trans fun next reached =>
    Machine.reaches_here ⟨after, met, reached⟩

/-- A run that ends in some order can begin in another one. -/
theorem Reordered.carries {createId : String} {first second after : Exchange ι ε}
    (same : Reordered first second)
    (reaches : (Exchange.machine platform wiring).Reaches (Plain createId) second
      (Reordered · after)) :
    (Exchange.machine platform wiring).Reaches (Plain createId) first (Reordered · after) :=
  (same.reaches reaches).trans fun _ ⟨_, reached, reordered⟩ =>
    Machine.reaches_here (reordered.trans reached)

/-! ## What a transport does with a message -/

section Messages

variable {exchange : Exchange ι ε} {message : Outgoing ε} {rest : List (Outgoing ε)}

/-- A message that waits is sent, if it can be written. -/
theorem sends (createId : String) (waits : exchange.scheduled.Perm (message :: rest)) :
    (Exchange.machine platform wiring).Reaches (Plain createId) exchange
      (Reordered · { exchange with
        scheduled := rest
        inFlight := exchange.inFlight ++ ((exchange.hosts.write platform wiring message).map
          fun text => (wiring.opposite message.connection, text)).toList }) := by
  obtain ⟨index, found, left⟩ := waits.taken List.getElem?_cons_zero
  exact Machine.reaches_step (Exchange.step_transmit_eq found) trivial
    ⟨rfl, left, .refl _, .refl _⟩

/-- A message that waits is lost. -/
theorem loses (waits : exchange.scheduled.Perm (message :: rest)) :
    (Exchange.machine platform wiring).Reaches (Plain platform.json.createId) exchange
      (Reordered · { exchange with
        scheduled := rest
        lost := exchange.lost ++ ((exchange.hosts.write platform wiring message).map
          fun text => (wiring.opposite message.connection, text)).toList }) := by
  obtain ⟨index, found, left⟩ := waits.taken List.getElem?_cons_zero
  refine (send_lost platform wiring found).trans ?_
  rintro _ rfl
  exact Machine.reaches_here ⟨rfl, left, .refl _, .refl _⟩

/-- A text that is on its way arrives. -/
theorem receives (createId : String) {connection : ε} {text : String} {others : List (ε × String)}
    (travels : exchange.inFlight.Perm ((connection, text) :: others)) :
    (Exchange.machine platform wiring).Reaches (Plain createId) exchange
      (Reordered · { exchange with
        hosts := (exchange.hosts.arrive platform wiring connection text).1
        inFlight := others }) := by
  obtain ⟨index, found, left⟩ := travels.taken List.getElem?_cons_zero
  exact Machine.reaches_step (Exchange.step_deliver found) trivial ⟨rfl, .refl _, left, .refl _⟩

/-- A text that is on its way is lost. -/
theorem misses (createId : String) {text : ε × String} {others : List (ε × String)}
    (travels : exchange.inFlight.Perm (text :: others)) :
    (Exchange.machine platform wiring).Reaches (Plain createId) exchange
      (Reordered · { exchange with
        inFlight := others
        lost := exchange.lost ++ [text] }) := by
  obtain ⟨index, found, left⟩ := travels.taken List.getElem?_cons_zero
  exact Machine.reaches_step (Exchange.step_lose found) trivial ⟨rfl, .refl _, left, .refl _⟩

end Messages

/-! ## Carriers -/

/-- A transport whose steps are runs of the exchange it stands for. -/
structure Carrier (platform : Platform) (wiring : Wiring ι ε) (nodes : ι → Node) {σ α : Type}
    (machine : Machine σ α) (used : α → Prop) where
  /-- The state before anything has happened. -/
  initial : σ
  /-- The exchange a state stands for. -/
  view : σ → Exchange ι ε
  /-- Nothing has been sent before. -/
  begins : view initial = Exchange.initial nodes
  /-- A step is a run of the exchange. -/
  carries : ∀ state action next, Sound platform wiring nodes (view state) → used action →
    machine.step state action = some next →
      (Exchange.machine platform wiring).Reaches (Plain platform.json.createId) (view state)
        (Reordered · (view next))

namespace Carrier

variable {σ α : Type} {machine : Machine σ α} {used : α → Prop}
  (carrier : Carrier platform wiring nodes machine used)

/-- The same transport, used for less. -/
def narrow {usual : α → Prop} (within : ∀ action, usual action → used action) :
    Carrier platform wiring nodes machine usual :=
  { carrier with
    carries := fun state action next sound own =>
      carrier.carries state action next sound (within action own) }

/-- The transport simulates the exchange of whole texts. -/
def simulation (fit : Fit platform nodes) :
    machine.Simulation (Exchange.machine platform wiring) used
      (Plain platform.json.createId) where
  related state exchange := Reordered exchange (carrier.view state) ∧
    Sound platform wiring nodes exchange
  answered state exchange action next related usual stepped := by
    obtain ⟨same, sound⟩ := related
    have carried := carrier.carries state action next (same.symm.sound sound) usual stepped
    refine (reaches_sound fit sound (same.reaches carried)).trans ?_
    rintro after ⟨still, other, reached, reordered⟩
    exact Machine.reaches_here ⟨reordered.trans reached, still⟩

/-- A run of the transport reaches a state that stands for one the exchange reaches. -/
theorem reached (fit : Fit platform nodes) {actions : List α} {final : σ}
    (usual : ∀ act ∈ actions, used act)
    (ran : machine.run carrier.initial actions = some final) :
    (Exchange.machine platform wiring).Reaches (Plain platform.json.createId)
      (Exchange.initial nodes) fun exchange => Reordered exchange (carrier.view final) ∧
        Sound platform wiring nodes exchange := by
  refine (carrier.simulation fit).run actions carrier.initial (Exchange.initial nodes) final ?_
    usual ran
  exact ⟨by rw [carrier.begins]; exact reordered_refl _, sound_initial fit⟩

/-- After every run everything can be traced back and is accounted for. -/
theorem accounted [DecidableEq ε] (fit : Fit platform nodes) {actions : List α} {final : σ}
    (usual : ∀ act ∈ actions, used act)
    (ran : machine.run carrier.initial actions = some final) :
    Sound platform wiring nodes (carrier.view final) ∧
      Accounted platform wiring (carrier.view final) := by
  obtain ⟨answer, exchange, plain, answered, same, sound⟩ := carrier.reached fit usual ran
  exact ⟨same.symm.sound sound,
    same.symm.accounted (accounted_run fit answer exchange plain answered).2⟩

/-- After a step everything can still be traced back. -/
theorem sound_step (fit : Fit platform nodes) {state next : σ} {action : α}
    (sound : Sound platform wiring nodes (carrier.view state)) (usual : used action)
    (stepped : machine.step state action = some next) :
    Sound platform wiring nodes (carrier.view next) := by
  obtain ⟨_, exchange, _, _, still, same⟩ :=
    reaches_sound fit sound (carrier.carries state action next sound usual stepped)
  exact same.symm.sound still

/-- What every step keeps where everything can be traced back holds after every run. -/
theorem invariant (fit : Fit platform nodes) (holds : σ → Prop) (begins : holds carrier.initial)
    (keeps : ∀ state action next, Sound platform wiring nodes (carrier.view state) →
      used action → holds state → machine.step state action = some next → holds next)
    {actions : List α} {final : σ} (usual : ∀ act ∈ actions, used act)
    (ran : machine.run carrier.initial actions = some final) : holds final := by
  have initially : Sound platform wiring nodes (carrier.view carrier.initial) := by
    rw [carrier.begins]
    exact sound_initial fit
  refine (machine.run_invariant_of
    (fun state => Sound platform wiring nodes (carrier.view state) ∧ holds state) used
    ?_ actions _ final ⟨initially, begins⟩ usual ran).2
  rintro state action next ⟨sound, before⟩ usual stepped
  exact ⟨carrier.sound_step fit sound usual stepped,
    keeps state action next sound usual before stepped⟩

/-- A call over a transport that returns agrees with its answer. -/
theorem agrees (fit : Fit platform nodes) {actions : List α} {final : σ}
    (usual : ∀ act ∈ actions, used act)
    (ran : machine.run carrier.initial actions = some final) {node : ι} {id : String}
    {response : Json × Reply}
    (returned : (carrier.view final).hosts.phase node id = .returned response) :
    Agrees platform wiring nodes (carrier.view final).hosts node id response := by
  obtain ⟨_, exchange, _, _, same, sound⟩ := carrier.reached fit usual ran
  rw [← same.hosts] at returned ⊢
  exact agrees_of_sound sound.hosts returned

/-- Every call over a transport is dispatched and its answer recorded at most once. -/
theorem once [DecidableEq ε] (fit : Fit platform nodes) {actions : List α} {final : σ}
    (usual : ∀ act ∈ actions, used act)
    (ran : machine.run carrier.initial actions = some final) (call : Asked ε) :
    Once wiring (carrier.view final).hosts call (· ≤ 1) := by
  obtain ⟨sound, accounted⟩ := carrier.accounted fit usual ran
  exact at_most_once sound.hosts accounted call

/-- Once everything has settled, every call was dispatched and recorded exactly once. -/
theorem settled [DecidableEq ε] (fit : Fit platform nodes) {actions : List α} {final : σ}
    (usual : ∀ act ∈ actions, used act)
    (ran : machine.run carrier.initial actions = some final)
    (settled : Settled (carrier.view final)) {call : Asked ε}
    (asked : call ∈ (carrier.view final).hosts.asked) :
    Once wiring (carrier.view final).hosts call (· = 1) := by
  obtain ⟨sound, accounted⟩ := carrier.accounted fit usual ran
  exact exactly_once sound.hosts accounted settled asked

end Carrier

end Rjr.Verif.Carriers
