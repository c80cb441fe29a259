import Mathlib.Data.List.Range
import Rjr.Lib.Taking
import Rjr.Nodes.WS

/-!
# Web sockets that are established

The message of an invoke is sent by its `on_init` block, so the block should be run once the
connection is established and not before. The callback of a new connection does this. A call that
finds a listed connection runs its block at once, also when the handshake of that connection is
still under way; that is the only way it goes wrong. There is never more than one connection to a
uri.
-/

namespace Rjr.Verif.Handshakes

open Nodes WS

/-- How often `on_init` of a call of `init_client` was run. -/
def runs (node : WS) (call : Nat) : Nat := node.inits.countP fun init => init.1 = call

/-- Every `on_init` was run as it should have been so far. -/
structure Prompt (node : WS) : Prop where
  /-- The block of a call was run once if its connection is established, and else not yet. -/
  once : ∀ call connection : Nat, node.calls[call]? = some (some connection) →
    runs node call = if (node.sockets.read connection).established then 1 else 0
  /-- A block was given the connection of its own call. -/
  own : ∀ init ∈ node.inits, node.calls[init.1]? = some (some init.2)
  /-- One connection was opened to a uri. -/
  single : ∀ first < node.sockets.next, ∀ second < node.sockets.next,
    (node.sockets.read first).url = (node.sockets.read second).url → first = second

/-- No call of `init_client` finds a connection whose handshake is still under way. -/
def Settled (node : WS) (event : WSEvent) (_next : WS) : Prop :=
  ∀ uri connects, event = .initClient uri connects → ∀ connection,
    node.connectionTo uri = some connection →
      (node.sockets.read connection).established = true

/-! ## The invariant -/

/-- What the events keep as long as no call finds an unsettled connection. -/
structure Tracked (node : WS) : Prop extends Prompt node where
  /-- Every connection is listed. -/
  listed : node.connections = List.range node.sockets.next
  /-- The callback of a connection belongs to a call that returned it. -/
  callback : ∀ connection < node.sockets.next,
    node.calls[(node.sockets.read connection).callback]? = some (some connection)
  /-- Returned connections exist. -/
  returned : ∀ call connection : Nat, node.calls[call]? = some (some connection) →
    connection < node.sockets.next
  /-- Only the call of the callback waits for a connection. -/
  waiting : ∀ call connection : Nat, node.calls[call]? = some (some connection) →
    (node.sockets.read connection).established = false →
      call = (node.sockets.read connection).callback

/-- A node without connections. -/
theorem tracked_new : Tracked WS.new where
  once := by simp [WS.new]
  own := by simp [WS.new]
  single := by simp [WS.new, Heap.new]
  listed := rfl
  callback := by simp [WS.new, Heap.new]
  returned := by simp [WS.new]
  waiting := by simp [WS.new]

section Steps

variable {node : WS}

/-- The connections that calls returned, after one more call. -/
theorem calls_finish (outcome : Option Nat) (call connection : Nat) :
    (node.finish outcome).calls[call]? = some (some connection) ↔
      node.calls[call]? = some (some connection) ∨
        call = node.calls.length ∧ outcome = some connection :=
  List.getElem?_concat_iff node.calls outcome (some connection) call

/-- A block that is run counts for its call. -/
theorem runs_onInit (call connection other : Nat) :
    runs (node.onInit call connection) other = runs node other + if call = other then 1 else 0 := by
  simp [runs, onInit, List.countP_append, List.countP_cons]

variable (tracked : Tracked node)
include tracked

/-- The block of a call that is under way was not run before. -/
theorem runs_current : runs node node.calls.length = 0 := by
  rw [runs, List.countP_eq_zero]
  intro init inside
  have returned := tracked.own init inside
  have below : init.1 < node.calls.length := (List.getElem?_eq_some_iff.mp returned).1
  simp
  omega

/-- A connection that is found exists. -/
theorem connectionTo_some {uri : String} {connection : Nat}
    (found : node.connectionTo uri = some connection) : connection < node.sockets.next := by
  have inside := List.mem_of_find?_eq_some found
  rw [tracked.listed, List.mem_range] at inside
  exact inside

/-- A uri that is not found is that of no connection. -/
theorem connectionTo_none {uri : String} (missing : node.connectionTo uri = none) :
    ∀ connection < node.sockets.next, (node.sockets.read connection).url ≠ uri := by
  intro connection below same
  have listed : connection ∈ node.connections := by
    rw [tracked.listed]
    exact List.mem_range.mpr below
  have missed := List.find?_eq_none.mp missing connection listed
  simp [same] at missed

/-- A call that finds a connection is prompt exactly when the connection is established. -/
theorem reuse_iff (connection : Nat) :
    (node.sockets.read connection).established = true ↔
      Prompt ((node.onInit node.calls.length connection).finish (some connection)) := by
  have counted : ∀ other,
      runs ((node.onInit node.calls.length connection).finish (some connection)) other =
        runs node other + if node.calls.length = other then 1 else 0 :=
    runs_onInit node.calls.length connection
  have calls : ∀ call other : Nat, ((node.onInit node.calls.length connection).finish
      (some connection)).calls[call]? = some (some other) ↔
        node.calls[call]? = some (some other) ∨
          call = node.calls.length ∧ some connection = some other := calls_finish _
  constructor
  · intro established
    refine ⟨?_, ?_, tracked.single⟩
    · intro call other returned
      rcases (calls call other).mp returned with earlier | ⟨rfl, same⟩
      · have below := (List.getElem?_eq_some_iff.mp earlier).1
        have before : node.calls.length ≠ call := by omega
        rw [counted, if_neg before]
        exact tracked.once call other earlier
      · rw [Option.some.injEq] at same
        subst same
        rw [counted, runs_current tracked, if_pos rfl]
        exact (if_pos established).symm
    · intro init inside
      rw [calls]
      rcases List.mem_append.mp inside with earlier | current
      · exact .inl (tracked.own init earlier)
      · rw [List.mem_singleton.mp current]
        exact .inr ⟨rfl, rfl⟩
  · intro prompt
    by_contra unsettled
    have ran := prompt.once node.calls.length connection ((calls _ _).mpr (.inr ⟨rfl, rfl⟩))
    have waits : (if (node.sockets.read connection).established then 1 else 0) = 0 :=
      if_neg unsettled
    rw [counted, runs_current tracked, if_pos rfl] at ran
    change 0 + 1 = if (node.sockets.read connection).established then 1 else 0 at ran
    omega

/-- A call that finds an established connection keeps the invariant. -/
theorem tracked_reuse {connection : Nat} (known : connection < node.sockets.next)
    (established : (node.sockets.read connection).established = true) :
    Tracked ((node.onInit node.calls.length connection).finish (some connection)) where
  toPrompt := (reuse_iff tracked connection).mp established
  listed := tracked.listed
  callback other below := (calls_finish _ _ _).mpr (.inl (tracked.callback other below))
  returned call other returned := by
    rcases (calls_finish _ _ _).mp returned with earlier | ⟨-, same⟩
    · exact tracked.returned call other earlier
    · rw [Option.some.injEq] at same
      exact same ▸ known
  waiting call other returned unsettled := by
    rcases (calls_finish _ _ _).mp returned with earlier | ⟨-, same⟩
    · exact tracked.waiting call other earlier unsettled
    · rw [Option.some.injEq] at same
      subst same
      change (node.sockets.read connection).established = false at unsettled
      rw [established] at unsettled
      cases unsettled

/-- A call that raises keeps the invariant. -/
theorem tracked_raised : Tracked (node.finish none) := by
  have calls : ∀ call connection : Nat, (node.finish none).calls[call]? = some (some connection) ↔
      node.calls[call]? = some (some connection) := by
    intro call connection
    rw [calls_finish]
    simp
  exact {
    once := fun call connection returned =>
      tracked.once call connection ((calls call connection).mp returned)
    own := fun init inside => (calls init.1 init.2).mpr (tracked.own init inside)
    single := tracked.single
    listed := tracked.listed
    callback := fun connection below => (calls _ _).mpr (tracked.callback connection below)
    returned := fun call connection returned =>
      tracked.returned call connection ((calls call connection).mp returned)
    waiting := fun call connection returned =>
      tracked.waiting call connection ((calls call connection).mp returned) }

/-- A call that opens a connection keeps the invariant. -/
theorem tracked_connected {uri : String} (missing : node.connectionTo uri = none) :
    Tracked ((node.connect uri).2.finish (some (node.connect uri).1)) := by
  have absent := connectionTo_none tracked missing
  have read : ∀ connection, (node.connect uri).2.sockets.read connection =
      if connection = node.sockets.next then ⟨uri, node.calls.length, false⟩
      else node.sockets.read connection := fun connection => Heap.read_alloc_eq _ _ _
  have old : ∀ connection < node.sockets.next,
      (node.connect uri).2.sockets.read connection = node.sockets.read connection := by
    intro connection below
    have other : connection ≠ node.sockets.next := by omega
    rw [read, if_neg other]
  have new : (node.connect uri).2.sockets.read node.sockets.next =
      ⟨uri, node.calls.length, false⟩ := by rw [read, if_pos rfl]
  have calls : ∀ call connection : Nat, ((node.connect uri).2.finish
      (some (node.connect uri).1)).calls[call]? = some (some connection) ↔
        node.calls[call]? = some (some connection) ∨
          call = node.calls.length ∧ node.sockets.next = connection := by
    intro call connection
    rw [calls_finish, Option.some.injEq]
    exact Iff.rfl
  constructor
  · constructor
    · intro call connection returned
      rcases (calls call connection).mp returned with earlier | ⟨rfl, rfl⟩
      · have once := tracked.once call connection earlier
        have below := tracked.returned call connection earlier
        rw [← old connection below] at once
        exact once
      · change runs node node.calls.length =
          if ((node.connect uri).2.sockets.read node.sockets.next).established then 1 else 0
        rw [runs_current tracked, new]
        rfl
    · intro init inside
      exact (calls init.1 init.2).mpr (.inl (tracked.own init inside))
    · intro first firstBelow second secondBelow same
      change first < node.sockets.next + 1 at firstBelow
      change second < node.sockets.next + 1 at secondBelow
      change ((node.connect uri).2.sockets.read first).url =
        ((node.connect uri).2.sockets.read second).url at same
      rcases Nat.lt_succ_iff_lt_or_eq.mp firstBelow with firstOld | rfl <;>
        rcases Nat.lt_succ_iff_lt_or_eq.mp secondBelow with secondOld | rfl
      · rw [old first firstOld, old second secondOld] at same
        exact tracked.single first firstOld second secondOld same
      · rw [old first firstOld, new] at same
        exact absurd same (absent first firstOld)
      · rw [old second secondOld, new] at same
        exact absurd same.symm (absent second secondOld)
      · rfl
  · change node.connections ++ [node.sockets.next] = List.range (node.sockets.next + 1)
    rw [tracked.listed, List.range_succ]
  · intro connection below
    change connection < node.sockets.next + 1 at below
    rw [calls]
    change node.calls[((node.connect uri).2.sockets.read connection).callback]? = _ ∨
      ((node.connect uri).2.sockets.read connection).callback = _ ∧ _
    rcases Nat.lt_succ_iff_lt_or_eq.mp below with earlier | rfl
    · rw [old connection earlier]
      exact .inl (tracked.callback connection earlier)
    · rw [new]
      exact .inr ⟨rfl, rfl⟩
  · intro call connection returned
    change connection < node.sockets.next + 1
    rcases (calls call connection).mp returned with earlier | ⟨-, rfl⟩
    · have below := tracked.returned call connection earlier
      omega
    · omega
  · intro call connection returned unsettled
    change call = ((node.connect uri).2.sockets.read connection).callback
    change ((node.connect uri).2.sockets.read connection).established = false at unsettled
    rcases (calls call connection).mp returned with earlier | ⟨rfl, rfl⟩
    · rw [old connection (tracked.returned call connection earlier)] at unsettled ⊢
      exact tracked.waiting call connection earlier unsettled
    · rw [new]

/-- A handshake that completes keeps the invariant: the one call that waits is served. -/
theorem tracked_handshake {connection : Nat} (known : connection < node.sockets.next)
    (fresh : (node.sockets.read connection).established = false) :
    Tracked (node.handshake connection) := by
  have read : ∀ other, (node.handshake connection).sockets.read other =
      if other = connection then { node.sockets.read connection with established := true }
      else node.sockets.read other := fun other => Heap.read_write _ _ _ _
  have counted : ∀ call, runs (node.handshake connection) call =
      runs node call + if (node.sockets.read connection).callback = call then 1 else 0 :=
    runs_onInit (node.sockets.read connection).callback connection
  have urls : ∀ other, ((node.handshake connection).sockets.read other).url =
      (node.sockets.read other).url := by
    intro other
    rw [read]
    split
    · next same => rw [same]
    · rfl
  have callbacks : ∀ other, ((node.handshake connection).sockets.read other).callback =
      (node.sockets.read other).callback := by
    intro other
    rw [read]
    split
    · next same => rw [same]
    · rfl
  have own := tracked.callback connection known
  constructor
  · constructor
    · intro call other returned
      have before := tracked.once call other returned
      rw [counted, read, before]
      by_cases same : other = connection
      · subst same
        rw [if_pos rfl, fresh, tracked.waiting call other returned fresh]
        simp
      · have elsewhere : (node.sockets.read connection).callback ≠ call := by
          rintro rfl
          change node.calls[(node.sockets.read connection).callback]? =
            some (some other) at returned
          rw [own, Option.some.injEq, Option.some.injEq] at returned
          exact same returned.symm
        rw [if_neg same, if_neg elsewhere, Nat.add_zero]
    · intro init inside
      rcases List.mem_append.mp inside with earlier | current
      · exact tracked.own init earlier
      · rw [List.mem_singleton.mp current]
        exact own
    · intro first firstBelow second secondBelow same
      rw [urls, urls] at same
      exact tracked.single first firstBelow second secondBelow same
  · exact tracked.listed
  · intro other below
    rw [callbacks]
    exact tracked.callback other below
  · exact tracked.returned
  · intro call other returned unsettled
    rw [read] at unsettled
    rw [callbacks]
    by_cases same : other = connection
    · rw [if_pos same] at unsettled
      cases unsettled
    · rw [if_neg same] at unsettled
      exact tracked.waiting call other returned unsettled

variable {event : WSEvent} {next : WS} (stepped : machine.step node event = some next)
include stepped

/-- An event without an unsettled connection keeps the invariant. -/
theorem tracked_step (settled : Settled node event next) : Tracked next := by
  cases step_cases stepped with
  | reuse uri connects connection found =>
    exact tracked_reuse tracked (connectionTo_some tracked found)
      (settled uri connects rfl connection found)
  | connected uri missing => exact tracked_connected tracked missing
  | raised uri missing => exact tracked_raised tracked
  | handshake connection known fresh => exact tracked_handshake tracked known fresh

/-- An event after which every block was run as it should is one without an unsettled
connection. -/
theorem settled_of_prompt (prompt : Prompt next) : Settled node event next := by
  rintro uri connects rfl connection found
  have reused : next =
      (node.onInit node.calls.length connection).finish (some connection) := by
    change some (node.initClient uri connects) = some next at stepped
    rw [initClient, found] at stepped
    exact (Option.some.inj stepped).symm
  rw [reused] at prompt
  exact (reuse_iff tracked connection).mpr prompt

end Steps

/-- **Messages go out on established sockets as long as no call finds an unsettled one.** In every
sequence of calls of `init_client` and completed handshakes, all blocks are run as they should, at
every moment, if and only if no call finds a connection whose handshake is still under way. -/
theorem blocks_prompt_iff (events : List WSEvent) :
    machine.Along (fun _ _ next => Prompt next) WS.new events ↔
      machine.Along Settled WS.new events := by
  refine machine.along_iff Tracked (fun _ _ next => Prompt next) Settled ?_ ?_ events WS.new
    tracked_new
  · intro node event next tracked stepped
    constructor
    · exact settled_of_prompt tracked stepped
    · intro settled
      exact (tracked_step tracked stepped settled).toPrompt
  · intro node event next tracked stepped settled
    exact tracked_step tracked stepped settled

/-- Two calls for one uri before the handshake: the second block is run at once, on a connection
that is not established. -/
theorem block_run_early :
    ∃ node, machine.run WS.new
        [.initClient "ws://localhost" true, .initClient "ws://localhost" true] = some node ∧
      node.inits = [(1, 0)] ∧ (node.sockets.read 0).established = false ∧ ¬Prompt node := by
  refine ⟨_, rfl, rfl, rfl, ?_⟩
  intro prompt
  have ran := prompt.once 1 0 rfl
  cases ran

end Rjr.Verif.Handshakes
