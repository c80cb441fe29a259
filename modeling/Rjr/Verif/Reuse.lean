import Mathlib.Data.List.Nodup
import Mathlib.Data.List.Pairwise
import Rjr.Nodes.InitClient

/-!
# Reuse of connections

A connection given to an invoke should be to its destination and still open, and there should be
one connection to a destination. On a TCP node this holds in every sequence of events, since a
connection leaves `@connections` when it is unbound. A Unix node never removes a connection, so a
connection that was closed is found and given out again; that is the only way it goes wrong.
-/

namespace Rjr.Verif.Reuse

open Nodes SocketNode

variable {δ : Type}

/-- The destinations of the listed connections that the node has opened. -/
def opened (node : SocketNode δ) : List δ :=
  node.connections.filterMap fun connection => (node.sockets.read connection).destination

/-- An event is safe: a connection given out is to the destination asked for and was not unbound,
and no two listed connections were opened to one destination. -/
structure Safe (node : SocketNode δ) (event : SocketEvent δ) (next : SocketNode δ) : Prop where
  /-- The connection given out is to the destination and open. -/
  given : ∀ destination connects, event = .initClient destination connects →
    next.given = node.given ∨ ∃ connection,
      next.given = node.given ++ [(destination, connection)] ∧
        next.sockets.read connection = ⟨some destination, false⟩
  /-- Nothing else is given out. -/
  quiet : (∀ destination connects, event ≠ .initClient destination connects) →
    next.given = node.given
  /-- One connection to a destination. -/
  single : (opened next).Nodup

/-- No listed connection to the destination that is asked for was unbound. -/
def NoStale (node : SocketNode δ) (event : SocketEvent δ) (_next : SocketNode δ) : Prop :=
  ∀ destination connects, event = .initClient destination connects →
    ∀ connection ∈ node.connections,
      (node.sockets.read connection).destination = some destination →
        (node.sockets.read connection).unbound = false

/-- The listed connections exist, and there is one to a destination. -/
structure Kept (node : SocketNode δ) : Prop where
  /-- Listed connections exist. -/
  known : ∀ connection ∈ node.connections, connection < node.sockets.next
  /-- One connection to a destination. -/
  single : (opened node).Nodup

/-- A node without connections. -/
theorem kept_new : Kept (SocketNode.new : SocketNode δ) := ⟨nofun, List.nodup_nil⟩

section Operations

variable {node : SocketNode δ} (kept : Kept node)

/-- A connection is opened and listed. -/
def openConnection (node : SocketNode δ) (destination : Option δ) : Nat × SocketNode δ :=
  let created := node.create destination
  (created.1, created.2.addConnection created.1)

/-- What is read after a connection was created. -/
theorem read_create (destination : Option δ) (connection : Nat) :
    (node.create destination).2.sockets.read connection =
      if connection = node.sockets.next then ⟨destination, false⟩
      else node.sockets.read connection := Heap.read_alloc_eq _ _ _

include kept

/-- Creating a connection object changes no listed one. -/
theorem opened_create (destination : Option δ) :
    opened (node.create destination).2 = opened node := by
  apply List.filterMap_congr
  intro connection inside
  have below := kept.known connection inside
  have other : connection ≠ node.sockets.next := by omega
  rw [read_create, if_neg other]

/-- Creating a connection object without listing it keeps what is listed. -/
theorem kept_create (destination : Option δ) : Kept (node.create destination).2 where
  known connection inside := by
    have below := kept.known connection inside
    change connection < node.sockets.next + 1
    omega
  single := by
    rw [opened_create kept]
    exact kept.single

/-- An opened connection is listed after the others. -/
theorem opened_open (destination : Option δ) :
    opened (openConnection node destination).2 = opened node ++ destination.toList := by
  change ((node.connections ++ [node.sockets.next]).filterMap fun connection =>
    ((node.create destination).2.sockets.read connection).destination) = _
  rw [List.filterMap_append]
  congr 1
  · exact opened_create kept destination
  · rw [List.filterMap_cons, read_create, if_pos rfl]
    cases destination <;> rfl

/-- Opening a connection to a new destination keeps one connection to a destination. -/
theorem kept_open (destination : Option δ)
    (absent : ∀ wanted, destination = some wanted → wanted ∉ opened node) :
    Kept (openConnection node destination).2 where
  known connection inside := by
    change connection ∈ node.connections ++ [node.sockets.next] at inside
    change connection < node.sockets.next + 1
    rcases List.mem_append.mp inside with old | new
    · have below := kept.known connection old
      omega
    · rw [List.mem_singleton.mp new]
      omega
  single := by
    rw [opened_open kept]
    cases destination with
    | none =>
      rw [Option.toList_none, List.append_nil]
      exact kept.single
    | some wanted =>
      refine kept.single.append (List.nodup_singleton wanted) ?_
      exact List.disjoint_singleton.mpr (absent wanted rfl)

omit kept in
/-- Closing a connection leaves the destinations as they are. -/
theorem opened_close (connection : Nat) : opened (node.close connection) = opened node := by
  apply List.filterMap_congr
  intro other _
  change ((node.sockets.write connection _).read other).destination = _
  rw [Heap.read_write]
  by_cases same : other = connection
  · rw [if_pos same, same]
  · rw [if_neg same]

/-- Closing a connection keeps what is listed. -/
theorem kept_close (connection : Nat) : Kept (node.close connection) where
  known := kept.known
  single := by
    rw [opened_close]
    exact kept.single

/-- Removing a connection keeps the others. -/
theorem kept_remove (connection : Nat) : Kept (node.removeConnection connection) where
  known other inside := kept.known other (List.mem_filter.mp inside).1
  single := kept.single.sublist (List.filter_sublist.filterMap _)

/-- Two listed connections to one destination are one. -/
theorem connection_unique {first second : Nat} {destination : δ}
    (firstListed : first ∈ node.connections) (secondListed : second ∈ node.connections)
    (firstTo : (node.sockets.read first).destination = some destination)
    (secondTo : (node.sockets.read second).destination = some destination) : first = second := by
  have apart := List.pairwise_filterMap.mp kept.single
  have symmetric : Std.Symm fun first second : Nat =>
      ∀ left, (node.sockets.read first).destination = some left →
        ∀ right, (node.sockets.read second).destination = some right → left ≠ right :=
    ⟨fun _ _ differ left isLeft right isRight => (differ right isRight left isLeft).symm⟩
  by_contra differ
  exact apart.forall firstListed secondListed differ destination firstTo destination secondTo rfl

end Operations

/-! ## The two classes -/

variable [DecidableEq δ]

/-- The search finds a listed connection to the destination. -/
theorem connectionTo_some {node : SocketNode δ} {destination : δ} {connection : Nat}
    (found : node.connectionTo destination = some connection) :
    connection ∈ node.connections ∧
      (node.sockets.read connection).destination = some destination :=
  ⟨List.mem_of_find?_eq_some found, by simpa using List.find?_some found⟩

/-- The search fails when there is no connection to the destination. -/
theorem connectionTo_none {node : SocketNode δ} {destination : δ}
    (missing : node.connectionTo destination = none) : destination ∉ opened node := by
  intro inside
  obtain ⟨connection, listed, isTo⟩ := List.mem_filterMap.mp inside
  have missed := List.find?_eq_none.mp missing connection listed
  simp [isTo] at missed

/-- `init_client` as both classes have it: one that opens a connection lists it. -/
abbrev reuse (node : SocketNode δ) (destination : δ) (connects : Bool) : SocketNode δ :=
  initClient (fun node destination => openConnection node (some destination)) node destination
    connects

/-- A TCP node lists the connections it opens, in the connection's initializer. -/
theorem tcp_initClient : TCP.initClient = reuse := rfl

/-- A Unix node lists the connections it opens, in `init_client`. -/
theorem unix_initClient : Unix.initClient = reuse := rfl

/-- A listed connection is given out. -/
theorem reuse_found {node : SocketNode δ} {destination : δ} {connection : Nat}
    (found : node.connectionTo destination = some connection) (connects : Bool) :
    reuse node destination connects = node.onInit destination connection := by
  simp only [reuse, initClient, found]

/-- Without one, a new connection is listed and given out, if it can be opened. -/
theorem reuse_missing {node : SocketNode δ} {destination : δ}
    (missing : node.connectionTo destination = none) (connects : Bool) :
    reuse node destination connects =
      if connects then
        (openConnection node (some destination)).2.onInit destination node.sockets.next
      else node := by
  simp only [reuse, initClient, missing]
  rfl

section InitClient

variable {node : SocketNode δ} (kept : Kept node) (destination : δ) (connects : Bool)

include kept

/-- `init_client` keeps one connection to a destination. -/
theorem kept_reuse : Kept (reuse node destination connects) := by
  cases found : node.connectionTo destination with
  | some connection =>
    rw [reuse_found found]
    exact ⟨kept.known, kept.single⟩
  | none =>
    have opens := kept_open kept (some destination) (by
      rintro _ ⟨⟩
      exact connectionTo_none found)
    rw [reuse_missing found]
    split
    · exact ⟨opens.known, opens.single⟩
    · exact kept

/-- `init_client` is safe exactly when no listed connection to the destination was unbound. -/
theorem safe_reuse_iff :
    Safe node (.initClient destination connects) (reuse node destination connects) ↔
      NoStale node (.initClient destination connects) (reuse node destination connects) := by
  have single := (kept_reuse kept destination connects).single
  have quiet : (∀ other connects', SocketEvent.initClient destination connects ≠
      .initClient other connects') →
        (reuse node destination connects).given = node.given :=
    fun none => absurd rfl (none destination connects)
  cases found : node.connectionTo destination with
  | some connection =>
    obtain ⟨listed, isTo⟩ := connectionTo_some found
    have reused := reuse_found found connects
    constructor
    · rintro safe _ _ ⟨⟩ other otherListed otherTo
      have same := connection_unique kept otherListed listed otherTo isTo
      rcases safe.given destination connects rfl with silent | ⟨given, calls, isGiven⟩
      · rw [reused] at silent
        simp [onInit] at silent
      · rw [reused] at calls isGiven
        have isConnection : connection = given := by simpa [onInit] using calls
        rw [same, isConnection]
        exact congrArg Socket.unbound isGiven
    · intro fresh
      refine ⟨?_, quiet, single⟩
      rintro _ _ ⟨⟩
      have bound := fresh destination connects rfl connection listed isTo
      rw [reused]
      refine .inr ⟨connection, rfl, ?_⟩
      change node.sockets.read connection = _
      cases socket : node.sockets.read connection with
      | mk isDestination unbound =>
        rw [socket] at isTo bound
        cases isTo
        cases bound
        rfl
  | none =>
    refine iff_of_true ⟨?_, quiet, single⟩ ?_
    · rintro _ _ ⟨⟩
      rw [reuse_missing found]
      cases connects with
      | false => exact .inl rfl
      | true =>
        refine .inr ⟨node.sockets.next, rfl, ?_⟩
        change (node.create (some destination)).2.sockets.read node.sockets.next = _
        rw [read_create, if_pos rfl]
    · rintro _ _ ⟨⟩ connection listed isTo
      exact absurd (List.mem_filterMap.mpr ⟨connection, listed, isTo⟩) (connectionTo_none found)

end InitClient

omit [DecidableEq δ] in
/-- An event that gives nothing out and keeps one connection to a destination is safe, and no
connection is asked for. -/
theorem safe_other (node : SocketNode δ) (event : SocketEvent δ) {next : SocketNode δ}
    (kept : Kept next) (given : next.given = node.given)
    (other : ∀ destination connects, event ≠ .initClient destination connects) :
    Safe node event next ∧ NoStale node event next :=
  ⟨⟨fun destination connects same => absurd same (other destination connects), fun _ => given,
    kept.single⟩, fun destination connects same => absurd same (other destination connects)⟩

/-- The listed connections of a TCP node were not unbound. -/
def Bound (node : SocketNode δ) : Prop :=
  ∀ connection ∈ node.connections, (node.sockets.read connection).unbound = false

omit [DecidableEq δ] in
/-- A new connection is not unbound. -/
theorem bound_open {node : SocketNode δ} (bound : Bound node) (destination : Option δ) :
    Bound (openConnection node destination).2 := by
  intro connection inside
  change ((node.create destination).2.sockets.read connection).unbound = false
  rw [read_create]
  by_cases same : connection = node.sockets.next
  · rw [if_pos same]
  · rw [if_neg same]
    rcases List.mem_append.mp inside with old | new
    · exact bound connection old
    · exact absurd (List.mem_singleton.mp new) same

/-- A TCP connection that is unbound is not listed any more. -/
theorem bound_unbind {node : SocketNode (String × Nat)} (bound : Bound node) (connection : Nat) :
    Bound (TCPConnection.unbind node connection) := by
  intro other inside
  obtain ⟨listed, differs⟩ := List.mem_filter.mp inside
  change ((node.sockets.write connection _).read other).unbound = false
  rw [Heap.read_write, if_neg (by simpa using differs)]
  exact bound other listed

/-- Every event of a TCP node is safe and keeps its listed connections bound. -/
theorem tcp_step {node next : SocketNode (String × Nat)} {event : SocketEvent (String × Nat)}
    (kept : Kept node) (bound : Bound node) (stepped : TCP.machine.step node event = some next) :
    Safe node event next ∧ Kept next ∧ Bound next := by
  cases event with
  | initClient destination connects =>
    have called : TCP.initClient node destination connects = next := Option.some.inj stepped
    rw [tcp_initClient] at called
    subst called
    refine ⟨(safe_reuse_iff kept destination connects).mpr ?_,
      kept_reuse kept destination connects, ?_⟩
    · exact fun _ _ _ connection listed _ => bound connection listed
    · cases found : node.connectionTo destination with
      | some connection =>
        rw [reuse_found found]
        exact bound
      | none =>
        rw [reuse_missing found]
        split
        · exact bound_open bound (some destination)
        · exact bound
  | accept =>
    cases stepped
    have opens := kept_open kept none nofun
    exact ⟨(safe_other node .accept opens rfl nofun).1, opens, bound_open bound none⟩
  | unbind connection =>
    obtain ⟨-, ⟨⟩⟩ := Option.ite_none_right_eq_some.mp stepped
    have removed := kept_remove (kept_close kept connection) connection
    exact ⟨(safe_other node (.unbind connection) removed rfl nofun).1, removed,
      bound_unbind bound connection⟩

/-- An event of a Unix node is safe exactly when it meets no connection that was unbound. -/
theorem unix_step {node next : SocketNode String} {event : SocketEvent String}
    (kept : Kept node) (stepped : Unix.machine.step node event = some next) :
    (Safe node event next ↔ NoStale node event next) ∧ Kept next := by
  cases event with
  | initClient destination connects =>
    have called : Unix.initClient node destination connects = next := Option.some.inj stepped
    rw [unix_initClient] at called
    subst called
    exact ⟨safe_reuse_iff kept destination connects, kept_reuse kept destination connects⟩
  | accept =>
    cases stepped
    have created := kept_create kept none
    obtain ⟨safe, fresh⟩ := safe_other node .accept created rfl nofun
    exact ⟨iff_of_true safe fresh, created⟩
  | unbind connection =>
    obtain ⟨-, ⟨⟩⟩ := Option.ite_none_right_eq_some.mp stepped
    have closed := kept_close kept connection
    obtain ⟨safe, fresh⟩ := safe_other node (.unbind connection) closed rfl nofun
    exact ⟨iff_of_true safe fresh, closed⟩

/-- **TCP nodes reuse connections safely; Unix nodes do so if and only if they are never asked for
a destination whose connection was unbound.** For every sequence of calls of `init_client`,
accepted connections and unbinds, a connection given out is to the destination and was not
unbound, and no two listed connections were opened to one destination. -/
theorem connections_reused_iff (tcp : List (SocketEvent (String × Nat)))
    (unix : List (SocketEvent String)) :
    TCP.machine.Along Safe SocketNode.new tcp ∧
      (Unix.machine.Along Safe SocketNode.new unix ↔
        Unix.machine.Along NoStale SocketNode.new unix) := by
  constructor
  · apply TCP.machine.along_of_invariant fun node => Kept node ∧ Bound node
    · exact fun node event next inside stepped => (tcp_step inside.1 inside.2 stepped).1
    · exact fun node event next inside stepped => (tcp_step inside.1 inside.2 stepped).2
    · exact ⟨kept_new, nofun⟩
  · apply Unix.machine.along_iff Kept
    · exact fun node event next kept stepped => (unix_step kept stepped).1
    · exact fun node event next kept stepped _ => (unix_step kept stepped).2
    · exact kept_new

/-- A connection is opened, closes, and is asked for again. -/
def reopened : List (SocketEvent String) :=
  [.initClient "rjr" true, .unbind 0, .initClient "rjr" true]

/-- **A Unix node gives out a closed connection.** -/
theorem closed_connection_given :
    ∃ node, Unix.machine.run SocketNode.new reopened = some node ∧
      node.given = [("rjr", 0), ("rjr", 0)] ∧ (node.sockets.read 0).unbound = true ∧
      ¬ Unix.machine.Along Safe SocketNode.new reopened := by
  refine ⟨_, rfl, rfl, rfl, ?_⟩
  intro along
  have last := Unix.machine.along_rest Safe [.initClient "rjr" true] (reopened.take 2) _ _ along rfl
  rcases (last _ rfl).1.given "rjr" true rfl with silent | ⟨connection, calls, bound⟩
  · exact absurd (congrArg List.length silent) (by decide)
  · obtain ⟨-, rfl⟩ := Prod.mk.inj (List.cons.inj (List.append_cancel_left calls)).1
    exact absurd (congrArg Socket.unbound bound) (by decide)

end Rjr.Verif.Reuse
