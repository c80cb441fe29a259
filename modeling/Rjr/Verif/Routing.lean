import Rjr.Nodes.Easy

/-!
# Routing by the form of a destination

An easy node should send a call over the transport its destination names. The patterns of
`node_type_for` are tried one after the other and are not anchored, so a scheme is recognised
wherever it stands in the string: a destination whose path or query holds another scheme goes to
the transport whose pattern is tried first. That is the only way in which the rest of a
destination matters.
-/

namespace Rjr.Verif.Routing

open Nodes Nodes.Easy Pattern

/-- The schemes a destination can have. -/
inductive Scheme where
  /-- `tcp`. -/
  | tcp
  /-- `jsonrpc`. -/
  | jsonrpc
  /-- `json-rpc`. -/
  | jsonDashRpc
  /-- `ws`. -/
  | ws
  /-- `http`. -/
  | http
  deriving DecidableEq, Repr

namespace Scheme

/-- The text of a scheme. -/
def text : Scheme → String
  | .tcp => "tcp"
  | .jsonrpc => "jsonrpc"
  | .jsonDashRpc => "json-rpc"
  | .ws => "ws"
  | .http => "http"

/-- The transport of a scheme. -/
def nodeType : Scheme → NodeType
  | .tcp | .jsonrpc | .jsonDashRpc => .tcp
  | .ws => .ws
  | .http => .web

/-- A destination with a scheme. -/
def destination (scheme : Scheme) (rest : String) : String := scheme.text ++ "://" ++ rest

/-- The schemes of other transports whose patterns are tried before. -/
def earlier : Scheme → List Scheme
  | .tcp | .jsonrpc | .jsonDashRpc => []
  | .ws => [.tcp, .jsonrpc, .jsonDashRpc]
  | .http => [.tcp, .jsonrpc, .jsonDashRpc, .ws]

end Scheme

/-- A text holds a scheme with its separator. -/
def Holds (scheme : Scheme) (text : String) : Prop :=
  (scheme.text ++ "://").toList <:+: text.toList

/-- The characters of a destination. -/
theorem toList_destination (scheme : Scheme) (rest : String) :
    (scheme.destination rest).toList = (scheme.text ++ "://").toList ++ rest.toList :=
  String.toList_append

/-- The pattern of a scheme finds the scheme of a destination. -/
theorem found_own (scheme : Scheme) (rest : String) :
    foundIn (schemePattern scheme.text) (scheme.destination rest) = true := by
  rw [foundIn_scheme, toList_destination]
  exact (List.prefix_append _ _).isInfix

/-- No earlier scheme stands across the end of the scheme of a destination. -/
theorem apart_earlier (scheme other : Scheme) (before : other ∈ scheme.earlier) :
    Apart (other.text ++ "://").toList (scheme.text ++ "://").toList := by
  cases scheme <;> cases other <;> first | decide | exact absurd before (by decide)

/-- The pattern of an earlier scheme finds it in the rest of a destination only. -/
theorem found_earlier (scheme other : Scheme) (before : other ∈ scheme.earlier) (rest : String) :
    foundIn (schemePattern other.text) (scheme.destination rest) = true ↔ Holds other rest := by
  rw [foundIn_scheme, toList_destination]
  exact isInfix_append_iff (apart_earlier scheme other before) rest.toList

/-- The patterns of `node_type_for` in order, as a choice among transports. -/
theorem nodeTypeFor_str (dst : String) :
    nodeTypeFor (.str dst) =
      if foundIn (schemePattern Scheme.tcp.text) dst ||
          foundIn (schemePattern Scheme.jsonrpc.text) dst ||
          foundIn (schemePattern Scheme.jsonDashRpc.text) dst then some .tcp
      else if foundIn (schemePattern Scheme.ws.text) dst then some .ws
      else if foundIn (schemePattern Scheme.http.text) dst then some .web
      else if foundIn queuePattern dst then some .amqp
      else none := rfl

/-- A transport is chosen behind another one exactly when the other one is not. -/
theorem choice_eq_iff {found : Bool} {first type : NodeType} (differs : first ≠ type)
    (rest : Option NodeType) :
    (if found then some first else rest) = some type ↔ ¬ found = true ∧ rest = some type := by
  cases found <;> simp [differs]

/-- A destination goes to the transport of its scheme exactly when its rest holds no scheme that
is tried before. -/
theorem nodeTypeFor_destination (scheme : Scheme) (rest : String) :
    nodeTypeFor (.str (scheme.destination rest)) = some scheme.nodeType ↔
      ∀ other ∈ scheme.earlier, ¬ Holds other rest := by
  have own := found_own scheme rest
  have others := found_earlier scheme
  rw [nodeTypeFor_str]
  cases scheme with
  | tcp =>
    rw [own]
    simp [Scheme.nodeType, Scheme.earlier]
  | jsonrpc =>
    rw [own]
    simp [Scheme.nodeType, Scheme.earlier]
  | jsonDashRpc =>
    rw [own]
    simp [Scheme.nodeType, Scheme.earlier]
  | ws =>
    have tcp := others .tcp (by decide) rest
    have jsonrpc := others .jsonrpc (by decide) rest
    have jsonDashRpc := others .jsonDashRpc (by decide) rest
    rw [Scheme.nodeType, choice_eq_iff (by decide), own]
    simp [Scheme.earlier, ← tcp, ← jsonrpc, ← jsonDashRpc, and_assoc]
  | http =>
    have tcp := others .tcp (by decide) rest
    have jsonrpc := others .jsonrpc (by decide) rest
    have jsonDashRpc := others .jsonDashRpc (by decide) rest
    have ws := others .ws (by decide) rest
    rw [Scheme.nodeType, choice_eq_iff (by decide), choice_eq_iff (by decide), own]
    simp [Scheme.earlier, ← tcp, ← jsonrpc, ← jsonDashRpc, ← ws, and_assoc]

/-- A string without a separator holds no scheme. -/
theorem not_found_scheme (scheme : Scheme) (dst : String)
    (plain : ¬ "://".toList <:+: dst.toList) :
    foundIn (schemePattern scheme.text) dst = false := by
  rw [Bool.eq_false_iff, ne_eq, foundIn_scheme, String.toList_append]
  intro held
  exact plain ((List.suffix_append _ _).isInfix.trans held)

/-- A queue goes to AMQP. -/
theorem nodeTypeFor_queue (dst : String) (queue : "-queue".toList <:+ dst.toList)
    (plain : ¬ "://".toList <:+: dst.toList) : nodeTypeFor (.str dst) = some .amqp := by
  have isQueue : foundIn queuePattern dst = true := by
    obtain ⟨front, whole⟩ := queue
    rw [foundIn_queue]
    exact ⟨front, [], by rw [← whole, List.append_nil], rfl⟩
  have none : ∀ scheme : Scheme, foundIn (schemePattern scheme.text) dst = false :=
    fun scheme => not_found_scheme scheme dst plain
  rw [nodeTypeFor_str, none, none, none, none, none, isQueue]
  rfl

/-- **A destination is routed by its scheme exactly when its rest holds no scheme that is tried
before; a queue is always routed to AMQP.** For every scheme and every rest: `node_type_for`
returns the node class of the scheme if and only if the rest does not hold, anywhere, the scheme of
another transport whose pattern comes earlier. Nothing does for `tcp`, `jsonrpc` and `json-rpc`. -/
theorem routed_by_scheme_iff (scheme : Scheme) (rest dst : String) :
    (nodeTypeFor (.str (scheme.text ++ "://" ++ rest)) = some scheme.nodeType ↔
      ∀ other ∈ scheme.earlier, ¬ (other.text ++ "://").toList <:+: rest.toList) ∧
      ("-queue".toList <:+ dst.toList → ¬ "://".toList <:+: dst.toList →
        nodeTypeFor (.str dst) = some .amqp) :=
  ⟨nodeTypeFor_destination scheme rest, nodeTypeFor_queue dst⟩

/-- A web address with a query, and a queue. -/
theorem routed_by_scheme_query :
    nodeTypeFor (.str "http://localhost/?path=ws:/") = some .web ∧
      nodeTypeFor (.str "dest-queue") = some .amqp := by
  have routed := routed_by_scheme_iff .http "localhost/?path=ws:/" "dest-queue"
  exact ⟨routed.1.mpr (by decide), routed.2 (by decide) (by decide)⟩

/-- A web address whose path holds a TCP address goes to the TCP node, and one whose path holds
the address of a web socket to the node for web sockets. -/
theorem routed_by_path :
    nodeTypeFor (.str "http://localhost/tcp://other") = some .tcp ∧
      nodeTypeFor (.str "http://localhost/ws://other") = some .ws ∧
      nodeTypeFor (.str "ws://localhost/jsonrpc://other") = some .tcp := by
  refine ⟨?_, ?_, ?_⟩
  · decide
  · decide
  · decide

end Rjr.Verif.Routing
