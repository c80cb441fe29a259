import Rjr.Lib.Pattern
import Rjr.Node

/-!
# The easy node

`lib/rjr/nodes/easy.rb`, with what it uses of `lib/rjr/nodes/multi.rb`. An easy node holds one node
for every transport it was configured with, and picks one for every call by the form of the
destination. The form is told by a cascade of regular expressions, none of which is anchored at
the beginning of the string.
-/

namespace Rjr.Nodes

open Pattern

/-! ## The form of a destination -/

/-- The pattern of a scheme, anywhere in a string and followed by anything: `/scheme:\/\/.*/`. -/
def schemePattern (scheme : String) : Pattern := literal (scheme ++ "://").toList ++ [.anything]

/-- The pattern `/.*-queue$/`. -/
def queuePattern : Pattern := .anything :: (literal "-queue".toList ++ [.lineEnd])

/-- `pattern =~ dst`, as a condition. -/
def foundIn (pattern : Pattern) (dst : String) : Bool := search pattern dst.toList

/-- `Easy.node_type_for`. Only a string has a node type. -/
def Easy.nodeTypeFor : Json → Option NodeType
  | .str dst =>
    if foundIn (schemePattern "tcp") dst || foundIn (schemePattern "jsonrpc") dst ||
        foundIn (schemePattern "json-rpc") dst then some .tcp
    else if foundIn (schemePattern "ws") dst then some .ws
    else if foundIn (schemePattern "http") dst then some .web
    else if foundIn queuePattern dst then some .amqp
    else none
  | _ => none

/-! ## The nodes -/

/-- `RJR::Nodes::Multi`. -/
structure Multi where
  /-- The dispatcher all nodes share. -/
  dispatcher : Dispatcher
  /-- The nodes. -/
  nodes : List Node

/-- `Multi#<<`: the node gets the shared dispatcher. -/
def Multi.add (multi : Multi) (node : Node) : Multi :=
  { multi with nodes := multi.nodes ++ [{ node with dispatcher := multi.dispatcher }] }

/-- `Multi#initialize`, given the nodes only. -/
def Multi.new (nodes : List Node) : Multi := nodes.foldl add ⟨Dispatcher.new false, []⟩

/-- The keys of the arguments of an easy node, as its constructor tells them apart. -/
inductive EasyKey where
  /-- `:amqp`. -/
  | amqp
  /-- `:ws`. -/
  | ws
  /-- `:tcp`. -/
  | tcp
  /-- `:web`. -/
  | web
  /-- Any other key. -/
  | other
  deriving DecidableEq, Repr

/-- The transport a key stands for. -/
def EasyKey.nodeType : EasyKey → Option NodeType
  | .amqp => some .amqp
  | .ws => some .ws
  | .tcp => some .tcp
  | .web => some .web
  | .other => none

/-- The node created for a key, from the options under the key; only `AMQP` is indirect. -/
def EasyKey.node (options : EasyKey → NodeArgs) (key : EasyKey) : Option Node :=
  key.nodeType.map fun nodeType =>
    Node.new { options key with nodeType := some nodeType, indirect := key == .amqp }

namespace Easy

/-- `Easy#initialize`: the nodes given, and one for every key that names a transport, in the order
of the keys. -/
def new (nodes : Option (List Node)) (keys : List EasyKey) (options : EasyKey → NodeArgs) :
    Multi :=
  Multi.new (nodes.getD [] ++ keys.filterMap (EasyKey.node options))

/-- `Easy#get_node`: the first node of the type. -/
def getNode (multi : Multi) (dst : Json) : Option Node :=
  match nodeTypeFor dst with
  | some type => multi.nodes.find? fun node => node.nodeType == some type
  | none => none

/-- What `Easy#invoke` and `Easy#notify` share: the call is passed to the node for the
destination, and `nil` has no such method. -/
def route {α : Type} (runtime : Runtime) (method : String) (multi : Multi) (dst : Json)
    (call : Node → Except Exn α) : Except Exn α :=
  match getNode multi dst with
  | some node => call node
  | none => .error (runtime.noMethodError method "nil")

/-- `Easy#invoke`, with the `invoke` of the node. -/
def invoke (runtime : Runtime) (multi : Multi) (dst : Json) (call : Node → Except Exn Json) :
    Except Exn Json := route runtime "invoke" multi dst call

/-- `Easy#notify`, with the `notify` of the node. -/
def notify (runtime : Runtime) (multi : Multi) (dst : Json) (call : Node → Except Exn Unit) :
    Except Exn Unit := route runtime "notify" multi dst call

end Easy

/-! ## What is found -/

/-- A scheme is found wherever it stands. -/
theorem foundIn_scheme (scheme dst : String) :
    foundIn (schemePattern scheme) dst = true ↔ (scheme ++ "://").toList <:+: dst.toList :=
  search_word _ _

/-- A queue is a string with a line that ends in `-queue`. -/
theorem foundIn_queue (dst : String) :
    foundIn queuePattern dst = true ↔
      ∃ front back, dst.toList = front ++ "-queue".toList ++ back ∧ atLineEnd back = true := by
  rw [foundIn, queuePattern, search_anything]
  exact search_word_lineEnd _ _

end Rjr.Nodes
