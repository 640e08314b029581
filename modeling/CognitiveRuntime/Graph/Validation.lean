import Mathlib.Algebra.Order.Ring.Unbundled.Rat
import Mathlib.Data.Sum.Order
import Mathlib.Order.WithBot
import CognitiveRuntime.Compiler.Contracts
import CognitiveRuntime.Models.FromMapping

/-!
# Graph validation and scheduling

`validate_execution_graph_mapping` reads a mapping as an execution graph
and reports what is wrong with it. The compatibility scripts under
`runtime/execution_graph` sort the raw mapping with a loop of their own,
which seeds its queue in the order the nodes are listed in.
-/

namespace CognitiveRuntime

open Ordered Fallible

def ExecutionGraph.nodeIds (g : ExecutionGraph) : List String :=
  g.nodes.map ExecutionGraphNode.id

/-- What validation finds in a graph that parsed. -/
def graphFindings (typed : ExecutionGraph) : List String :=
  let ids := typed.nodeIds
  (if ids.length ≠ (firstSeen ids).length then ["duplicate node id"] else [])
    ++ (if typed.terminalNode ∉ ids then ["terminal_node missing from nodes"] else [])
    ++ match topologicalOrder ids typed.edges with
      | .ok _ => []
      | .error exc => [exc.text]

/-- `validate_execution_graph_mapping`. -/
def validateExecutionGraphMapping (graph : Json) : List String :=
  match ExecutionGraph.fromMapping graph with
  | .error exc => [exc.text]
  | .ok typed => graphFindings typed

/-! ## Keys -/

/-- The number a floating-point literal reads as. -/
class FloatValue where
  value : String → ℚ

/-- A key of a dictionary. Equal keys are one key: `True`, `1` and `1.0`
are the same number. -/
inductive DictKey where
  | none
  | num (value : ℚ)
  | str (text : String)

namespace DictKey

/-- The keys side by side, each kind in its own order. -/
def place : DictKey → WithBot (Lex (ℚ ⊕ String))
  | .none => ⊥
  | .num q => ↑(toLex (Sum.inl q : ℚ ⊕ String))
  | .str s => ↑(toLex (Sum.inr s : ℚ ⊕ String))

theorem place_injective : Function.Injective place := by
  intro a b h
  cases a <;> cases b <;> simp_all [place]

instance : LinearOrder DictKey := LinearOrder.lift' place place_injective

/-- `<` is defined between the two: both are numbers or both are strings. -/
def comparable : DictKey → DictKey → Bool
  | .num _, .num _ => true
  | .str _, .str _ => true
  | _, _ => false

end DictKey

/-- What reading and sorting raw lists raises: a `KeyError`, a
`TypeError`, a `ValueError`, or an error of the models. -/
inductive RawError where
  | key (key : DictKey)
  | type (message : String)
  | value (message : String)
  | model (error : RuntimeError)

/-- A value as a key. -/
def dictKey [FloatValue] : Json → Except RawError DictKey
  | .null => .ok .none
  | .bool b => .ok (.num (if b then 1 else 0))
  | .int i => .ok (.num i)
  | .float f => .ok (.num (FloatValue.value f.text))
  | .str s => .ok (.str s)
  | .arr _ => .error (.type "unhashable type: 'list'")
  | .obj _ => .error (.type "unhashable type: 'dict'")

/-- The keys that `<` is defined between, two by two. -/
def Sortable (keys : List DictKey) : Prop :=
  keys.Pairwise fun a b => a.comparable b = true

instance (keys : List DictKey) : Decidable (Sortable keys) :=
  inferInstanceAs (Decidable (keys.Pairwise _))

/-- `sorted`, of keys. -/
def sortedKeys (keys : List DictKey) : Except RawError (List DictKey) := do
  ensure (decide (Sortable keys)) (.type "'<' not supported between these instances")
  .ok (sortedBy id keys)

/-! ## Raw nodes and edges -/

/-- `value[key]`, of a mapping. -/
def itemAt (key : String) (value : Json) : Except RawError Json :=
  require (value.get? key) (.key (.str key))

/-- `mapping[key]` of a mapping that holds a list there. -/
def itemsAt (key : String) (mapping : Json) : Except RawError (List Json) :=
  match mapping.get? key with
  | some (.arr items) => .ok items
  | some _ => .error (.type "not a list")
  | none => .error (.key (.str key))

section Raw

variable [FloatValue]

/-- The ids of raw nodes, as the keys the edges are entered under. -/
def nodeKeys (nodes : List Json) : Except RawError (List DictKey) := do
  let ids ← nodes.mapM (itemAt "id")
  ids.mapM dictKey

/-- The ends of a raw edge, as the graph module reads them. -/
def canonicalEdge (ids : List DictKey) (edge : Json) : Except RawError (DictKey × DictKey) := do
  let fromValue ← itemAt "from" edge
  let toValue ← itemAt "to" edge
  let source ← dictKey fromValue
  ensure (source ∈ ids)
    (.model (.invalidValue "edge references missing node" (some "edges") edge))
  let target ← dictKey toValue
  ensure (target ∈ ids)
    (.model (.invalidValue "edge references missing node" (some "edges") edge))
  .ok (source, target)

/-- The loop of the two sorts of raw lists: the loop of
`topological_order`, which stops at successors that do not compare. -/
def rawLoop (edges : List (DictKey × DictKey)) :
    Nat → List DictKey → Incoming DictKey → List DictKey → Except RawError (List DictKey)
  | 0, _, _, ordered => .ok ordered
  | _ + 1, [], _, ordered => .ok ordered
  | fuel + 1, node :: ready, waiting, ordered => do
    let successors ← sortedKeys (firstSeen ((edges.filter fun e => e.1 = node).map Prod.snd))
    let (waiting, freed) := freeSuccessors node successors waiting
    rawLoop edges fuel (ready ++ freed) waiting (ordered ++ [node])

/-- `topological_order` of the graph module, on raw nodes and edges. -/
def rawTopologicalOrder (nodes edges : List Json) : Except RawError (List DictKey) := do
  let ids ← nodeKeys nodes
  let pairs ← edges.mapM (canonicalEdge ids)
  let ready ← sortedKeys (ids.filter fun id => !pairs.any fun e => e.2 = id)
  let ordered ← rawLoop pairs (ids.length * (pairs.length + 1) ^ ids.length) ready pairs []
  ensure (ordered.length = ids.length)
    (.model (.invalidValue "cycle detected in execution graph" (some "edges") .null))
  .ok ordered

/-! ## The scheduler -/

namespace DependencyResolver

/-- The ends of a raw edge, each a key of the dictionaries the nodes
were entered in. -/
def rawEdge (ids : List DictKey) (edge : Json) : Except RawError (DictKey × DictKey) := do
  let fromValue ← itemAt "from" edge
  let source ← dictKey fromValue
  ensure (source ∈ ids) (.key source)
  let toValue ← itemAt "to" edge
  let target ← dictKey toValue
  ensure (target ∈ ids) (.key target)
  .ok (source, target)

/-- `topological_order` of the dependency resolver. Its loop is that of
the canonical sort; its queue starts as the nodes are listed. -/
def topologicalOrder (nodes edges : List Json) : Except RawError (List DictKey) := do
  let ids ← nodeKeys nodes
  let pairs ← edges.mapM (rawEdge ids)
  let ready := ids.filter fun id => !pairs.any fun e => e.2 = id
  let ordered ← rawLoop pairs (ids.length * (pairs.length + 1) ^ ids.length) ready pairs []
  ensure (ordered.length = ids.length) (.value "cycle detected in execution graph")
  .ok ordered

/-- The order `schedule` puts the nodes of a graph in. -/
def scheduledOrder (graph : Json) : Except RawError (List DictKey) := do
  let nodes ← itemsAt "nodes" graph
  let edges ← itemsAt "edges" graph
  topologicalOrder nodes edges

/-- A node beside its key. -/
def keyedNode (node : Json) : Except RawError (DictKey × Json) := do
  let id ← itemAt "id" node
  let key ← dictKey id
  .ok (key, node)

/-- `schedule`: of two nodes with one id the later stands for both. -/
def schedule (graph : Json) : Except RawError (List Json) := do
  let order ← scheduledOrder graph
  let nodes ← itemsAt "nodes" graph
  let keyed ← nodes.mapM keyedNode
  order.mapM fun id => require ((lastBy Prod.fst id keyed).map Prod.snd) (.key id)

end DependencyResolver

end Raw

end CognitiveRuntime
