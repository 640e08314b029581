import CognitiveRuntime.Graph.Validation
import CognitiveRuntime.Properties.TopologicalOrder

/-!
# Graph validation is exact

Validation finds nothing in a graph exactly when the graph is well
formed: distinct ids, a terminal node among them, edges between nodes,
and no cycle. The last two are what the topological sort decides.
-/

namespace CognitiveRuntime

open Ordered Fallible Relation

/-- What a valid execution graph is. -/
structure WellFormedGraph (g : ExecutionGraph) : Prop where
  distinct : g.nodeIds.Nodup
  terminal : g.terminalNode ∈ g.nodeIds
  ends : EndsIn g.nodeIds g.edges
  acyclic : ∀ v, ¬TransGen (PointsTo g.edges) v v

theorem length_firstSeen_iff {l : List String} : l.length = (firstSeen l).length ↔ l.Nodup := by
  constructor
  · intro hlen
    have heq : firstSeen l = l := (firstSeen_sublist l).eq_of_length hlen.symm
    exact heq ▸ nodup_firstSeen l
  · intro hnodup
    rw [firstSeen_of_nodup hnodup]

/-- The sort contributes no finding exactly when it succeeds. -/
theorem graphFindings_eq_nil {g : ExecutionGraph} :
    graphFindings g = [] ↔ g.nodeIds.Nodup ∧ g.terminalNode ∈ g.nodeIds
      ∧ ∃ order, topologicalOrder g.nodeIds g.edges = .ok order := by
  unfold graphFindings
  dsimp only
  rw [List.append_eq_nil_iff, List.append_eq_nil_iff, and_assoc]
  refine and_congr ?_ (and_congr ?_ ?_)
  · rw [← length_firstSeen_iff]
    by_cases hlen : g.nodeIds.length = (firstSeen g.nodeIds).length <;> simp [hlen]
  · by_cases hterminal : g.terminalNode ∈ g.nodeIds <;> simp [hterminal]
  · cases topologicalOrder g.nodeIds g.edges <;> simp

theorem graphFindings_iff {g : ExecutionGraph} : graphFindings g = [] ↔ WellFormedGraph g := by
  rw [graphFindings_eq_nil]
  constructor
  · rintro ⟨hnodup, hterminal, horder⟩
    obtain ⟨hends, hacyclic⟩ := (topologicalOrder_ok_iff hnodup).mp horder
    exact ⟨hnodup, hterminal, hends, hacyclic⟩
  · intro h
    exact ⟨h.distinct, h.terminal, (topologicalOrder_ok_iff h.distinct).mpr ⟨h.ends, h.acyclic⟩⟩

theorem validate_of_fromMapping {doc : Json} {g : ExecutionGraph}
    (h : ExecutionGraph.fromMapping doc = .ok g) :
    validateExecutionGraphMapping doc = graphFindings g := by
  unfold validateExecutionGraphMapping
  rw [h]

/-- Validation accepts exactly the well-formed graphs. -/
theorem validation_accepts_iff {doc : Json} {g : ExecutionGraph}
    (h : ExecutionGraph.fromMapping doc = .ok g) :
    validateExecutionGraphMapping doc = [] ↔ WellFormedGraph g := by
  rw [validate_of_fromMapping h, graphFindings_iff]

section Sorted

variable {ids : List String} {edges : List ExecutionGraphEdge} (hnodup : ids.Nodup)
include hnodup

/-- The sort puts every edge forward. -/
theorem topologicalOrder_forward {order : List String}
    (h : topologicalOrder ids edges = .ok order) :
    order.Perm ids ∧ ∀ e ∈ edges, order.idxOf e.fromNode < order.idxOf e.toNode := by
  obtain ⟨hperm, hforward⟩ := topologicalOrder_sound hnodup h
  obtain ⟨hends, -⟩ := (topologicalOrder_ok_iff hnodup).mp ⟨order, h⟩
  refine ⟨hperm, fun e he => ?_⟩
  exact hforward.idxOf_lt (hperm.mem_iff.mpr (hends e he).2) ⟨e, he, rfl, rfl⟩

/-- The sort raises for a missing end or a cycle, and for nothing else. -/
theorem topologicalOrder_error_iff :
    (∃ exc, topologicalOrder ids edges = .error exc) ↔
      (∃ e ∈ edges, e.fromNode ∉ ids ∨ e.toNode ∉ ids) ∨ ∃ v, TransGen (PointsTo edges) v v := by
  have hfails : (∃ exc, topologicalOrder ids edges = .error exc) ↔
      ¬∃ order, topologicalOrder ids edges = .ok order := by
    cases topologicalOrder ids edges <;> simp
  rw [hfails, topologicalOrder_ok_iff hnodup, not_and_or]
  unfold EndsIn Reach.OffCycle
  push Not
  simp only [imp_iff_not_or]

end Sorted

/-- Validation accepts exactly the well-formed graphs, and on distinct
ids the sort puts every edge forward or raises, for a missing end or a
cycle and for nothing else. -/
theorem graph_validation_exact (doc : Json) (g : ExecutionGraph)
    (hdoc : ExecutionGraph.fromMapping doc = .ok g) (ids : List String)
    (edges : List ExecutionGraphEdge) (hnodup : ids.Nodup) :
    (validateExecutionGraphMapping doc = [] ↔ WellFormedGraph g)
      ∧ (∀ order, topologicalOrder ids edges = .ok order → order.Perm ids
          ∧ ∀ e ∈ edges, order.idxOf e.fromNode < order.idxOf e.toNode)
      ∧ ((∃ exc, topologicalOrder ids edges = .error exc) ↔
          (∃ e ∈ edges, e.fromNode ∉ ids ∨ e.toNode ∉ ids)
            ∨ ∃ v, TransGen (PointsTo edges) v v) :=
  ⟨validation_accepts_iff hdoc, fun _ => topologicalOrder_forward hnodup,
    topologicalOrder_error_iff hnodup⟩

/-- A graph with two ways from its first node to its last, one of them
listed twice. -/
def diamondGraph : ExecutionGraph :=
  let node := fun id : String => ({
    id := id, phase := "P2_TASK_ROUTING", kernelRefs := [], outputs := [], status := none
    obligationRefs := [], inputs := [], entryGates := [], exitGates := []
    evidenceRequirements := [], failureRoutes := [], disposition := none } : ExecutionGraphNode)
  let edge := fun source target : String =>
    ({ fromNode := source, toNode := target, reason := none } : ExecutionGraphEdge)
  { graphId := "graph.diamond", sourceContract := "diamond"
    nodes := [node "last", node "left", node "first", node "right"]
    edges := [edge "first" "right", edge "left" "last", edge "first" "left",
      edge "first" "right", edge "right" "last"]
    terminalNode := "last", validationGates := [], obligationRefs := []
    terminalDisposition := none }

/-- The diamond is accepted, and so has no cycle. -/
theorem diamond_well_formed : WellFormedGraph diamondGraph :=
  (graph_validation_exact diamondGraph.toJson diamondGraph (fromMapping_toJson _)
    diamondGraph.nodeIds diamondGraph.edges (by decide)).1.mp
    (by rw [validate_of_fromMapping (fromMapping_toJson _)]; decide)

end CognitiveRuntime
