import CognitiveRuntime.Properties.ChainOrder
import CognitiveRuntime.Properties.GraphValidation

/-!
# Deriving the graph of a contract

A contract has a graph exactly when it has steps and no two share an id.
The graph is the chain of the steps: sorted topologically it gives the
steps back, so neither the cycle nor the divergence error can come up,
and its serialization is accepted by graph validation.
-/

namespace CognitiveRuntime

open Ordered Fallible Relation

def ExecutionContract.stepIds (contract : ExecutionContract) : List String :=
  contract.executionSteps.map ExecutionStep.stepId

/-- A node carries what its step carries. -/
structure CarriesStep (step : ExecutionStep) (node : ExecutionGraphNode) : Prop where
  id : node.id = step.stepId
  phase : node.phase = step.phase
  kernels : node.kernelRefs = step.kernelRefs
  obligations : node.obligationRefs = step.obligationRefs
  inputs : node.inputs = step.inputRefs
  outputs : node.outputs = step.outputRefs
  entryGates : node.entryGates = step.entryGates
  exitGates : node.exitGates = step.exitGates

/-- The graph is the chain of the contract's steps. -/
structure DerivedFrom (contract : ExecutionContract) (graph : ExecutionGraph) : Prop where
  nodes : List.Forall₂ CarriesStep contract.executionSteps graph.nodes
  edges : edgePairs graph.edges = contract.stepIds.zip contract.stepIds.tail
  order : topologicalOrder graph.nodeIds graph.edges = .ok contract.stepIds
  accepted : validateExecutionGraphMapping graph.toJson = []
  terminal : contract.stepIds.getLast? = some graph.terminalNode
  obligations : graph.obligationRefs = (contract.obligations.filter fun o =>
    o.required && decide (o.disposition = .pending)).map Obligation.obligationId

/-! ## Failure -/

/-- The id check fails for a repeated id and for nothing else. -/
theorem checkStepIds_error : ∀ {ids seen : List String} {e : RuntimeError},
    checkStepIds seen ids = .error e → ∃ id ∈ ids,
      e = .invalidValue "duplicate execution step id" (some "execution_steps")
        (.obj [("step_id", .str id)])
  | id :: rest, seen, e, h => by
      by_cases hseen : id ∈ seen
      · refine ⟨id, List.mem_cons_self .., ?_⟩
        rw [checkStepIds, ensure_bind_of_not (decide_eq_false (not_not.mpr hseen))] at h
        exact (Except.error.inj h).symm
      · rw [checkStepIds, decide_eq_true hseen, ensure_true, ok_bind] at h
        obtain ⟨id', hid', he⟩ := checkStepIds_error h
        exact ⟨id', List.mem_cons_of_mem _ hid', he⟩

/-- Deriving a graph fails on an empty contract or a repeated id. -/
theorem deriveExecutionGraph_error {contract : ExecutionContract} {e : RuntimeError}
    (h : deriveExecutionGraph contract = .error e) :
    (contract.executionSteps = [] ∧ e = .invalidValue "execution_steps required to derive graph"
        (some "execution_steps") .null)
      ∨ ¬contract.stepIds.Nodup ∧ ∃ id ∈ contract.stepIds,
          e = .invalidValue "duplicate execution step id" (some "execution_steps")
            (.obj [("step_id", .str id)]) := by
  by_cases hsteps : contract.executionSteps = []
  · refine Or.inl ⟨hsteps, ?_⟩
    simp only [deriveExecutionGraph, hsteps, List.map_nil, List.getLast?_nil, require,
      error_bind] at h
    exact (Except.error.inj h).symm
  · refine Or.inr ?_
    have hdup : ¬contract.stepIds.Nodup := by
      intro hnodup
      obtain ⟨graph, hgraph, -⟩ := deriveExecutionGraph_chain hsteps hnodup
      rw [hgraph] at h
      cases h
    refine ⟨hdup, ?_⟩
    have hne : contract.stepIds ≠ [] := fun hnil => hsteps (List.map_eq_nil_iff.mp hnil)
    unfold deriveExecutionGraph at h
    dsimp only at h
    rw [show (contract.executionSteps.map ExecutionStep.stepId).getLast?
      = some (contract.stepIds.getLast hne) from List.getLast?_eq_some_getLast hne,
      require_some, ok_bind] at h
    cases hcheck : checkStepIds [] contract.stepIds with
    | ok u => exact absurd (checkStepIds_ok hcheck).1 hdup
    | error e' =>
        have hfirst : checkStepIds [] (contract.executionSteps.map ExecutionStep.stepId)
            = .error e' := hcheck
        rw [hfirst, error_bind] at h
        obtain rfl := Except.error.inj h
        exact checkStepIds_error hcheck

/-! ## Success -/

theorem carriesStep_graphNode (step : ExecutionStep) : CarriesStep step (graphNode step) :=
  ⟨rfl, rfl, rfl, rfl, rfl, rfl, rfl, rfl⟩

/-- Distinct steps derive their chain. -/
theorem derivedFrom_of_nodup {contract : ExecutionContract}
    (hsteps : contract.executionSteps ≠ []) (hnodup : contract.stepIds.Nodup) :
    ∃ graph, deriveExecutionGraph contract = .ok graph ∧ DerivedFrom contract graph := by
  obtain ⟨graph, hgraph, hnodes, hedges, hlast, hrefs⟩ := deriveExecutionGraph_chain hsteps hnodup
  have hids : graph.nodeIds = contract.stepIds := by
    unfold ExecutionGraph.nodeIds
    rw [hnodes, List.map_map]
    rfl
  have horder : topologicalOrder graph.nodeIds graph.edges = .ok contract.stepIds := by
    rw [hids, hedges]
    exact topologicalOrder_chain hnodup
  refine ⟨graph, hgraph, ?_, ?_, horder, ?_, hlast, hrefs⟩
  · rw [hnodes, List.forall₂_map_right_iff, List.forall₂_same]
    exact fun step _ => carriesStep_graphNode step
  · rw [hedges]
    exact chainEdges_pairs _
  · rw [validate_of_fromMapping (fromMapping_toJson graph), graphFindings_eq_nil, hids]
    exact ⟨hnodup, List.mem_of_getLast? hlast, _, hids ▸ horder⟩

/-- A contract has a graph exactly when it has steps of distinct ids;
the graph is their chain; and a failure is an empty contract or a
repeated id. -/
theorem derive_graph_faithful (contract : ExecutionContract) :
    ((∃ graph, deriveExecutionGraph contract = .ok graph) ↔
        contract.executionSteps ≠ [] ∧ contract.stepIds.Nodup)
      ∧ (∀ graph, deriveExecutionGraph contract = .ok graph → DerivedFrom contract graph)
      ∧ ∀ e, deriveExecutionGraph contract = .error e →
          (contract.executionSteps = [] ∧
              e = .invalidValue "execution_steps required to derive graph"
                (some "execution_steps") .null)
            ∨ ¬contract.stepIds.Nodup ∧ ∃ id ∈ contract.stepIds,
              e = .invalidValue "duplicate execution step id" (some "execution_steps")
                (.obj [("step_id", .str id)]) := by
  have hsucceeds : (∃ graph, deriveExecutionGraph contract = .ok graph) ↔
      contract.executionSteps ≠ [] ∧ contract.stepIds.Nodup := by
    constructor
    · rintro ⟨graph, hgraph⟩
      refine ⟨fun hnil => ?_, (deriveExecutionGraph_ok hgraph).2⟩
      simp only [deriveExecutionGraph, hnil, List.map_nil, List.getLast?_nil, require,
        error_bind] at hgraph
      cases hgraph
    · rintro ⟨hsteps, hnodup⟩
      obtain ⟨graph, hgraph, -⟩ := derivedFrom_of_nodup hsteps hnodup
      exact ⟨graph, hgraph⟩
  refine ⟨hsucceeds, fun graph hgraph => ?_, fun e => deriveExecutionGraph_error⟩
  obtain ⟨hsteps, hnodup⟩ := hsucceeds.mp ⟨graph, hgraph⟩
  obtain ⟨graph', hgraph', hderived⟩ := derivedFrom_of_nodup hsteps hnodup
  rw [hgraph] at hgraph'
  obtain rfl := Except.ok.inj hgraph'
  exact hderived

/-- A contract of two steps, named against the order of their ids. -/
def twoStepContract : ExecutionContract :=
  let step := fun id phase : String => ({
    stepId := id, phase := phase, kernelRefs := ["kernels/" ++ id], obligationRefs := []
    inputRefs := [], outputRefs := ["out/" ++ id], entryGates := [], exitGates := []
    evidenceRequirements := [], failureRoutes := ["BLOCKED"] } : ExecutionStep)
  { contractId := "EXECUTION_CONTRACT", contractType := "execution_contract"
    sourceActivationPlan := activationPlanSource, terminalDoctrine := "doctrine"
    objective := "two steps", authorityOrder := defaultAuthorityOrder, kernelActivation := []
    executionSequence := [], validationRequirements := validationRequirements
    outputContract := outputContract, adapterTargets := adapterTargets, version := "1"
    stopConditions := stopConditions
    metadata := { compiledBy := "", pipelineId := "", matchedRoute := "", confidence := "high"
                  phaseKernels := [], kernelDigests := [], authorityOrderSource := ""
                  contextDigest := "" }
    obligations := []
    executionSteps := [step "step.b" "P2_TASK_ROUTING", step "step.a" "P7_FLAWLESS_VICTORY"] }

/-- Its graph is sorted in the order of the steps, not of the ids. -/
theorem twoStep_derived :
    ∃ graph, deriveExecutionGraph twoStepContract = .ok graph
      ∧ topologicalOrder graph.nodeIds graph.edges = .ok ["step.b", "step.a"] := by
  obtain ⟨hsucceeds, hderived, -⟩ := derive_graph_faithful twoStepContract
  obtain ⟨graph, hgraph⟩ := hsucceeds.mpr ⟨by decide, by decide⟩
  exact ⟨graph, hgraph, (hderived graph hgraph).order⟩

end CognitiveRuntime
