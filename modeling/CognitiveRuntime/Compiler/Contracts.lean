import CognitiveRuntime.Compiler.Obligations

/-!
# Execution, validation and handoff contracts, and the graph

Each contract is compiled from the previous one. An execution step
carries the obligations whose kind maps to its phase; the graph is the
chain of the steps in order.
-/

namespace CognitiveRuntime

open Ordered Fallible

/-! ## Execution contract -/

/-- `PHASE_STEP_MAP`. -/
def phaseStep : String → Option String
  | "P0_UNPACK" => some "lock context"
  | "P1_CONSTITUTIONAL_PREFLIGHT" => some "run constitutional preflight"
  | "P2_TASK_ROUTING" => some "apply selected task and architecture kernels"
  | "P3_ARCHITECTURE_DECISION" => some "apply selected task and architecture kernels"
  | "P4_ALIGNMENT_AND_STUB_GATE" => some "run alignment and stub gate"
  | "P5_RECURSIVE_IMPROVEMENT" => some "run recursive improvement"
  | "P6_LEVERAGE_COMPRESSION" => some "run leverage compression"
  | "P7_FLAWLESS_VICTORY" => some "execute terminal doctrine only after gates pass"
  | _ => none

/-- `AUTHORITY_ORDER`: a precedence fallback, never a grant. -/
def defaultAuthorityOrder : List String :=
  ["user task", "kernel activation plan", "repo files", "runtime pipeline contracts",
    "tests and validation evidence", "Unknown"]

def validationRequirements : List String :=
  ["pipeline order validated", "kernel roles unique", "no duplicate active kernels",
    "phase outputs satisfied or blocked with reason",
    "adapter render preserves canonical contract", "no fake validation"]

def stopConditions : List String :=
  ["activation plan missing or invalid", "required kernel unavailable",
    "terminal doctrine requested before gates pass", "validation cannot be run honestly",
    "scope conflict requires operator decision"]

def outputContract : List String :=
  ["summary", "files_changed_or_artifacts_created", "validation_results", "remaining_unknowns",
    "merge_or_execution_readiness", "minimum_safe_next_action", "convergence_block"]

def adapterTargets : List String :=
  ["claude_code", "cursor", "codex", "chatgpt", "human_operator"]

def activationPlanSource : String :=
  "runtime/kernel_pipeline/planner/KERNEL_ACTIVATION_PLAN.yaml"

def pipelinePath : String := "runtime/kernel_pipeline/KERNEL_PIPELINE.yaml"

/-- `kind_phase`: the one phase that realizes an obligation kind. -/
def kindPhase (phases : List String) (terminalTarget : String) : ObligationKind → String
  | .authority => "P1_CONSTITUTIONAL_PREFLIGHT"
  | .realization => "P2_TASK_ROUTING"
  | .architecture => "P3_ARCHITECTURE_DECISION"
  | .epistemic => "P0_UNPACK"
  | .validation =>
    if "P4_ALIGNMENT_AND_STUB_GATE" ∈ phases then "P4_ALIGNMENT_AND_STUB_GATE"
    else "P2_TASK_ROUTING"
  | .delivery | .convergence => terminalTarget

/-- `phase_kernels`: each phase with its bound kernels. -/
def phaseKernels (plan : ActivationPlan) (kernels : List KernelBinding)
    (pipeline : PipelineDefinition) : List (String × List String) :=
  (groupBy Prod.fst (kernels.flatMap fun binding =>
    (plan.phaseSequence.filter fun id =>
      (pipeline.phaseOrder.find? fun phase => phase.id = id).any fun phase =>
        decide (binding.sourceRef ∈ phase.primaryKernels)).map
    fun id => (id, binding.sourceRef))).map fun entry => (entry.1, entry.2.map Prod.snd)

/-- What the steps of one contract are built from. -/
structure StepInputs where
  kernels : List KernelBinding
  pipeline : PipelineDefinition
  phaseKernels : List (String × List String)
  obligations : List Obligation
  phaseOf : ObligationKind → String

namespace StepInputs

variable (inputs : StepInputs)

def kernelsIn (phaseId : String) : List String := (inputs.phaseKernels.lookup phaseId).getD []

def outputsOf (phaseId : String) : List String :=
  let required := ((inputs.pipeline.phaseById phaseId).map
    PipelinePhase.requiredOutputs).getD []
  let declared := (inputs.kernels.filter fun b => b.sourceRef ∈ inputs.kernelsIn phaseId).flatMap
    fun b => b.outputs.map KernelOutput.outputId
  required ++ declared.filter (· ∉ required)

def obligationIds (phaseId : String) : List String :=
  (inputs.obligations.filter fun o => inputs.phaseOf o.kind = phaseId).map
    Obligation.obligationId

def evidence (phaseId : String) : List String :=
  sortedUnique ((inputs.obligationIds phaseId).flatMap fun id =>
    ((lastBy Obligation.obligationId id inputs.obligations).map
      Obligation.evidenceRequirements).getD [])

def exitGates (phaseId : String) : List String :=
  match (inputs.pipeline.phaseById phaseId).bind PipelinePhase.exitGate with
  | some gate => if gate = "" then [] else [gate]
  | none => []

/-- One execution step; its inputs are the previous step's outputs. -/
def step (phaseId : String) (previousOutputs : List String) : ExecutionStep :=
  { stepId := "step." ++ phaseId
    phase := phaseId
    kernelRefs := inputs.kernelsIn phaseId
    obligationRefs := inputs.obligationIds phaseId
    inputRefs := previousOutputs
    outputRefs := inputs.outputsOf phaseId
    entryGates := []
    exitGates := inputs.exitGates phaseId
    evidenceRequirements := inputs.evidence phaseId
    failureRoutes := if phaseId = terminalPhase then ["ABORTED"] else ["BLOCKED", "ABORTED"] }

def steps : List String → List String → List ExecutionStep
  | [], _ => []
  | phaseId :: rest, previousOutputs =>
    inputs.step phaseId previousOutputs :: steps rest (inputs.outputsOf phaseId)

end StepInputs

/-- `terminal_target`: the phase that delivers and converges. -/
def terminalTargetOf (phases : List String) : Except RuntimeError String :=
  if terminalPhase ∈ phases then .ok terminalPhase
  else require phases.getLast? (.missingKey "phase_sequence[-1]")

/-- `ExecutionContractCompiler.compile`. -/
def compileExecution (intent : IntentContract) (plan : ActivationPlan)
    (kernels : List KernelBinding) (pipeline : PipelineDefinition)
    (obligations : List Obligation) (context : CompiledTaskContext) (contextDigest : String) :
    Except RuntimeError ExecutionContract := do
  ensure (plan.blockers = []) (.invalidValue "activation plan has blockers"
    (some "activation_plan") (.obj [("blockers", .ofStrings plan.blockers)]))
  let terminalDoctrine ← require (pipeline.terminalContract.filter fun s => !isBlank s)
    (.invalidValue "pipeline terminal_contract missing" (some pipelinePath) .null)
  let pipelineId ← require (pipeline.pipelineId.filter fun s => !isBlank s)
    (.invalidValue "pipeline pipeline_id missing" (some pipelinePath) .null)
  let sequence ← plan.phaseSequence.mapM fun id =>
    require (phaseStep id) (.invalidValue "phase has no canonical execution step"
      (some "phase_sequence") (.obj [("phase_id", .str id)]))
  let terminalTarget ← terminalTargetOf plan.phaseSequence
  let byPhase := phaseKernels plan kernels pipeline
  let inputs : StepInputs :=
    { kernels := kernels, pipeline := pipeline, phaseKernels := byPhase
      obligations := obligations, phaseOf := kindPhase plan.phaseSequence terminalTarget }
  .ok { contractId := "FINAL_EXECUTION_CONTRACT"
        contractType := "universal_execution_contract"
        sourceActivationPlan := activationPlanSource
        terminalDoctrine := terminalDoctrine
        objective := intent.mission
        -- a governed effective order supersedes the compiler default
        authorityOrder := if context.authority.effectiveOrder ≠ [] then
            context.authority.effectiveOrder else defaultAuthorityOrder
        kernelActivation := kernels.map KernelBinding.sourceRef
        executionSequence := sequence
        validationRequirements := validationRequirements
        outputContract := outputContract
        adapterTargets := adapterTargets
        version := "1.0.0"
        stopConditions := stopConditions
        metadata :=
          { compiledBy := "l9_cognitive_runtime.compiler.execution"
            pipelineId := pipelineId
            matchedRoute := plan.matchedRoute
            confidence := plan.confidence
            phaseKernels := byPhase
            kernelDigests := dictOf (kernels.map fun b => (b.sourceRef, b.sourceDigest))
            authorityOrderSource := context.authority.effectiveOrderSource.value
            contextDigest := contextDigest }
        obligations := obligations
        executionSteps := inputs.steps plan.phaseSequence [] }

/-! ## Validation contract -/

def validationLadder : List String :=
  ["format", "schema", "pipeline_order", "kernel_roles", "duplicate_active_kernel_scan",
    "activation_planner", "contract_compiler", "adapter_render", "evidence_manifest"]

def evidenceRequired : List String :=
  ["command run or blocker reason", "validator name", "status", "findings",
    "timestamp or report path"]

def reportOutputs : List String :=
  ["runtime/kernel_pipeline/KERNEL_PIPELINE_VALIDATION_REPORT.json", "VALIDATION_EVIDENCE.md"]

/-- `_EVALUATOR_BY_KIND`. -/
def evaluatorOf : ObligationKind → String
  | .realization => "realization_evidence"
  | .architecture => "architecture_integrity_evidence"
  | .validation => "validation_ladder"
  | .delivery => "delivery_evidence"
  | .authority => "authority_order"
  | .epistemic => "unknown_resolution"
  | .convergence => "terminal_success_gate"

/-- A required property that has not run. -/
def openProperty (propertyId obligationRef evaluator : String) : ValidationProperty :=
  { propertyId := propertyId, obligationRef := obligationRef, evaluator := evaluator
    evidenceType := "evidence_manifest", required := true, status := .notRun
    evidenceRefs := [] }

/-- `ValidationContractCompiler.compile`. -/
def compileValidation (execution : ExecutionContract) (plan : ActivationPlan) :
    ValidationContract :=
  let properties := (execution.obligations.filter Obligation.required).map fun o =>
    openProperty ("PROP." ++ o.obligationId) o.obligationId (evaluatorOf o.kind)
  -- temporal materiality adds an idempotency property to the architecture obligation
  let idempotency :=
    if execution.obligations.any (fun o => o.obligationId = "OBL.ARCHITECTURE")
        ∧ "temporal_lens" ∈ plan.architectureMateriality.activeLenses then
      [openProperty "PROP.GAR.IDEMPOTENCY" "OBL.ARCHITECTURE" "idempotency_evidence"]
    else []
  { contractId := "VALIDATION_CONTRACT"
    contractType := "validation_contract"
    validationLadder := validationLadder
    evidenceRequired := evidenceRequired
    allowedStatuses := ValidationStatus.all
    reportOutputs := reportOutputs
    validationProperties := properties ++ idempotency }

/-! ## Handoff contract -/

def loadedContext : List String :=
  ["runtime/kernels", "runtime/kernel_pipeline", "runtime/kernel_pipeline/planner",
    "runtime/contract_compiler", "contracts"]

def handoffDecisions : List String :=
  ["Flawless Victory is terminal doctrine, not Claude-specific format.",
    "Canonical contracts compile before adapter-specific renders.",
    "Adapters render execution intent without owning runtime law."]

def adapterNotes : List (String × String) :=
  [("claude_code", "repo execution prompt"), ("cursor", "workspace task packet"),
    ("codex", "dev-kit execution prompt"), ("chatgpt", "handoff/task prompt"),
    ("human_operator", "runbook checklist")]

/-- `HandoffContractCompiler.compile`. -/
def compileHandoff (execution : ExecutionContract) (plan : ActivationPlan) : HandoffContract :=
  { contractId := "HANDOFF_CONTRACT"
    contractType := "handoff_contract"
    handoffSummary := "Live-compiled handoff: route " ++ plan.matchedRoute ++ " ("
      ++ plan.confidence ++ " confidence), " ++ toString plan.activeKernels.length
      ++ " active kernels."
    loadedContext := loadedContext
    nextAction := if plan.nextPhase = "BLOCKED" then
        "BLOCKED: resolve activation blockers before execution."
      else "Execute phase " ++ plan.nextPhase ++ "."
    unknowns := plan.unknowns
    decisions := handoffDecisions
    adapterNotes := adapterNotes
    obligations := execution.obligations }

/-! ## Execution graph -/

/-- The nodes of a graph that still wait for another, as edges left. -/
abbrev Incoming (κ : Type) := List (κ × κ)

section Loop

variable {κ : Type} [LinearOrder κ]

/-- The inner loop of `topological_order`: discard the edges of a node,
and queue each successor that no longer waits. -/
def freeSuccessors (node : κ) (successors : List κ) (waiting : Incoming κ) :
    Incoming κ × List κ :=
  successors.foldl (fun state next =>
    let left := state.1.filter fun e => ¬(e.1 = node ∧ e.2 = next)
    (left, if left.any fun e => e.2 = next then state.2 else state.2 ++ [next]))
    (waiting, [])

/-- The loop of `topological_order`: pop a ready node and free its
successors, smallest first. -/
def topologicalLoop (edges : List (κ × κ)) : Nat → List κ → Incoming κ → List κ → List κ
  | 0, _, _, ordered => ordered
  | _ + 1, [], _, ordered => ordered
  | fuel + 1, node :: ready, waiting, ordered =>
    let successors := sortedUnique ((edges.filter fun e => e.1 = node).map Prod.snd)
    let (waiting, freed) := freeSuccessors node successors waiting
    topologicalLoop edges fuel (ready ++ freed) waiting (ordered ++ [node])

end Loop

/-- `topological_order`. -/
def topologicalOrder (ids : List String) (edges : List ExecutionGraphEdge) :
    Except RuntimeError (List String) := do
  checkEach (fun e => ensure (decide (e.fromNode ∈ ids) && decide (e.toNode ∈ ids))
    (.invalidValue "edge references missing node" (some "edges") e.toJson)) edges
  let pairs := edges.map fun e => (e.fromNode, e.toNode)
  let ready := sortedBy id (ids.filter fun id => !pairs.any fun e => e.2 = id)
  let ordered := topologicalLoop pairs (ids.length * (edges.length + 1) ^ ids.length) ready pairs []
  ensure (ordered.length = ids.length)
    (.invalidValue "cycle detected in execution graph" (some "edges") .null)
  .ok ordered

/-- The node a step becomes. -/
def graphNode (step : ExecutionStep) : ExecutionGraphNode :=
  { id := step.stepId
    phase := step.phase
    kernelRefs := step.kernelRefs
    outputs := step.outputRefs
    status := some "planned"
    obligationRefs := step.obligationRefs
    inputs := step.inputRefs
    entryGates := step.entryGates
    exitGates := step.exitGates
    evidenceRequirements := step.evidenceRequirements
    failureRoutes := step.failureRoutes
    disposition := if step.phase = terminalPhase then some "CONVERGED" else none }

/-- Consecutive ids as edges. -/
def chainEdges (ids : List String) : List ExecutionGraphEdge :=
  (ids.zip ids.tail).map fun e => { fromNode := e.1, toNode := e.2, reason := some "step_order" }

/-- The duplicate-id check of the step loop. -/
def checkStepIds : List String → List String → Except RuntimeError Unit
  | _, [] => .ok ()
  | seen, id :: rest => do
    ensure (id ∉ seen) (.invalidValue "duplicate execution step id" (some "execution_steps")
      (.obj [("step_id", .str id)]))
    checkStepIds (id :: seen) rest

/-- `derive_execution_graph`. -/
def deriveExecutionGraph (contract : ExecutionContract) : Except RuntimeError ExecutionGraph := do
  let steps := contract.executionSteps
  let ids := steps.map ExecutionStep.stepId
  let terminalNode ← require ids.getLast?
    (.invalidValue "execution_steps required to derive graph" (some "execution_steps") .null)
  checkStepIds [] ids
  let edges := chainEdges ids
  let order ← topologicalOrder ids edges
  ensure (order = ids)
    (.invalidValue "topological order diverged from step order" (some "execution_steps")
      (.obj [("expected", .ofStrings ids), ("got", .ofStrings order)]))
  .ok { graphId := "graph." ++ contract.contractId
        sourceContract := contract.contractId
        nodes := steps.map graphNode
        edges := edges
        terminalNode := terminalNode
        validationGates := contract.validationRequirements
        obligationRefs := (contract.obligations.filter fun o =>
          o.required && decide (o.disposition = .pending)).map Obligation.obligationId
        terminalDisposition :=
          if steps.any fun s => s.phase = terminalPhase then some "CONVERGED" else none }

theorem checkStepIds_ok : ∀ {ids seen : List String} {u : Unit},
    checkStepIds seen ids = .ok u → ids.Nodup ∧ ∀ id ∈ ids, id ∉ seen
  | [], _, _, _ => by simp
  | id :: rest, seen, u, h => by
      simp only [checkStepIds, bind_eq_ok, ensure_eq_ok, decide_eq_true_eq] at h
      obtain ⟨_, hseen, h⟩ := h
      obtain ⟨hnodup, hfresh⟩ := checkStepIds_ok h
      refine ⟨List.nodup_cons.mpr ⟨fun hmem => hfresh id hmem (List.mem_cons_self ..), hnodup⟩, ?_⟩
      intro id' hid'
      rcases List.mem_cons.mp hid' with rfl | hid'
      · exact hseen
      · exact fun hmem => hfresh id' hid' (List.mem_cons_of_mem _ hmem)

theorem deriveExecutionGraph_ok {execution : ExecutionContract} {graph : ExecutionGraph}
    (h : deriveExecutionGraph execution = .ok graph) :
    graph.nodes = execution.executionSteps.map graphNode
      ∧ (execution.executionSteps.map ExecutionStep.stepId).Nodup := by
  simp only [deriveExecutionGraph, bind_eq_ok] at h
  obtain ⟨terminalNode, -, _, hids, order, -, _, -, h⟩ := h
  cases h
  exact ⟨rfl, (checkStepIds_ok hids).1⟩

end CognitiveRuntime
