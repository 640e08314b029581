import CognitiveRuntime.Compiler.Closure
import CognitiveRuntime.Compiler.Contracts

/-!
# Execution packet and semantic liveness

The packet is the projection every downstream host consumes. It is
validated on its own, and then the liveness validator judges all
compiled artifacts together: every declared check runs, in order, and
the first breach stops the compilation.
-/

namespace CognitiveRuntime

open Ordered Fallible

/-! ## The packet -/

structure PacketProvenance where
  semanticDigest : String
  routingRulesDigest : String
  pipelineDigest : String
  kernelDigests : List (String × String)
  graphDigest : String
  handoffDigest : String
  contextDigest : String
  contextPlanId : String
  deriving DecidableEq

/-- The canonical execution packet. Sections a validator compares whole
are documents; sections it reads by field are lists of records. -/
structure ExecutionPacket where
  intent : Json
  compiledTaskContext : Json
  compiledTaskContextDigest : String
  contextPlanId : String
  activeKernelBindings : List KernelBinding
  executionSteps : List ExecutionStep
  requiredObligations : List Obligation
  validationProperties : List ValidationProperty
  deliveryObligations : List Obligation
  unknowns : List String
  blockSemantics : Json
  convergenceContract : Json
  provenance : PacketProvenance
  deriving DecidableEq

/-- `BLOCK_SEMANTICS`. -/
def blockSemantics : Json :=
  .obj [("valid_block_types",
      .ofStrings ["AUTHORITY", "CAPABILITY", "IRREDUCIBLE_REPOSITORY_CONTRADICTION"]),
    ("block_evidence_required", .bool true)]

/-- `CONVERGENCE_CONTRACT`. -/
def convergenceContract : Json :=
  .obj [("terminal_success_gate",
      .ofStrings ["all_required_obligations_have_legal_disposition",
        "no_required_obligation_is_UNKNOWN", "no_blocking_validation_failed",
        "architectural_integrity_satisfied_when_applicable",
        "requested_delivery_satisfied", "no_false_completion_condition"]),
    ("receipt_fields",
      .ofStrings ["terminal_disposition", "obligation_dispositions", "validation_summary",
        "gate_report", "generated_at"])]

/-- The compiled artifacts a packet projects and liveness judges. -/
structure CompiledArtifacts where
  intent : IntentContract
  plan : ActivationPlan
  kernels : List KernelBinding
  execution : ExecutionContract
  validation : ValidationContract
  handoff : HandoffContract
  graph : ExecutionGraph
  taskContext : CompiledTaskContext
  contextDigest : String
  closureReport : ContextClosureReport

/-- The required and pending obligations of a contract, as the packet and
the liveness checks select them. -/
def openRequired (obligations : List Obligation) : List Obligation :=
  obligations.filter fun o => o.required && decide (o.disposition = .pending)

/-- The digests a packet is stamped with. -/
structure PacketDigests where
  routingRulesDigest : String
  pipelineDigest : String
  semanticDigest : String
  contextPlanId : String

/-- `build_execution_packet`. -/
def buildExecutionPacket [Sha256] (a : CompiledArtifacts) (digests : PacketDigests) :
    ExecutionPacket :=
  { intent := a.intent.toJson
    compiledTaskContext := a.taskContext.toJson
    compiledTaskContextDigest := a.contextDigest
    contextPlanId := digests.contextPlanId
    activeKernelBindings := a.kernels
    executionSteps := a.execution.executionSteps
    requiredObligations := openRequired a.execution.obligations
    validationProperties := a.validation.validationProperties
    deliveryObligations := a.execution.obligations.filter (·.obligationId = "OBL.DELIVERY")
    unknowns := a.intent.unknowns ++ a.plan.unknowns
      ++ a.taskContext.unresolvedUnknowns.map ContextUnknown.unknownId
    blockSemantics := blockSemantics
    convergenceContract := convergenceContract
    provenance :=
      { semanticDigest := digests.semanticDigest
        routingRulesDigest := digests.routingRulesDigest
        pipelineDigest := digests.pipelineDigest
        kernelDigests := dictOf (a.kernels.map fun b => (b.sourceRef, b.sourceDigest))
        graphDigest := sha256Digest a.graph.toJson
        handoffDigest := sha256Digest a.handoff.toJson
        contextDigest := a.contextDigest
        contextPlanId := digests.contextPlanId } }

/-- The last part of `validate_packet`: an architecture obligation keeps
a binding of the Global Architect with outputs. -/
def validateArchitectBinding (packet : ExecutionPacket) : Except RuntimeError Unit :=
  if "OBL.ARCHITECTURE" ∈ packet.requiredObligations.map Obligation.obligationId then do
    let gar ← require
      (packet.activeKernelBindings.find? (·.sourceRef.endsWith "global_architect_kernel.yaml"))
      (.invalidValue "architecture obligation present but GAR binding missing"
        (some "active_kernel_bindings") .null)
    ensure (!gar.outputs.isEmpty) (.invalidValue "GAR binding declares no outputs"
      (some "active_kernel_bindings") .null)
  else .ok ()

/-- `validate_packet`. No section of a typed packet can be absent. -/
def validatePacket [Sha256] (packet : ExecutionPacket) : Except RuntimeError Unit := do
  let recomputed := sha256Digest packet.compiledTaskContext
  let declared := packet.compiledTaskContextDigest
  ensure (recomputed = declared)
    (.invalidValue "compiled task context body does not hash to its declared digest"
      (some "compiled_task_context")
      (.obj [("declared", .str declared), ("recomputed", .str recomputed)]))
  ensure (packet.provenance.contextDigest = declared)
    (.invalidValue "packet context digest disagrees with packet provenance"
      (some "compiled_task_context_digest")
      (.obj [("packet", .str declared), ("provenance", .str packet.provenance.contextDigest)]))
  ensure (packet.provenance.contextPlanId = packet.contextPlanId)
    (.invalidValue "packet context plan identity disagrees with packet provenance"
      (some "context_plan_id")
      (.obj [("packet", .str packet.contextPlanId),
        ("provenance", .str packet.provenance.contextPlanId)]))
  let requiredIds := packet.requiredObligations.map Obligation.obligationId
  let propertyRefs := packet.validationProperties.map ValidationProperty.obligationRef
  let foreign := sortedUnique (propertyRefs.filter (· ∉ requiredIds))
  ensure (foreign = [])
    (.invalidValue "validation property binds an obligation absent from the packet"
      (some "validation_properties") (.obj [("obligation_refs", .ofStrings foreign)]))
  let unvalidated := sortedUnique (requiredIds.filter (· ∉ propertyRefs))
  ensure (unvalidated = [])
    (.invalidValue "required obligation lost its validation path"
      (some "required_obligations") (.obj [("obligation_ids", .ofStrings unvalidated)]))
  checkEach (fun o => ensure (!o.required || decide (o.obligationId ∈ requiredIds))
      (.invalidValue "required delivery obligation dropped from the packet"
        (some "delivery_obligations") (.obj [("obligation_id", .str o.obligationId)])))
    packet.deliveryObligations
  validateArchitectBinding packet

/-! ## Liveness -/

/-- `_ALL_CHECKS`. -/
def livenessChecks : List String :=
  ["every_required_intent_obligation_is_accounted_for",
    "every_activated_kernel_is_bound",
    "every_bound_kernel_is_present",
    "every_activated_kernel_has_graph_invocation",
    "every_required_kernel_output_exists",
    "every_required_kernel_output_has_consumer",
    "every_required_execution_obligation_has_realization_path",
    "every_required_validation_obligation_has_evidence_path",
    "every_required_delivery_obligation_has_delivery_path",
    "every_terminal_success_path_crosses_convergence",
    "every_terminal_block_requires_valid_block_evidence",
    "no_orphan_required_graph_node",
    "no_unresolved_kernel_reference",
    "no_semantic_field_reset_to_default_downstream",
    "no_adapter_drops_blocking_obligation",
    "no_required_obligation_disappears",
    "context_closure_ladder_executed_completely",
    "every_authoritative_selected_item_has_provenance",
    "every_selected_context_item_has_relevance_binding",
    "every_selected_kernel_equals_downstream_kernel_binding",
    "no_unresolved_equal_authority_conflict_is_silently_selected",
    "context_digest_participates_in_semantic_identity",
    "execution_packet_preserves_compiled_context",
    "material_context_unknowns_are_conserved"]

/-- `_fail`. -/
def livenessFail (check : String) (details : List (String × Json)) : RuntimeError :=
  .invalidValue ("semantic liveness check failed: " ++ check) (some "liveness") (.obj details)

/-- The file stem of a YAML reference, else its last component. -/
def kernelIdOfRef (ref : String) : String :=
  let name := pathName (kernelPath ref)
  if name.endsWith ".yaml" || name.endsWith ".yml" then
    String.ofList ((name.toList.reverse.dropWhile (· ≠ '.')).drop 1).reverse
  else name

/-- The elements of one list absent from another, sorted. -/
def missingFrom (present wanted : List String) : List String :=
  sortedUnique (wanted.filter (· ∉ present))

/-- A check with its name, its condition and the details of a breach. -/
structure LivenessCheck where
  name : String
  holds : Bool
  details : List (String × Json)

/-- A check that nothing is missing, recorded under the given key. -/
def nothingMissing (name key : String) (present wanted : List String) : LivenessCheck :=
  { name := name, holds := wanted.all (· ∈ present)
    details := [(key, .ofStrings (missingFrom present wanted))] }

/-- The conflict a compiled context reports: its kind, when one can be
read, and its key. -/
def conflictKey (u : ContextUnknown) : Option (Option String × String) :=
  let kind := ((Json.field "context_kind" u.details).filter truthy).map fun j =>
    -- the text of a container is no kind's value
    (scalarText j).getD ""
  if u.reasonCode = .conflictingGovernedClaims then
    (u.semanticKey.filter (· ≠ "")).map fun key => (kind, key)
  else none

/-- The selected items a reported conflict touches. -/
def selectedConflicts (context : CompiledTaskContext) : List ContextItem :=
  let conflicts := context.unresolvedUnknowns.filterMap conflictKey
  context.selectedItems.filter fun item =>
    (some item.contextKind.value, item.semanticKey) ∈ conflicts
      ∨ (none, item.semanticKey) ∈ conflicts

/-- The prefix of the obligations context unknowns become. -/
def contextObligationPrefix : String := "OBL.EPISTEMIC.CONTEXT."

/-- The unknown an obligation id names, when it is one of these. -/
def obligationUnknownId (id : String) : Option String :=
  if contextObligationPrefix.toList.isPrefixOf id.toList then
    some (String.ofList (id.toList.drop contextObligationPrefix.toList.length))
  else none

section Checks

variable (a : CompiledArtifacts) (packet : ExecutionPacket)

def requiredOutputs : List (KernelBinding × KernelOutput) :=
  a.kernels.flatMap fun b => (b.outputs.filter KernelOutput.required).map fun o => (b, o)

/-- The required outputs no invoking step or node realizes. -/
def unrealizedOutputs : List Json :=
  (requiredOutputs a).filterMap fun entry =>
    let record := fun surface => Json.obj [("kernel", .str entry.1.sourceRef),
      ("output", .str entry.2.outputId), ("surface", .str surface)]
    let inSteps := a.execution.executionSteps.any fun s =>
      decide (entry.1.sourceRef ∈ s.kernelRefs) && decide (entry.2.outputId ∈ s.outputRefs)
    let inGraph := a.graph.nodes.any fun n =>
      decide (entry.1.sourceRef ∈ n.kernelRefs) && decide (entry.2.outputId ∈ n.outputs)
    if !inSteps then some (record "execution_step")
    else if !inGraph then some (record "graph_node")
    else none

/-- The open required obligations of some kinds. -/
def openIdsOf (kinds : List ObligationKind) : List String :=
  ((openRequired a.execution.obligations).filter fun o => o.kind ∈ kinds).map
    Obligation.obligationId

/-- Checks 1 to 9: obligations and kernels reach the graph, the evidence
and the delivery surfaces. -/
def realizationChecks : List LivenessCheck :=
  let executionIds := a.execution.obligations.map Obligation.obligationId
  let boundRefs := a.kernels.map KernelBinding.sourceRef
  let nodeKernelIds := a.graph.nodes.flatMap fun n => n.kernelRefs.map kernelIdOfRef
  let unrealized := unrealizedOutputs a
  [ { name := "every_required_intent_obligation_is_accounted_for"
      holds := (a.intent.obligations.filter Obligation.required).all fun o =>
        decide (o.disposition ≠ .pending) || decide (o.obligationId ∈ executionIds)
      details := [] },
    { name := "every_activated_kernel_is_bound"
      holds := a.plan.activeKernels.all (· ∈ boundRefs)
      details := [("missing", .ofStrings (a.plan.activeKernels.filter (· ∉ boundRefs)))] },
    { name := "every_bound_kernel_is_present"
      holds := a.kernels.all fun b => b.sourceDigest ≠ ""
      details := [] },
    nothingMissing "every_activated_kernel_has_graph_invocation" "uninvoked" nodeKernelIds
      (boundRefs.map kernelIdOfRef),
    { name := "every_required_kernel_output_exists"
      holds := unrealized.isEmpty
      details := [("unrealized", .arr unrealized)] },
    { name := "every_required_kernel_output_has_consumer"
      holds := (requiredOutputs a).all fun entry => !entry.2.consumerRefs.isEmpty
      details := [] },
    nothingMissing "every_required_execution_obligation_has_realization_path" "missing"
      (a.graph.nodes.flatMap ExecutionGraphNode.obligationRefs)
      ((openRequired a.execution.obligations).map Obligation.obligationId),
    nothingMissing "every_required_validation_obligation_has_evidence_path" "missing"
      (a.validation.validationProperties.map ValidationProperty.obligationRef)
      (openIdsOf a [.validation, .architecture]),
    nothingMissing "every_required_delivery_obligation_has_delivery_path" "missing"
      (a.handoff.obligations.map Obligation.obligationId) (openIdsOf a [.delivery]) ]

/-- Check 10: a terminal success path crosses convergence; without one,
no step is terminal. -/
def convergenceCheck : LivenessCheck :=
  if a.plan.terminalAllowed then
    { name := "every_terminal_success_path_crosses_convergence"
      holds := (a.execution.obligations.filter Obligation.required).any fun o =>
        o.kind = .convergence
      details := [] }
  else
    { name := "every_terminal_success_path_crosses_convergence"
      holds := !a.execution.executionSteps.any fun s => s.phase = terminalPhase
      details := [("terminal_allowed", .bool false)] }

/-- Checks 11 to 16: block evidence, the graph, and what the handoff and
the packet keep. -/
def conservationChecks : List LivenessCheck :=
  let openIds := (openRequired a.execution.obligations).map Obligation.obligationId
  let handoffIds := a.handoff.obligations.map Obligation.obligationId
  let closedIds := (a.execution.obligations.filter fun o => o.disposition ≠ .pending).map
    Obligation.obligationId
  let orphans := (a.graph.nodes.filter fun n =>
    decide (n.id ≠ a.graph.terminalNode) && !a.graph.edges.any fun e => e.fromNode = n.id).map
    ExecutionGraphNode.id
  let reset := (a.handoff.obligations.filter fun o =>
    decide (o.obligationId ∈ closedIds) && decide (o.disposition = .pending)).map
    Obligation.obligationId
  [ { name := "every_terminal_block_requires_valid_block_evidence"
      holds := (a.execution.obligations.filter fun o => o.disposition = .validBlock).all
        fun o => !o.evidenceRequirements.isEmpty
      details := [] },
    { name := "no_orphan_required_graph_node"
      holds := orphans.isEmpty
      details := [("orphans", .ofStrings orphans)] },
    nothingMissing "no_unresolved_kernel_reference" "unresolved"
      (a.kernels.map fun b => kernelIdOfRef b.sourceRef)
      (a.graph.nodes.flatMap fun n => n.kernelRefs.map kernelIdOfRef),
    { name := "no_semantic_field_reset_to_default_downstream"
      holds := reset.isEmpty
      details := [("reset", .ofStrings reset)] },
    nothingMissing "no_adapter_drops_blocking_obligation" "dropped"
      (packet.requiredObligations.map Obligation.obligationId) openIds,
    nothingMissing "no_required_obligation_disappears" "missing" handoffIds openIds ]

/-- The report of a closure run as a document. -/
def ContextClosureReport.toDict (report : ContextClosureReport) : Json :=
  .obj [("checks", .ofStrings report.checks), ("passed", .bool report.passed)]

/-- Checks 17 to 24: the compiled context and its identity. -/
def contextChecksOf [Sha256] (semanticPayload : List (String × Json)) : List LivenessCheck :=
  let selected := a.taskContext.selectedItems
  let unprovenanced := (selected.filter fun item =>
    item.isGoverned && !item.sourceRef.hasImmutableProvenance).map ContextItem.itemId
  let unbound := (selected.filter fun item => item.selectedBecause.isEmpty).map
    ContextItem.itemId
  let conflicts := selectedConflicts a.taskContext
  [ { name := "context_closure_ladder_executed_completely"
      holds := a.closureReport.passed && decide (a.closureReport.checks = contextChecks)
      details := [("closure_report", a.closureReport.toDict),
        ("expected", .ofStrings contextChecks)] },
    { name := "every_authoritative_selected_item_has_provenance"
      holds := unprovenanced.isEmpty
      details := [("item_ids", .ofStrings unprovenanced)] },
    { name := "every_selected_context_item_has_relevance_binding"
      holds := unbound.isEmpty
      details := [("item_ids", .ofStrings unbound)] },
    { name := "every_selected_kernel_equals_downstream_kernel_binding"
      holds := a.taskContext.selectedKernels = a.kernels.map KernelBinding.toDict
      details := [("context", .int a.taskContext.selectedKernels.length),
        ("downstream", .int a.kernels.length)] },
    { name := "no_unresolved_equal_authority_conflict_is_silently_selected"
      holds := conflicts.isEmpty
      details := [("conflicts", .arr ((sortedUnique (conflicts.map fun item =>
          toLex (item.contextKind.value, item.semanticKey))).map fun key =>
        .obj [("context_kind", .str (ofLex key).1), ("semantic_key", .str (ofLex key).2)]))] },
    { name := "context_digest_participates_in_semantic_identity"
      holds := decide (Json.field "context_digest" semanticPayload = some (.str a.contextDigest))
        && decide (a.taskContext.sha256 = a.contextDigest)
      details := [("expected", .str a.contextDigest),
        ("in_payload", (Json.field "context_digest" semanticPayload).getD .null),
        ("recomputed", .str a.taskContext.sha256)] },
    { name := "execution_packet_preserves_compiled_context"
      holds := decide (packet.compiledTaskContextDigest = a.contextDigest)
        && decide (packet.compiledTaskContext = a.taskContext.toJson)
      details := [("packet_digest", .str packet.compiledTaskContextDigest)] },
    nothingMissing "material_context_unknowns_are_conserved" "missing"
      ((a.execution.obligations.map Obligation.obligationId).filterMap obligationUnknownId)
      ((a.taskContext.unresolvedUnknowns.filter fun u => u.materiality = .blocking).map
        ContextUnknown.unknownId) ]

/-- Every check, in the order it runs. -/
def allLivenessChecks [Sha256] (semanticPayload : List (String × Json)) : List LivenessCheck :=
  realizationChecks a ++ [convergenceCheck a] ++ conservationChecks a packet
    ++ contextChecksOf a packet semanticPayload

/-- `validate_runtime_semantic_liveness`. -/
def validateLiveness [Sha256] (semanticPayload : List (String × Json)) :
    Except RuntimeError Unit := do
  let checks := allLivenessChecks a packet semanticPayload
  checkEach (fun check => ensure check.holds (livenessFail check.name check.details)) checks
  let executed := checks.map LivenessCheck.name
  ensure (executed = livenessChecks) (livenessFail "liveness_check_coverage"
    [("expected", .ofStrings livenessChecks), ("executed", .ofStrings executed),
      ("missing", .ofStrings (livenessChecks.filter (· ∉ executed)))])

end Checks

/-- The ladder that runs is the ladder that is declared. -/
theorem allLivenessChecks_names [Sha256] (a : CompiledArtifacts) (packet : ExecutionPacket)
    (semanticPayload : List (String × Json)) :
    (allLivenessChecks a packet semanticPayload).map LivenessCheck.name = livenessChecks := by
  unfold allLivenessChecks convergenceCheck
  cases a.plan.terminalAllowed <;> rfl

/-- Liveness passes exactly when each of its checks holds. -/
theorem validateLiveness_ok [Sha256] {a : CompiledArtifacts} {packet : ExecutionPacket}
    {semanticPayload : List (String × Json)} {u : Unit} :
    validateLiveness a packet semanticPayload = .ok u ↔
      ∀ check ∈ allLivenessChecks a packet semanticPayload, check.holds = true := by
  unfold validateLiveness
  simp only [bind_eq_ok, checkEach_eq_ok, ensure_eq_ok, allLivenessChecks_names,
    decide_true, and_true, exists_const]

/-- Nothing is missing exactly when everything wanted is present. -/
theorem nothingMissing_holds {name key : String} {present wanted : List String} :
    (nothingMissing name key present wanted).holds = true ↔ ∀ id ∈ wanted, id ∈ present := by
  simp [nothingMissing]

theorem mem_openRequired {obligations : List Obligation} {o : Obligation} :
    o ∈ openRequired obligations ↔ o ∈ obligations ∧ o.isRequiredPending = true := by
  simp only [openRequired, List.mem_filter, isRequiredPending_iff, Bool.and_eq_true,
    decide_eq_true_eq]

theorem openRequired_ids (obligations : List Obligation) :
    (openRequired obligations).map Obligation.obligationId = requiredPendingIds obligations := by
  unfold openRequired requiredPendingIds
  congr 1
  refine List.filter_congr fun o _ => ?_
  rw [Bool.eq_iff_iff, isRequiredPending_iff, Bool.and_eq_true, decide_eq_true_eq]

end CognitiveRuntime
