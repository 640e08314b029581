import CognitiveRuntime.Models.Plan

/-!
# Intent, contracts and graph

The artifacts downstream of the compiled context. Obligations are the
part they share: each contract carries a list of them, or their ids.
-/

namespace CognitiveRuntime

inductive ValidationStatus where
  | passed
  | failed
  | blocked
  | notRun
  | unknown
  | notApplicableWithReason
  deriving DecidableEq, Repr

def ValidationStatus.value : ValidationStatus → String
  | .passed => "passed"
  | .failed => "failed"
  | .blocked => "blocked"
  | .notRun => "not_run"
  | .unknown => "unknown"
  | .notApplicableWithReason => "not_applicable_with_reason"

def ValidationStatus.all : List ValidationStatus :=
  [.passed, .failed, .blocked, .notRun, .unknown, .notApplicableWithReason]

inductive RealizationMode where
  | mutation
  | artifact
  | analysis
  | decision
  | unknown
  deriving DecidableEq, Repr

def RealizationMode.value : RealizationMode → String
  | .mutation => "MUTATION"
  | .artifact => "ARTIFACT"
  | .analysis => "ANALYSIS"
  | .decision => "DECISION"
  | .unknown => "UNKNOWN"

inductive DeliveryMode where
  | returnedArchive
  | returnedFiles
  | persistedRepository
  | inPlaceWorkspace
  | none
  deriving DecidableEq, Repr

def DeliveryMode.value : DeliveryMode → String
  | .returnedArchive => "RETURNED_ARCHIVE"
  | .returnedFiles => "RETURNED_FILES"
  | .persistedRepository => "PERSISTED_REPOSITORY"
  | .inPlaceWorkspace => "IN_PLACE_WORKSPACE"
  | .none => "NONE"

/-- Canonical objective facts derived once from explicit intent. -/
structure ObjectiveSpec where
  requested : Bool
  realizationMode : RealizationMode
  acceptanceConditions : List String
  validationRequired : Bool
  deliveryRequired : Bool
  deliveryMode : DeliveryMode
  deriving DecidableEq

inductive ObligationKind where
  | realization
  | architecture
  | validation
  | delivery
  | authority
  | epistemic
  | convergence
  deriving DecidableEq, Repr

def ObligationKind.value : ObligationKind → String
  | .realization => "REALIZATION"
  | .architecture => "ARCHITECTURE"
  | .validation => "VALIDATION"
  | .delivery => "DELIVERY"
  | .authority => "AUTHORITY"
  | .epistemic => "EPISTEMIC"
  | .convergence => "CONVERGENCE"

inductive ObligationDisposition where
  | pending
  | satisfied
  | validBlock
  | supersededByHigherAuthority
  | notApplicableWithDeterministicProof
  deriving DecidableEq, Repr

def ObligationDisposition.value : ObligationDisposition → String
  | .pending => "PENDING"
  | .satisfied => "SATISFIED"
  | .validBlock => "VALID_BLOCK"
  | .supersededByHigherAuthority => "SUPERSEDED_BY_HIGHER_AUTHORITY"
  | .notApplicableWithDeterministicProof => "NOT_APPLICABLE_WITH_DETERMINISTIC_PROOF"

/-- A conserved semantic obligation with a stable identity. -/
structure Obligation where
  obligationId : String
  kind : ObligationKind
  sourceRef : String
  required : Bool
  owner : String
  consumerRefs : List String
  evidenceRequirements : List String
  disposition : ObligationDisposition
  deriving DecidableEq

def Obligation.toJson (o : Obligation) : Json :=
  .obj [("obligation_id", .str o.obligationId), ("kind", .str o.kind.value),
    ("source_ref", .str o.sourceRef), ("required", .bool o.required), ("owner", .str o.owner),
    ("consumer_refs", .ofStrings o.consumerRefs),
    ("evidence_requirements", .ofStrings o.evidenceRequirements),
    ("disposition", .str o.disposition.value)]

/-- A validation property bound to a stable execution obligation. -/
structure ValidationProperty where
  propertyId : String
  obligationRef : String
  evaluator : String
  evidenceType : String
  required : Bool
  status : ValidationStatus
  evidenceRefs : List String
  deriving DecidableEq

def ValidationProperty.toJson (p : ValidationProperty) : Json :=
  .obj [("property_id", .str p.propertyId), ("obligation_ref", .str p.obligationRef),
    ("evaluator", .str p.evaluator), ("evidence_type", .str p.evidenceType),
    ("required", .bool p.required), ("status", .str p.status.value),
    ("evidence_refs", .ofStrings p.evidenceRefs)]

/-- The canonical intent. `sourceContext` is the caller's hint dictionary. -/
structure IntentContract where
  intentId : String
  mission : String
  taskType : String
  constraints : List String
  desiredOutputs : List String
  sourceContext : List (String × Json)
  unknowns : List String
  objective : ObjectiveSpec
  accountabilityRequired : Bool
  obligations : List Obligation
  deriving DecidableEq

def ObjectiveSpec.toJson (o : ObjectiveSpec) : Json :=
  .obj [("requested", .bool o.requested), ("realization_mode", .str o.realizationMode.value),
    ("acceptance_conditions", .ofStrings o.acceptanceConditions),
    ("validation_required", .bool o.validationRequired),
    ("delivery_required", .bool o.deliveryRequired),
    ("delivery_mode", .str o.deliveryMode.value)]

def IntentContract.toJson (i : IntentContract) : Json :=
  .obj [("intent_id", .str i.intentId), ("mission", .str i.mission),
    ("task_type", .str i.taskType), ("constraints", .ofStrings i.constraints),
    ("desired_outputs", .ofStrings i.desiredOutputs), ("source_context", .obj i.sourceContext),
    ("unknowns", .ofStrings i.unknowns), ("objective", i.objective.toJson),
    ("accountability", .obj [("required", .bool i.accountabilityRequired)]),
    ("obligations", .arr (i.obligations.map Obligation.toJson))]

/-- Structured execution step: the graph's mechanical source. -/
structure ExecutionStep where
  stepId : String
  phase : String
  kernelRefs : List String
  obligationRefs : List String
  inputRefs : List String
  outputRefs : List String
  entryGates : List String
  exitGates : List String
  evidenceRequirements : List String
  failureRoutes : List String
  deriving DecidableEq

def ExecutionStep.toJson (s : ExecutionStep) : Json :=
  .obj [("step_id", .str s.stepId), ("phase", .str s.phase),
    ("kernel_refs", .ofStrings s.kernelRefs), ("obligation_refs", .ofStrings s.obligationRefs),
    ("input_refs", .ofStrings s.inputRefs), ("output_refs", .ofStrings s.outputRefs),
    ("entry_gates", .ofStrings s.entryGates), ("exit_gates", .ofStrings s.exitGates),
    ("evidence_requirements", .ofStrings s.evidenceRequirements),
    ("failure_routes", .ofStrings s.failureRoutes)]

/-- The `metadata` mapping of an execution contract. -/
structure ExecutionMetadata where
  compiledBy : String
  pipelineId : String
  matchedRoute : String
  confidence : String
  phaseKernels : List (String × List String)
  kernelDigests : List (String × String)
  authorityOrderSource : String
  contextDigest : String
  deriving DecidableEq

structure ExecutionContract where
  contractId : String
  contractType : String
  sourceActivationPlan : String
  terminalDoctrine : String
  objective : String
  authorityOrder : List String
  kernelActivation : List String
  executionSequence : List String
  validationRequirements : List String
  outputContract : List String
  adapterTargets : List String
  version : String
  stopConditions : List String
  metadata : ExecutionMetadata
  obligations : List Obligation
  executionSteps : List ExecutionStep
  deriving DecidableEq

def ExecutionMetadata.toJson (m : ExecutionMetadata) : Json :=
  .obj [("compiled_by", .str m.compiledBy), ("pipeline_id", .str m.pipelineId),
    ("matched_route", .str m.matchedRoute), ("confidence", .str m.confidence),
    ("phase_kernels", .obj (m.phaseKernels.map fun e => (e.1, .ofStrings e.2))),
    ("kernel_digests", ofStringDict m.kernelDigests),
    ("authority_order_source", .str m.authorityOrderSource),
    ("context_digest", .str m.contextDigest)]

def ExecutionContract.toJson (e : ExecutionContract) : Json :=
  .obj [("contract_id", .str e.contractId), ("contract_type", .str e.contractType),
    ("source_activation_plan", .str e.sourceActivationPlan),
    ("terminal_doctrine", .str e.terminalDoctrine), ("objective", .str e.objective),
    ("authority_order", .ofStrings e.authorityOrder),
    ("kernel_activation", .ofStrings e.kernelActivation),
    ("execution_sequence", .ofStrings e.executionSequence),
    ("validation_requirements", .ofStrings e.validationRequirements),
    ("output_contract", .ofStrings e.outputContract),
    ("adapter_targets", .ofStrings e.adapterTargets), ("version", .str e.version),
    ("stop_conditions", .ofStrings e.stopConditions), ("metadata", e.metadata.toJson),
    ("obligations", .arr (e.obligations.map Obligation.toJson)),
    ("execution_steps", .arr (e.executionSteps.map ExecutionStep.toJson))]

structure ValidationContract where
  contractId : String
  contractType : String
  validationLadder : List String
  evidenceRequired : List String
  allowedStatuses : List ValidationStatus
  reportOutputs : List String
  validationProperties : List ValidationProperty
  deriving DecidableEq

def ValidationContract.toJson (v : ValidationContract) : Json :=
  .obj [("contract_id", .str v.contractId), ("contract_type", .str v.contractType),
    ("validation_ladder", .ofStrings v.validationLadder),
    ("evidence_required", .ofStrings v.evidenceRequired),
    ("allowed_statuses", .ofStrings (v.allowedStatuses.map ValidationStatus.value)),
    ("report_outputs", .ofStrings v.reportOutputs),
    ("validation_properties", .arr (v.validationProperties.map ValidationProperty.toJson))]

structure HandoffContract where
  contractId : String
  contractType : String
  handoffSummary : String
  loadedContext : List String
  nextAction : String
  unknowns : List String
  decisions : List String
  adapterNotes : List (String × String)
  obligations : List Obligation
  deriving DecidableEq

def HandoffContract.toJson (h : HandoffContract) : Json :=
  .obj [("contract_id", .str h.contractId), ("contract_type", .str h.contractType),
    ("handoff_summary", .str h.handoffSummary), ("loaded_context", .ofStrings h.loadedContext),
    ("next_action", .str h.nextAction), ("unknowns", .ofStrings h.unknowns),
    ("decisions", .ofStrings h.decisions), ("adapter_notes", ofStringDict h.adapterNotes),
    ("obligations", .arr (h.obligations.map Obligation.toJson))]

structure ExecutionGraphNode where
  id : String
  phase : String
  kernelRefs : List String
  outputs : List String
  status : Option String
  obligationRefs : List String
  inputs : List String
  entryGates : List String
  exitGates : List String
  evidenceRequirements : List String
  failureRoutes : List String
  disposition : Option String
  deriving DecidableEq

structure ExecutionGraphEdge where
  fromNode : String
  toNode : String
  reason : Option String
  deriving DecidableEq

structure ExecutionGraph where
  graphId : String
  sourceContract : String
  nodes : List ExecutionGraphNode
  edges : List ExecutionGraphEdge
  terminalNode : String
  validationGates : List String
  obligationRefs : List String
  terminalDisposition : Option String
  deriving DecidableEq

def ExecutionGraphNode.toJson (n : ExecutionGraphNode) : Json :=
  .obj [("id", .str n.id), ("phase", .str n.phase), ("kernel_refs", .ofStrings n.kernelRefs),
    ("outputs", .ofStrings n.outputs), ("status", .ofOption n.status),
    ("obligation_refs", .ofStrings n.obligationRefs), ("inputs", .ofStrings n.inputs),
    ("entry_gates", .ofStrings n.entryGates), ("exit_gates", .ofStrings n.exitGates),
    ("evidence_requirements", .ofStrings n.evidenceRequirements),
    ("failure_routes", .ofStrings n.failureRoutes), ("disposition", .ofOption n.disposition)]

def ExecutionGraphEdge.toJson (e : ExecutionGraphEdge) : Json :=
  .obj [("from", .str e.fromNode), ("to", .str e.toNode), ("reason", .ofOption e.reason)]

def ExecutionGraph.toJson (g : ExecutionGraph) : Json :=
  .obj [("graph_id", .str g.graphId), ("source_contract", .str g.sourceContract),
    ("nodes", .arr (g.nodes.map ExecutionGraphNode.toJson)),
    ("edges", .arr (g.edges.map ExecutionGraphEdge.toJson)),
    ("terminal_node", .str g.terminalNode), ("validation_gates", .ofStrings g.validationGates),
    ("obligation_refs", .ofStrings g.obligationRefs),
    ("terminal_disposition", .ofOption g.terminalDisposition)]

end CognitiveRuntime
