import CognitiveRuntime.Compiler.Pipeline
import CognitiveRuntime.Properties.Planning

/-!
# Compilation without a snapshot

A caller that injects no snapshot gets an empty one. Every view is then
empty: optional requirements are met by taking nothing, the compiled
context selects nothing, and closure has nothing to object to.

A run of the whole spine on such a request closes the file.
-/

namespace CognitiveRuntime

open Ordered Fallible

section Empty

variable [Sha256]

/-- No candidate at all. -/
def noCandidates : SnapshotResolution where
  candidates := []

theorem requirementView_noCandidates (requirement : ContextRequirement) :
    requirementView noCandidates requirement = { groups := [], supersessionUnknowns := [] } := rfl

/-- Discovery over nothing routes from nothing. -/
theorem discover_noCandidates (scope : TaskScope) :
    discover scope noCandidates =
      { taskScopeDigest := scope.sha256, routingFactRefs := [], architectureSignalRefs := []
        unresolvedUnknowns := [], selectedItemDigests := [] } := by
  have hview : noCandidates.resolve (discoveryEligible scope.eligibleRefs)
      = { groups := [], supersessionUnknowns := [] } := rfl
  have hgroups : discoveryGroups { groups := [], supersessionUnknowns := [] } = [] := rfl
  unfold discover discoveryItems
  simp only [hview, hgroups, List.filter_nil, List.flatMap_nil, List.map_nil,
    List.filterMap_nil, List.append_nil, sortedUnique_nil]
  rfl

/-- An optional requirement takes nothing and records nothing. -/
theorem selectFor_noCandidates {budget : ContextBudget} {requirement : ContextRequirement}
    (h : requirement.missingPolicy = .optional) (selection : Selection) :
    selectFor budget noCandidates requirement selection = .ok (selection, []) := by
  have hshort : shortfall requirement (.start selection) none [] = .ok [] := by
    unfold shortfall
    split
    · rfl
    · unfold disposeUnsatisfied
      simp [h]
  unfold selectFor
  rw [requirementView_noCandidates]
  show (do
    let short ← shortfall requirement (.start selection) none []
    Except.ok (selection, [] ++ [] ++ short)) = _
  rw [hshort]
  rfl

theorem selectAll_noCandidates {budget : ContextBudget} :
    ∀ {requirements : List ContextRequirement} (selection : Selection),
      (∀ r ∈ requirements, r.missingPolicy = .optional) →
      selectAll budget noCandidates requirements selection = .ok (selection, [])
  | [], _, _ => rfl
  | requirement :: rest, selection, h => by
      rw [selectAll, selectFor_noCandidates (h requirement (List.mem_cons_self ..)), ok_bind,
        selectAll_noCandidates selection fun r hr => h r (List.mem_cons_of_mem _ hr)]
      rfl

/-- Compilation over nothing returns the context that selects nothing. -/
theorem compileContext_noCandidates {inputs : CompileInputs}
    (hresolution : inputs.resolution = noCandidates)
    (hoptional : ∀ r ∈ inputs.requirementPlan.requirements, r.missingPolicy = .optional)
    (hversion : isBlank inputs.packageVersion = false) :
    compileContext inputs = .ok (assembleContext inputs [] []) := by
  unfold compileContext
  rw [hresolution, selectAll_noCandidates .empty hoptional, ok_bind]
  simp only [hversion]
  rfl

/-- Closure accepts a context with nothing selected, nothing unknown and
nothing required. -/
theorem validateClosure_noCandidates {context : CompiledTaskContext}
    {plan : ContextRequirementPlan} {kernels : List KernelBinding}
    (hselected : context.selectedItems = []) (hunknowns : context.unresolvedUnknowns = [])
    (hkernels : context.selectedKernels = kernels.map KernelBinding.toDict)
    (hcapabilities : context.capabilities.required = [] ∧ context.capabilities.available = [])
    (hauthority : context.authority.required = [] ∧ context.authority.effectiveOrder ≠ [])
    (hoptional : ∀ r ∈ plan.requirements, r.required = false) :
    validateClosure context plan noCandidates kernels
      = .ok { checks := contextChecks, passed := true } := by
  have hbound : ∀ r, boundItems context r = [] := by
    intro r
    unfold boundItems
    rw [hselected]
    rfl
  have hundisposed : undisposedRequirements context plan = [] := by
    unfold undisposedRequirements
    rw [List.map_eq_nil_iff, List.filter_eq_nil_iff]
    intro r hr
    simp [hoptional r hr]
  have hsilent : silentConflicts context plan noCandidates = [] := by
    unfold silentConflicts
    rw [List.flatMap_eq_nil_iff]
    intro r _
    rfl
  have hbudget : budgetBreaches context plan noCandidates = [] := by
    unfold budgetBreaches
    rw [List.filterMap_eq_nil_iff]
    intro r hr
    unfold requirementBreach
    rw [hbound r, hoptional r hr]
    cases r.maxItems <;> cases r.maxBytes <;> simp [totalCost]
  have hcoverage : coverageBreaches context plan noCandidates = [] := by
    unfold coverageBreaches
    rw [List.filterMap_eq_nil_iff]
    intro r _
    unfold coverageBreach
    rw [hbound r]
    cases r.coverageMode <;>
      simp [eligibleKeys, settledItems, requirementView_noCandidates, dictOf, dedupeLast,
        firstSeen]
  have hcapability : undisposedCapabilities context = [] := by
    unfold undisposedCapabilities
    rw [hcapabilities.1]
    rfl
  have hauthorities : undisposedAuthorities context = [] := by
    unfold undisposedAuthorities
    rw [hauthority.1]
    rfl
  have hcontradictory : capabilityIds context.capabilities.available = [] := by
    rw [hcapabilities.2]
    rfl
  unfold validateClosure
  simp [hselected, hunknowns, hkernels, hundisposed, hsilent, hbudget, hcoverage, hcapability,
    hauthorities, hcontradictory, hauthority.2, ensure, totalCost]

end Empty

/-! ## An audit -/

section Audit

variable [Sha256]

attribute [local instance] TextTables.ascii

/-- A request to audit the pack, without hints. -/
def auditRequest : CompileRequest :=
  { mission := "audit the pack", taskType := "pack_review", constraints := []
    desiredOutputs := [], sourceContext := [], unknowns := [] }

/-- The intent of the audit: an analysis, with nothing to deliver. -/
def auditIntent : IntentContract :=
  { intentId := "intent.runtime_convergence.v1", mission := "audit the pack"
    taskType := "pack_review", constraints := [], desiredOutputs := [], sourceContext := []
    unknowns := []
    objective :=
      { requested := true, realizationMode := .analysis, acceptanceConditions := []
        validationRequired := false, deliveryRequired := false, deliveryMode := .none }
    accountabilityRequired := false, obligations := [] }

def constitutionalKernel : String :=
  "runtime/kernels/constitutional/K01-platform-architecture-engine.yaml"

def auditRules : RoutingRules :=
  { taskRoutes := [("pack_review",
      { matchAny := [], phases := ["P1_CONSTITUTIONAL_PREFLIGHT", "P2_TASK_ROUTING"]
        optionalPhases := [], taskKernels := [] })]
    missionSignalTokens := [], contextSignalMap := [], lenses := [], addsPhase := none
    terminalAllowedWhenAny := [] }

def auditPipeline : PipelineDefinition :=
  { phaseOrder :=
      [ { id := "P1_CONSTITUTIONAL_PREFLIGHT", primaryKernels := [constitutionalKernel]
          requiredOutputs := ["preflight"], exitGate := none },
        { id := "P2_TASK_ROUTING", primaryKernels := [], requiredOutputs := ["route"]
          exitGate := none } ]
    terminalContract := some "contracts/flawless_victory.contract.yaml"
    pipelineId := some "kernel_pipeline" }

/-- A pack with the default route alone and one constitutional kernel. -/
def auditPack : RuntimePack where
  read rel := .ok rel
  bytesDigest bytes := bytes
  loadMapping _ _ := .ok []
  escapesRoot _ := false
  isFile _ := true
  manifestDigest := "manifest"
  loadRules _ := .ok auditRules
  loadPipeline _ := .ok auditPipeline

def auditActivation : ActivationPlan :=
  { taskSummary := "audit the pack", matchedRoute := "pack_review", confidence := "low"
    phaseSequence := ["P1_CONSTITUTIONAL_PREFLIGHT", "P2_TASK_ROUTING"]
    activeKernels := [constitutionalKernel], skippedKernels := [], terminalAllowed := false
    requiredOutputs := ["preflight", "route"], blockers := []
    unknowns :=
      ["Task route matched only default route; inspect task context before execution."]
    nextPhase := "P1_CONSTITUTIONAL_PREFLIGHT"
    architectureMateriality :=
      { required := false, triggers := [], activeLenses := [], evidence := [] } }

def auditKernels : List KernelBinding :=
  [{ kernelId := "K01-platform-architecture-engine", sourceRef := constitutionalKernel
     sourceDigest := constitutionalKernel, outputs := [], contextNeeds := [] }]

omit [Sha256] in
theorem audit_intent : deriveIntent auditRequest = .ok auditIntent := by
  have hmode : deriveRealizationMode auditRequest.mission = .analysis := by decide
  unfold deriveIntent
  rw [hmode]
  rfl

omit [Sha256] in
theorem audit_activation (discovery : DiscoveryContext) :
    planActivation auditIntent auditRules auditPipeline discovery false
      = .ok auditActivation := by
  have hmateriality : assessMateriality auditIntent auditRules discovery
      = { required := false, triggers := [], activeLenses := [], evidence := [] } := by
    -- no signal of the audit's rules triggers anything
    have hsignals : discovery.architectureSignalRefs.filterMap (fun signal =>
        ((auditRules.contextSignalMap.lookup signal).filter (· ≠ "")).map fun trigger =>
          (trigger, "governed_signal:" ++ signal)) = [] :=
      List.filterMap_eq_nil_iff.mpr fun _ _ => rfl
    unfold assessMateriality
    dsimp only
    rw [hsignals]
    rfl
  unfold planActivation
  rw [hmateriality]
  rfl

omit [Sha256] in
theorem audit_kernels :
    resolveKernels auditPack.toSourcePack [] auditActivation.activeKernels
      = .ok auditKernels := by
  have hpath : kernelPath constitutionalKernel = constitutionalKernel := by decide
  have hbreach : kernelPathBreach auditPack.toSourcePack constitutionalKernel = none := by
    decide
  have hsuffix : hasYamlSuffix (pathName constitutionalKernel) = true := by decide +kernel
  have hid : kernelIdOf constitutionalKernel = "K01-platform-architecture-engine" := by
    decide +kernel
  have hbind : bindKernel auditPack.toSourcePack constitutionalKernel
      = .ok { kernelId := "K01-platform-architecture-engine", sourceRef := constitutionalKernel
              sourceDigest := constitutionalKernel, outputs := [], contextNeeds := [] } := by
    unfold bindKernel
    rw [hsuffix, hid]
    rfl
  show resolveKernels auditPack.toSourcePack [] [constitutionalKernel] = _
  simp only [resolveKernels, hpath, hbreach, List.not_mem_nil, if_false, hbind, ok_bind]
  rfl

omit [Sha256] in
/-- The constitutional kernel declares no needs. -/
theorem audit_needs : ∀ b ∈ auditKernels, b.contextNeeds = [] := by
  intro b hb
  obtain rfl := List.mem_singleton.mp hb
  rfl

omit [Sha256] in
theorem audit_needsAccepted : NeedsAccepted auditKernels := by
  intro b hb need hneed
  rw [audit_needs b hb] at hneed
  cases hneed

/-- The scope of the audit names nothing and leaves nothing open. -/
theorem audit_scope :
    (compileScope auditIntent).unresolvedUnknowns = [] ∧
      (compileScope auditIntent).eligibleRefs = [] := by
  constructor
  · rfl
  · rfl

/-- Nothing the audit plans for is required. -/
theorem audit_optional {discovery : DiscoveryContext} {kernels : List KernelBinding}
    (hkernels : ∀ b ∈ kernels, b.contextNeeds = []) {plan : ContextRequirementPlan}
    (h : planRequirements (compileScope auditIntent) discovery auditActivation kernels
      = .ok plan) :
    ∀ r ∈ plan.requirements, r.required = false ∧ r.missingPolicy = .optional := by
  intro r hr
  obtain ⟨spec, hspec, rfl⟩ := exists_spec_of_mem h hr
  have hneeds : declaredNeeds kernels = [] := by
    unfold declaredNeeds
    rw [List.flatMap_eq_nil_iff]
    intro b hb
    rw [hkernels b hb]
    rfl
  have hbaseline : spec ∈ baselineSpecs [] false := by
    unfold plannedSpecs kernelNeedSpecs at hspec
    rw [hneeds, audit_scope.2] at hspec
    simpa [mergedNeedSpecs, groupBy, firstSeen, sortedBy, auditActivation] using hspec
  have hall : ∀ spec ∈ baselineSpecs [] false,
      spec.required = false ∧ spec.missingPolicy = .optional := by
    intro spec hspec
    simp only [baselineSpecs, List.mem_cons, List.not_mem_nil, or_false] at hspec
    rcases hspec with rfl | rfl | rfl | rfl | rfl | rfl | rfl | rfl | rfl | rfl <;>
      exact ⟨rfl, rfl⟩
  exact hall spec hbaseline

/-- The audit after its prefix, for the plans the prefix computes. -/
def auditPrepared (plan : ContextRequirementPlan) (contextPlan : ContextPlan) :
    PreparedContextPlan :=
  { intent := auditIntent
    snapshot := ContextSnapshot.empty
    scope := compileScope auditIntent
    resolution := noCandidates
    discovery := discover (compileScope auditIntent) noCandidates
    activation := auditActivation
    kernels := auditKernels
    pipeline := auditPipeline
    requirementPlan := plan
    contextPlan := contextPlan }

theorem empty_withinCeilings : WithinCeilings ContextSnapshot.empty.toSnapshotBuckets := by
  refine ⟨Nat.zero_le _, le_trans (SnapshotBuckets.canonicalByteSize_le _) ?_⟩
  show SnapshotBuckets.frameSize + 0 ≤ snapshotMaxBytes
  decide

/-- What the prefix makes of the audit over a snapshot. -/
def auditPreparedOver (snapshot : ContextSnapshot) (plan : ContextRequirementPlan)
    (contextPlan : ContextPlan) : PreparedContextPlan :=
  { auditPrepared plan contextPlan with
    snapshot := snapshot
    resolution := resolveSnapshot snapshot.toSnapshotBuckets
    discovery := discover (compileScope auditIntent) (resolveSnapshot snapshot.toSnapshotBuckets) }

/-- The prefix succeeds on the audit over any snapshot within the
ceilings. -/
theorem audit_prepares_over (hsha : Sha256.Injective) (given : Option ContextSnapshot)
    {snapshot : ContextSnapshot} (hgiven : given.getD ContextSnapshot.empty = snapshot)
    (hceiling : WithinCeilings snapshot.toSnapshotBuckets) :
    ∃ plan contextPlan, prepareContextPlan auditRequest auditPack given .standard
        = .ok (auditPreparedOver snapshot plan contextPlan)
      ∧ planRequirements (compileScope auditIntent)
          (auditPreparedOver snapshot plan contextPlan).discovery auditActivation auditKernels
        = .ok plan := by
  generalize hdiscovery : discover (compileScope auditIntent)
    (resolveSnapshot snapshot.toSnapshotBuckets) = discovery
  have hdigest : discovery.taskScopeDigest = (compileScope auditIntent).sha256 := by
    rw [← hdiscovery]
    rfl
  obtain ⟨plan, hplan⟩ := planRequirements_ok hsha (compileScope auditIntent) discovery
    auditActivation audit_needsAccepted
  obtain ⟨-, -, -, hscope, hroute⟩ := planRequirements_eq_ok hplan
  have hactivation : chooseActivation .standard
      { rulesDigest := rulesRel, pipelineDigest := pipelineRel, rules := auditRules
        pipeline := auditPipeline } auditIntent discovery = .ok auditActivation :=
    audit_activation _
  have hcreate : ∀ draft : ContextPlan, draft.discovery = discovery →
      draft.taskScope = compileScope auditIntent → draft.requirementPlan = plan →
      ∃ contextPlan, ContextPlan.create draft = .ok contextPlan := by
    intro draft hdraft htask hrequirement
    have hblank : isBlank plan.matchedRoute = false := by
      rw [hroute]
      decide
    unfold ContextPlan.create
    rw [hdraft, htask, hrequirement, if_neg (not_not.mpr hdigest), if_neg (not_not.mpr hscope),
      if_neg (by simp [hblank])]
    exact ⟨_, rfl⟩
  obtain ⟨contextPlan, hcontextPlan⟩ := hcreate
    { contextPlanId := "", taskScope := compileScope auditIntent
      discovery := discovery, requirementPlan := plan
      activeKernelDigests := dictOf (auditKernels.map fun b => (b.sourceRef, b.sourceDigest))
      packManifestDigest := auditPack.manifestDigest, routingRulesDigest := rulesRel
      pipelineDigest := pipelineRel
      compilerIdentity :=
        { packageVersion := packageVersion
          semanticsVersion := contextCompilerSemanticsVersion } } rfl rfl rfl
  refine ⟨plan, contextPlan, ?_, ?_⟩
  · have hsources : readSources auditPack = .ok
        { rulesDigest := rulesRel, pipelineDigest := pipelineRel, rules := auditRules
          pipeline := auditPipeline } := rfl
    have hpreflight : preflightSnapshot snapshot.toSnapshotBuckets = .ok () :=
      preflightSnapshot_ok_iff.mpr hceiling
    unfold prepareContextPlan planFromDiscovery auditPreparedOver
    simp only [hgiven, hsources, audit_intent, ok_bind, hpreflight, hdiscovery, hactivation,
      audit_kernels, hplan, hcontextPlan]
    rfl
  · unfold auditPreparedOver
    rw [hdiscovery]
    exact hplan

theorem audit_prepares (hsha : Sha256.Injective) :
    ∃ plan contextPlan, prepareContextPlan auditRequest auditPack none .standard
        = .ok (auditPrepared plan contextPlan)
      ∧ ∀ r ∈ plan.requirements, r.required = false ∧ r.missingPolicy = .optional := by
  obtain ⟨plan, contextPlan, hprepares, hplan⟩ :=
    audit_prepares_over hsha none rfl empty_withinCeilings
  exact ⟨plan, contextPlan, hprepares, audit_optional audit_needs hplan⟩

/-- What the audit compiles: the context over nothing. -/
def auditContext (plan : ContextRequirementPlan) (contextPlan : ContextPlan) :
    CompiledTaskContext :=
  assembleContext (auditPrepared plan contextPlan).compileInputs [] []

theorem audit_capabilities :
    capabilityRequirements auditIntent auditActivation auditKernels = [] := by
  simp [capabilityRequirements, capabilityNeeds, auditIntent, auditActivation, sortedBy]

theorem audit_authority :
    authorityRequirements auditIntent (compileScope auditIntent) auditActivation auditKernels []
      = [] := by
  simp [authorityRequirements, auditIntent, auditActivation, sortedBy]

theorem auditContext_unknowns (plan : ContextRequirementPlan) (contextPlan : ContextPlan) :
    (auditContext plan contextPlan).unresolvedUnknowns = [] := by
  have hcapabilities : (compileCapabilities auditIntent auditActivation auditKernels []).2
      = [] := by
    unfold compileCapabilities
    rw [audit_capabilities]
    rfl
  have hauthority : (compileAuthority auditIntent (compileScope auditIntent) auditActivation
      auditKernels [] defaultAuthorityOrder).2 = [] := by
    unfold compileAuthority
    rw [audit_authority]
    rfl
  have hstatus : unknownStatusDecisions [] = [] := rfl
  have hcollected : contributedUnknowns (auditPrepared plan contextPlan).compileInputs [] []
      = [] := by
    unfold contributedUnknowns auditPrepared PreparedContextPlan.compileInputs
    simp only [audit_scope.1, discover_noCandidates, hcapabilities, hauthority, hstatus,
      List.append_nil]
  unfold auditContext
  rw [assembleContext_unknowns, hcollected]
  rfl

/-- The obligations of the audit. -/
def auditObligations : List Obligation :=
  objectiveObligations auditIntent auditActivation auditKernels

theorem audit_obligations (plan : ContextRequirementPlan) (contextPlan : ContextPlan) :
    deriveObligations auditIntent auditActivation auditKernels (auditContext plan contextPlan)
      = auditObligations := by
  unfold deriveObligations
  rw [auditContext_unknowns]
  rfl

/-- The audit's steps: the preflight, then the routing. -/
def auditSteps : List ExecutionStep :=
  [ { stepId := "step.P1_CONSTITUTIONAL_PREFLIGHT", phase := "P1_CONSTITUTIONAL_PREFLIGHT"
      kernelRefs := [constitutionalKernel], obligationRefs := ["OBL.AUTHORITY"], inputRefs := []
      outputRefs := ["preflight"], entryGates := [], exitGates := []
      evidenceRequirements := ["authority order respected with evidence"]
      failureRoutes := ["BLOCKED", "ABORTED"] },
    { stepId := "step.P2_TASK_ROUTING", phase := "P2_TASK_ROUTING", kernelRefs := []
      obligationRefs := ["OBL.RUNTIME_INTEGRITY", "OBL.REALIZATION"]
      inputRefs := ["preflight"], outputRefs := ["route"], entryGates := [], exitGates := []
      evidenceRequirements :=
        ["command run or blocker reason", "realization evidence for mode ANALYSIS"]
      failureRoutes := ["BLOCKED", "ABORTED"] } ]

omit [Sha256] in
theorem audit_execution (intent : IntentContract) (context : CompiledTaskContext)
    (digest : String) :
    ∃ execution, compileExecution intent auditActivation auditKernels auditPipeline
        auditObligations context digest = .ok execution
      ∧ execution.obligations = auditObligations
      ∧ execution.contractId = "FINAL_EXECUTION_CONTRACT"
      ∧ execution.validationRequirements = validationRequirements
      ∧ execution.executionSteps = auditSteps := by
  have hsteps : StepInputs.steps
      { kernels := auditKernels, pipeline := auditPipeline
        phaseKernels := phaseKernels auditActivation auditKernels auditPipeline
        obligations := auditObligations
        phaseOf := kindPhase auditActivation.phaseSequence "P2_TASK_ROUTING" }
      auditActivation.phaseSequence [] = auditSteps := by decide
  exact ⟨_, rfl, rfl, rfl, rfl, hsteps⟩

def auditEdges : List ExecutionGraphEdge :=
  [{ fromNode := "step.P1_CONSTITUTIONAL_PREFLIGHT", toNode := "step.P2_TASK_ROUTING"
     reason := some "step_order" }]

omit [Sha256] in
theorem audit_graph {execution : ExecutionContract}
    (hobligations : execution.obligations = auditObligations)
    (hsteps : execution.executionSteps = auditSteps) :
    ∃ graph, deriveExecutionGraph execution = .ok graph
      ∧ graph.nodes = auditSteps.map graphNode ∧ graph.edges = auditEdges
      ∧ graph.terminalNode = "step.P2_TASK_ROUTING"
      ∧ graph.obligationRefs = requiredPendingIds auditObligations := by
  have hedges : chainEdges (auditSteps.map ExecutionStep.stepId) = auditEdges := by
    decide
  have hids : checkStepIds [] (auditSteps.map ExecutionStep.stepId) = .ok () := by rfl
  have horder : topologicalOrder (auditSteps.map ExecutionStep.stepId) auditEdges
      = .ok (auditSteps.map ExecutionStep.stepId) := by rfl
  have hrefs : (auditObligations.filter fun o =>
      o.required && decide (o.disposition = .pending)).map Obligation.obligationId
      = requiredPendingIds auditObligations := openRequired_ids auditObligations
  unfold deriveExecutionGraph
  simp only [hobligations, hsteps, hedges, hids, horder, hrefs, ok_bind]
  exact ⟨_, rfl, rfl, rfl, rfl, rfl⟩

omit [Sha256] in
theorem audit_validates :
    validateObligations auditObligations (ownerRegistry auditActivation auditKernels) "intent"
      = .ok () := by
  have hregistered : ∀ o ∈ auditObligations,
      o.owner ∈ ownerRegistry auditActivation auditKernels := by decide +kernel
  have hconsumed : ∀ o ∈ auditObligations, (!(o.required && o.consumerRefs.isEmpty)) = true := by
    decide
  have hindex : indexObligations [] auditObligations = .ok () := by rfl
  have hall : ∀ o ∈ auditObligations, (do
      ensure (o.owner ∈ ownerRegistry auditActivation auditKernels)
        (.invalidValue "obligation owner does not resolve" (some "intent")
          (.obj [("obligation_id", .str o.obligationId), ("owner", .str o.owner)]))
      ensure (!(o.required && o.consumerRefs.isEmpty))
        (.invalidValue "required obligation has no consumer" (some "intent")
          (.obj [("obligation_id", .str o.obligationId)])) : Except RuntimeError Unit)
      = .ok () := by
    intro o ho
    simp only [ensure, hregistered o ho, hconsumed o ho, decide_true, if_true]
    rfl
  unfold validateObligations
  rw [hindex, ok_bind]
  exact checkEach_eq_ok.mpr hall

omit [Sha256] in
theorem audit_conserves (stage : String) :
    conserve auditObligations auditObligations stage = .ok () := by rfl

omit [Sha256] in
theorem audit_properties {execution : ExecutionContract}
    (hobligations : execution.obligations = auditObligations) :
    (compileValidation execution auditActivation).validationProperties.map
        ValidationProperty.obligationRef = requiredPendingIds auditObligations := by
  unfold compileValidation
  rw [hobligations]
  decide

omit [Sha256] in
theorem audit_conserves_ids :
    conserveIds auditObligations (sortedUnique (requiredPendingIds auditObligations))
      "execution->validation" = .ok () := by rfl

/-- The contracts of the audit, over any context that leaves nothing
open. -/
theorem audit_contracts (plan : ContextRequirementPlan) (contextPlan : ContextPlan)
    (report : ContextClosureReport) :
    ∃ a, compileContracts (auditPrepared plan contextPlan) (auditContext plan contextPlan) report
        = .ok a
      ∧ a.plan = auditActivation ∧ a.kernels = auditKernels
      ∧ SameObligations a auditObligations
      ∧ a.graph.nodes = auditSteps.map graphNode ∧ a.graph.edges = auditEdges
      ∧ a.graph.terminalNode = "step.P2_TASK_ROUTING"
      ∧ a.execution.executionSteps = auditSteps
      ∧ a.validation.validationProperties.map ValidationProperty.obligationRef
          = requiredPendingIds auditObligations
      ∧ a.taskContext = auditContext plan contextPlan
      ∧ a.contextDigest = (auditContext plan contextPlan).sha256
      ∧ a.closureReport = report := by
  obtain ⟨execution, hexecution, hobligations, -, -, hsteps⟩ := audit_execution
    { auditIntent with obligations := auditObligations } (auditContext plan contextPlan)
    (auditContext plan contextPlan).sha256
  obtain ⟨graph, hgraph, hnodes, hedges, hterminal, hrefs⟩ := audit_graph hobligations hsteps
  have hproperties := audit_properties hobligations
  have hhandoff : (compileHandoff execution auditActivation).obligations = auditObligations :=
    hobligations
  unfold compileContracts auditPrepared
  simp only [audit_obligations, audit_validates, ok_bind, hexecution, hobligations,
    audit_conserves, hproperties, audit_conserves_ids, hhandoff, hgraph, hrefs, decide_true,
    ensure, if_true]
  exact ⟨_, rfl, rfl, rfl, ⟨rfl, hobligations, hhandoff, hrefs⟩, hnodes, hedges, hterminal,
    hsteps, hproperties, rfl, rfl, rfl⟩

theorem auditContext_selected (plan : ContextRequirementPlan) (contextPlan : ContextPlan) :
    (auditContext plan contextPlan).selectedItems = [] := by
  simp [auditContext, CompiledTaskContext.selectedItems, assembleContext, ofKind,
    compileCapabilities, capabilityFactsIn, compileAuthority, authorityFactsIn]

theorem audit_closes {plan : ContextRequirementPlan} (contextPlan : ContextPlan)
    (h : ∀ r ∈ plan.requirements, r.required = false) :
    validateClosure (auditContext plan contextPlan) plan noCandidates auditKernels
      = .ok { checks := contextChecks, passed := true } := by
  refine validateClosure_noCandidates (auditContext_selected plan contextPlan)
    (auditContext_unknowns plan contextPlan) rfl ⟨?_, ?_⟩ ⟨?_, ?_⟩ h
  · exact audit_capabilities
  · rfl
  · exact audit_authority
  · show (effectiveAuthorityOrder [] [] [] defaultAuthorityOrder).1 ≠ []
    decide

/-- The packet of the audit passes its own validation. -/
theorem audit_packet {a : CompiledArtifacts} (digests : PacketDigests)
    (hobligations : a.execution.obligations = auditObligations)
    (hproperties : a.validation.validationProperties.map ValidationProperty.obligationRef
      = requiredPendingIds auditObligations)
    (hdigest : a.contextDigest = a.taskContext.sha256) :
    validatePacket (buildExecutionPacket a digests) = .ok () := by
  have hrequired : (openRequired auditObligations).map Obligation.obligationId
      = requiredPendingIds auditObligations := openRequired_ids auditObligations
  have hself : (requiredPendingIds auditObligations).filter
      (· ∉ requiredPendingIds auditObligations) = [] := by
    simp
  have hdelivery : auditObligations.filter (·.obligationId = "OBL.DELIVERY") = [] := by
    decide
  have harchitecture : "OBL.ARCHITECTURE" ∉ requiredPendingIds auditObligations := by
    decide
  have hbody : sha256Digest a.taskContext.toJson = a.taskContext.sha256 := rfl
  unfold validatePacket validateArchitectBinding buildExecutionPacket
  simp only [hobligations, hproperties, hdigest, hrequired, hself, hdelivery, harchitecture,
    hbody, ensure, decide_true, if_true, if_false, sortedUnique_nil, ok_bind, checkEach]

/-- Every liveness check holds of the audit. -/
theorem audit_lives {plan : ContextRequirementPlan} {contextPlan : ContextPlan}
    {a : CompiledArtifacts} (digests : PacketDigests) {payload : List (String × Json)}
    (hplan : a.plan = auditActivation) (hkernels : a.kernels = auditKernels)
    (hsame : SameObligations a auditObligations)
    (hnodes : a.graph.nodes = auditSteps.map graphNode) (hedges : a.graph.edges = auditEdges)
    (hterminal : a.graph.terminalNode = "step.P2_TASK_ROUTING")
    (hsteps : a.execution.executionSteps = auditSteps)
    (hproperties : a.validation.validationProperties.map ValidationProperty.obligationRef
      = requiredPendingIds auditObligations)
    (hcontext : a.taskContext = auditContext plan contextPlan)
    (hdigest : a.contextDigest = (auditContext plan contextPlan).sha256)
    (hreport : a.closureReport = { checks := contextChecks, passed := true })
    (hpayload : Json.field "context_digest" payload = some (.str a.contextDigest)) :
    validateLiveness a (buildExecutionPacket a digests) payload = .ok () := by
  have hselected : a.taskContext.selectedItems = [] := by
    rw [hcontext]
    exact auditContext_selected plan contextPlan
  have hunknowns : a.taskContext.unresolvedUnknowns = [] := by
    rw [hcontext]
    exact auditContext_unknowns plan contextPlan
  have hsha : a.taskContext.sha256 = a.contextDigest := by
    rw [hcontext, hdigest]
  have hbindings : a.taskContext.selectedKernels = a.kernels.map KernelBinding.toDict := by
    rw [hcontext, hkernels]
    rfl
  have hopen : openRequired a.execution.obligations = openRequired auditObligations := by
    rw [hsame.execution]
  have hrealization : ∀ check ∈ realizationChecks a, check.holds = true := by
    unfold realizationChecks openIdsOf requiredOutputs unrealizedOutputs requiredOutputs
    rw [hsame.intent, hsame.execution, hsame.handoff, hproperties, hplan, hkernels, hnodes,
      hsteps]
    simp only [List.forall_mem_cons, nothingMissing_holds]
    refine ⟨?_, ?_, ?_, ?_, ?_, ?_, ?_, ?_, ?_, ?_⟩
    case refine_10 => exact fun _ h => nomatch h
    all_goals decide +kernel
  have hconvergence : (convergenceCheck a).holds = true := by
    have hterminal : auditActivation.terminalAllowed = false := rfl
    unfold convergenceCheck
    rw [hplan, hterminal, if_neg Bool.false_ne_true, hsteps]
    decide
  have hconservation : ∀ check ∈ conservationChecks a (buildExecutionPacket a digests),
      check.holds = true := by
    unfold conservationChecks
    have hpacket : (buildExecutionPacket a digests).requiredObligations
        = openRequired auditObligations := hopen
    rw [hpacket, hsame.execution, hsame.handoff, hkernels, hnodes, hedges, hterminal]
    simp only [List.forall_mem_cons, nothingMissing_holds]
    refine ⟨?_, ?_, ?_, ?_, ?_, ?_, ?_⟩
    case refine_7 => exact fun _ h => nomatch h
    all_goals decide +kernel
  have hcontexts : ∀ check ∈ contextChecksOf a (buildExecutionPacket a digests) payload,
      check.holds = true := by
    have hdocument : (buildExecutionPacket a digests).compiledTaskContext
        = a.taskContext.toJson := rfl
    have hstamp : (buildExecutionPacket a digests).compiledTaskContextDigest
        = a.contextDigest := rfl
    unfold contextChecksOf selectedConflicts
    rw [hselected, hunknowns, hreport, hbindings, hpayload, hsha, hdocument, hstamp]
    simp [nothingMissing_holds]
  rw [validateLiveness_ok]
  intro check hcheck
  simp only [allLivenessChecks, List.mem_append, List.mem_singleton] at hcheck
  rcases hcheck with ((hc | rfl) | hc) | hc
  · exact hrealization check hc
  · exact hconvergence
  · exact hconservation check hc
  · exact hcontexts check hc

/-- The audit compiles. -/
theorem audit_compiles (hsha : Sha256.Injective) :
    ∃ root, compileRoot auditRequest auditPack none .standard none = .ok root := by
  obtain ⟨plan, contextPlan, hprepares, hplan⟩ := audit_prepares hsha
  have hversion : isBlank packageVersion = false := by decide
  have hcontext : compileContext (auditPrepared plan contextPlan).compileInputs
      = .ok (auditContext plan contextPlan) :=
    compileContext_noCandidates rfl (fun r hr => (hplan r hr).2) hversion
  have hclosure := audit_closes contextPlan fun r hr => (hplan r hr).1
  obtain ⟨a, ha, haplan, hakernels, hsame, hnodes, hedges, hterminal, hsteps, hproperties,
    htask, hdigest, hreport⟩ := audit_contracts plan contextPlan
      { checks := contextChecks, passed := true }
  have hpacket : ∀ digests, validatePacket (buildExecutionPacket a digests) = .ok () :=
    fun digests => audit_packet digests hsame.execution hproperties (by rw [hdigest, htask])
  have hlive : ∀ digests payload,
      Json.field "context_digest" payload = some (.str a.contextDigest) →
      validateLiveness a (buildExecutionPacket a digests) payload = .ok () :=
    fun digests _ hpayload => audit_lives digests haplan hakernels hsame hnodes hedges hterminal
      hsteps hproperties htask hdigest hreport hpayload
  have hpayload : ∀ rules pipeline id, Json.field "context_digest"
      (semanticPayload a rules pipeline id) = some (.str a.contextDigest) := by
    intro rules pipeline id
    simp [semanticPayload, Json.field]
  have hresolution : (auditPrepared plan contextPlan).resolution = noCandidates := rfl
  have hrequirements : (auditPrepared plan contextPlan).requirementPlan = plan := rfl
  have hbound : (auditPrepared plan contextPlan).kernels = auditKernels := rfl
  unfold compileRoot compileThen
  rw [hprepares, ok_bind]
  show ∃ root, compileStages auditPack (auditPrepared plan contextPlan) = .ok root
  unfold compileStages
  rw [hcontext, ok_bind, hresolution, hrequirements, hbound, hclosure, ok_bind, ha, ok_bind]
  dsimp only
  rw [hpacket, ok_bind, hlive _ _ (hpayload _ _ _), ok_bind]
  exact ⟨_, rfl⟩

end Audit

end CognitiveRuntime
