import CognitiveRuntime.Compiler.Liveness

/-!
# The compilation spine

One semantic prefix serves planning and compilation: it derives the
intent, resolves the snapshot, discovers, activates, binds kernels and
plans the requirements, and ends in the public context plan. Compilation
checks the plan it is bound to right after the prefix and only then runs
the stages that select context and build the artifacts.
-/

namespace CognitiveRuntime

open Ordered Fallible

/-- A pack that also reads the two routing documents. -/
structure RuntimePack extends SourcePack where
  loadRules : String → Except RuntimeError RoutingRules
  loadPipeline : String → Except RuntimeError PipelineDefinition

/-- `RULES_REL`. -/
def rulesRel : String := "runtime/kernel_pipeline/planner/TASK_ROUTING_RULES.yaml"

/-- `PIPELINE_REL`. -/
def pipelineRel : String := "runtime/kernel_pipeline/KERNEL_PIPELINE.yaml"

/-- `_package_version`. -/
def packageVersion : String := "0.1.0"

section Spine

variable [Sha256]

/-! ## The prefix -/

/-- `_PreparedContextPlan`. -/
structure PreparedContextPlan where
  intent : IntentContract
  snapshot : ContextSnapshot
  scope : TaskScope
  resolution : SnapshotResolution
  discovery : DiscoveryContext
  activation : ActivationPlan
  kernels : List KernelBinding
  pipeline : PipelineDefinition
  requirementPlan : ContextRequirementPlan
  contextPlan : ContextPlan

/-- What selects a run besides the request, the pack and the snapshot:
the compatibility entry may force the terminal phase or hand in a plan. -/
structure RunOptions where
  includeTerminal : Bool
  activationPlan : Option ActivationPlan

/-- The options of `compile` and `plan_context`. -/
def RunOptions.standard : RunOptions := { includeTerminal := false, activationPlan := none }

variable [TextTables]

/-- The sources of the prefix, each read once, before any stage. -/
structure RoutingSources where
  rulesDigest : String
  pipelineDigest : String
  rules : RoutingRules
  pipeline : PipelineDefinition

def readSources (pack : RuntimePack) : Except RuntimeError RoutingSources := do
  let rulesSource ← pack.read rulesRel
  let pipelineSource ← pack.read pipelineRel
  let rules ← pack.loadRules rulesSource
  let pipeline ← pack.loadPipeline pipelineSource
  .ok { rulesDigest := pack.bytesDigest rulesSource
        pipelineDigest := pack.bytesDigest pipelineSource
        rules := rules
        pipeline := pipeline }

/-- The activation plan: the given one, or the planned one. -/
def chooseActivation (options : RunOptions) (sources : RoutingSources) (intent : IntentContract)
    (discovery : DiscoveryContext) : Except RuntimeError ActivationPlan :=
  match options.activationPlan with
  | some plan => .ok plan
  | none => planActivation intent sources.rules sources.pipeline discovery options.includeTerminal

/-- The stages between the resolved snapshot and the context plan. What
they read of the snapshot is the discovery projection. -/
def planFromDiscovery (pack : RuntimePack) (options : RunOptions) (sources : RoutingSources)
    (intent : IntentContract) (scope : TaskScope) (discovery : DiscoveryContext) :
    Except RuntimeError
      (ActivationPlan × List KernelBinding × ContextRequirementPlan × ContextPlan) := do
  let activation ← chooseActivation options sources intent discovery
  let kernels ← resolveKernels pack.toSourcePack [] activation.activeKernels
  let requirementPlan ← planRequirements scope discovery activation kernels
  let contextPlan ← ContextPlan.create
    { contextPlanId := ""
      taskScope := scope
      discovery := discovery
      requirementPlan := requirementPlan
      activeKernelDigests := dictOf (kernels.map fun b => (b.sourceRef, b.sourceDigest))
      packManifestDigest := pack.manifestDigest
      routingRulesDigest := sources.rulesDigest
      pipelineDigest := sources.pipelineDigest
      compilerIdentity :=
        { packageVersion := packageVersion
          semanticsVersion := contextCompilerSemanticsVersion } }
  .ok (activation, kernels, requirementPlan, contextPlan)

/-- `_prepare_context_plan`. -/
def prepareContextPlan (request : CompileRequest) (pack : RuntimePack)
    (contextSnapshot : Option ContextSnapshot) (options : RunOptions) :
    Except RuntimeError PreparedContextPlan := do
  let sources ← readSources pack
  let intent ← deriveIntent request
  let snapshot := contextSnapshot.getD ContextSnapshot.empty
  preflightSnapshot snapshot.toSnapshotBuckets
  let scope := compileScope intent
  let resolution := resolveSnapshot snapshot.toSnapshotBuckets
  let discovery := discover scope resolution
  let (activation, kernels, requirementPlan, contextPlan) ←
    planFromDiscovery pack options sources intent scope discovery
  .ok { intent := intent
        snapshot := snapshot
        scope := scope
        resolution := resolution
        discovery := discovery
        activation := activation
        kernels := kernels
        pipeline := sources.pipeline
        requirementPlan := requirementPlan
        contextPlan := contextPlan }

/-- `plan_context`. -/
def planContext (request : CompileRequest) (pack : RuntimePack)
    (discoverySnapshot : Option ContextSnapshot) : Except RuntimeError ContextPlan := do
  let prepared ← prepareContextPlan request pack discoverySnapshot .standard
  .ok prepared.contextPlan

/-! ## Binding to a plan -/

/-- The error of a compile bound to another demand. -/
def replanRequired (expected recomputed : String) : RuntimeError :=
  .invalidValue "context planning inputs changed; replan required"
    (some "expected_context_plan_id")
    (.obj [("expected", .str expected), ("recomputed", .str recomputed)])

/-- The check of the expected plan id, when one is given. -/
def requireContextPlan (expected : Option String) (prepared : PreparedContextPlan) :
    Except RuntimeError Unit :=
  match expected with
  | none => .ok ()
  | some id => ensure (prepared.contextPlan.contextPlanId = id)
      (replanRequired id prepared.contextPlan.contextPlanId)

/-- `_compile` with the stages after the plan check left open. -/
def compileThen {β : Type} (later : PreparedContextPlan → Except RuntimeError β)
    (request : CompileRequest) (pack : RuntimePack) (contextSnapshot : Option ContextSnapshot)
    (options : RunOptions) (expected : Option String) : Except RuntimeError β := do
  let prepared ← prepareContextPlan request pack contextSnapshot options
  requireContextPlan expected prepared
  later prepared

/-! ## The stages after the check -/

/-- `_semantic_payload`. -/
def semanticPayload (a : CompiledArtifacts) (routingRulesDigest pipelineDigest
    contextPlanId : String) : List (String × Json) :=
  [("intent_digest", .str (sha256Digest a.intent.toJson)),
    ("execution_digest", .str (sha256Digest a.execution.toJson)),
    ("validation_digest", .str (sha256Digest a.validation.toJson)),
    ("handoff_digest", .str (sha256Digest a.handoff.toJson)),
    ("graph_digest", .str (sha256Digest a.graph.toJson)),
    ("obligation_set_digest", .str (sha256Digest
      (.ofStrings (a.execution.obligations.map Obligation.obligationId)))),
    ("active_kernel_digests",
      ofStringDict (dictOf (a.kernels.map fun b => (b.sourceRef, b.sourceDigest)))),
    ("routing_rules_digest", .str routingRulesDigest),
    ("pipeline_digest", .str pipelineDigest),
    ("context_digest", .str a.contextDigest),
    ("context_plan_id", .str contextPlanId)]

/-- The compiled bundle. -/
structure RuntimeBundle where
  intent : IntentContract
  execution : ExecutionContract
  validation : ValidationContract
  handoff : HandoffContract
  graph : ExecutionGraph
  manifestDigest : String
  semanticDigest : String
  packet : ExecutionPacket
  taskContext : CompiledTaskContext
  contextPlan : ContextPlan

/-- `RootCompilation`. -/
structure RootCompilation where
  bundle : RuntimeBundle
  plan : ActivationPlan
  kernels : List KernelBinding

omit [TextTables] in
/-- The contracts and the graph over a finished context, each conserved
from the one before it. -/
def compileContracts (prepared : PreparedContextPlan) (taskContext : CompiledTaskContext)
    (closureReport : ContextClosureReport) : Except RuntimeError CompiledArtifacts := do
  let plan := prepared.activation
  let kernels := prepared.kernels
  let contextDigest := taskContext.sha256
  let obligations := deriveObligations prepared.intent plan kernels taskContext
  validateObligations obligations (ownerRegistry plan kernels) "intent"
  let intent := { prepared.intent with obligations := obligations }
  let execution ← compileExecution intent plan kernels prepared.pipeline obligations taskContext
    contextDigest
  conserve intent.obligations execution.obligations "intent->execution"
  let validation := compileValidation execution plan
  conserveIds execution.obligations
    (sortedUnique (validation.validationProperties.map ValidationProperty.obligationRef))
    "execution->validation"
  let handoff := compileHandoff execution plan
  conserve execution.obligations handoff.obligations "execution->handoff"
  let graph ← deriveExecutionGraph execution
  let requiredIds := requiredPendingIds execution.obligations
  ensure (graph.obligationRefs = requiredIds)
    (.invalidValue "graph obligation_refs diverged from required pending obligations"
      (some "execution->graph")
      (.obj [("expected", .ofStrings requiredIds), ("got", .ofStrings graph.obligationRefs)]))
  .ok { intent := intent
        plan := plan
        kernels := kernels
        execution := execution
        validation := validation
        handoff := handoff
        graph := graph
        taskContext := taskContext
        contextDigest := contextDigest
        closureReport := closureReport }

omit [TextTables] in
/-- The inputs of context compilation. -/
def PreparedContextPlan.compileInputs (prepared : PreparedContextPlan) : CompileInputs :=
  { intent := prepared.intent
    scope := prepared.scope
    resolution := prepared.resolution
    discovery := prepared.discovery
    requirementPlan := prepared.requirementPlan
    activation := prepared.activation
    kernels := prepared.kernels
    packageVersion := packageVersion
    defaultAuthorityOrder := defaultAuthorityOrder }

omit [TextTables] in
/-- The stages of `_compile` after the plan check. -/
def compileStages (pack : RuntimePack) (prepared : PreparedContextPlan) :
    Except RuntimeError RootCompilation := do
  let taskContext ← compileContext prepared.compileInputs
  let closureReport ← validateClosure taskContext prepared.requirementPlan prepared.resolution
    prepared.kernels
  let a ← compileContracts prepared taskContext closureReport
  let contextPlan := prepared.contextPlan
  let payload := semanticPayload a contextPlan.routingRulesDigest contextPlan.pipelineDigest
    contextPlan.contextPlanId
  let semanticDigest := sha256Digest (.str (Json.canonicalText (.obj payload)))
  let packet := buildExecutionPacket a
    { routingRulesDigest := contextPlan.routingRulesDigest
      pipelineDigest := contextPlan.pipelineDigest
      semanticDigest := semanticDigest
      contextPlanId := contextPlan.contextPlanId }
  validatePacket packet
  validateLiveness a packet payload
  .ok { bundle :=
          { intent := a.intent
            execution := a.execution
            validation := a.validation
            handoff := a.handoff
            graph := a.graph
            manifestDigest := pack.manifestDigest
            semanticDigest := semanticDigest
            packet := packet
            taskContext := taskContext
            contextPlan := contextPlan }
        plan := a.plan
        kernels := a.kernels }

/-- `_compile`. -/
def compileRoot (request : CompileRequest) (pack : RuntimePack)
    (contextSnapshot : Option ContextSnapshot) (options : RunOptions)
    (expected : Option String) : Except RuntimeError RootCompilation :=
  compileThen (compileStages pack) request pack contextSnapshot options expected

/-- `compile`. -/
def compile (request : CompileRequest) (pack : RuntimePack)
    (contextSnapshot : Option ContextSnapshot) (expected : Option String) :
    Except RuntimeError RuntimeBundle := do
  let root ← compileRoot request pack contextSnapshot .standard expected
  .ok root.bundle

end Spine

/-! ## What a finished compile went through -/

section Runs

variable [Sha256]

/-- The contracts of one compilation carry one list of obligations. -/
structure SameObligations (a : CompiledArtifacts) (obligations : List Obligation) : Prop where
  intent : a.intent.obligations = obligations
  execution : a.execution.obligations = obligations
  handoff : a.handoff.obligations = obligations
  graph : a.graph.obligationRefs = requiredPendingIds obligations

/-- What the stages after the check establish, stage by stage. -/
structure CompiledFrom (prepared : PreparedContextPlan) (root : RootCompilation) : Prop where
  context : compileContext prepared.compileInputs = .ok root.bundle.taskContext
  closure : ∃ report, validateClosure root.bundle.taskContext prepared.requirementPlan
    prepared.resolution prepared.kernels = .ok report
  contracts : ∃ a, compileContracts prepared root.bundle.taskContext a.closureReport = .ok a
    ∧ root.bundle.intent = a.intent ∧ root.bundle.execution = a.execution
    ∧ root.bundle.validation = a.validation ∧ root.bundle.handoff = a.handoff
    ∧ root.bundle.graph = a.graph
    ∧ (∃ digests, root.bundle.packet = buildExecutionPacket a digests)
    ∧ validatePacket root.bundle.packet = .ok ()
    ∧ ∃ payload, validateLiveness a root.bundle.packet payload = .ok ()

theorem compileContracts_report {prepared : PreparedContextPlan}
    {taskContext : CompiledTaskContext} {report : ContextClosureReport} {a : CompiledArtifacts}
    (h : compileContracts prepared taskContext report = .ok a) : a.closureReport = report := by
  simp only [compileContracts, bind_eq_ok] at h
  obtain ⟨_, -, execution, -, _, -, _, -, _, -, graph, -, _, -, h⟩ := h
  cases h
  rfl

theorem compileStages_ok {pack : RuntimePack} {prepared : PreparedContextPlan}
    {root : RootCompilation} (h : compileStages pack prepared = .ok root) :
    CompiledFrom prepared root := by
  simp only [compileStages, bind_eq_ok] at h
  obtain ⟨taskContext, hcontext, report, hclosure, a, ha, _, hpacket, _, hlive, h⟩ := h
  cases h
  have hreport := compileContracts_report ha
  subst hreport
  exact
    { context := hcontext
      closure := ⟨_, hclosure⟩
      contracts := ⟨a, ha, rfl, rfl, rfl, rfl, rfl, ⟨_, rfl⟩, hpacket, _, hlive⟩ }

theorem compileRoot_ok [TextTables] {request : CompileRequest} {pack : RuntimePack}
    {snapshot : Option ContextSnapshot} {options : RunOptions} {expected : Option String}
    {root : RootCompilation}
    (h : compileRoot request pack snapshot options expected = .ok root) :
    ∃ prepared, prepareContextPlan request pack snapshot options = .ok prepared
      ∧ CompiledFrom prepared root := by
  simp only [compileRoot, compileThen, bind_eq_ok] at h
  obtain ⟨prepared, hprepared, _, -, h⟩ := h
  exact ⟨prepared, hprepared, compileStages_ok h⟩

end Runs

end CognitiveRuntime
