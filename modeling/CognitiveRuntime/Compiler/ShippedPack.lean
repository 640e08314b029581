import CognitiveRuntime.Compiler.Pipeline

/-!
# The shipped documents

What the compiler reads of the routing rules, the pipeline definition and
the kernel declarations a pack ships. The architect is the one kernel
that declares outputs and context needs.
-/

namespace CognitiveRuntime

/-! ## Routing rules -/

/-- `task_routes`. -/
def shippedRoutes : List (String × Route) :=
  [ ("pack_review",
      { matchAny := ["pack", "archive", "zip", "unpack", "inspect", "audit", "review"]
        phases := ["P0_UNPACK", "P1_CONSTITUTIONAL_PREFLIGHT", "P2_TASK_ROUTING"]
        optionalPhases := ["P4_ALIGNMENT_AND_STUB_GATE", "P5_RECURSIVE_IMPROVEMENT"]
        taskKernels := ["runtime/kernels/task/repo_auditor_kernel.yaml"] }),
    ("prompt_or_kernel_compilation",
      { matchAny := ["prompt", "kernel", "compiler", "compile", "contract", "handoff"]
        phases := ["P0_UNPACK", "P1_CONSTITUTIONAL_PREFLIGHT", "P2_TASK_ROUTING"]
        optionalPhases :=
          ["P4_ALIGNMENT_AND_STUB_GATE", "P5_RECURSIVE_IMPROVEMENT", "P6_LEVERAGE_COMPRESSION"]
        taskKernels := ["runtime/kernels/task/prompt_compiler_kernel.yaml"] }),
    ("l9_engine_build",
      { matchAny :=
        ["l9 engine", "TransportPacket", "Gate", "SDK", "chassis", "runtime", "build",
         "implementation"]
        phases :=
          ["P0_UNPACK", "P1_CONSTITUTIONAL_PREFLIGHT", "P2_TASK_ROUTING",
           "P3_ARCHITECTURE_DECISION"]
        optionalPhases :=
          ["P4_ALIGNMENT_AND_STUB_GATE", "P5_RECURSIVE_IMPROVEMENT", "P6_LEVERAGE_COMPRESSION",
           "P7_FLAWLESS_VICTORY"]
        taskKernels :=
          ["runtime/kernels/task/developer_core_kernel.yaml",
           "runtime/kernels/task/l9_engine_build_kernel.yaml"] }),
    ("code_review_ci",
      { matchAny :=
        ["ci", "test", "lint", "typecheck", "review", "pull request", "pr", "regression"]
        phases := ["P0_UNPACK", "P1_CONSTITUTIONAL_PREFLIGHT", "P2_TASK_ROUTING"]
        optionalPhases := ["P4_ALIGNMENT_AND_STUB_GATE", "P5_RECURSIVE_IMPROVEMENT"]
        taskKernels := ["runtime/kernels/task/code_review_ci_kernel.yaml"] }),
    ("architecture_boundary",
      { matchAny :=
        ["architecture", "taxonomy", "dependency", "birth", "bundle", "node extras", "package",
         "repo classification"]
        phases :=
          ["P0_UNPACK", "P1_CONSTITUTIONAL_PREFLIGHT", "P2_TASK_ROUTING",
           "P3_ARCHITECTURE_DECISION"]
        optionalPhases := ["P4_ALIGNMENT_AND_STUB_GATE", "P6_LEVERAGE_COMPRESSION"]
        taskKernels :=
          ["runtime/kernels/task/repo_auditor_kernel.yaml",
           "runtime/kernels/task/developer_core_kernel.yaml"] }),
    ("cleanup_streamline",
      { matchAny :=
        ["clean", "dedupe", "streamline", "overlap", "improve", "harden", "leverage", "stubs",
         "gaps"]
        phases :=
          ["P0_UNPACK", "P1_CONSTITUTIONAL_PREFLIGHT", "P2_TASK_ROUTING",
           "P4_ALIGNMENT_AND_STUB_GATE", "P5_RECURSIVE_IMPROVEMENT", "P6_LEVERAGE_COMPRESSION"]
        optionalPhases := ["P7_FLAWLESS_VICTORY"]
        taskKernels :=
          ["runtime/kernels/task/repo_auditor_kernel.yaml",
           "runtime/kernels/task/prompt_compiler_kernel.yaml"] }),
    ("feature_development",
      { matchAny :=
        ["add", "implement", "feature", "worker", "service", "handler", "endpoint", "behavior",
         "component", "module"]
        phases := ["P0_UNPACK", "P1_CONSTITUTIONAL_PREFLIGHT", "P2_TASK_ROUTING"]
        optionalPhases :=
          ["P4_ALIGNMENT_AND_STUB_GATE", "P5_RECURSIVE_IMPROVEMENT", "P6_LEVERAGE_COMPRESSION",
           "P7_FLAWLESS_VICTORY"]
        taskKernels := ["runtime/kernels/task/developer_core_kernel.yaml"] }) ]

/-- `mission_signal_tokens`. -/
def shippedSignalTokens : List (String × List String) :=
  [ ("ownership_change", ["ownership", "owns", "owner"]),
    ("authoritative_state_change", ["authoritative state", "source of truth", "canonical state"]),
    ("cross_module_responsibility_change",
      ["module", "component", "service", "worker", "handler", "responsibility"]),
    ("new_abstraction", ["abstraction", "layer", "framework", "interface layer"]),
    ("new_state_store", ["state store", "database", "cache", "persistence", "storage", "store"]),
    ("public_interface_change",
      ["api", "interface", "contract", "protocol", "endpoint", "signature"]),
    ("dependency_direction_change", ["dependency", "import direction", "inversion"]),
    ("distributed_semantics", ["distributed", "cluster", "partition", "shard"]),
    ("concurrency_material",
      ["concurrent", "parallel", "async", "asynchronous", "worker", "workers", "queue", "lock",
       "race", "thread"]),
    ("temporal_semantics_material",
      ["retry", "retries", "timeout", "backoff", "idempotent", "idempotency", "ordering",
       "deduplicate", "replay", "eventual"]),
    ("failure_domain_change",
      ["failure", "fail", "rollback", "circuit breaker", "side effect", "external", "crash"]),
    ("migration_material", ["migrate", "migration", "schema change"]),
    ("security_boundary_material",
      ["auth", "authentication", "permission", "secret", "token", "credential"]),
    ("operability_material",
      ["deploy", "operations", "monitoring", "observability", "alert", "rollout"]),
    ("scale_model_material", ["scale", "scaling", "throughput", "performance", "load", "capacity"]),
    ("irreversible_change", ["delete", "irreversible", "drop", "purge", "destroy"]),
    ("architectural_ambiguity_high",
      ["ambiguous architecture", "unclear architecture", "unknown architecture"]) ]

/-- `lenses`. -/
def shippedLenses : List (String × List String) :=
  [ ("ownership_lens", ["ownership_change", "cross_module_responsibility_change"]),
    ("boundary_lens", ["public_interface_change", "dependency_direction_change"]),
    ("state_lens", ["new_state_store", "authoritative_state_change"]),
    ("temporal_lens", ["temporal_semantics_material"]),
    ("failure_lens", ["failure_domain_change"]),
    ("concurrency_lens", ["concurrency_material", "distributed_semantics"]),
    ("scale_lens", ["scale_model_material"]),
    ("operability_lens", ["operability_material"]),
    ("evolution_lens", ["migration_material"]),
    ("simplicity_lens", ["new_abstraction", "architectural_ambiguity_high"]) ]

/-- `TASK_ROUTING_RULES.yaml`. -/
def shippedRules : RoutingRules :=
  { taskRoutes := shippedRoutes
    missionSignalTokens := shippedSignalTokens
    contextSignalMap :=
      [("message_redelivery_possible", "temporal_semantics_material"),
       ("external_side_effect", "failure_domain_change"),
       ("multiple_workers", "concurrency_material")]
    lenses := shippedLenses
    addsPhase := some "P3_ARCHITECTURE_DECISION"
    terminalAllowedWhenAny :=
      ["final execution contract", "build contract", "execution-ready handoff", "flawless victory",
       "terminal contract"] }

/-! ## Pipeline -/

/-- `phase_order`. -/
def shippedPhases : List PipelinePhase :=
  [ { id := "P0_UNPACK"
      primaryKernels := ["runtime/kernels/task/repo_auditor_kernel.yaml"]
      requiredOutputs := ["SYSTEM_MAP.md", "KERNEL_INVENTORY.json", "UNKNOWN_QUEUE.md"]
      exitGate := some "All relevant files inventoried or unavailable files listed as blockers." },
    { id := "P1_CONSTITUTIONAL_PREFLIGHT"
      primaryKernels :=
        ["runtime/kernels/constitutional/K01-platform-architecture-engine.yaml",
         "runtime/kernels/constitutional/K02-contracts-code-laws-enforcement.yaml",
         "runtime/kernels/constitutional/K03-constellation-transport-authority.yaml",
         "runtime/kernels/constitutional/K04-domain-spec-yaml-authoring.yaml",
         "runtime/kernels/constitutional/K05-file-ownership-placement-capability-registry.yaml"]
      requiredOutputs := ["CONSTITUTIONAL_PREFLIGHT_REPORT.md"]
      exitGate := some "No critical unresolved law or boundary conflict." },
    { id := "P2_TASK_ROUTING"
      primaryKernels :=
        ["runtime/kernels/task/developer_core_kernel.yaml",
         "runtime/kernels/task/repo_auditor_kernel.yaml",
         "runtime/kernels/task/prompt_compiler_kernel.yaml",
         "runtime/kernels/task/l9_engine_build_kernel.yaml",
         "runtime/kernels/task/code_review_ci_kernel.yaml"]
      requiredOutputs := ["KERNEL_ACTIVATION_PLAN.yaml"]
      exitGate := some "No duplicate active kernels with the same role." },
    { id := "P3_ARCHITECTURE_DECISION"
      primaryKernels :=
        ["runtime/kernels/architecture/repo_taxonomy_and_dependency_architecture.md",
         "runtime/kernels/architecture/dependency_birth_and_mirror_codegen.md",
         "runtime/kernels/architecture/bundle_and_node_extras.md",
         "runtime/kernels/architecture/global_architect_kernel.yaml"]
      requiredOutputs := ["ARCHITECTURE_DECISION_RECORD.md"]
      exitGate := some "Architecture ownership and dependency boundaries are explicit." },
    { id := "P4_ALIGNMENT_AND_STUB_GATE"
      primaryKernels :=
        ["runtime/kernels/improvement/recursive_alignment.md",
         "runtime/kernels/improvement/validate_eliminate_stubs.md"]
      requiredOutputs := ["ALIGNMENT_FINDINGS.md", "NO_STUB_REPORT.md"]
      exitGate := some "Execution allowed only if no blocking stubs or fake validation remain." },
    { id := "P5_RECURSIVE_IMPROVEMENT"
      primaryKernels := ["runtime/kernels/improvement/recursive_improvement.md"]
      requiredOutputs := ["IMPROVEMENT_PATCH_PLAN.md", "CONVERGENCE_STATUS.md"]
      exitGate := some "Another improvement pass would add no material value." },
    { id := "P6_LEVERAGE_COMPRESSION"
      primaryKernels := ["runtime/kernels/improvement/recursive_leverage.md"]
      requiredOutputs := ["LEVERAGE_DECISIONS.md"]
      exitGate := some "Keep/merge/remove/promote decisions recorded." },
    { id := "P7_FLAWLESS_VICTORY"
      primaryKernels := ["runtime/kernels/terminal/flawless_victory.contract.yaml"]
      requiredOutputs :=
        ["FINAL_EXECUTION_CONTRACT.yaml", "VALIDATION_CONTRACT.yaml", "HANDOFF_CONTRACT.yaml",
         "ADAPTER_RENDER.md", "VALIDATION_EVIDENCE.md", "CONVERGENCE_BLOCK.md"]
      exitGate := some "Honest validation, no drift, no stubs, terminal summary complete." } ]

/-- `KERNEL_PIPELINE.yaml`. -/
def shippedPipeline : PipelineDefinition :=
  { phaseOrder := shippedPhases
    terminalContract := some "runtime/kernels/terminal/flawless_victory.contract.yaml"
    pipelineId := some "l9_clean_kernel_pipeline.v1" }

/-! ## Kernel declarations -/

/-- The Global Architect. -/
def architectRef : String := "runtime/kernels/architecture/global_architect_kernel.yaml"

/-- `typed_outputs` of the architect. -/
def architectOutputs : Json :=
  .arr
    [ .obj [("id", .str "GAR_SYSTEM_MODEL"), ("required", .bool true),
        ("consumer_refs", .ofStrings ["execution_gate"])],
      .obj [("id", .str "GAR_ARCHITECTURE_DECISION"), ("required", .bool true),
        ("consumer_refs", .ofStrings ["execution_gate", "validation_contract"])],
      .obj [("id", .str "GAR_ARCHITECTURAL_INTEGRITY_EVIDENCE"), ("required", .bool true),
        ("consumer_refs", .ofStrings ["validation_contract"])],
      .obj [("id", .str "GAR_PLAN_READINESS"), ("required", .bool true),
        ("consumer_refs", .ofStrings ["execution_gate"])],
      .obj [("id", .str "GAR_TYPED_DEFECTS"), ("required", .bool true),
        ("consumer_refs", .ofStrings ["convergence_gate"])] ]

/-- `context_needs` of the architect. -/
def architectNeeds : Json :=
  .arr
    [ .obj [("id", .str "governed_architecture_constraints"),
        ("context_kind", .str "architecture_constraint"), ("required", .bool false),
        ("reason", .str "governed architecture constraints materially applicable to the task"),
        ("coverage", .str "all_eligible"), ("minimum_authority", .str "governed_verified")],
      .obj [("id", .str "dependency_seams"),
        ("context_kind", .str "dependency_context"), ("required", .bool false),
        ("reason", .str "dependency seams materially relevant to architecture judgment"),
        ("coverage", .str "all_eligible"), ("minimum_authority", .str "governed_verified")],
      .obj [("id", .str "prior_architecture_decisions"),
        ("context_kind", .str "prior_decision"), ("required", .bool false),
        ("reason", .str "prior architecture decisions governing the task scope"),
        ("coverage", .str "all_eligible"), ("minimum_authority", .str "governed_verified")] ]

/-- What a shipped kernel document declares. -/
def shippedDeclarations (rel : String) : List (String × Json) :=
  if rel = architectRef then
    [("typed_outputs", architectOutputs), ("context_needs", architectNeeds)]
  else []

/-- The kernels the shipped phases name. -/
def shippedKernels : List String :=
  shippedPhases.flatMap PipelinePhase.primaryKernels

/-- A verified pack of the shipped documents: the routing documents and
every kernel file are there, inside the root, and read as shipped. -/
structure RuntimePack.Ships (pack : RuntimePack) : Prop where
  rules : ∃ source, pack.read rulesRel = .ok source ∧ pack.loadRules source = .ok shippedRules
  pipeline : ∃ source, pack.read pipelineRel = .ok source
    ∧ pack.loadPipeline source = .ok shippedPipeline
  contained : ∀ rel ∈ shippedKernels, pack.escapesRoot rel = false
  present : ∀ rel ∈ shippedKernels, pack.isFile rel = true
  readable : ∀ rel ∈ shippedKernels, ∃ source, pack.read rel = .ok source
    ∧ (hasYamlSuffix (pathName rel) = true → ∃ document,
      pack.loadMapping source rel = .ok document
        ∧ ∀ key ∈ ["typed_outputs", "context_needs"],
          Json.field key document = Json.field key (shippedDeclarations rel))
  digests : ∀ source, pack.bytesDigest source ≠ ""

end CognitiveRuntime
