import Mathlib.Data.List.Lex
import CognitiveRuntime.Compiler.Activation
import CognitiveRuntime.Compiler.Kernels

/-!
# Task scope and requirement planning

The task scope is compiled from the intent and the caller's hints. The
requirement plan is compiled from the scope, the discovery projection,
the activation plan and the kernels' declared needs, before any
candidate is looked at.
-/

namespace CognitiveRuntime

open Ordered Fallible

/-! ## Task scope -/

/-- `_string_list`: a list's non-blank strings; anything else is no hint. -/
def stringList (value : Option Json) : List String :=
  match value with
  | some (.arr items) => items.filterMap fun item => match item with
    | .str s => if isBlank s then none else some s
    | _ => none
  | _ => []

/-- `TaskScopeCompiler.compile`. -/
def compileScope [Sha256] (intent : IntentContract) : TaskScope :=
  let targetRefs := stringList (Json.field "target_refs" intent.sourceContext)
  let inScopeRefs := stringList (Json.field "in_scope_refs" intent.sourceContext)
  let excludedRefs := stringList (Json.field "excluded_refs" intent.sourceContext)
  let conflicting := (sortedUnique (targetRefs ++ inScopeRefs)).filter (· ∈ excludedRefs)
  -- a reference both included and excluded is unresolvable here and blocks
  let ambiguous : List ContextUnknown :=
    if conflicting = [] then []
    else [.create none none .ambiguousScope
      [("conflicting_refs", .ofStrings conflicting),
        ("reason", .str "reference is both included and excluded")] .blocking []]
  let unnamed : List ContextUnknown :=
    if intent.objective.deliveryRequired ∧ targetRefs = [] ∧ inScopeRefs = [] then
      [.create none none .ambiguousScope
        [("delivery_mode", .str intent.objective.deliveryMode.value),
          ("realization_mode", .str intent.objective.realizationMode.value),
          ("missing", .str "target_refs_and_in_scope_refs")] .nonBlocking []]
    else []
  .create intent.mission intent.taskType targetRefs inScopeRefs excludedRefs
    intent.desiredOutputs intent.constraints (ambiguous ++ unnamed)

/-! ## Planning constants -/

def globalMaxItems : Nat := 64

def globalMaxBytes : Nat := 262144

/-- `PRIORITY`: governing context before what it governs, enrichment last. -/
def priorityOf : ContextKind → Nat
  | .architectureConstraint => 10
  | .applicableLaw => 20
  | .repositoryState => 30
  | .relevantEntity => 40
  | .dependencyContext => 50
  | .priorDecision => 60
  | .evidenceRef => 70
  | .authorityFact => 80
  | .capabilityFact => 90
  | .memoryContext => 100

def kernelNeedPriorityOffset : Nat := 1

def perRequirementMaxItems : Nat := 16

def memoryMinItems : Nat := 3

def perRequirementMaxBytes : Nat := 65536

/-- `_authority_floor`: authority and capability facts close gaps, so a
weaker declared floor is raised for them. -/
def authorityFloor (kind : ContextKind) (minimum : AuthorityLevel) : AuthorityLevel :=
  if kind.isGovernedOnly ∧ AuthorityLevel.governedVerified.rank < minimum.rank then
    .governedVerified
  else minimum

/-! ## Requirements -/

/-- The arguments of `_requirement`, with their defaults. -/
structure RequirementSpec (σ : Type := String) where
  kind : ContextKind
  reason : σ
  required : Bool
  coverageMode : CoverageMode
  minItems : Nat
  missingPolicy : MissingPolicy
  scopeMode : ContextScopeMode := .global
  scopeRefs : List String := []
  minimumAuthority : AuthorityLevel := .informative
  maxItems : Nat := perRequirementMaxItems
  priority : Nat := priorityOf kind
  requiredSemanticKeys : List σ := []
  kernelNeedRefs : List σ := []

/-- The draft `_requirement` fills in. -/
def RequirementSpec.draft {σ : Type} (spec : RequirementSpec σ) : ContextRequirement σ :=
  { requirementId := ""
    contextKind := spec.kind
    reason := spec.reason
    required := spec.required
    scopeMode := spec.scopeMode
    scopeRefs := spec.scopeRefs
    freshnessRequirement := .snapshotBound
    coordinateConstraint := none
    minimumAuthority := spec.minimumAuthority
    priority := spec.priority
    coverageMode := spec.coverageMode
    minItems := spec.minItems
    requiredSemanticKeys := spec.requiredSemanticKeys
    maxItems := some spec.maxItems
    maxBytes := some perRequirementMaxBytes
    missingPolicy := spec.missingPolicy
    kernelNeedRefs := spec.kernelNeedRefs }

/-- `_requirement`. -/
def RequirementSpec.build [Sha256] (spec : RequirementSpec) :
    Except RuntimeError ContextRequirement :=
  ContextRequirement.create spec.draft

/-- `governing_scope`: the kinds planned as task-scoped once the task
names references. -/
def isScopedKind : ContextKind → Bool
  | .architectureConstraint | .applicableLaw | .priorDecision | .authorityFact
  | .repositoryState | .relevantEntity | .dependencyContext => true
  | .evidenceRef | .memoryContext | .capabilityFact => false

/-- A baseline requirement: optional, everything eligible, under the
kind's governing scope. -/
def baselineSpec (scopedRefs : List String) (kind : ContextKind) (reason : String) :
    RequirementSpec :=
  let isScoped := scopedRefs ≠ [] ∧ isScopedKind kind
  { kind := kind
    reason := reason
    required := false
    coverageMode := .allEligible
    minItems := 0
    missingPolicy := .optional
    scopeMode := if isScoped then .scoped else .global
    scopeRefs := if isScoped then scopedRefs else [] }

/-- A baseline requirement the task can make required. -/
def requirableSpec (spec : RequirementSpec) (required : Bool) : RequirementSpec :=
  { spec with
    required := required
    minItems := if required then 1 else 0
    missingPolicy := if required then .preserveUnknown else .optional }

/-- The compiler's own requirements, one per kind, in planning order. -/
def baselineSpecs (scopedRefs : List String) (architectureRequired : Bool) :
    List RequirementSpec :=
  let hasTargets : Bool := scopedRefs ≠ []
  let base := baselineSpec scopedRefs
  [ requirableSpec (base .architectureConstraint
      (if architectureRequired then
        "architecture materiality proven by governed discovery signals"
      else "architecture constraints applicable to the task scope, if any"))
      architectureRequired,
    base .applicableLaw "law and governance rules applicable to the compiled task scope",
    { requirableSpec (base .repositoryState
        (if hasTargets then "repository facts about the explicitly targeted references"
        else "repository facts relevant to the task scope, if any")) hasTargets with
      minimumAuthority := .governedVerified },
    base .relevantEntity "entities materially related to the task scope",
    base .dependencyContext "dependency seams materially relevant to the task scope",
    base .priorDecision "prior decisions governing the task scope, with supersession preserved",
    { base .evidenceRef "evidence supporting governed claims selected for this task" with
      minimumAuthority := .unverified },
    { base .authorityFact "proven authority grants and limits bearing on the compiled task" with
      minimumAuthority := .governedVerified },
    { base .capabilityFact "proven capability availability bearing on the compiled task" with
      minimumAuthority := .governedVerified },
    { base .memoryContext "non-authoritative recall that may enrich, never resolve, the task" with
      coverageMode := .minimum
      minItems := memoryMinItems
      maxItems := memoryMinItems } ]

/-! ## Kernel needs -/

section Merged

variable {σ : Type} [LinearOrder σ]

/-- `_need_signature`: identical needs merge into one requirement. -/
def needSignature (need : KernelContextNeed σ) :
    String ×ₗ Bool ×ₗ σ ×ₗ String ×ₗ String ×ₗ List σ :=
  toLex (need.contextKind.value, toLex (need.required, toLex (need.reason,
    toLex (need.coverage.value,
      toLex ((authorityFloor need.contextKind need.minimumAuthority).value,
        need.requiredSemanticKeys)))))

/-- The requirement one merged need becomes. -/
def kernelNeedSpec (scopedRefs : List String) (need : KernelContextNeed σ) (refs : List σ) :
    RequirementSpec σ :=
  let isScoped := scopedRefs ≠ [] ∧ need.contextKind ≠ .memoryContext
  let minItems := if need.coverage = .semanticKeys then need.requiredSemanticKeys.length
    else if need.required then 1 else 0
  { kind := need.contextKind
    reason := need.reason
    required := need.required
    coverageMode := need.coverage
    minItems := minItems
    missingPolicy := if need.required then .preserveUnknown else .optional
    scopeMode := if isScoped then .scoped else .global
    scopeRefs := if isScoped then scopedRefs else []
    minimumAuthority := authorityFloor need.contextKind need.minimumAuthority
    maxItems := max perRequirementMaxItems minItems
    priority := priorityOf need.contextKind + kernelNeedPriorityOffset
    requiredSemanticKeys := need.requiredSemanticKeys
    kernelNeedRefs := sortedBy id refs }

/-- The requirements of declared needs: one for each signature, in
order, for the first need that has it. -/
def mergedNeedSpecs (scopedRefs : List String) (declared : List (KernelContextNeed σ × σ)) :
    List (RequirementSpec σ) :=
  (sortedBy Prod.fst (groupBy (fun e => needSignature e.1) declared)).filterMap
    fun entry => entry.2.head?.map fun first =>
      kernelNeedSpec scopedRefs first.1 (entry.2.map Prod.snd)

end Merged

/-- The needs of every selected kernel, each with its reference. -/
def declaredNeeds (kernels : List KernelBinding) : List (KernelContextNeed × String) :=
  kernels.flatMap fun binding => binding.contextNeeds.map fun need =>
    (need, binding.sourceRef ++ "#" ++ need.needId)

/-- `_kernel_requirements`. -/
def kernelNeedSpecs (scopedRefs : List String) (kernels : List KernelBinding) :
    List RequirementSpec :=
  mergedNeedSpecs scopedRefs (declaredNeeds kernels)

/-- Everything the planner asks for: the baseline, then the kernels. -/
def plannedSpecs (scope : TaskScope) (discovery : DiscoveryContext) (plan : ActivationPlan)
    (kernels : List KernelBinding) : List RequirementSpec :=
  baselineSpecs scope.eligibleRefs (plan.architectureMateriality.required
    && !discovery.architectureSignalRefs.isEmpty)
  ++ kernelNeedSpecs scope.eligibleRefs kernels

/-- `ContextRequirementPlanner.plan`. -/
def planRequirements [Sha256] (scope : TaskScope) (discovery : DiscoveryContext)
    (plan : ActivationPlan) (kernels : List KernelBinding) :
    Except RuntimeError ContextRequirementPlan := do
  let requirements ← (plannedSpecs scope discovery plan kernels).mapM RequirementSpec.build
  ContextRequirementPlan.create scope.sha256 plan.matchedRoute
    { maxTotalItems := globalMaxItems, maxTotalBytes := globalMaxBytes } requirements

end CognitiveRuntime
