import CognitiveRuntime.Models.Context

/-!
# Requirements, plans and compiled contexts

What drives detailed selection and what it produces: the typed context
requirements and their plan, the discovery projection, the compiled task
context, and the public context plan that binds a demand to its inputs.

Requirements and plans are built through `create`, which runs the model
validators in source order and derives the identity.
-/

namespace CognitiveRuntime

open Ordered

/-! ## Context requirements -/

/-- One explicitly declared context need. What a kernel writes into it
may be any string of the language it was loaded by. -/
structure ContextRequirement (σ : Type := String) where
  requirementId : String
  contextKind : ContextKind
  reason : σ
  required : Bool
  scopeMode : ContextScopeMode
  scopeRefs : List String
  freshnessRequirement : FreshnessRequirement
  coordinateConstraint : Option String
  minimumAuthority : AuthorityLevel
  priority : Nat
  coverageMode : CoverageMode
  minItems : Nat
  requiredSemanticKeys : List σ
  maxItems : Option Nat
  maxBytes : Option Nat
  missingPolicy : MissingPolicy
  kernelNeedRefs : List σ
  deriving DecidableEq

namespace ContextRequirement

/-- `_identity_payload`: everything but the id itself. -/
def identityPayload (r : ContextRequirement) : List (String × Json) :=
  [("context_kind", .str r.contextKind.value), ("reason", .str r.reason),
    ("required", .bool r.required), ("scope_mode", .str r.scopeMode.value),
    ("scope_refs", .ofStrings r.scopeRefs),
    ("freshness_requirement", .str r.freshnessRequirement.value),
    ("coordinate_constraint", .ofOption r.coordinateConstraint),
    ("minimum_authority", .str r.minimumAuthority.value),
    ("priority", .int r.priority), ("coverage_mode", .str r.coverageMode.value),
    ("min_items", .int r.minItems),
    ("required_semantic_keys", .ofStrings r.requiredSemanticKeys),
    ("max_items", Claim.ofPrecedence r.maxItems),
    ("max_bytes", Claim.ofPrecedence r.maxBytes),
    ("missing_policy", .str r.missingPolicy.value),
    ("kernel_need_refs", .ofStrings r.kernelNeedRefs)]

/-- `to_canonical_dict`. -/
def toJson (r : ContextRequirement) : Json :=
  .obj (("requirement_id", .str r.requirementId) :: r.identityPayload)

/-- The validators of a requirement: the first rule it breaks. -/
def breachWith {σ : Type} [DecidableEq σ] (blank : σ → Bool) (r : ContextRequirement σ) :
    Option String :=
  if blank r.reason then some "reason must be non-empty"
  else if r.scopeMode = .scoped ∧ r.scopeRefs = [] then
    some "scoped requirement requires non-empty scope_refs"
  else if r.scopeMode = .global ∧ r.scopeRefs ≠ [] then
    some "global requirement requires empty scope_refs"
  else if r.required ∧ r.minItems < 1 then
    some "required requirement needs min_items >= 1"
  else if r.maxItems.any (· < 1) then some "max_items must be positive"
  else if r.maxItems.any (· < r.minItems) then
    some "max_items must be at least min_items"
  else if r.maxBytes.any (· < 1) then some "max_bytes must be positive"
  else if r.maxItems = none ∧ r.maxBytes = none then
    some "requirement needs at least one of max_items or max_bytes"
  else if r.coverageMode ≠ .semanticKeys ∧ r.requiredSemanticKeys ≠ [] then
    some (r.coverageMode.value ++ " coverage forbids required_semantic_keys")
  else if r.coverageMode = .semanticKeys ∧ r.requiredSemanticKeys = [] then
    some "semantic_keys coverage requires required_semantic_keys"
  else if r.coverageMode = .semanticKeys ∧ r.minItems < r.requiredSemanticKeys.length then
    some "semantic_keys coverage requires min_items >= number of required keys"
  else if r.freshnessRequirement = .exactRevision ∧ isBlank (orEmpty r.coordinateConstraint) then
    some "exact_revision freshness requires a coordinate_constraint"
  else if r.required ∧ r.missingPolicy = .optional then
    some "required requirement cannot use the OPTIONAL missing policy"
  else none

def breach (r : ContextRequirement) : Option String := r.breachWith isBlank

/-- `ContextRequirement(...)`: canonical lists, the validators, and the
derived identity. The id of the draft is ignored. -/
def create [Sha256] (draft : ContextRequirement) : Except RuntimeError ContextRequirement :=
  let r := { draft with
    scopeRefs := sortedUnique draft.scopeRefs
    requiredSemanticKeys := sortedUnique draft.requiredSemanticKeys
    kernelNeedRefs := sortedUnique draft.kernelNeedRefs }
  match r.breach with
  | some message => .error (.validation message)
  | none => .ok { r with requirementId := deriveId "ctxreq" (.obj r.identityPayload) }

/-- `order_key`. -/
def orderKey (r : ContextRequirement) : Nat ×ₗ String ×ₗ String :=
  toLex (r.priority, toLex (r.contextKind.value, r.requirementId))

end ContextRequirement

structure ContextBudget where
  maxTotalItems : Nat
  maxTotalBytes : Nat
  deriving DecidableEq

def ContextBudget.toJson (b : ContextBudget) : Json :=
  .obj [("max_total_items", .int b.maxTotalItems), ("max_total_bytes", .int b.maxTotalBytes)]

structure ContextRequirementPlan where
  planId : String
  taskScopeDigest : String
  matchedRoute : String
  globalBudget : ContextBudget
  requirements : List ContextRequirement
  deriving DecidableEq

namespace ContextRequirementPlan

def identityPayload (plan : ContextRequirementPlan) : List (String × Json) :=
  [("task_scope_digest", .str plan.taskScopeDigest),
    ("matched_route", .str plan.matchedRoute),
    ("global_budget", plan.globalBudget.toJson),
    ("requirements", .arr (plan.requirements.map ContextRequirement.toJson))]

/-- `to_canonical_dict`. -/
def toJson (plan : ContextRequirementPlan) : Json :=
  .obj (("plan_id", .str plan.planId) :: plan.identityPayload)

def sha256 [Sha256] (plan : ContextRequirementPlan) : String := sha256Digest plan.toJson

/-- `ContextRequirementPlan(...)`: requirements in canonical order, no
id twice, and the derived plan id. -/
def create [Sha256] (taskScopeDigest matchedRoute : String) (globalBudget : ContextBudget)
    (requirements : List ContextRequirement) :
    Except RuntimeError ContextRequirementPlan :=
  let ordered := sortedBy ContextRequirement.orderKey requirements
  if (ordered.map ContextRequirement.requirementId).Nodup then
    let plan : ContextRequirementPlan :=
      { planId := "", taskScopeDigest := taskScopeDigest, matchedRoute := matchedRoute
        globalBudget := globalBudget, requirements := ordered }
    .ok { plan with planId := deriveId "ctxplan" (.obj plan.identityPayload) }
  else .error (.validation "duplicate requirement_id in plan")

/-- The facts `create` establishes and every consumer of a plan may use. -/
structure Valid (plan : ContextRequirementPlan) : Prop where
  ids_nodup : (plan.requirements.map ContextRequirement.requirementId).Nodup
  no_breach : ∀ r ∈ plan.requirements, r.breach = none

end ContextRequirementPlan

/-! ## Capabilities and authority -/

/-- Compiler-derived: a snapshot can never produce one. -/
structure CapabilityRequirement where
  requirementId : String
  capabilityId : String
  reason : String
  sourceRefs : List String
  deriving DecidableEq

namespace CapabilityRequirement

def create [Sha256] (capabilityId reason : String) (sourceRefs : List String) :
    CapabilityRequirement :=
  let refs := sortedUnique sourceRefs
  { requirementId := deriveId "capreq" (.obj [("capability_id", .str capabilityId),
      ("reason", .str reason), ("source_refs", .ofStrings refs)])
    capabilityId := capabilityId
    reason := reason
    sourceRefs := refs }

def toJson (r : CapabilityRequirement) : Json :=
  .obj [("requirement_id", .str r.requirementId), ("capability_id", .str r.capabilityId),
    ("reason", .str r.reason), ("source_refs", .ofStrings r.sourceRefs)]

end CapabilityRequirement

/-- Compiler-derived: a snapshot can never produce one. -/
structure AuthorityRequirement where
  requirementId : String
  authorityId : String
  subjectRef : Option String
  actionScope : List String
  reason : String
  sourceRefs : List String
  deriving DecidableEq

namespace AuthorityRequirement

def create [Sha256] (authorityId : String) (subjectRef : Option String)
    (actionScope : List String) (reason : String) (sourceRefs : List String) :
    AuthorityRequirement :=
  let actions := sortedUnique actionScope
  let refs := sortedUnique sourceRefs
  { requirementId := deriveId "authreq" (.obj [("authority_id", .str authorityId),
      ("subject_ref", .ofOption subjectRef), ("action_scope", .ofStrings actions),
      ("reason", .str reason), ("source_refs", .ofStrings refs)])
    authorityId := authorityId
    subjectRef := subjectRef
    actionScope := actions
    reason := reason
    sourceRefs := refs }

def semanticKey (r : AuthorityRequirement) : String :=
  authoritySemanticKey r.authorityId r.subjectRef r.actionScope

def toJson (r : AuthorityRequirement) : Json :=
  .obj [("requirement_id", .str r.requirementId), ("authority_id", .str r.authorityId),
    ("subject_ref", .ofOption r.subjectRef), ("action_scope", .ofStrings r.actionScope),
    ("reason", .str r.reason), ("source_refs", .ofStrings r.sourceRefs)]

end AuthorityRequirement

/-! ## Authority coverage

A grant must contain what is required of it; a limit need only
intersect it. An unstated field on a grant is unrestricted, and an
unstated field on either side of a limit cannot be proven disjoint. -/

/-- `_grant_subject_covers`. -/
def grantSubjectCovers (grantSubject requiredSubject : Option String) : Bool :=
  match grantSubject with
  | none => true
  | some s => some s == requiredSubject

/-- `_grant_actions_cover`. -/
def grantActionsCover (grantActions requiredActions : List String) : Bool :=
  match grantActions with
  | [] => true
  | _ :: _ => requiredActions.all (· ∈ grantActions)

/-- `_limit_subject_bears`. -/
def limitSubjectBears (limitSubject requiredSubject : Option String) : Bool :=
  match limitSubject, requiredSubject with
  | some l, some r => l == r
  | _, _ => true

/-- `_limit_actions_bear`. -/
def limitActionsBear (limitActions requiredActions : List String) : Bool :=
  match limitActions, requiredActions with
  | [], _ => true
  | _, [] => true
  | _, _ => limitActions.any (· ∈ requiredActions)

/-- `grant_covers_requirement`. -/
def grantCoversRequirement (fact : AuthorityFact) (r : AuthorityRequirement) : Bool :=
  fact.authorityId == r.authorityId
    && grantSubjectCovers fact.subjectRef r.subjectRef
    && grantActionsCover fact.actionScope r.actionScope

/-- `limit_bears_on_requirement`. -/
def limitBearsOnRequirement (fact : AuthorityFact) (r : AuthorityRequirement) : Bool :=
  fact.authorityId == r.authorityId
    && limitSubjectBears fact.subjectRef r.subjectRef
    && limitActionsBear fact.actionScope r.actionScope

namespace ContextItem

/-- The item as a `CapabilityFact`. -/
def capabilityFact? (item : ContextItem) : Option CapabilityFact :=
  match item.claim with
  | .capabilityFact c => some c
  | _ => none

/-- The item as an `AuthorityFact`. -/
def authorityFact? (item : ContextItem) : Option AuthorityFact :=
  match item.claim with
  | .authorityFact c => some c
  | _ => none

/-- The item as an `ApplicableLaw`. -/
def applicableLaw? (item : ContextItem) : Option ApplicableLaw :=
  match item.claim with
  | .applicableLaw c => some c
  | _ => none

/-- The item as a `PriorDecision`. -/
def priorDecision? (item : ContextItem) : Option PriorDecision :=
  match item.claim with
  | .priorDecision c => some c
  | _ => none

/-- The item as a `RepositoryState`. -/
def repositoryState? (item : ContextItem) : Option RepositoryState :=
  match item.claim with
  | .repositoryState c => some c
  | _ => none

/-- The item as a `DependencyContext`. -/
def dependencyContext? (item : ContextItem) : Option DependencyContext :=
  match item.claim with
  | .dependencyContext c => some c
  | _ => none

/-- The item as a `GovernedConstraint`. -/
def architectureConstraint? (item : ContextItem) : Option GovernedConstraint :=
  match item.claim with
  | .architectureConstraint c => some c
  | _ => none

end ContextItem

/-- Required, available, unavailable and unknown stay distinct. -/
structure CapabilityContext where
  required : List CapabilityRequirement
  available : List ContextItem
  unavailable : List ContextItem
  unknown : List ContextItem
  deriving DecidableEq

def CapabilityContext.toJson (c : CapabilityContext) : Json :=
  .obj [("required", .arr (c.required.map CapabilityRequirement.toJson)),
    ("available", .arr (c.available.map ContextItem.toJson)),
    ("unavailable", .arr (c.unavailable.map ContextItem.toJson)),
    ("unknown", .arr (c.unknown.map ContextItem.toJson))]

/-- Required, granted, limits and unknown stay distinct. -/
structure AuthorityContext where
  required : List AuthorityRequirement
  granted : List ContextItem
  limits : List ContextItem
  unknown : List ContextItem
  effectiveOrder : List String
  effectiveOrderSource : EffectiveAuthorityOrderSource
  deriving DecidableEq

def AuthorityContext.toJson (a : AuthorityContext) : Json :=
  .obj [("required", .arr (a.required.map AuthorityRequirement.toJson)),
    ("granted", .arr (a.granted.map ContextItem.toJson)),
    ("limits", .arr (a.limits.map ContextItem.toJson)),
    ("unknown", .arr (a.unknown.map ContextItem.toJson)),
    ("effective_order", .ofStrings a.effectiveOrder),
    ("effective_order_source", .str a.effectiveOrderSource.value)]

/-! ## Projections -/

/-- Bounded projection #1: only what routing and materiality need. -/
structure DiscoveryContext where
  taskScopeDigest : String
  routingFactRefs : List String
  architectureSignalRefs : List String
  unresolvedUnknowns : List ContextUnknown
  selectedItemDigests : List (String × String)
  deriving DecidableEq

def DiscoveryContext.toJson (d : DiscoveryContext) : Json :=
  .obj [("task_scope_digest", .str d.taskScopeDigest),
    ("routing_fact_refs", .ofStrings d.routingFactRefs),
    ("architecture_signal_refs", .ofStrings d.architectureSignalRefs),
    ("unresolved_unknowns", .arr (d.unresolvedUnknowns.map ContextUnknown.toJson)),
    ("selected_item_digests", ofStringDict d.selectedItemDigests)]

def DiscoveryContext.sha256 [Sha256] (d : DiscoveryContext) : String := sha256Digest d.toJson

structure CompilerIdentity where
  packageVersion : String
  semanticsVersion : String
  deriving DecidableEq

def CompilerIdentity.toJson (c : CompilerIdentity) : Json :=
  .obj [("package_version", .str c.packageVersion),
    ("semantics_version", .str c.semanticsVersion)]

/-- `CONTEXT_COMPILER_SEMANTICS_VERSION`. -/
def contextCompilerSemanticsVersion : String := "1.3.0"

/-- Reproduction identity for the compiled context. -/
structure ContextProvenance where
  taskScopeDigest : String
  discoveryDigest : String
  contextRequirementsDigest : String
  discoveryItemDigests : List (String × String)
  selectedItemDigests : List (String × String)
  kernelDigests : List (String × String)
  compilerIdentity : CompilerIdentity
  deriving DecidableEq

def ContextProvenance.toJson (p : ContextProvenance) : Json :=
  .obj [("task_scope_digest", .str p.taskScopeDigest),
    ("discovery_digest", .str p.discoveryDigest),
    ("context_requirements_digest", .str p.contextRequirementsDigest),
    ("discovery_item_digests", ofStringDict p.discoveryItemDigests),
    ("selected_item_digests", ofStringDict p.selectedItemDigests),
    ("kernel_digests", ofStringDict p.kernelDigests),
    ("compiler_identity", p.compilerIdentity.toJson)]

/-- The canonical context IR. Carries no digest of itself. -/
structure CompiledTaskContext where
  taskScope : TaskScope
  relevantEntities : List ContextItem
  repositoryState : List ContextItem
  architectureConstraints : List ContextItem
  applicableLaw : List ContextItem
  priorDecisions : List ContextItem
  dependencyContext : List ContextItem
  evidenceRefs : List ContextItem
  memoryContext : List ContextItem
  selectedKernels : List Json
  capabilities : CapabilityContext
  authority : AuthorityContext
  unresolvedUnknowns : List ContextUnknown
  provenance : ContextProvenance
  deriving DecidableEq

namespace CompiledTaskContext

def selectedItems (c : CompiledTaskContext) : List ContextItem :=
  c.relevantEntities ++ c.repositoryState ++ c.architectureConstraints ++ c.applicableLaw
    ++ c.priorDecisions ++ c.dependencyContext ++ c.evidenceRefs ++ c.memoryContext
    ++ c.capabilities.available ++ c.capabilities.unavailable ++ c.capabilities.unknown
    ++ c.authority.granted ++ c.authority.limits ++ c.authority.unknown

/-- `to_canonical_dict`. -/
def toJson (c : CompiledTaskContext) : Json :=
  .obj [("task_scope", c.taskScope.toJson),
    ("relevant_entities", .arr (c.relevantEntities.map ContextItem.toJson)),
    ("repository_state", .arr (c.repositoryState.map ContextItem.toJson)),
    ("architecture_constraints", .arr (c.architectureConstraints.map ContextItem.toJson)),
    ("applicable_law", .arr (c.applicableLaw.map ContextItem.toJson)),
    ("prior_decisions", .arr (c.priorDecisions.map ContextItem.toJson)),
    ("dependency_context", .arr (c.dependencyContext.map ContextItem.toJson)),
    ("evidence_refs", .arr (c.evidenceRefs.map ContextItem.toJson)),
    ("memory_context", .arr (c.memoryContext.map ContextItem.toJson)),
    ("selected_kernels", .arr c.selectedKernels),
    ("capabilities", c.capabilities.toJson),
    ("authority", c.authority.toJson),
    ("unresolved_unknowns", .arr (c.unresolvedUnknowns.map ContextUnknown.toJson)),
    ("provenance", c.provenance.toJson)]

def sha256 [Sha256] (c : CompiledTaskContext) : String := sha256Digest c.toJson

end CompiledTaskContext

/-! ## The public context plan -/

/-- Demand contract between planning and outer-host acquisition. -/
structure ContextPlan where
  contextPlanId : String
  taskScope : TaskScope
  discovery : DiscoveryContext
  requirementPlan : ContextRequirementPlan
  activeKernelDigests : List (String × String)
  packManifestDigest : String
  routingRulesDigest : String
  pipelineDigest : String
  compilerIdentity : CompilerIdentity
  deriving DecidableEq

namespace ContextPlan

def identityPayload (plan : ContextPlan) : Json :=
  .obj [("schema_version", .str "l9.context-plan/v1"),
    ("task_scope", plan.taskScope.toJson), ("discovery", plan.discovery.toJson),
    ("requirement_plan", plan.requirementPlan.toJson),
    ("active_kernel_digests", ofStringDict plan.activeKernelDigests),
    ("pack_manifest_digest", .str plan.packManifestDigest),
    ("routing_rules_digest", .str plan.routingRulesDigest),
    ("pipeline_digest", .str plan.pipelineDigest),
    ("compiler_identity", plan.compilerIdentity.toJson)]

/-- `to_canonical_dict`. -/
def toJson (plan : ContextPlan) : Json :=
  .obj [("schema_version", .str "l9.context-plan/v1"),
    ("context_plan_id", .str plan.contextPlanId),
    ("task_scope", plan.taskScope.toJson), ("discovery", plan.discovery.toJson),
    ("requirement_plan", plan.requirementPlan.toJson),
    ("active_kernel_digests", ofStringDict plan.activeKernelDigests),
    ("pack_manifest_digest", .str plan.packManifestDigest),
    ("routing_rules_digest", .str plan.routingRulesDigest),
    ("pipeline_digest", .str plan.pipelineDigest),
    ("compiler_identity", plan.compilerIdentity.toJson)]

def sha256 [Sha256] (plan : ContextPlan) : String := sha256Digest plan.toJson

/-- `ContextPlan(...)`: the plan must bind its own task scope. The id of
the draft is ignored. -/
def create [Sha256] (draft : ContextPlan) : Except RuntimeError ContextPlan :=
  if draft.discovery.taskScopeDigest ≠ draft.taskScope.sha256 then
    .error (.validation "context plan discovery does not bind the task scope")
  else if draft.requirementPlan.taskScopeDigest ≠ draft.taskScope.sha256 then
    .error (.validation "context requirement plan does not bind the task scope")
  else if isBlank draft.requirementPlan.matchedRoute then
    .error (.validation "context plan requires a matched route")
  else .ok { draft with contextPlanId := deriveId "context-plan" draft.identityPayload }

end ContextPlan

end CognitiveRuntime
