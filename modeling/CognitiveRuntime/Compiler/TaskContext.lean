import CognitiveRuntime.Compiler.Selection

/-!
# The compiled task context

Capability and authority gaps over the selected items, and
`ContextCompiler.compile`. Requirements come from the intent, the scope,
the route and the kernels; a snapshot proves state and never declares
what the task requires. Absence is an explicit disposition.
-/

namespace CognitiveRuntime

open Ordered Fallible

/-! ## Capabilities -/

inductive CapabilityDisposition where
  | available
  | unavailable
  | unknown
  | absent
  deriving DecidableEq, Repr

def CapabilityDisposition.value : CapabilityDisposition → String
  | .available => "available"
  | .unavailable => "unavailable"
  | .unknown => "unknown"
  | .absent => "absent"

/-- `capability_disposition`: a proven negative comes first. -/
def capabilityDisposition (capabilityId : String) (availableIds unavailableIds unknownIds :
    List String) : CapabilityDisposition :=
  if capabilityId ∈ unavailableIds then .unavailable
  else if capabilityId ∈ availableIds then .available
  else if capabilityId ∈ unknownIds then .unknown
  else .absent

/-- The capability facts of a state. -/
def capabilityFactsIn (state : CapabilityState) (items : List ContextItem) : List ContextItem :=
  items.filter fun item => item.capabilityFact?.any fun fact => fact.state == state

/-- The capability ids of a list of facts. -/
def capabilityIds (items : List ContextItem) : List String :=
  items.filterMap fun item => item.capabilityFact?.map CapabilityFact.capabilityId

section Capabilities

variable [Sha256]

/-- `_requirement_sources`. -/
def requirementSources (intent : IntentContract) (activation : ActivationPlan)
    (kernels : List KernelBinding) : List String :=
  ["intent:" ++ intent.intentId, "route:" ++ activation.matchedRoute]
    ++ kernels.map fun binding => "kernel:" ++ binding.sourceRef

/-- The capabilities the task requires, with the reason for each. -/
def capabilityNeeds (intent : IntentContract) (activation : ActivationPlan) :
    List (String × String) :=
  (match intent.objective.realizationMode with
    | .mutation =>
      [("workspace_mutation", "realization mode MUTATION mutates the workspace")]
    | .artifact => [("artifact_emission", "realization mode ARTIFACT returns files")]
    | _ => [])
  ++ (if intent.objective.validationRequired then
      [("validation_execution", "objective requires validation evidence")] else [])
  ++ (if activation.terminalAllowed then
      [("terminal_convergence", "activation plan reaches the terminal convergence gate")] else [])
  ++ if activation.architectureMateriality.required then
      [("architecture_review", "architecture materiality activates the Global Architect")]
    else []

def capabilityRequirements (intent : IntentContract) (activation : ActivationPlan)
    (kernels : List KernelBinding) : List CapabilityRequirement :=
  let sources := requirementSources intent activation kernels
  sortedBy (fun r => toLex (r.capabilityId, r.requirementId))
    ((capabilityNeeds intent activation).map fun need => .create need.1 need.2 sources)

/-- The unknown of an unproven capability. -/
def capabilityUnknown (capabilityId : String) (state : CapabilityDisposition) : ContextUnknown :=
  .create none (some capabilityId) .unsupportedCapability
    [("capability_id", .str capabilityId), ("state", .str state.value)]
    (if state = .unavailable then .blocking else .nonBlocking) []

/-- `_compile_capabilities`. -/
def compileCapabilities (intent : IntentContract) (activation : ActivationPlan)
    (kernels : List KernelBinding) (selected : List ContextItem) :
    CapabilityContext × List ContextUnknown :=
  let required := capabilityRequirements intent activation kernels
  let available := capabilityFactsIn .available selected
  let unavailable := capabilityFactsIn .unavailable selected
  let unknown := capabilityFactsIn .unknown selected
  ({ required := required, available := available, unavailable := unavailable
     unknown := unknown },
    required.filterMap fun r =>
      let state := capabilityDisposition r.capabilityId (capabilityIds available)
        (capabilityIds unavailable) (capabilityIds unknown)
      if state = .available then none else some (capabilityUnknown r.capabilityId state))

end Capabilities

/-! ## Authority -/

inductive AuthorityDisposition where
  | granted
  | limitedWithoutGrant
  | insufficientScope
  | unknown
  | absent
  deriving DecidableEq, Repr

def AuthorityDisposition.value : AuthorityDisposition → String
  | .granted => "granted"
  | .limitedWithoutGrant => "limited_without_grant"
  | .insufficientScope => "insufficient_scope"
  | .unknown => "unknown"
  | .absent => "absent"

/-- Membership in `AUTHORITY_PROVEN_NEGATIVE`. -/
def AuthorityDisposition.isProvenNegative : AuthorityDisposition → Bool
  | .limitedWithoutGrant | .insufficientScope => true
  | _ => false

/-- `authority_disposition`: a covering grant wins over a limit. -/
def authorityDisposition (requirement : AuthorityRequirement)
    (granted limits unknownFacts : List ContextItem) : AuthorityDisposition :=
  if granted.any fun item => item.authorityFact?.any (grantCoversRequirement · requirement) then
    .granted
  else if limits.any fun item =>
      item.authorityFact?.any (limitBearsOnRequirement · requirement) then
    .limitedWithoutGrant
  else if granted.any fun item =>
      item.authorityFact?.any fun fact => fact.authorityId == requirement.authorityId then
    .insufficientScope
  else if unknownFacts.any fun item =>
      item.authorityFact?.any fun fact => fact.authorityId == requirement.authorityId then
    .unknown
  else .absent

/-- The authority facts of a state. -/
def authorityFactsIn (state : AuthorityState) (items : List ContextItem) : List ContextItem :=
  items.filter fun item => item.authorityFact?.any fun fact => fact.state == state

/-- The targets a governed repository fact names, with its repository. -/
def namedTargets (scope : TaskScope) (selected : List ContextItem) :
    List (String × List String) :=
  selected.filterMap fun item =>
    match item.repositoryState? with
    | some fact =>
      let named := scope.targetRefs.filter fun ref =>
        ref = fact.subjectRef ∨ ref ∈ item.scopeRefs
      if item.isGoverned ∧ named ≠ [] then some (fact.repositoryId, named) else none
    | none => none

/-- `_repository_subjects`: one subject per repository; targets no
governed fact names stay without a subject. -/
def repositorySubjects (scope : TaskScope) (selected : List ContextItem) :
    List (Option String × List String) :=
  let named := namedTargets scope selected
  let subjects := (sortedUnique (named.map Prod.fst)).map fun repository =>
    (some repository, sortedUnique ((named.filter fun e => e.1 = repository).flatMap Prod.snd))
  let unnamed := scope.targetRefs.filter fun ref => ref ∉ named.flatMap Prod.snd
  if unnamed ≠ [] ∨ subjects = [] then subjects ++ [(none, sortedUnique unnamed)] else subjects

/-- The declared precedence of an authority fact. -/
def factPrecedence (item : ContextItem) : Option Nat :=
  item.authorityFact?.bind AuthorityFact.precedence

/-- `_effective_authority_order`: governed facts, then governed law, then
the labelled default. -/
def effectiveAuthorityOrder (selected granted limits : List ContextItem)
    (defaultOrder : List String) : List String × EffectiveAuthorityOrderSource :=
  let rankedFacts := (granted ++ limits).filter fun item =>
    (factPrecedence item).isSome && item.isGoverned
  let authorityIdOf := fun item : ContextItem =>
    (item.authorityFact?.map AuthorityFact.authorityId).getD ""
  let rankedLaw := selected.filter fun item => (lawPrecedence item).isSome && item.isGoverned
  let lawIdOf := fun item : ContextItem => (item.applicableLaw?.map ApplicableLaw.lawId).getD ""
  if rankedFacts ≠ [] then
    (firstSeen ((sortedBy (fun item =>
        toLex ((factPrecedence item).getD 0, authorityIdOf item)) rankedFacts).map authorityIdOf),
      .governedContext)
  else if rankedLaw ≠ [] then
    (firstSeen ((sortedBy (fun item =>
        toLex ((lawPrecedence item).getD 0, lawIdOf item)) rankedLaw).map lawIdOf),
      .governedContext)
  else (defaultOrder, .compilerDefault)

section Authority

variable [Sha256]

def authorityRequirements (intent : IntentContract) (scope : TaskScope)
    (activation : ActivationPlan) (kernels : List KernelBinding) (selected : List ContextItem) :
    List AuthorityRequirement :=
  let sources := requirementSources intent activation kernels
  sortedBy (fun r => toLex (r.authorityId, r.requirementId))
    ((if intent.objective.realizationMode = .mutation then
        (repositorySubjects scope selected).map fun subject =>
          .create "repository_write" subject.1 subject.2
            "realization mode MUTATION writes to the workspace" sources
      else [])
    ++ (if intent.objective.deliveryRequired then
        [.create "delivery" none []
          ("objective requires delivery in mode " ++ intent.objective.deliveryMode.value) sources]
      else [])
    ++ if activation.architectureMateriality.required then
        [.create "architecture_decision" none []
          "architecture materiality requires a governed decision" sources]
      else [])

/-- The unknown of an authority that is not granted. -/
def authorityUnknown (requirement : AuthorityRequirement) (state : AuthorityDisposition) :
    ContextUnknown :=
  .create none (some requirement.semanticKey) .missingAuthority
    [("authority_id", .str requirement.authorityId),
      ("subject_ref", .ofOption requirement.subjectRef),
      ("action_scope", .ofStrings requirement.actionScope), ("state", .str state.value)]
    (if state.isProvenNegative then .blocking else .nonBlocking) []

/-- `_compile_authority`. -/
def compileAuthority (intent : IntentContract) (scope : TaskScope) (activation : ActivationPlan)
    (kernels : List KernelBinding) (selected : List ContextItem) (defaultOrder : List String) :
    AuthorityContext × List ContextUnknown :=
  let required := authorityRequirements intent scope activation kernels selected
  let granted := authorityFactsIn .granted selected
  let limits := authorityFactsIn .limit selected
  let unknown := authorityFactsIn .unknown selected
  let order := effectiveAuthorityOrder selected granted limits defaultOrder
  ({ required := required, granted := granted, limits := limits, unknown := unknown
     effectiveOrder := order.1, effectiveOrderSource := order.2 },
    required.filterMap fun r =>
      let state := authorityDisposition r granted limits unknown
      if state = .granted then none else some (authorityUnknown r state))

end Authority

/-! ## Compilation -/

section Compile

variable [Sha256]

/-- `_unknown_status_decisions`. -/
def unknownStatusDecisions (selected : List ContextItem) : List ContextUnknown :=
  selected.filterMap fun item =>
    match item.priorDecision? with
    | some decision =>
      if decision.status = .unknown then
        some (.create none (some item.semanticKey) .unknownSupersession
          [("decision_id", .str decision.decisionId),
            ("reason", .str "decision status unknown")]
          (truthTierMateriality [item]) [item.sourceRef])
      else none
    | none => none

/-- `_of_type`: the selected items of one class. -/
def ofKind (kind : ContextKind) (items : List ContextItem) : List ContextItem :=
  items.filter fun item => item.contextKind = kind

/-- The inputs of `ContextCompiler.compile`. -/
structure CompileInputs where
  intent : IntentContract
  scope : TaskScope
  resolution : SnapshotResolution
  discovery : DiscoveryContext
  requirementPlan : ContextRequirementPlan
  activation : ActivationPlan
  kernels : List KernelBinding
  packageVersion : String
  defaultAuthorityOrder : List String

/-- Every unknown the compile collects, in the order it is written. -/
def contributedUnknowns (inputs : CompileInputs) (selectionUnknowns : List ContextUnknown)
    (selected : List ContextItem) : List ContextUnknown :=
  inputs.scope.unresolvedUnknowns ++ inputs.discovery.unresolvedUnknowns ++ selectionUnknowns
    ++ unknownStatusDecisions selected
    ++ (compileCapabilities inputs.intent inputs.activation inputs.kernels selected).2
    ++ (compileAuthority inputs.intent inputs.scope inputs.activation inputs.kernels selected
      inputs.defaultAuthorityOrder).2

/-- The artifact over a finished selection. -/
def assembleContext (inputs : CompileInputs) (selectionUnknowns : List ContextUnknown)
    (selected : List ContextItem) : CompiledTaskContext :=
  { taskScope := inputs.scope
    relevantEntities := ofKind .relevantEntity selected
    repositoryState := ofKind .repositoryState selected
    architectureConstraints := ofKind .architectureConstraint selected
    applicableLaw := ofKind .applicableLaw selected
    priorDecisions := ofKind .priorDecision selected
    dependencyContext := ofKind .dependencyContext selected
    evidenceRefs := ofKind .evidenceRef selected
    memoryContext := ofKind .memoryContext selected
    selectedKernels := inputs.kernels.map KernelBinding.toDict
    capabilities :=
      (compileCapabilities inputs.intent inputs.activation inputs.kernels selected).1
    authority := (compileAuthority inputs.intent inputs.scope inputs.activation inputs.kernels
      selected inputs.defaultAuthorityOrder).1
    unresolvedUnknowns := dedupeUnknowns (contributedUnknowns inputs selectionUnknowns selected)
    provenance :=
      { taskScopeDigest := inputs.scope.sha256
        discoveryDigest := inputs.discovery.sha256
        contextRequirementsDigest := inputs.requirementPlan.sha256
        discoveryItemDigests := inputs.discovery.selectedItemDigests
        selectedItemDigests :=
          dictOf (selected.map fun item => (item.itemId, item.candidateDigest))
        kernelDigests := dictOf (inputs.kernels.map fun binding =>
          (binding.sourceRef, binding.sourceDigest))
        compilerIdentity :=
          { packageVersion := inputs.packageVersion
            semanticsVersion := contextCompilerSemanticsVersion } } }

@[simp] theorem assembleContext_unknowns (inputs : CompileInputs)
    (selectionUnknowns : List ContextUnknown) (selected : List ContextItem) :
    (assembleContext inputs selectionUnknowns selected).unresolvedUnknowns
      = dedupeUnknowns (contributedUnknowns inputs selectionUnknowns selected) := rfl

@[simp] theorem assembleContext_capabilities (inputs : CompileInputs)
    (selectionUnknowns : List ContextUnknown) (selected : List ContextItem) :
    (assembleContext inputs selectionUnknowns selected).capabilities
      = (compileCapabilities inputs.intent inputs.activation inputs.kernels selected).1 := rfl

@[simp] theorem assembleContext_authority (inputs : CompileInputs)
    (selectionUnknowns : List ContextUnknown) (selected : List ContextItem) :
    (assembleContext inputs selectionUnknowns selected).authority
      = (compileAuthority inputs.intent inputs.scope inputs.activation inputs.kernels selected
          inputs.defaultAuthorityOrder).1 := rfl

@[simp] theorem assembleContext_kernels (inputs : CompileInputs)
    (selectionUnknowns : List ContextUnknown) (selected : List ContextItem) :
    (assembleContext inputs selectionUnknowns selected).selectedKernels
      = inputs.kernels.map KernelBinding.toDict := rfl

/-- `ContextCompiler.compile`. -/
def compileContext (inputs : CompileInputs) : Except RuntimeError CompiledTaskContext := do
  let (selection, unknowns) ← selectAll inputs.requirementPlan.globalBudget inputs.resolution
    inputs.requirementPlan.requirements .empty
  ensure (!isBlank inputs.packageVersion) (.validation "must be non-empty")
  .ok (assembleContext inputs unknowns selection.selected)

end Compile

end CognitiveRuntime
