import CognitiveRuntime.Compiler.TaskContext

/-!
# Context closure

`ContextClosureValidator.validate`: eleven checks over the finished
context. Eligibility, coverage and budgets are recomputed from the
candidates and compared with what the selector recorded; a budget stop
excuses under-coverage only when its witness is proven again here.
-/

namespace CognitiveRuntime

open Ordered Fallible

/-- `CONTEXT_CHECKS`. -/
def contextChecks : List String :=
  ["every_required_requirement_has_legal_disposition",
    "every_governed_selected_item_has_valid_provenance",
    "every_selected_item_identity_matches_kind_recipe",
    "every_selected_item_has_relevance_binding",
    "every_selected_kernel_equals_downstream_kernel_binding",
    "no_equal_authority_conflict_is_silently_selected",
    "no_memory_item_is_used_as_authoritative_resolution",
    "capability_and_authority_gaps_are_explicit",
    "per_requirement_and_global_budgets_are_respected",
    "every_coverage_mode_is_independently_proven",
    "unresolved_unknowns_are_stable_and_bound"]

/-- Membership in `DISPOSING_REASON_CODES`. -/
def UnknownReasonCode.isDisposing : UnknownReasonCode → Bool
  | .missingRequiredContext | .budgetInsufficient | .conflictingGovernedClaims => true
  | _ => false

/-- Membership in `_SHORTFALL_REASON_CODES`. -/
def UnknownReasonCode.isShortfall : UnknownReasonCode → Bool
  | .missingRequiredContext | .budgetInsufficient => true
  | _ => false

structure ContextClosureReport where
  checks : List String
  passed : Bool
  deriving DecidableEq

/-- `_fail`. -/
def closureFail (check : String) (details : List (String × Json)) : RuntimeError :=
  .invalidValue ("context closure check failed: " ++ check) (some "context_closure")
    (.obj details)

/-! ## Gaps -/

/-- `str(value)` of a scalar document value. -/
def scalarText : Json → Option String
  | .str s => some s
  | .int i => some (toString i)
  | .bool b => some (if b then "True" else "False")
  | .float f => some f.text
  | .null => some "None"
  | _ => none

/-- `_undisposed_capabilities`. -/
def undisposedCapabilities (context : CompiledTaskContext) : List String :=
  let recorded := (context.unresolvedUnknowns.filter fun u =>
    u.reasonCode = .unsupportedCapability).filterMap fun u =>
      scalarText ((Json.field "capability_id" u.details).getD .null)
  sortedBy id ((context.capabilities.required.filter fun r =>
    decide (capabilityDisposition r.capabilityId (capabilityIds context.capabilities.available)
        (capabilityIds context.capabilities.unavailable)
        (capabilityIds context.capabilities.unknown) ≠ .available)
      && decide (r.capabilityId ∉ recorded)).map
    CapabilityRequirement.capabilityId)

/-- `_undisposed_authorities`. -/
def undisposedAuthorities (context : CompiledTaskContext) : List String :=
  let recorded := (context.unresolvedUnknowns.filter fun u =>
    u.reasonCode = .missingAuthority).map ContextUnknown.semanticKey
  sortedBy id ((context.authority.required.filter fun r =>
    decide (authorityDisposition r context.authority.granted context.authority.limits
        context.authority.unknown ≠ .granted)
      && decide (some r.semanticKey ∉ recorded)).map AuthorityRequirement.semanticKey)

/-! ## Recomputed eligibility -/

/-- The items of the settled groups, in group order. -/
def settledItems (view : ResolvedCandidates) : List ContextItem :=
  (view.groups.filter fun entry => !entry.2.conflict).flatMap fun entry => entry.2.items

/-- `_eligible_items`: item identity to semantic key. -/
def eligibleKeys (view : ResolvedCandidates) : List (String × String) :=
  dictOf ((settledItems view).map fun item => (item.itemId, item.semanticKey))

/-- The coverage filter of `_eligible_frontier`, with the count so far. -/
def frontierFrom (requirement : ContextRequirement) : Nat → List ContextItem → List ContextItem
  | _, [] => []
  | taken, item :: rest =>
    if requirement.coverageMode = .minimum ∧ requirement.minItems ≤ taken then []
    else if requirement.coverageMode = .semanticKeys
        ∧ item.semanticKey ∉ requirement.requiredSemanticKeys then
      frontierFrom requirement taken rest
    else item :: frontierFrom requirement (taken + 1) rest

/-- `_eligible_frontier`. -/
def eligibleFrontier (requirement : ContextRequirement) (view : ResolvedCandidates) :
    List ContextItem :=
  frontierFrom requirement 0 (sortedBy candidateSortKey (settledItems view))

section Closure

variable [Sha256]

/-- `_conflict_disposed_keys` of one requirement: a conflict unknown
disposes its key only where the recomputed view conflicts too. -/
def conflictDisposedKeys (context : CompiledTaskContext) (resolution : SnapshotResolution)
    (requirement : ContextRequirement) : List String :=
  let conflicted := ((requirementView resolution requirement).groups.filter fun entry =>
    entry.2.conflict).map fun entry => entry.1.2
  context.unresolvedUnknowns.filterMap fun u =>
    if u.reasonCode = .conflictingGovernedClaims
        ∧ u.requirementRef = some requirement.requirementId ∧ requirement.requirementId ≠ "" then
      u.semanticKey.filter fun key => key ≠ "" ∧ key ∈ conflicted
    else none

/-- The shortfall unknowns bound to a requirement. -/
def shortfallUnknowns (context : CompiledTaskContext) (requirement : ContextRequirement) :
    List ContextUnknown :=
  context.unresolvedUnknowns.filter fun u =>
    u.reasonCode.isShortfall && decide (u.requirementRef = some requirement.requirementId)
      && decide (requirement.requirementId ≠ "")

/-- The missing keys a shortfall unknown lists. -/
def listedMissingKeys (u : ContextUnknown) : List String :=
  match Json.field "missing_semantic_keys" u.details with
  | some (.arr items) => items.filterMap scalarText
  | _ => []

/-- The items of a context bound to a requirement. -/
def boundItems (context : CompiledTaskContext) (requirement : ContextRequirement) :
    List ContextItem :=
  context.selectedItems.filter fun item => requirement.requirementId ∈ item.selectedBecause

def totalCost (items : List ContextItem) : Nat := (items.map ContextItem.canonicalCost).sum

/-! ## Budget stops -/

/-- `_BUDGET_WITNESS_KEYS`. -/
def budgetWitnessKeys : List String :=
  ["bound", "blocked_item_id", "observed_count", "observed_bytes", "candidate_cost", "limit"]

/-- A recorded number equals a recomputed one. -/
def recordsNat (details : List (String × Json)) (key : String) (n : Nat) : Bool :=
  match Json.field key details with
  | some (.int i) => decide (i = n)
  | some (.bool b) => decide (b.toNat = n)
  | some (.float f) => decide (f.text = toString n ++ ".0")
  | _ => false

/-- `_budget_stop_independently_proven`. -/
def budgetStopProven (context : CompiledTaskContext) (plan : ContextRequirementPlan)
    (resolution : SnapshotResolution) (requirement : ContextRequirement) : Bool :=
  match context.unresolvedUnknowns.find? fun u =>
      u.reasonCode = .budgetInsufficient
        ∧ u.requirementRef = some requirement.requirementId with
  | none => false
  | some u =>
    let takenIds := (boundItems context requirement).map ContextItem.itemId
    let frontier := eligibleFrontier requirement (requirementView resolution requirement)
    let admitted := frontier.filter fun item => item.itemId ∈ takenIds
    match frontier.find? fun item => item.itemId ∉ takenIds with
    | none => false
    | some blocked =>
      let bound := Json.field "bound" u.details
      let earlier := (plan.requirements.map ContextRequirement.requirementId).takeWhile
        (· ≠ requirement.requirementId)
      let unique := dedupeLast ContextItem.itemId
        ((context.selectedItems.filter fun item => item.selectedBecause.any (· ∈ earlier))
          ++ admitted)
      budgetWitnessKeys.all (fun key => (Json.field key u.details).isSome)
        && decide (Json.field "blocked_item_id" u.details = some (.str blocked.itemId))
        && recordsNat u.details "candidate_cost" blocked.canonicalCost
        && if bound = some (.str "requirement_max_items") then
            requirement.maxItems.any fun limit =>
              recordsNat u.details "limit" limit
                && recordsNat u.details "observed_count" admitted.length
                && decide (admitted.length + 1 > limit)
          else if bound = some (.str "requirement_max_bytes") then
            requirement.maxBytes.any fun limit =>
              recordsNat u.details "limit" limit
                && recordsNat u.details "observed_bytes" (totalCost admitted)
                && decide (totalCost admitted + blocked.canonicalCost > limit)
          else if blocked.itemId ∈ unique.map ContextItem.itemId then false
          else if bound = some (.str "global_max_items") then
            recordsNat u.details "limit" plan.globalBudget.maxTotalItems
              && recordsNat u.details "observed_count" unique.length
              && decide (unique.length + 1 > plan.globalBudget.maxTotalItems)
          else if bound = some (.str "global_max_bytes") then
            recordsNat u.details "limit" plan.globalBudget.maxTotalBytes
              && recordsNat u.details "observed_bytes" (totalCost unique)
              && decide (totalCost unique + blocked.canonicalCost
                > plan.globalBudget.maxTotalBytes)
          else false

/-! ## Coverage and budgets per requirement -/

/-- A breach record: the requirement, the breach and its particulars. -/
def breachRecord (requirement : ContextRequirement) (breach : String)
    (rest : List (String × Json)) : Json :=
  .obj ([("requirement_id", .str requirement.requirementId), ("breach", .str breach)] ++ rest)

/-- `_coverage_breach`. -/
def coverageBreach (requirement : ContextRequirement) (eligible : List (String × String))
    (taken takenKeys disposedKeys : List String) (truncated : Bool) : Option Json :=
  let eligibleIds := eligible.map Prod.fst
  let ineligible := sortedUnique (taken.filter (· ∉ eligibleIds))
  if ineligible ≠ [] then
    some (breachRecord requirement "ineligible_selection" [("item_ids", .ofStrings ineligible)])
  else
    let takenCount := (firstSeen taken).length
    match requirement.coverageMode with
    | .allEligible =>
      let missed := sortedUnique (eligibleIds.filter (· ∉ taken))
      if missed ≠ [] ∧ truncated = false then
        some (breachRecord requirement "all_eligible_incomplete"
          [("unselected_eligible", .ofStrings missed)])
      else none
    | .minimum =>
      let expected := min requirement.minItems eligible.length
      if takenCount > expected then
        some (breachRecord requirement "minimum_exceeded"
          [("selected", .int takenCount), ("expected", .int expected)])
      else if takenCount < expected ∧ truncated = false then
        some (breachRecord requirement "minimum_incomplete"
          [("selected", .int takenCount), ("expected", .int expected)])
      else none
    | .semanticKeys =>
      let unrequested := sortedUnique (takenKeys.filter (· ∉ requirement.requiredSemanticKeys))
      if unrequested ≠ [] then
        some (breachRecord requirement "semantic_keys_exceeded"
          [("unrequested_keys", .ofStrings unrequested)])
      else
        let reachable := (eligible.map Prod.snd).filter (· ∈ requirement.requiredSemanticKeys)
        let unselected := sortedUnique (reachable.filter fun key =>
          key ∉ takenKeys ∧ key ∉ disposedKeys)
        if unselected ≠ [] ∧ truncated = false then
          some (breachRecord requirement "semantic_keys_incomplete"
            [("unselected_required_keys", .ofStrings unselected)])
        else none

/-- `_coverage_breaches`. -/
def coverageBreaches (context : CompiledTaskContext) (plan : ContextRequirementPlan)
    (resolution : SnapshotResolution) : List Json :=
  plan.requirements.filterMap fun requirement =>
    let taken := boundItems context requirement
    coverageBreach requirement (eligibleKeys (requirementView resolution requirement))
      (taken.map ContextItem.itemId) (taken.map ContextItem.semanticKey)
      (conflictDisposedKeys context resolution requirement)
      (budgetStopProven context plan resolution requirement)

/-- `_requirement_breach`. -/
def requirementBreach (requirement : ContextRequirement) (count cost : Nat)
    (keys disposedKeys : List String) (shortfallRecorded : Bool)
    (recordedMissingKeys : List String) : Option Json :=
  if requirement.maxItems.any (count > ·) then
    some (breachRecord requirement "max_items"
      [("selected", .int count), ("max_items", Claim.ofPrecedence requirement.maxItems)])
  else if requirement.maxBytes.any (cost > ·) then
    some (breachRecord requirement "max_bytes"
      [("bytes", .int cost), ("max_bytes", Claim.ofPrecedence requirement.maxBytes)])
  else if requirement.required = false then none
  else if count + (firstSeen (disposedKeys.filter (· ∉ keys))).length < requirement.minItems
      ∧ shortfallRecorded = false then
    some (breachRecord requirement "min_items"
      [("selected", .int count), ("min_items", .int requirement.minItems)])
  else if requirement.coverageMode = .semanticKeys then
    let missing := sortedUnique (requirement.requiredSemanticKeys.filter fun key =>
      key ∉ keys ∧ key ∉ disposedKeys ∧ key ∉ recordedMissingKeys)
    if missing ≠ [] then
      some (breachRecord requirement "required_semantic_keys" [("missing", .ofStrings missing)])
    else none
  else none

/-- `_budget_breaches`. -/
def budgetBreaches (context : CompiledTaskContext) (plan : ContextRequirementPlan)
    (resolution : SnapshotResolution) : List Json :=
  plan.requirements.filterMap fun requirement =>
    let items := boundItems context requirement
    let shortfalls := shortfallUnknowns context requirement
    requirementBreach requirement items.length (totalCost items)
      (items.map ContextItem.semanticKey) (conflictDisposedKeys context resolution requirement)
      (!shortfalls.isEmpty) (shortfalls.flatMap listedMissingKeys)

/-! ## The checks -/

/-- Check 1: the required requirements neither bound nor disposed. -/
def undisposedRequirements (context : CompiledTaskContext) (plan : ContextRequirementPlan) :
    List String :=
  (plan.requirements.filter fun r =>
    r.required && decide (r.requirementId ∉ context.selectedItems.flatMap
        ContextItem.selectedBecause)
      && !context.unresolvedUnknowns.any fun u =>
        u.reasonCode.isDisposing && decide (u.requirementRef = some r.requirementId)).map
    ContextRequirement.requirementId

/-- Check 6: the eligible conflicts without an unknown bound to the
requirement that would have matched them. -/
def silentConflicts (context : CompiledTaskContext) (plan : ContextRequirementPlan)
    (resolution : SnapshotResolution) : List String :=
  plan.requirements.flatMap fun r =>
    (((requirementView resolution r).sortedGroups.filter fun entry => entry.2.conflict).filter
      fun entry => !context.unresolvedUnknowns.any fun u =>
        decide (u.reasonCode = .conflictingGovernedClaims)
          && decide (u.requirementRef = some r.requirementId)
          && decide (u.semanticKey = some entry.1.2)).map
    fun entry => r.requirementId ++ ":" ++ entry.1.1.value ++ ":" ++ entry.1.2

/-- `ContextClosureValidator.validate`. -/
def validateClosure (context : CompiledTaskContext) (plan : ContextRequirementPlan)
    (resolution : SnapshotResolution) (kernels : List KernelBinding) :
    Except RuntimeError ContextClosureReport := do
  let selected := context.selectedItems
  let ids := fun items : List ContextItem => Json.ofStrings (items.map ContextItem.itemId)
  let check := fun name cond details => ensure cond (closureFail name details)
  let undisposed := undisposedRequirements context plan
  check "every_required_requirement_has_legal_disposition" (undisposed = [])
    [("requirement_ids", .ofStrings undisposed)]
  let unprovenanced := selected.filter fun item =>
    item.isGoverned && !item.sourceRef.hasImmutableProvenance
  let unverifiedState := selected.filter fun item =>
    decide (item.contextKind = .repositoryState) && decide (item.authorityLevel = .unverified)
  check "every_governed_selected_item_has_valid_provenance"
    (unprovenanced = [] ∧ unverifiedState = [])
    [("item_ids", ids unprovenanced), ("unverified_repository_state", ids unverifiedState)]
  let mismatchedKeys := selected.filter fun item =>
    item.semanticKey ≠ item.claim.expectedSemanticKey
  let mismatchedIds := selected.filter fun item => item.itemId ≠ item.expectedItemId
  check "every_selected_item_identity_matches_kind_recipe"
    (mismatchedKeys = [] ∧ mismatchedIds = [])
    [("semantic_key_mismatch", ids mismatchedKeys), ("item_id_mismatch", ids mismatchedIds)]
  let plannedIds := plan.requirements.map ContextRequirement.requirementId
  let unbound := selected.filter fun item => item.selectedBecause = []
  let unplanned := selected.filter fun item => item.selectedBecause.any (· ∉ plannedIds)
  check "every_selected_item_has_relevance_binding" (unbound = [] ∧ unplanned = [])
    [("item_ids", ids unbound), ("unplanned_item_ids", ids unplanned)]
  check "every_selected_kernel_equals_downstream_kernel_binding"
    (context.selectedKernels = kernels.map KernelBinding.toDict)
    [("context_kernels", .arr (context.selectedKernels.map fun k =>
        (k.get? "source_ref").getD .null)),
      ("downstream_kernels", .ofStrings (kernels.map KernelBinding.sourceRef))]
  let silent := silentConflicts context plan resolution
  check "no_equal_authority_conflict_is_silently_selected" (silent = [])
    [("keys", .ofStrings silent)]
  let memoryIds := (plan.requirements.filter fun r => r.contextKind = .memoryContext).map
    ContextRequirement.requirementId
  let memory := selected.filter fun item => item.contextKind = .memoryContext
  let leaked := memory.filter fun item => item.selectedBecause.any (· ∉ memoryIds)
  let governedMemory := memory.filter ContextItem.isGoverned
  check "no_memory_item_is_used_as_authoritative_resolution"
    (leaked = [] ∧ governedMemory = [])
    [("leaked", ids leaked), ("governed_memory", ids governedMemory)]
  let capabilityGaps := undisposedCapabilities context
  let authorityGaps := undisposedAuthorities context
  let contradictory := sortedUnique ((capabilityIds context.capabilities.available).filter
    (· ∈ capabilityIds context.capabilities.unavailable))
  check "capability_and_authority_gaps_are_explicit"
    (capabilityGaps = [] ∧ authorityGaps = [] ∧ contradictory = []
      ∧ context.authority.effectiveOrder ≠ [])
    [("undisposed_capabilities", .ofStrings capabilityGaps),
      ("undisposed_authorities", .ofStrings authorityGaps),
      ("contradictory_capabilities", .ofStrings contradictory)]
  let breaches := budgetBreaches context plan resolution
  check "per_requirement_and_global_budgets_are_respected"
    (breaches = [] ∧ selected.length ≤ plan.globalBudget.maxTotalItems
      ∧ totalCost selected ≤ plan.globalBudget.maxTotalBytes)
    [("per_requirement", .arr breaches), ("items", .int selected.length),
      ("max_total_items", .int plan.globalBudget.maxTotalItems),
      ("bytes", .int (totalCost selected)),
      ("max_total_bytes", .int plan.globalBudget.maxTotalBytes)]
  let coverage := coverageBreaches context plan resolution
  check "every_coverage_mode_is_independently_proven" (coverage = [])
    [("breaches", .arr coverage)]
  let unknowns := context.unresolvedUnknowns
  let dangling := unknowns.filter fun u =>
    u.requirementRef.any fun ref => ref ≠ "" ∧ ref ∉ plannedIds
  let unstable := unknowns.filter fun u => u.unknownId ≠ u.expectedUnknownId
  let illegalPolicy := unknowns.filter fun u => plan.requirements.any fun r =>
    decide (u.requirementRef = some r.requirementId) && decide (r.missingPolicy = .optional)
      && r.required
  check "unresolved_unknowns_are_stable_and_bound"
    (dangling = [] ∧ unstable = [] ∧ illegalPolicy = [])
    [("dangling", .ofStrings (dangling.map ContextUnknown.unknownId)),
      ("unstable", .ofStrings (unstable.map ContextUnknown.unknownId)),
      ("illegal_policy", .ofStrings (illegalPolicy.map ContextUnknown.unknownId))]
  .ok { checks := contextChecks, passed := true }

end Closure

end CognitiveRuntime
