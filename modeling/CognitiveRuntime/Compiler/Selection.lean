import CognitiveRuntime.Compiler.Resolution
import CognitiveRuntime.Compiler.Requirements

/-!
# Requirement-driven selection

`ContextCompiler._select_for`: a requirement resolves its own eligible
candidates, walks them in canonical order, and admits each one until its
coverage mode is met or a bound stops it. Admissions are shared across
requirements, so a reused item is paid for once.

A stop leaves a witness: the bound, the blocked candidate and what had
been observed.
-/

namespace CognitiveRuntime

open Ordered Fallible

/-! ## Eligibility -/

/-- Membership in `GLOBALLY_APPLICABLE_KINDS`. -/
def isGloballyApplicable : ContextKind → Bool
  | .architectureConstraint | .applicableLaw | .priorDecision | .authorityFact
  | .capabilityFact => true
  | _ => false

/-- The scope rule of `matches_requirement`. -/
def scopeMatches (requirement : ContextRequirement) (item : ContextItem) : Bool :=
  match requirement.scopeMode, item.scopeMode with
  | .global, .global => true
  | .global, .scoped => false
  | .scoped, .scoped => item.scopeRefs.any (· ∈ requirement.scopeRefs)
  | .scoped, .global => isGloballyApplicable requirement.contextKind

/-- The freshness rule of `matches_requirement`. -/
def freshnessMatches (requirement : ContextRequirement) (item : ContextItem) : Bool :=
  match requirement.freshnessRequirement with
  | .exactRevision =>
    decide (requirement.coordinateConstraint = item.sourceRef.immutableCoordinate)
      || decide (requirement.coordinateConstraint = item.revision?)
  | _ => true

/-- `matches_requirement`: explicit candidate matching. -/
def matchesRequirement (requirement : ContextRequirement) (item : ContextItem) : Bool :=
  decide (item.contextKind = requirement.contextKind)
    && decide (item.authorityRank ≤ requirement.minimumAuthority.rank)
    && !(item.contextKind.isGovernedOnly && !item.isGoverned)
    && scopeMatches requirement item && freshnessMatches requirement item

/-- `_candidate_sort_key`: scoped before global, then authority, key, id. -/
def candidateSortKey (item : ContextItem) : Nat ×ₗ Nat ×ₗ String ×ₗ String :=
  toLex (if item.scopeMode = .scoped then 0 else 1,
    toLex (item.authorityRank, toLex (item.semanticKey, item.itemId)))

/-! ## Shared selection state -/

/-- `_Selection`: the admitted items, why each one was, and their bytes. -/
structure Selection where
  byItem : List ContextItem
  reasons : List (String × String)
  totalBytes : Nat
  deriving DecidableEq

namespace Selection

def empty : Selection := { byItem := [], reasons := [], totalBytes := 0 }

def has (selection : Selection) (id : String) : Bool :=
  decide (id ∈ selection.byItem.map ContextItem.itemId)

/-- `would_exceed_global`: a reused item costs nothing. -/
def wouldExceedGlobal (selection : Selection) (budget : ContextBudget) (item : ContextItem)
    (cost : Nat) : Bool :=
  !selection.has item.itemId
    && (decide (selection.byItem.length + 1 > budget.maxTotalItems)
      || decide (selection.totalBytes + cost > budget.maxTotalBytes))

def admitItem (selection : Selection) (item : ContextItem) (cost : Nat) (requirementId : String) :
    Selection :=
  { byItem := if selection.has item.itemId then selection.byItem else selection.byItem ++ [item]
    reasons := selection.reasons ++ [(item.itemId, requirementId)]
    totalBytes := if selection.has item.itemId then selection.totalBytes
      else selection.totalBytes + cost }

/-- `sorted(selection.reasons[item_id])`. -/
def reasonsOf (selection : Selection) (id : String) : List String :=
  sortedUnique ((selection.reasons.filter fun r => r.1 = id).map Prod.snd)

/-- The admitted items with their lineage, in canonical order. -/
def selected (selection : Selection) : List ContextItem :=
  sortedBy ContextItem.sortKey ((sortedBy ContextItem.itemId selection.byItem).map fun item =>
    item.withSelection (selection.reasonsOf item.itemId))

end Selection

/-! ## The selection loop -/

/-- `_budget_stop_record`. -/
structure BudgetStop where
  bound : String
  blockedItemId : String
  observedCount : Nat
  observedBytes : Nat
  candidateCost : Nat
  limit : Nat
  deriving DecidableEq

def BudgetStop.details (stop : BudgetStop) : List (String × Json) :=
  [("bound", .str stop.bound), ("blocked_item_id", .str stop.blockedItemId),
    ("observed_count", .int stop.observedCount), ("observed_bytes", .int stop.observedBytes),
    ("candidate_cost", .int stop.candidateCost), ("limit", .int stop.limit)]

/-- What the loop carries from one candidate to the next. -/
structure LoopState where
  selection : Selection
  selectedKeys : List String
  selectedCount : Nat
  requirementBytes : Nat

namespace LoopState

def start (selection : Selection) : LoopState :=
  { selection := selection, selectedKeys := [], selectedCount := 0, requirementBytes := 0 }

def admitItem (state : LoopState) (item : ContextItem) (requirementId : String) : LoopState :=
  { selection := state.selection.admitItem item item.canonicalCost requirementId
    selectedKeys := state.selectedKeys ++ [item.semanticKey]
    selectedCount := state.selectedCount + 1
    requirementBytes := state.requirementBytes + item.canonicalCost }

end LoopState

/-- The global bound that blocks the next candidate. -/
def globalStop (budget : ContextBudget) (state : LoopState) (item : ContextItem) : BudgetStop :=
  let tooMany := state.selection.byItem.length + 1 > budget.maxTotalItems
  { bound := if tooMany then "global_max_items" else "global_max_bytes"
    blockedItemId := item.itemId
    observedCount := state.selection.byItem.length
    observedBytes := state.selection.totalBytes
    candidateCost := item.canonicalCost
    limit := if tooMany then budget.maxTotalItems else budget.maxTotalBytes }

/-- The bound, if any, that admitting the next candidate would violate. -/
def budgetStop (requirement : ContextRequirement) (budget : ContextBudget) (state : LoopState)
    (item : ContextItem) : Option BudgetStop :=
  let blocked := fun bound limit : _ => ({ bound := bound, blockedItemId := item.itemId
                                           observedCount := state.selectedCount
                                           observedBytes := state.requirementBytes
                                           candidateCost := item.canonicalCost
                                           limit := limit } : BudgetStop)
  if requirement.maxItems.any (state.selectedCount + 1 > ·) then
    some (blocked "requirement_max_items" (requirement.maxItems.getD 0))
  else if requirement.maxBytes.any (state.requirementBytes + item.canonicalCost > ·) then
    some (blocked "requirement_max_bytes" (requirement.maxBytes.getD 0))
  else if state.selection.wouldExceedGlobal budget item item.canonicalCost then
    some (globalStop budget state item)
  else none

/-- The loop of `_select_for` over the eligible candidates. -/
def selectLoop (requirement : ContextRequirement) (budget : ContextBudget) :
    List ContextItem → LoopState → LoopState × Option BudgetStop
  | [], state => (state, none)
  | item :: rest, state =>
    if requirement.coverageMode = .minimum ∧ requirement.minItems ≤ state.selectedCount then
      (state, none)
    else if requirement.coverageMode = .semanticKeys
        ∧ item.semanticKey ∉ requirement.requiredSemanticKeys then
      selectLoop requirement budget rest state
    else
      match budgetStop requirement budget state item with
      | some stop => (state, some stop)
      | none => selectLoop requirement budget rest (state.admitItem item requirement.requirementId)

/-! ## Disposition -/

/-- `_materiality_for`. -/
def materialityFor (requirement : ContextRequirement) : UnknownMateriality :=
  if requirement.required then .blocking else .nonBlocking

/-- `_satisfied`. -/
def satisfied (requirement : ContextRequirement) (selectedCount : Nat)
    (selectedKeys disposedKeys : List String) (budgetBlocked : Bool) : Bool :=
  if selectedCount < requirement.minItems then false
  else match requirement.coverageMode with
    | .semanticKeys => requirement.requiredSemanticKeys.all fun key =>
        decide (key ∈ selectedKeys) || decide (key ∈ disposedKeys)
    | .allEligible => !budgetBlocked
    | .minimum => true

section Select

variable [Sha256]

/-- The details of an unsatisfied requirement. -/
def shortfallDetails (requirement : ContextRequirement) (stop : Option BudgetStop)
    (selectedKeys disposedKeys : List String) : List (String × Json) :=
  [("context_kind", .str requirement.contextKind.value),
    ("coverage_mode", .str requirement.coverageMode.value),
    ("min_items", .int requirement.minItems),
    ("selected", .int (firstSeen selectedKeys).length)]
  ++ (stop.map BudgetStop.details).getD []
  ++ if requirement.coverageMode = .semanticKeys then
      [("missing_semantic_keys", .ofStrings (sortedUnique
        (requirement.requiredSemanticKeys.filter fun key =>
          key ∉ selectedKeys ∧ key ∉ disposedKeys)))]
    else []

/-- `_dispose_unsatisfied`. -/
def disposeUnsatisfied (requirement : ContextRequirement) (stop : Option BudgetStop)
    (selectedKeys disposedKeys : List String) : Except RuntimeError (List ContextUnknown) :=
  let reason : UnknownReasonCode :=
    if stop.isSome then .budgetInsufficient else .missingRequiredContext
  let details := shortfallDetails requirement stop selectedKeys disposedKeys
  match requirement.missingPolicy with
  | .block =>
    invalidValue "required context could not be satisfied under a BLOCK missing policy"
      requirement.requirementId (.obj (("reason_code", .str reason.value) :: details))
  | .optional =>
    -- taking nothing is legal, a budget that truncated the selection is not
    if reason ≠ .budgetInsufficient then .ok []
    else .ok [.create (some requirement.requirementId) none reason details
      (materialityFor requirement) []]
  | .preserveUnknown =>
    .ok [.create (some requirement.requirementId) none reason details
      (materialityFor requirement) []]

/-- What a finished requirement leaves to record: nothing when it is
satisfied. -/
def shortfall (requirement : ContextRequirement) (state : LoopState) (stop : Option BudgetStop)
    (disposedKeys : List String) : Except RuntimeError (List ContextUnknown) :=
  if satisfied requirement state.selectedCount state.selectedKeys disposedKeys stop.isSome then
    .ok []
  else disposeUnsatisfied requirement stop state.selectedKeys disposedKeys

/-- The view a requirement resolves. -/
def requirementView (resolution : SnapshotResolution) (requirement : ContextRequirement) :
    ResolvedCandidates :=
  resolution.resolve (matchesRequirement requirement)

/-- The candidates a view leaves to select from, in selection order. -/
def eligibleItems (view : ResolvedCandidates) : List ContextItem :=
  sortedBy candidateSortKey
    ((view.sortedGroups.filter fun entry => !entry.2.conflict).flatMap fun entry => entry.2.items)

/-- The conflicting groups of a view. -/
def conflictGroups (view : ResolvedCandidates) :
    List ((ContextKind × String) × GroupResolution) :=
  view.sortedGroups.filter fun entry => entry.2.conflict

/-- The unknown a conflicting group becomes for a requirement. -/
def requirementConflict (requirement : ContextRequirement)
    (entry : (ContextKind × String) × GroupResolution) : ContextUnknown :=
  .create (some requirement.requirementId) (some entry.1.2) .conflictingGovernedClaims
    (("context_kind", .str requirement.contextKind.value) :: entry.2.details)
    (materialityFor requirement) (entry.2.sources.map ContextItem.sourceRef)

/-- `_select_for`: the selection after the requirement, and its unknowns. -/
def selectFor (budget : ContextBudget) (resolution : SnapshotResolution)
    (requirement : ContextRequirement) (selection : Selection) :
    Except RuntimeError (Selection × List ContextUnknown) := do
  let view := requirementView resolution requirement
  let conflicts := conflictGroups view
  let disposedKeys := conflicts.map fun entry => entry.1.2
  let (state, stop) := selectLoop requirement budget (eligibleItems view) (.start selection)
  let short ← shortfall requirement state stop disposedKeys
  .ok (state.selection,
    view.supersessionUnknowns ++ conflicts.map (requirementConflict requirement) ++ short)

/-- The requirements of a plan, in order. -/
def selectAll (budget : ContextBudget) (resolution : SnapshotResolution) :
    List ContextRequirement → Selection → Except RuntimeError (Selection × List ContextUnknown)
  | [], selection => .ok (selection, [])
  | requirement :: rest, selection => do
    let first ← selectFor budget resolution requirement selection
    let others ← selectAll budget resolution rest first.1
    .ok (others.1, first.2 ++ others.2)

end Select

end CognitiveRuntime
