import CognitiveRuntime.Compiler.Requirements
import CognitiveRuntime.Models.Canonical

/-!
# Declared needs, as they are loaded

A kernel file is YAML, and a quoted scalar may spell a surrogate that
pairs with nothing: such a string passes for a string everywhere until
its bytes are asked for. The parser of declared needs takes it, and so
do the validators of a requirement. The requirement's own identity asks
for the bytes.

`_parse_context_needs` and the planner, over such strings. A requirement
that was built holds none, and is the requirement of the model.
-/

namespace CognitiveRuntime

open Ordered Fallible
open PyStr (ofString)

/-! ## Loaded values -/

/-- `not text.strip()`: a surrogate is no space. -/
def rawBlank (s : PyStr) : Bool := s.all fun c => c.char?.any isSpace

/-- Python truthiness of a loaded value. -/
def rawTruthy : PyJson → Bool
  | .null => false
  | .bool b => b
  | .int i => i ≠ 0
  | .float (.finite f) => f.text ≠ "0.0" && f.text ≠ "-0.0"
  | .float _ => true
  | .str s => !s.isEmpty
  | .arr items => !items.isEmpty
  | .obj entries => !entries.isEmpty

/-- `entry.get(key) or []` as a list of strings; nothing on any other shape. -/
def rawStringsOrEmpty (value : Option PyJson) : Option (List PyStr) :=
  match value with
  | none => some []
  | some v =>
    if rawTruthy v then
      match v with
      | .arr items => items.mapM fun item => match item with
        | .str s => some s
        | _ => none
      | _ => none
    else some []

/-- A string; nothing on any other value. -/
def rawStr? : PyJson → Option PyStr
  | .str s => some s
  | _ => none

def Payload.bool? (entry : Payload) (key : String) : Option Bool :=
  match entry.get? key with
  | some (.bool b) => some b
  | _ => none

/-- The entries of a mapping; nothing on any other value. -/
def rawEntries : PyJson → Option Payload
  | .obj entries => some entries
  | _ => none

/-- `InvalidValueError(message, path=path, details=details)` over loaded
values. -/
structure RawInvalid where
  message : String
  path : PyStr
  details : PyJson

/-! ## Parsing -/

/-- `_enum_value`: the member with the given value. -/
def rawEnumValue {α : Type} (raw : Option PyJson) (members : List α) (value : α → String)
    (fieldName : String) (sourceRef needId : PyStr) : Except RawInvalid α :=
  match members.find? fun member => raw.bind rawStr? = some (ofString (value member)) with
  | some member => .ok member
  | none =>
    .error { message := "kernel context need has an unknown " ++ fieldName
             path := sourceRef
             details := .obj [(ofString "id", .str needId),
               (ofString fieldName, raw.getD .null),
               (ofString "allowed", (Json.ofStrings (sortedUnique (members.map value))).toPy)] }

/-- One entry of `_parse_context_needs`, checks in source order. -/
def parseRawNeedEntry (sourceRef : PyStr) (seen : List PyStr) (raw : PyJson) :
    Except RawInvalid (KernelContextNeed PyStr) := do
  let fail := fun message details => RawInvalid.mk message sourceRef details
  let entry ← require (rawEntries raw) (fail "kernel context need must be a mapping" .null)
  let unknownKeys := sortedUnique
    ((entry.map Prod.fst).filter (· ∉ contextNeedKeys.map ofString))
  ensure (unknownKeys = []) (fail "kernel context need declares fields a kernel cannot know"
    (.obj [(ofString "unknown_keys", .arr (unknownKeys.map .str)),
      (ofString "allowed", (Json.ofStrings (sortedUnique contextNeedKeys)).toPy)]))
  let needId ← require ((entry.string? "id").filter fun s => !rawBlank s)
    (fail "kernel context need requires a non-empty id" .null)
  let named := PyJson.obj [(ofString "id", .str needId)]
  ensure (needId ∉ seen) (fail "duplicate kernel context need id" named)
  let required ← require (entry.bool? "required")
    (fail "kernel context need requires a boolean required flag" named)
  let reason ← require ((entry.string? "reason").filter fun s => !rawBlank s)
    (fail "kernel context need requires a non-empty reason" named)
  let keys ← require (rawStringsOrEmpty (entry.get? "required_semantic_keys"))
    (fail "kernel context need required_semantic_keys must be strings" named)
  let contextKind ← rawEnumValue (entry.get? "context_kind") ContextKind.all
    ContextKind.value "context_kind" sourceRef needId
  let coverage ← rawEnumValue (entry.get? "coverage") CoverageMode.all
    CoverageMode.value "coverage" sourceRef needId
  let minimumAuthority ← rawEnumValue (entry.get? "minimum_authority")
    AuthorityLevel.all AuthorityLevel.value "minimum_authority" sourceRef needId
  ensure (!(coverage == .semanticKeys && keys.isEmpty))
    (fail "semantic_keys coverage requires required_semantic_keys" named)
  ensure (!(coverage != .semanticKeys && !keys.isEmpty))
    (fail "required_semantic_keys is only meaningful for semantic_keys coverage"
      (.obj [(ofString "id", .str needId),
        (ofString "coverage", .str (ofString coverage.value))]))
  .ok { needId := needId, contextKind := contextKind, required := required, reason := reason
        coverage := coverage, minimumAuthority := minimumAuthority
        requiredSemanticKeys := sortedUnique keys }

def parseRawNeedEntries (sourceRef : PyStr) :
    List PyStr → List PyJson → Except RawInvalid (List (KernelContextNeed PyStr))
  | _, [] => .ok []
  | seen, entry :: rest => do
    let need ← parseRawNeedEntry sourceRef seen entry
    let needs ← parseRawNeedEntries sourceRef (need.needId :: seen) rest
    .ok (need :: needs)

/-- `_parse_context_needs`. -/
def parseRawContextNeeds (kernelDoc : Payload) (sourceRef : PyStr) :
    Except RawInvalid (List (KernelContextNeed PyStr)) :=
  match kernelDoc.get? "context_needs" with
  | none | some .null => .ok []
  | some (.arr entries) => do
    let needs ← parseRawNeedEntries sourceRef [] entries
    .ok (sortedBy KernelContextNeed.needId needs)
  | some _ =>
    .error { message := "kernel context_needs must be a list", path := sourceRef, details := .null }

/-! ## Planning -/

/-- What the planner reads of a kernel binding. -/
structure RawBinding where
  sourceRef : PyStr
  contextNeeds : List (KernelContextNeed PyStr)

/-- The needs of every selected kernel, each with its reference. -/
def rawDeclaredNeeds (kernels : List RawBinding) : List (KernelContextNeed PyStr × PyStr) :=
  kernels.flatMap fun binding => binding.contextNeeds.map fun need =>
    (need, binding.sourceRef ++ ofString "#" ++ need.needId)

/-- `_identity_payload`. -/
def ContextRequirement.rawPayload (r : ContextRequirement PyStr) : PyJson :=
  .obj [(ofString "context_kind", .str (ofString r.contextKind.value)),
    (ofString "reason", .str r.reason), (ofString "required", .bool r.required),
    (ofString "scope_mode", .str (ofString r.scopeMode.value)),
    (ofString "scope_refs", (Json.ofStrings r.scopeRefs).toPy),
    (ofString "freshness_requirement", .str (ofString r.freshnessRequirement.value)),
    (ofString "coordinate_constraint", (Json.ofOption r.coordinateConstraint).toPy),
    (ofString "minimum_authority", .str (ofString r.minimumAuthority.value)),
    (ofString "priority", .int r.priority),
    (ofString "coverage_mode", .str (ofString r.coverageMode.value)),
    (ofString "min_items", .int r.minItems),
    (ofString "required_semantic_keys", .arr (r.requiredSemanticKeys.map .str)),
    (ofString "max_items", (Claim.ofPrecedence r.maxItems).toPy),
    (ofString "max_bytes", (Claim.ofPrecedence r.maxBytes).toPy),
    (ofString "missing_policy", .str (ofString r.missingPolicy.value)),
    (ofString "kernel_need_refs", .arr (r.kernelNeedRefs.map .str))]

/-- The requirement as a text, where every string of it is one. -/
def ContextRequirement.text? (r : ContextRequirement PyStr) : Option ContextRequirement := do
  let reason ← r.reason.text?
  let keys ← r.requiredSemanticKeys.mapM PyStr.text?
  let refs ← r.kernelNeedRefs.mapM PyStr.text?
  some { requirementId := r.requirementId
         contextKind := r.contextKind
         reason := reason
         required := r.required
         scopeMode := r.scopeMode
         scopeRefs := r.scopeRefs
         freshnessRequirement := r.freshnessRequirement
         coordinateConstraint := r.coordinateConstraint
         minimumAuthority := r.minimumAuthority
         priority := r.priority
         coverageMode := r.coverageMode
         minItems := r.minItems
         requiredSemanticKeys := keys
         maxItems := r.maxItems
         maxBytes := r.maxBytes
         missingPolicy := r.missingPolicy
         kernelNeedRefs := refs }

/-- `str(error)` of the codec's error: the first run of surrogates. -/
def surrogateMessage (text : PyStr) : String :=
  let start := text.findIdx CodePoint.isSurrogate
  let torn := (text.drop start).takeWhile CodePoint.isSurrogate
  "'utf-8' codec can't encode " ++ (match torn with
    | [c] => "character '\\u" ++ String.ofList (PyStr.hex4 c.val) ++ "' in position "
        ++ toString start
    | _ => "characters in position " ++ toString start ++ "-"
        ++ toString (start + torn.length - 1)) ++ ": surrogates not allowed"

/-- What an error of `derive_id` becomes inside a validator: all of them
are `ValueError`s. -/
def derivationRefusal (payload : PyJson) : Raised → RuntimeError
  | .model error => error
  | .canonicalization message => .validation message
  | .unicodeEncode => .validation (surrogateMessage payload.normalize.text)

/-- `derive_id(prefix, payload)` inside a validator, up to the bytes that
are hashed. -/
def derivationBytes (payload : PyJson) : Except RuntimeError ByteArray :=
  (canonicalJsonBytes payload).mapError (derivationRefusal payload)

/-- The requirement under the identity the last validator derives. -/
def ContextRequirement.identifyRaw [Sha256] (r : ContextRequirement PyStr) :
    Except RuntimeError ContextRequirement := do
  let _ ← derivationBytes r.rawPayload
  -- what has bytes is a text
  let r ← require r.text? (derivationRefusal r.rawPayload .unicodeEncode)
  .ok { r with requirementId := deriveId "ctxreq" (.obj r.identityPayload) }

/-- `ContextRequirement(...)`: the checks pass a surrogate, and the
identity, derived after them, does not. -/
def ContextRequirement.createRaw [Sha256] (draft : ContextRequirement PyStr) :
    Except RuntimeError ContextRequirement :=
  let r := { draft with
    scopeRefs := sortedUnique draft.scopeRefs
    requiredSemanticKeys := sortedUnique draft.requiredSemanticKeys
    kernelNeedRefs := sortedUnique draft.kernelNeedRefs }
  match r.breachWith rawBlank with
  | some message => .error (.validation message)
  | none => r.identifyRaw

/-- `_requirement`. -/
def RequirementSpec.buildRaw [Sha256] (spec : RequirementSpec PyStr) :
    Except RuntimeError ContextRequirement :=
  spec.draft.createRaw

/-- What `plan_id` is derived from. -/
def rawPlanPayload (taskScopeDigest : String) (matchedRoute : PyStr)
    (globalBudget : ContextBudget) (ordered : List ContextRequirement) : PyJson :=
  .obj [(ofString "task_scope_digest", .str (ofString taskScopeDigest)),
    (ofString "matched_route", .str matchedRoute),
    (ofString "global_budget", globalBudget.toJson.toPy),
    (ofString "requirements", .arr (ordered.map fun r => r.toJson.toPy))]

/-- `ContextRequirementPlan(...)`, under the route as the rules spell it. -/
def ContextRequirementPlan.createRaw [Sha256] (taskScopeDigest : String) (matchedRoute : PyStr)
    (globalBudget : ContextBudget) (requirements : List ContextRequirement) :
    Except RuntimeError ContextRequirementPlan :=
  let ordered := sortedBy ContextRequirement.orderKey requirements
  if (ordered.map ContextRequirement.requirementId).Nodup then do
    let payload := rawPlanPayload taskScopeDigest matchedRoute globalBudget ordered
    let _ ← derivationBytes payload
    let route ← require matchedRoute.text? (derivationRefusal payload .unicodeEncode)
    let plan : ContextRequirementPlan :=
      { planId := "", taskScopeDigest := taskScopeDigest, matchedRoute := route
        globalBudget := globalBudget, requirements := ordered }
    .ok { plan with planId := deriveId "ctxplan" (.obj plan.identityPayload) }
  else .error (.validation "duplicate requirement_id in plan")

/-- `ContextRequirementPlanner.plan`, under the route as the rules spell
it. -/
def planRawRequirements [Sha256] (scope : TaskScope) (discovery : DiscoveryContext)
    (plan : ActivationPlan) (matchedRoute : PyStr) (kernels : List RawBinding) :
    Except RuntimeError ContextRequirementPlan := do
  let baseline ← (baselineSpecs scope.eligibleRefs (plan.architectureMateriality.required
    && !discovery.architectureSignalRefs.isEmpty)).mapM RequirementSpec.build
  let declared ← (mergedNeedSpecs scope.eligibleRefs (rawDeclaredNeeds kernels)).mapM
    RequirementSpec.buildRaw
  ContextRequirementPlan.createRaw scope.sha256 matchedRoute
    { maxTotalItems := globalMaxItems, maxTotalBytes := globalMaxBytes } (baseline ++ declared)

end CognitiveRuntime
