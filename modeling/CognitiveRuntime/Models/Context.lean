import CognitiveRuntime.Models.Digest
import CognitiveRuntime.Data.Fallible

/-!
# The canonical context artifacts

The typed values the context compiler reads and writes: governed
candidates with their compiler-owned identity, context unknowns, the
task scope, and the injected snapshot.

An item's class fixes its context kind, so the ten item classes are the
constructors of `Claim` and `contextKind` is computed from the claim.
What the validators of an item enforce is `ContextItem.Valid`; a
`ContextSnapshot` carries it for every candidate it holds.

Free-form fields hold canonical JSON, one representative for all the
dictionaries that differ only in key order.
-/

namespace CognitiveRuntime

open Ordered

/-! ## Errors -/

/-- How a stage fails: a rejected value with its field path, a validator
of a model constructor, a strict parse, a missing key or index, or a
field the model does not declare. -/
inductive RuntimeError where
  | invalidValue (message : String) (path : Option String) (details : Json)
  | validation (message : String)
  | strictParse (message : String) (code : String) (path : String)
  | missingKey (key : String)
  | unknownField (message : String) (path : String)
  deriving DecidableEq

/-- `raise InvalidValueError(message, path=path, details=details)`. -/
def invalidValue {α : Type} (message path : String) (details : Json) :
    Except RuntimeError α :=
  .error (.invalidValue message (some path) details)

/-- A dictionary built by writing each entry under its key, in key order. -/
def dictOf {α : Type} (entries : List (String × α)) : List (String × α) :=
  dedupeLast Prod.fst entries

/-- A dictionary of strings in JSON. -/
def ofStringDict (entries : List (String × String)) : Json :=
  .obj (entries.map fun e => (e.1, .str e.2))

/-! ## Vocabulary -/

inductive ContextKind where
  | relevantEntity
  | repositoryState
  | architectureConstraint
  | applicableLaw
  | priorDecision
  | dependencyContext
  | evidenceRef
  | memoryContext
  | capabilityFact
  | authorityFact
  deriving DecidableEq, Repr

def ContextKind.value : ContextKind → String
  | .relevantEntity => "relevant_entity"
  | .repositoryState => "repository_state"
  | .architectureConstraint => "architecture_constraint"
  | .applicableLaw => "applicable_law"
  | .priorDecision => "prior_decision"
  | .dependencyContext => "dependency_context"
  | .evidenceRef => "evidence_ref"
  | .memoryContext => "memory_context"
  | .capabilityFact => "capability_fact"
  | .authorityFact => "authority_fact"

def ContextKind.all : List ContextKind :=
  [.relevantEntity, .repositoryState, .architectureConstraint, .applicableLaw,
    .priorDecision, .dependencyContext, .evidenceRef, .memoryContext,
    .capabilityFact, .authorityFact]

inductive ContextScopeMode where
  | scoped
  | global
  deriving DecidableEq, Repr

def ContextScopeMode.value : ContextScopeMode → String
  | .scoped => "scoped"
  | .global => "global"

inductive AuthorityLevel where
  | governedAuthoritative
  | governedVerified
  | informative
  | unverified
  deriving DecidableEq, Repr

def AuthorityLevel.value : AuthorityLevel → String
  | .governedAuthoritative => "governed_authoritative"
  | .governedVerified => "governed_verified"
  | .informative => "informative"
  | .unverified => "unverified"

def AuthorityLevel.all : List AuthorityLevel :=
  [.governedAuthoritative, .governedVerified, .informative, .unverified]

/-- `AUTHORITY_RANK`: strongest first. -/
def AuthorityLevel.rank : AuthorityLevel → Nat
  | .governedAuthoritative => 0
  | .governedVerified => 1
  | .informative => 2
  | .unverified => 3

/-- Membership in `GOVERNED_LEVELS`. -/
def AuthorityLevel.isGoverned : AuthorityLevel → Bool
  | .governedAuthoritative | .governedVerified => true
  | .informative | .unverified => false

/-- Membership in `GOVERNED_ONLY_KINDS`. -/
def ContextKind.isGovernedOnly : ContextKind → Bool
  | .authorityFact | .capabilityFact => true
  | _ => false

inductive DecisionStatus where
  | active
  | superseded
  | unknown
  deriving DecidableEq, Repr

def DecisionStatus.value : DecisionStatus → String
  | .active => "active"
  | .superseded => "superseded"
  | .unknown => "unknown"

inductive MissingPolicy where
  | block
  | preserveUnknown
  | optional
  deriving DecidableEq, Repr

def MissingPolicy.value : MissingPolicy → String
  | .block => "BLOCK"
  | .preserveUnknown => "PRESERVE_UNKNOWN"
  | .optional => "OPTIONAL"

inductive CoverageMode where
  | minimum
  | allEligible
  | semanticKeys
  deriving DecidableEq, Repr

def CoverageMode.value : CoverageMode → String
  | .minimum => "minimum"
  | .allEligible => "all_eligible"
  | .semanticKeys => "semantic_keys"

def CoverageMode.all : List CoverageMode := [.minimum, .allEligible, .semanticKeys]

inductive UnknownMateriality where
  | blocking
  | nonBlocking
  deriving DecidableEq, Repr

def UnknownMateriality.value : UnknownMateriality → String
  | .blocking => "blocking"
  | .nonBlocking => "non_blocking"

/-- The reason codes the compiler emits. -/
inductive UnknownReasonCode where
  | ambiguousScope
  | missingRequiredContext
  | conflictingGovernedClaims
  | missingRevision
  | invalidProvenance
  | budgetInsufficient
  | unsupportedCapability
  | missingAuthority
  | unknownSupersession
  | danglingSupersession
  | unresolvedFreshness
  deriving DecidableEq, Repr

def UnknownReasonCode.value : UnknownReasonCode → String
  | .ambiguousScope => "ambiguous_scope"
  | .missingRequiredContext => "missing_required_context"
  | .conflictingGovernedClaims => "conflicting_governed_claims"
  | .missingRevision => "missing_revision"
  | .invalidProvenance => "invalid_provenance"
  | .budgetInsufficient => "budget_insufficient"
  | .unsupportedCapability => "unsupported_capability"
  | .missingAuthority => "missing_authority"
  | .unknownSupersession => "unknown_supersession"
  | .danglingSupersession => "dangling_supersession"
  | .unresolvedFreshness => "unresolved_freshness"

inductive EffectiveAuthorityOrderSource where
  | governedContext
  | compilerDefault
  deriving DecidableEq, Repr

def EffectiveAuthorityOrderSource.value : EffectiveAuthorityOrderSource → String
  | .governedContext => "governed_context"
  | .compilerDefault => "compiler_default"

inductive FreshnessRequirement where
  | exactRevision
  | snapshotBound
  | any
  deriving DecidableEq, Repr

def FreshnessRequirement.value : FreshnessRequirement → String
  | .exactRevision => "exact_revision"
  | .snapshotBound => "snapshot_bound"
  | .any => "any"

theorem ContextKind.value_inj : ∀ {k l : ContextKind}, k.value = l.value ↔ k = l := by
  intro k l
  cases k <;> cases l <;> simp [ContextKind.value]

theorem ContextScopeMode.value_inj :
    ∀ {m n : ContextScopeMode}, m.value = n.value ↔ m = n := by
  intro m n
  cases m <;> cases n <;> simp [ContextScopeMode.value]

theorem AuthorityLevel.value_inj :
    ∀ {a b : AuthorityLevel}, a.value = b.value ↔ a = b := by
  intro a b
  cases a <;> cases b <;> simp [AuthorityLevel.value]

theorem CoverageMode.value_inj :
    ∀ {m n : CoverageMode}, m.value = n.value ↔ m = n := by
  intro m n
  cases m <;> cases n <;> simp [CoverageMode.value]

theorem MissingPolicy.value_inj :
    ∀ {p q : MissingPolicy}, p.value = q.value ↔ p = q := by
  intro p q
  cases p <;> cases q <;> simp [MissingPolicy.value]

theorem FreshnessRequirement.value_inj :
    ∀ {f g : FreshnessRequirement}, f.value = g.value ↔ f = g := by
  intro f g
  cases f <;> cases g <;> simp [FreshnessRequirement.value]

theorem DecisionStatus.value_inj :
    ∀ {s t : DecisionStatus}, s.value = t.value ↔ s = t := by
  intro s t
  cases s <;> cases t <;> simp [DecisionStatus.value]

theorem UnknownReasonCode.value_inj :
    ∀ {r s : UnknownReasonCode}, r.value = s.value ↔ r = s := by
  intro r s
  cases r <;> cases s <;> simp [UnknownReasonCode.value]

theorem AuthorityLevel.rank_inj :
    ∀ {a b : AuthorityLevel}, a.rank = b.rank ↔ a = b := by
  intro a b
  cases a <;> cases b <;> simp [AuthorityLevel.rank]

/-- The governed levels are the two strongest ranks. -/
theorem AuthorityLevel.isGoverned_iff {a : AuthorityLevel} :
    a.isGoverned = true ↔ a.rank ≤ AuthorityLevel.governedVerified.rank := by
  cases a <;> decide

/-! ## Strings as the source tests them -/

/-- `str.isspace` of one character. -/
def isSpace (c : Char) : Bool :=
  let n := c.toNat
  (9 ≤ n && n ≤ 13) || (28 ≤ n && n ≤ 32) || n == 0x85 || n == 0xa0 || n == 0x1680
    || (0x2000 ≤ n && n ≤ 0x200a) || n == 0x2028 || n == 0x2029 || n == 0x202f
    || n == 0x205f || n == 0x3000

/-- `not value.strip()`. -/
def isBlank (s : String) : Bool := s.toList.all isSpace

/-- `value or ""` of an optional string. -/
def orEmpty (o : Option String) : String := o.getD ""

/-- `bool(value)` of an optional string. -/
def isSet (o : Option String) : Bool := orEmpty o ≠ ""

/-! ## Sources and claims -/

/-- Where a context item came from. -/
structure ContextSourceRef where
  sourceId : String
  sourceKind : String
  locator : String
  immutableCoordinate : Option String
  contentDigest : Option String
  deriving DecidableEq, Repr

def ContextSourceRef.hasImmutableProvenance (ref : ContextSourceRef) : Bool :=
  isSet ref.immutableCoordinate || isSet ref.contentDigest

/-- The stable source identity; also the canonical form of the reference. -/
def ContextSourceRef.identityPayload (ref : ContextSourceRef) : Json :=
  .obj [("source_id", .str ref.sourceId), ("source_kind", .str ref.sourceKind),
    ("locator", .str ref.locator),
    ("immutable_coordinate", .ofOption ref.immutableCoordinate),
    ("content_digest", .ofOption ref.contentDigest)]

structure EntityContext where
  entityId : String
  entityType : String
  relationToTask : String
  deriving DecidableEq

/-- One repository fact claim. -/
structure RepositoryState where
  repositoryId : String
  revision : String
  subjectRef : String
  factType : String
  value : Json
  deriving DecidableEq

structure GovernedConstraint where
  constraintId : String
  statement : String
  appliesBecause : List String
  evidenceRefs : List String
  deriving DecidableEq

structure ApplicableLaw where
  lawId : String
  statement : String
  appliesBecause : List String
  precedence : Option Nat
  supersedesRefs : List String
  deriving DecidableEq

structure PriorDecision where
  decisionId : String
  status : DecisionStatus
  statement : String
  supersedesRefs : List String
  supersededByRefs : List String
  deriving DecidableEq

structure DependencyContext where
  dependencyId : String
  relationship : String
  direction : String
  targetRef : String
  versionOrRevision : Option String
  deriving DecidableEq

structure EvidenceRef where
  evidenceId : String
  evidenceType : String
  supportsSemanticKeys : List String
  digest : Option String
  deriving DecidableEq

structure MemoryContext where
  memoryId : String
  memoryKind : String
  content : Json
  relevanceReason : String
  deriving DecidableEq

inductive CapabilityState where
  | available
  | unavailable
  | unknown
  deriving DecidableEq, Repr

def CapabilityState.value : CapabilityState → String
  | .available => "available"
  | .unavailable => "unavailable"
  | .unknown => "unknown"

/-- A proven capability state. -/
structure CapabilityFact where
  capabilityId : String
  state : CapabilityState
  evidenceRefs : List String
  deriving DecidableEq

inductive AuthorityState where
  | granted
  | limit
  | unknown
  deriving DecidableEq, Repr

def AuthorityState.value : AuthorityState → String
  | .granted => "granted"
  | .limit => "limit"
  | .unknown => "unknown"

/-- A proven authority grant or limit. -/
structure AuthorityFact where
  authorityId : String
  state : AuthorityState
  subjectRef : Option String
  actionScope : List String
  precedence : Option Nat
  deriving DecidableEq

/-- What an item asserts, by item class. -/
inductive Claim where
  | relevantEntity (c : EntityContext)
  | repositoryState (c : RepositoryState)
  | architectureConstraint (c : GovernedConstraint)
  | applicableLaw (c : ApplicableLaw)
  | priorDecision (c : PriorDecision)
  | dependencyContext (c : DependencyContext)
  | evidenceRef (c : EvidenceRef)
  | memoryContext (c : MemoryContext)
  | capabilityFact (c : CapabilityFact)
  | authorityFact (c : AuthorityFact)
  deriving DecidableEq

namespace Claim

def kind : Claim → ContextKind
  | .relevantEntity _ => .relevantEntity
  | .repositoryState _ => .repositoryState
  | .architectureConstraint _ => .architectureConstraint
  | .applicableLaw _ => .applicableLaw
  | .priorDecision _ => .priorDecision
  | .dependencyContext _ => .dependencyContext
  | .evidenceRef _ => .evidenceRef
  | .memoryContext _ => .memoryContext
  | .capabilityFact _ => .capabilityFact
  | .authorityFact _ => .authorityFact

end Claim

/-- `authority_semantic_key`: id, subject and canonical action scope. -/
def authoritySemanticKey (authorityId : String) (subjectRef : Option String)
    (actionScope : List String) : String :=
  authorityId ++ ":" ++ orEmpty subjectRef ++ ":" ++
    String.intercalate "," (sortedUnique actionScope)

namespace Claim

/-- `expected_semantic_key`: the kind's semantic-key recipe. -/
def expectedSemanticKey : Claim → String
  | .relevantEntity c => c.entityType ++ ":" ++ c.entityId
  | .repositoryState c => c.repositoryId ++ ":" ++ c.subjectRef ++ ":" ++ c.factType
  | .architectureConstraint c => c.constraintId
  | .applicableLaw c => c.lawId
  | .priorDecision c => c.decisionId
  | .dependencyContext c =>
      c.dependencyId ++ ":" ++ c.direction ++ ":" ++ c.relationship ++ ":" ++ c.targetRef
  | .evidenceRef c => c.evidenceId
  | .memoryContext c => c.memoryId
  | .capabilityFact c => c.capabilityId
  | .authorityFact c => authoritySemanticKey c.authorityId c.subjectRef c.actionScope

/-- An optional count in JSON. -/
def ofPrecedence : Option Nat → Json
  | none => .null
  | some n => .int n

@[simp] theorem normalize_ofPrecedence (o : Option Nat) :
    (ofPrecedence o).normalize = ofPrecedence o := by
  cases o <;> rfl

theorem ofPrecedence_inj {o o' : Option Nat} : ofPrecedence o = ofPrecedence o' ↔ o = o' := by
  cases o <;> cases o' <;> simp only [ofPrecedence, Json.int.injEq, Int.natCast_inj,
    Option.some.injEq, reduceCtorEq]

/-- `claim_payload`: the fields of the item's own class. -/
def payload : Claim → List (String × Json)
  | .relevantEntity c =>
      [("entity_id", .str c.entityId), ("entity_type", .str c.entityType),
        ("relation_to_task", .str c.relationToTask)]
  | .repositoryState c =>
      [("repository_id", .str c.repositoryId), ("revision", .str c.revision),
        ("subject_ref", .str c.subjectRef), ("fact_type", .str c.factType),
        ("value", c.value)]
  | .architectureConstraint c =>
      [("constraint_id", .str c.constraintId), ("statement", .str c.statement),
        ("applies_because", .ofStrings c.appliesBecause),
        ("evidence_refs", .ofStrings c.evidenceRefs)]
  | .applicableLaw c =>
      [("law_id", .str c.lawId), ("statement", .str c.statement),
        ("applies_because", .ofStrings c.appliesBecause),
        ("precedence", ofPrecedence c.precedence),
        ("supersedes_refs", .ofStrings c.supersedesRefs)]
  | .priorDecision c =>
      [("decision_id", .str c.decisionId), ("status", .str c.status.value),
        ("statement", .str c.statement),
        ("supersedes_refs", .ofStrings c.supersedesRefs),
        ("superseded_by_refs", .ofStrings c.supersededByRefs)]
  | .dependencyContext c =>
      [("dependency_id", .str c.dependencyId), ("relationship", .str c.relationship),
        ("direction", .str c.direction), ("target_ref", .str c.targetRef),
        ("version_or_revision", .ofOption c.versionOrRevision)]
  | .evidenceRef c =>
      [("evidence_id", .str c.evidenceId), ("evidence_type", .str c.evidenceType),
        ("supports_semantic_keys", .ofStrings c.supportsSemanticKeys),
        ("digest", .ofOption c.digest)]
  | .memoryContext c =>
      [("memory_id", .str c.memoryId), ("memory_kind", .str c.memoryKind),
        ("content", c.content), ("relevance_reason", .str c.relevanceReason)]
  | .capabilityFact c =>
      [("capability_id", .str c.capabilityId), ("state", .str c.state.value),
        ("evidence_refs", .ofStrings c.evidenceRefs)]
  | .authorityFact c =>
      [("authority_id", .str c.authorityId), ("state", .str c.state.value),
        ("subject_ref", .ofOption c.subjectRef),
        ("action_scope", .ofStrings c.actionScope),
        ("precedence", ofPrecedence c.precedence)]

/-- The field validators of the item classes. -/
def Valid : Claim → Prop
  | .repositoryState c =>
      isBlank c.revision = false ∧ isBlank c.subjectRef = false ∧
        isBlank c.factType = false ∧ c.value.Canonical
  | .memoryContext c => c.content.Canonical
  | .authorityFact c => sortedUnique c.actionScope = c.actionScope
  | _ => True

end Claim

/-! ## Context items -/

/-- Identity, authority, scope and selection lineage around a claim. -/
structure ContextItem where
  itemId : String
  semanticKey : String
  authorityLevel : AuthorityLevel
  sourceRef : ContextSourceRef
  scopeMode : ContextScopeMode
  scopeRefs : List String
  selectedBecause : List String
  claim : Claim
  deriving DecidableEq

namespace ContextItem

def contextKind (item : ContextItem) : ContextKind := item.claim.kind

def authorityRank (item : ContextItem) : Nat := item.authorityLevel.rank

/-- Membership of the item's authority in `GOVERNED_LEVELS`. -/
def isGoverned (item : ContextItem) : Bool := item.authorityLevel.isGoverned

/-- `applicability_payload`: where the item applies. -/
def applicabilityPayload (item : ContextItem) : Json :=
  .obj [("scope_mode", .str item.scopeMode.value), ("scope_refs", .ofStrings item.scopeRefs)]

/-- `claim_payload` as a document. -/
def claimPayload (item : ContextItem) : Json := .obj item.claim.payload

/-- The canonical item-identity recipe: kind, key, claim, applicability
and source. The authority level is not part of it. -/
def identityPayload (item : ContextItem) : Json :=
  .obj [("context_kind", .str item.contextKind.value),
    ("semantic_key", .str item.semanticKey),
    ("claim", item.claimPayload),
    ("applicability", item.applicabilityPayload),
    ("source_identity", item.sourceRef.identityPayload)]

def expectedItemId [Sha256] (item : ContextItem) : String :=
  deriveId "ctxitem" item.identityPayload

/-- `to_canonical_dict`. -/
def toJson (item : ContextItem) : Json :=
  .obj ([("item_id", .str item.itemId), ("semantic_key", .str item.semanticKey),
    ("context_kind", .str item.contextKind.value),
    ("authority_level", .str item.authorityLevel.value),
    ("source_ref", item.sourceRef.identityPayload),
    ("scope_mode", .str item.scopeMode.value),
    ("scope_refs", .ofStrings item.scopeRefs),
    ("selected_because", .ofStrings item.selectedBecause)] ++ item.claim.payload)

/-- `candidate_dict`: the canonical form with selection lineage stripped. -/
def candidateDict (item : ContextItem) : Json :=
  toJson { item with selectedBecause := [] }

def candidateDigest [Sha256] (item : ContextItem) : String :=
  sha256Digest item.candidateDict

/-- `canonical_cost`: UTF-8 bytes of the candidate's canonical JSON. -/
def canonicalCost (item : ContextItem) : Nat := item.candidateDict.normalize.size

/-- `sort_key`. -/
def sortKey (item : ContextItem) : String ×ₗ String ×ₗ String :=
  toLex (item.contextKind.value, toLex (item.semanticKey, item.itemId))

/-- `getattr(item, "revision", None)`. -/
def revision? (item : ContextItem) : Option String :=
  match item.claim with
  | .repositoryState c => some c.revision
  | _ => none

/-- `getattr(item, "supersedes_refs", [])`. -/
def supersedesRefs (item : ContextItem) : List String :=
  match item.claim with
  | .applicableLaw c => c.supersedesRefs
  | .priorDecision c => c.supersedesRefs
  | _ => []

/-- `getattr(item, "superseded_by_refs", [])`. -/
def supersededByRefs (item : ContextItem) : List String :=
  match item.claim with
  | .priorDecision c => c.supersededByRefs
  | _ => []

/-- A decision whose own status is the given one. -/
def hasStatus (item : ContextItem) (status : DecisionStatus) : Bool :=
  match item.claim with
  | .priorDecision c => c.status == status
  | _ => false

/-- What the model validators of an item enforce. -/
structure Valid [Sha256] (item : ContextItem) : Prop where
  source_ne : isBlank item.sourceRef.sourceId = false ∧
    isBlank item.sourceRef.sourceKind = false ∧ isBlank item.sourceRef.locator = false
  key_ne : isBlank item.semanticKey = false
  refs_canonical : sortedUnique item.scopeRefs = item.scopeRefs
  scoped_refs : item.scopeMode = .scoped → item.scopeRefs ≠ []
  global_refs : item.scopeMode = .global → item.scopeRefs = []
  claim_valid : item.claim.Valid
  key_recipe : item.semanticKey = item.claim.expectedSemanticKey
  governed_provenance : item.isGoverned = true → item.sourceRef.hasImmutableProvenance = true
  memory_ceiling : item.contextKind = .memoryContext → item.isGoverned = false
  id_recipe : item.itemId = item.expectedItemId

/-- `ContextItem(...)` with `item_id` left to the recipe. -/
def create [Sha256] (authorityLevel : AuthorityLevel) (sourceRef : ContextSourceRef)
    (scopeMode : ContextScopeMode) (scopeRefs : List String) (claim : Claim) : ContextItem :=
  let item : ContextItem :=
    { itemId := "", semanticKey := claim.expectedSemanticKey, authorityLevel := authorityLevel
      sourceRef := sourceRef, scopeMode := scopeMode, scopeRefs := sortedUnique scopeRefs
      selectedBecause := [], claim := claim }
  { item with itemId := item.expectedItemId }

theorem create_valid [Sha256] {authorityLevel : AuthorityLevel} {sourceRef : ContextSourceRef}
    {scopeMode : ContextScopeMode} {scopeRefs : List String} {claim : Claim}
    (hsource : isBlank sourceRef.sourceId = false ∧ isBlank sourceRef.sourceKind = false
      ∧ isBlank sourceRef.locator = false)
    (hkey : isBlank claim.expectedSemanticKey = false)
    (hscoped : scopeMode = .scoped ↔ scopeRefs ≠ [])
    (hclaim : claim.Valid)
    (hprovenance : authorityLevel.isGoverned = true → sourceRef.hasImmutableProvenance = true)
    (hmemory : claim.kind = .memoryContext → authorityLevel.isGoverned = false) :
    (create authorityLevel sourceRef scopeMode scopeRefs claim).Valid where
  source_ne := hsource
  key_ne := hkey
  refs_canonical := sortedUnique_idem _
  scoped_refs := by
    intro h
    exact fun hnil => hscoped.mp h (sortedUnique_eq_nil.mp hnil)
  global_refs := by
    intro h
    have hmode : scopeMode = .global := h
    have hnil : scopeRefs = [] := by
      by_contra hne
      rw [hscoped.mpr hne] at hmode
      cases hmode
    exact sortedUnique_eq_nil.mpr hnil
  claim_valid := hclaim
  key_recipe := rfl
  governed_provenance := hprovenance
  memory_ceiling := hmemory
  id_recipe := rfl

/-- The id enters the canonical form once. -/
theorem size_toJson (item : ContextItem) :
    item.toJson.size + 2
      = (toJson { item with itemId := "" }).size + Json.stringSize item.itemId := by
  have hempty : Json.stringSize "" = 2 := by decide
  unfold toJson contextKind
  simp only [Json.size_obj, List.cons_append, List.length_cons, List.map_cons, List.sum_cons,
    Json.size_str, hempty]
  omega

/-- The size of a created item under the transparent digest, computed
from the item without its id. -/
def transparentSize (item : ContextItem) : Nat :=
  (toJson { item with itemId := "" }).size + 15
    + ((Sha256.code item.identityPayload.normalize).map (· + 1)).sum

theorem size_transparent {item : ContextItem}
    (h : item.itemId = @expectedItemId Sha256.transparent item) :
    item.toJson.size = item.transparentSize := by
  have hsize := size_toJson item
  have hdigest := Sha256.stringSize_transparent item.identityPayload.normalize
  have hfamily := Json.stringSize_append "ctxitem"
    (".sha256:" ++ @sha256Digest Sha256.transparent item.identityPayload)
  have hprefix := Json.stringSize_append ".sha256:"
    (@sha256Digest Sha256.transparent item.identityPayload)
  have hctx : Json.stringSize "ctxitem" = 9 := by decide
  have hsha : Json.stringSize ".sha256:" = 10 := by decide
  unfold expectedItemId deriveId at h
  unfold transparentSize
  rw [h] at hsize
  unfold sha256Digest at hsize hfamily hprefix
  omega

/-- A copy with other selection lineage. -/
def withSelection (item : ContextItem) (reasons : List String) : ContextItem :=
  { item with selectedBecause := reasons }

end ContextItem

/-! ## Context unknowns -/

/-- A stable, reason-coded unknown. `details` is the entry list of a
dictionary. -/
structure ContextUnknown where
  unknownId : String
  requirementRef : Option String
  semanticKey : Option String
  reasonCode : UnknownReasonCode
  details : List (String × Json)
  materiality : UnknownMateriality
  sourceRefs : List ContextSourceRef
  deriving DecidableEq

namespace ContextUnknown

/-- The unknown-identity recipe: materiality and provenance stay out. -/
def identityPayload (requirementRef semanticKey : Option String)
    (reasonCode : UnknownReasonCode) (details : List (String × Json)) : Json :=
  .obj [("requirement_ref", .ofOption requirementRef),
    ("semantic_key", .ofOption semanticKey),
    ("reason_code", .str reasonCode.value), ("details", .obj details)]

def expectedUnknownId [Sha256] (u : ContextUnknown) : String :=
  deriveId "ctxunk" (identityPayload u.requirementRef u.semanticKey u.reasonCode u.details)

/-- `ContextUnknown(...)` with the derived identity. -/
def create [Sha256] (requirementRef semanticKey : Option String)
    (reasonCode : UnknownReasonCode) (details : List (String × Json))
    (materiality : UnknownMateriality) (sourceRefs : List ContextSourceRef) :
    ContextUnknown where
  unknownId := deriveId "ctxunk" (identityPayload requirementRef semanticKey reasonCode details)
  requirementRef := requirementRef
  semanticKey := semanticKey
  reasonCode := reasonCode
  details := details
  materiality := materiality
  sourceRefs := sourceRefs

/-- What the model validator of an unknown enforces. -/
def Valid [Sha256] (u : ContextUnknown) : Prop := u.unknownId = u.expectedUnknownId

theorem create_valid [Sha256] (requirementRef semanticKey : Option String)
    (reasonCode : UnknownReasonCode) (details : List (String × Json))
    (materiality : UnknownMateriality) (sourceRefs : List ContextSourceRef) :
    (create requirementRef semanticKey reasonCode details materiality sourceRefs).Valid := rfl

/-- `to_canonical_dict`. -/
def toJson (u : ContextUnknown) : Json :=
  .obj [("unknown_id", .str u.unknownId), ("requirement_ref", .ofOption u.requirementRef),
    ("semantic_key", .ofOption u.semanticKey), ("reason_code", .str u.reasonCode.value),
    ("details", .obj u.details), ("materiality", .str u.materiality.value),
    ("source_refs", .arr (u.sourceRefs.map ContextSourceRef.identityPayload))]

end ContextUnknown

/-- `_dedupe_unknowns`: one unknown per id, the last one written. -/
def dedupeUnknowns (unknowns : List ContextUnknown) : List ContextUnknown :=
  dedupeLast ContextUnknown.unknownId unknowns

/-! ## Task scope -/

structure TaskScope where
  scopeId : String
  mission : String
  taskType : String
  targetRefs : List String
  inScopeRefs : List String
  excludedRefs : List String
  requestedOutputs : List String
  constraints : List String
  unresolvedUnknowns : List ContextUnknown
  deriving DecidableEq

namespace TaskScope

/-- `_canonical_lists`: sorted, unique, without blank entries. -/
def canonicalList (values : List String) : List String :=
  sortedUnique (values.filter fun v => !isBlank v)

def identityPayload (scope : TaskScope) : List (String × Json) :=
  [("mission", .str scope.mission), ("task_type", .str scope.taskType),
    ("target_refs", .ofStrings scope.targetRefs),
    ("in_scope_refs", .ofStrings scope.inScopeRefs),
    ("excluded_refs", .ofStrings scope.excludedRefs),
    ("requested_outputs", .ofStrings scope.requestedOutputs),
    ("constraints", .ofStrings scope.constraints),
    ("unresolved_unknowns", .arr (scope.unresolvedUnknowns.map ContextUnknown.toJson))]

/-- `TaskScope(...)`: canonical lists and the derived identity. -/
def create [Sha256] (mission taskType : String)
    (targetRefs inScopeRefs excludedRefs requestedOutputs constraints : List String)
    (unresolvedUnknowns : List ContextUnknown) : TaskScope :=
  let scope : TaskScope :=
    { scopeId := "", mission := mission, taskType := taskType
      targetRefs := canonicalList targetRefs
      inScopeRefs := canonicalList inScopeRefs
      excludedRefs := canonicalList excludedRefs
      requestedOutputs := canonicalList requestedOutputs
      constraints := canonicalList constraints
      unresolvedUnknowns := unresolvedUnknowns }
  { scope with scopeId := deriveId "scope" (.obj scope.identityPayload) }

/-- `to_canonical_dict`. -/
def toJson (scope : TaskScope) : Json :=
  .obj (("scope_id", .str scope.scopeId) :: scope.identityPayload)

def sha256 [Sha256] (scope : TaskScope) : String := sha256Digest scope.toJson

/-- `eligible_refs`: included references less the excluded ones, as a
sorted list. -/
def eligibleRefs (scope : TaskScope) : List String :=
  sortedUnique ((scope.targetRefs ++ scope.inScopeRefs).filter (· ∉ scope.excludedRefs))

end TaskScope

/-! ## The injected snapshot -/

/-- The ten candidate buckets, in canonical order. -/
structure SnapshotBuckets where
  relevantEntities : List ContextItem
  repositoryState : List ContextItem
  architectureConstraints : List ContextItem
  applicableLaw : List ContextItem
  priorDecisions : List ContextItem
  dependencyContext : List ContextItem
  evidenceRefs : List ContextItem
  memoryContext : List ContextItem
  capabilityFacts : List ContextItem
  authorityFacts : List ContextItem
  deriving DecidableEq

namespace SnapshotBuckets

/-- The buckets under their field names, with the kind each one holds. -/
def named (s : SnapshotBuckets) : List (String × ContextKind × List ContextItem) :=
  [("relevant_entities", .relevantEntity, s.relevantEntities),
    ("repository_state", .repositoryState, s.repositoryState),
    ("architecture_constraints", .architectureConstraint, s.architectureConstraints),
    ("applicable_law", .applicableLaw, s.applicableLaw),
    ("prior_decisions", .priorDecision, s.priorDecisions),
    ("dependency_context", .dependencyContext, s.dependencyContext),
    ("evidence_refs", .evidenceRef, s.evidenceRefs),
    ("memory_context", .memoryContext, s.memoryContext),
    ("capability_facts", .capabilityFact, s.capabilityFacts),
    ("authority_facts", .authorityFact, s.authorityFacts)]

def allItems (s : SnapshotBuckets) : List ContextItem :=
  s.named.flatMap fun bucket => bucket.2.2

/-- `item_count`: the candidate count, without touching any item. -/
def itemCount (s : SnapshotBuckets) : Nat :=
  (s.named.map fun bucket => bucket.2.2.length).sum

/-- `to_canonical_dict`. -/
def toJson (s : SnapshotBuckets) : Json :=
  .obj (s.named.map fun bucket => (bucket.1, .arr (bucket.2.2.map ContextItem.toJson)))

/-- `canonical_byte_size`. -/
def canonicalByteSize (s : SnapshotBuckets) : Nat := s.toJson.normalize.size

def empty : SnapshotBuckets where
  relevantEntities := []
  repositoryState := []
  architectureConstraints := []
  applicableLaw := []
  priorDecisions := []
  dependencyContext := []
  evidenceRefs := []
  memoryContext := []
  capabilityFacts := []
  authorityFacts := []

end SnapshotBuckets

namespace SnapshotBuckets

/-- Bytes of the bucket names and brackets. -/
def frameSize : Nat :=
  11 + (SnapshotBuckets.empty.named.map fun bucket => Json.stringSize bucket.1 + 3).sum

theorem bucketSizes_le (buckets : List (String × ContextKind × List ContextItem)) :
    (buckets.map fun b => Json.stringSize b.1 + 1
        + Json.size (.arr (b.2.2.map ContextItem.toJson))).sum
      ≤ (buckets.map fun b => Json.stringSize b.1 + 3).sum
        + ((buckets.flatMap fun b => b.2.2).map fun item => item.toJson.size + 1).sum := by
  have hbucket : ∀ items : List ContextItem,
      Json.size (.arr (items.map ContextItem.toJson))
        ≤ 2 + (items.map fun item => item.toJson.size + 1).sum := by
    intro items
    have hsum : (items.map fun item => item.toJson.size + 1).sum
        = (items.map fun item => item.toJson.size).sum + items.length := by
      induction items with
      | nil => rfl
      | cons item items ih =>
          simp only [List.map_cons, List.sum_cons, List.length_cons, ih]
          omega
    rw [Json.size_arr, List.length_map, List.map_map, hsum, Function.comp_def]
    omega
  induction buckets with
  | nil => simp
  | cons b buckets ih =>
      have hb := hbucket b.2.2
      simp only [List.map_cons, List.sum_cons, List.flatMap_cons, List.map_append,
        List.sum_append]
      omega

/-- A snapshot is no larger than its frame and its candidates. -/
theorem canonicalByteSize_le (s : SnapshotBuckets) :
    s.canonicalByteSize
      ≤ frameSize + (s.allItems.map fun item => item.toJson.size + 1).sum := by
  have hbuckets := bucketSizes_le s.named
  have hnames : (s.named.map fun b => Json.stringSize b.1 + 3)
      = SnapshotBuckets.empty.named.map fun b => Json.stringSize b.1 + 3 := rfl
  unfold canonicalByteSize toJson
  rw [Json.size_normalize, Json.size_obj, List.length_map, List.map_map]
  simp only [Function.comp_def]
  have hlen : s.named.length = 10 := rfl
  unfold frameSize allItems
  rw [hlen, ← hnames]
  omega

end SnapshotBuckets

/-- Immutable governed candidates supplied by the outer host: every
bucket holds valid items of its own kind, none with selection lineage. -/
structure ContextSnapshot [Sha256] extends SnapshotBuckets where
  kinds : ∀ bucket ∈ toSnapshotBuckets.named, ∀ item ∈ bucket.2.2,
    item.contextKind = bucket.2.1
  valid : ∀ item ∈ toSnapshotBuckets.allItems, item.Valid
  unselected : ∀ item ∈ toSnapshotBuckets.allItems, item.selectedBecause = []

/-- `ContextSnapshot.empty`: what an absent snapshot means. -/
def ContextSnapshot.empty [Sha256] : ContextSnapshot where
  toSnapshotBuckets := SnapshotBuckets.empty
  kinds := by simp [SnapshotBuckets.named, SnapshotBuckets.empty]
  valid := by simp [SnapshotBuckets.allItems, SnapshotBuckets.named, SnapshotBuckets.empty]
  unselected := by simp [SnapshotBuckets.allItems, SnapshotBuckets.named, SnapshotBuckets.empty]

end CognitiveRuntime
