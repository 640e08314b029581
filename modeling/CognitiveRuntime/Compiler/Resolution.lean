import CognitiveRuntime.Compiler.Supersession

/-!
# Candidate resolution and bounded discovery

A snapshot is normalized to one sorted candidate list and nothing is
resolved there. Each consumer resolves over the candidates it is
eligible for: supersession first, then one representative per claim and
applicability, then the kind's own rule among same-key claims.

The first consumer is the discovery projection.
-/

namespace CognitiveRuntime

open Ordered

/-! ## Preflight -/

def snapshotMaxItems : Nat := 256

def snapshotMaxBytes : Nat := 1048576

/-- `preflight_snapshot`: the item count is checked before anything is
canonicalized. -/
def preflightSnapshot (snapshot : SnapshotBuckets) : Except RuntimeError Unit :=
  if snapshot.itemCount > snapshotMaxItems then
    invalidValue "context snapshot exceeds the maximum item count" "context_snapshot"
      (.obj [("items", .int snapshot.itemCount), ("max_items", .int snapshotMaxItems)])
  else if snapshot.canonicalByteSize > snapshotMaxBytes then
    invalidValue "context snapshot exceeds the maximum canonical byte size" "context_snapshot"
      (.obj [("bytes", .int snapshot.canonicalByteSize), ("max_bytes", .int snapshotMaxBytes)])
  else .ok ()

/-- The input ceilings hold. -/
def WithinCeilings (snapshot : SnapshotBuckets) : Prop :=
  snapshot.itemCount ≤ snapshotMaxItems ∧ snapshot.canonicalByteSize ≤ snapshotMaxBytes

theorem preflightSnapshot_ok_iff {snapshot : SnapshotBuckets} :
    preflightSnapshot snapshot = .ok () ↔ WithinCeilings snapshot := by
  unfold preflightSnapshot WithinCeilings invalidValue
  split
  · rename_i h
    simp only [reduceCtorEq, false_iff]
    omega
  · split
    · simp only [reduceCtorEq, false_iff]
      omega
    · simp only [true_iff]
      omega

/-! ## Same-key resolution -/

/-- The outcome of resolving one `(kind, semantic_key)` group. -/
structure GroupResolution where
  items : List ContextItem
  conflict : Bool
  details : List (String × Json)
  sources : List ContextItem
  deriving DecidableEq

namespace GroupResolution

/-- A group that resolves to the given items. -/
def settled (items : List ContextItem) : GroupResolution :=
  { items := items, conflict := false, details := [], sources := [] }

/-- A group that contradicts itself. -/
def conflicting (details : List (String × Json)) (sources : List ContextItem) :
    GroupResolution :=
  { items := [], conflict := true, details := details, sources := sources }

end GroupResolution

/-- The key of `_representative`: strongest authority, then a present
coordinate, then coordinate, content digest and item id. -/
def representativeKey (item : ContextItem) : Nat ×ₗ Nat ×ₗ String ×ₗ String ×ₗ String :=
  toLex (item.authorityRank, toLex (if isSet item.sourceRef.immutableCoordinate then 0 else 1,
    toLex (orEmpty item.sourceRef.immutableCoordinate,
      toLex (orEmpty item.sourceRef.contentDigest, item.itemId))))

def representative (items : List ContextItem) : Option ContextItem :=
  minBy representativeKey items

/-- The least rank of a list, `best` of `_strongest`. -/
def bestRank (items : List ContextItem) : Nat :=
  ((minBy ContextItem.authorityRank items).map ContextItem.authorityRank).getD 0

def strongest (items : List ContextItem) : List ContextItem :=
  items.filter fun item => item.authorityRank = bestRank items

/-- `_resolve_by_authority`: the one strongest claim, or a conflict. -/
def resolveByAuthority (reps : List ContextItem) : GroupResolution :=
  match strongest reps with
  | [item] => .settled [item]
  | top => .conflicting
      [("authority_level", .str ((top.head?.map fun item => item.authorityLevel.value).getD "")),
        ("claims", .int top.length)] reps

/-- The declared precedence of a law. -/
def lawPrecedence (item : ContextItem) : Option Nat :=
  item.applicableLaw?.bind ApplicableLaw.precedence

/-- The numerically first of a list of laws that all declare precedence. -/
def firstByPrecedence (reps : List ContextItem) : List ContextItem :=
  let best := (minBy (fun item => (lawPrecedence item).getD 0) reps).bind lawPrecedence
  reps.filter fun item => lawPrecedence item = best

/-- `_resolve_law`: declared numeric precedence outranks authority. -/
def resolveLaw (reps : List ContextItem) : GroupResolution :=
  match reps with
  | [item] => .settled [item]
  | _ =>
    if reps ≠ [] ∧ reps.all fun item => (lawPrecedence item).isSome then
      match firstByPrecedence reps with
      | [item] => .settled [item]
      | top => resolveByAuthority top
    else resolveByAuthority reps

/-- `str(version)` of an optional version. -/
def versionText (version : Option String) : String := version.getD "None"

/-- `_resolve_group`: the kind's domain rule for competing same-key claims. -/
def resolveGroup (kind : ContextKind) (reps : List ContextItem) : GroupResolution :=
  match reps with
  | [item] => .settled [item]
  | _ =>
    match kind with
    | .evidenceRef | .memoryContext => .settled (sortedBy ContextItem.sortKey reps)
    | .applicableLaw => resolveLaw reps
    | .repositoryState =>
      let revisions := sortedUnique (reps.filterMap ContextItem.revision?)
      if revisions.length > 1 then
        -- differing revision coordinates do not imply recency
        .conflicting [("revisions", .ofStrings revisions)] reps
      else resolveByAuthority reps
    | .dependencyContext =>
      let versions := firstSeen
        ((reps.filterMap ContextItem.dependencyContext?).map DependencyContext.versionOrRevision)
      if versions.length > 1 then
        .conflicting [("versions", .ofStrings (sortedBy id (versions.map versionText)))] reps
      else resolveByAuthority reps
    | _ => resolveByAuthority reps

/-! ## Resolving one eligible candidate list -/

/-- The outcome of resolving one eligible candidate list. -/
structure ResolvedCandidates where
  groups : List ((ContextKind × String) × GroupResolution)
  supersessionUnknowns : List ContextUnknown
  deriving DecidableEq

/-- The key of a group: kind and semantic key. -/
def groupKey (item : ContextItem) : ContextKind × String := (item.contextKind, item.semanticKey)

section Resolve

variable [Sha256]

/-- `_claim_digest_payload`: what is claimed and where it applies. -/
def claimDigestPayload (item : ContextItem) : Json :=
  .obj [("claim", item.claimPayload), ("applicability", item.applicabilityPayload)]

def claimDigest (item : ContextItem) : String := sha256Digest (claimDigestPayload item)

/-- One representative per claim and applicability, in canonical order. -/
def representatives (members : List ContextItem) : List ContextItem :=
  sortedBy ContextItem.sortKey
    ((groupBy claimDigest members).filterMap fun entry => representative entry.2)

/-- `_resolve_candidates`. -/
def resolveCandidates (items : List ContextItem) : ResolvedCandidates :=
  let resolved := applySupersession items
  { groups := (groupBy groupKey resolved.1).map fun entry =>
      (entry.1, resolveGroup entry.1.1 (representatives entry.2))
    supersessionUnknowns := resolved.2 }

/-- `sorted(view.groups.items())`. -/
def ResolvedCandidates.sortedGroups (view : ResolvedCandidates) :
    List ((ContextKind × String) × GroupResolution) :=
  sortedBy (fun entry => toLex (entry.1.1.value, entry.1.2)) view.groups

/-- The normalized snapshot candidates, with resolution deferred. -/
structure SnapshotResolution where
  candidates : List ContextItem

/-- `SnapshotResolution.resolve`: over exactly the candidates admitted. -/
def SnapshotResolution.resolve (resolution : SnapshotResolution)
    (eligible : ContextItem → Bool) : ResolvedCandidates :=
  resolveCandidates (resolution.candidates.filter eligible)

def resolveSnapshot (snapshot : SnapshotBuckets) : SnapshotResolution where
  candidates := sortedBy ContextItem.sortKey snapshot.allItems

end Resolve

/-! ## Discovery -/

/-- `DISCOVERY_KINDS`: memory is absent by construction. -/
def discoveryKinds : List ContextKind :=
  [.relevantEntity, .repositoryState, .architectureConstraint, .applicableLaw,
    .dependencyContext]

def discoveryScopeMatch (item : ContextItem) (scopedRefs : List String) : Bool :=
  match item.scopeMode with
  | .global => true
  | .scoped => item.scopeRefs.any (· ∈ scopedRefs)

/-- `discovery_eligible`: only governed facts of a discovery kind, in scope. -/
def discoveryEligible (scopedRefs : List String) (item : ContextItem) : Bool :=
  decide (item.contextKind ∈ discoveryKinds) && item.isGoverned
    && discoveryScopeMatch item scopedRefs

section Discovery

variable [Sha256]

/-- The groups discovery walks: kinds in discovery order, keys sorted. -/
def discoveryGroups (view : ResolvedCandidates) :
    List ((ContextKind × String) × GroupResolution) :=
  discoveryKinds.flatMap fun kind => view.sortedGroups.filter fun entry => entry.1.1 = kind

/-- The conflict unknown of one discovery group. -/
def discoveryConflict (entry : (ContextKind × String) × GroupResolution) : ContextUnknown :=
  .create none (some entry.1.2) .conflictingGovernedClaims
    (("context_kind", .str entry.1.1.value) :: entry.2.details) .nonBlocking
    (entry.2.sources.map ContextItem.sourceRef)

/-- The items discovery routes from. -/
def discoveryItems (view : ResolvedCandidates) : List ContextItem :=
  ((discoveryGroups view).filter fun entry => !entry.2.conflict).flatMap fun entry =>
    entry.2.items

/-- `ContextDiscoveryCompiler.compile`. -/
def discover (scope : TaskScope) (resolution : SnapshotResolution) : DiscoveryContext :=
  let view := resolution.resolve (discoveryEligible scope.eligibleRefs)
  let items := discoveryItems view
  { taskScopeDigest := scope.sha256
    routingFactRefs := sortedUnique (items.map ContextItem.itemId)
    architectureSignalRefs := sortedUnique (items.filterMap fun item =>
      item.architectureConstraint?.map GovernedConstraint.constraintId)
    unresolvedUnknowns := dedupeUnknowns (view.supersessionUnknowns ++
      ((discoveryGroups view).filter fun entry => entry.2.conflict).map discoveryConflict)
    selectedItemDigests := dictOf (items.map fun item => (item.itemId, item.candidateDigest)) }

end Discovery

end CognitiveRuntime
