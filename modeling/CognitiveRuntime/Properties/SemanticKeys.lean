import CognitiveRuntime.Data.Separated
import CognitiveRuntime.Models.Plan

/-!
# What a semantic key identifies

The recipes of entities, repository facts, dependencies and authorities
join free texts with `:`. Two items get one key exactly when their joined
fields spell the same pieces, so a key identifies the fields of its
recipe up to where the separators fall in them.
-/

namespace CognitiveRuntime

open Ordered Separated

/-- The fields an authority key joins. -/
def authorityFields (authorityId : String) (subjectRef : Option String)
    (actionScope : List String) : List String :=
  [authorityId, orEmpty subjectRef, String.intercalate "," (sortedUnique actionScope)]

/-- The fields the recipe of a claim joins. -/
def Claim.keyFields : Claim → List String
  | .relevantEntity c => [c.entityType, c.entityId]
  | .repositoryState c => [c.repositoryId, c.subjectRef, c.factType]
  | .dependencyContext c => [c.dependencyId, c.direction, c.relationship, c.targetRef]
  | .authorityFact c => authorityFields c.authorityId c.subjectRef c.actionScope
  | .architectureConstraint c => [c.constraintId]
  | .applicableLaw c => [c.lawId]
  | .priorDecision c => [c.decisionId]
  | .evidenceRef c => [c.evidenceId]
  | .memoryContext c => [c.memoryId]
  | .capabilityFact c => [c.capabilityId]

theorem Claim.keyFields_ne_nil (c : Claim) : c.keyFields ≠ [] := by
  cases c <;> exact List.cons_ne_nil _ _

theorem authoritySemanticKey_eq (authorityId : String) (subjectRef : Option String)
    (actionScope : List String) :
    authoritySemanticKey authorityId subjectRef actionScope
      = joined ':' (authorityFields authorityId subjectRef actionScope) := by
  have hcolon : String.singleton ':' = ":" := by decide
  simp only [authoritySemanticKey, authorityFields, joined, hcolon, String.append_assoc]

theorem Claim.expectedSemanticKey_eq (c : Claim) : c.expectedSemanticKey = joined ':' c.keyFields := by
  have hcolon : String.singleton ':' = ":" := by decide
  cases c with
  | authorityFact c => exact authoritySemanticKey_eq _ _ _
  | _ => simp only [Claim.expectedSemanticKey, Claim.keyFields, joined, hcolon,
      String.append_assoc]

/-- The fields of the recipe agree: for an authority, the presence and
the value of the subject, and the canonical actions. -/
def Claim.SameKeyFields : Claim → Claim → Prop
  | .authorityFact c, .authorityFact c' =>
      c.authorityId = c'.authorityId ∧ c.subjectRef = c'.subjectRef
        ∧ sortedUnique c.actionScope = sortedUnique c'.actionScope
  | c, c' => c.keyFields = c'.keyFields

theorem Claim.SameKeyFields.keyFields_eq {c c' : Claim} (h : c.SameKeyFields c') :
    c.keyFields = c'.keyFields := by
  unfold Claim.SameKeyFields at h
  split at h
  · next f f' =>
      obtain ⟨hid, hsubject, hactions⟩ := h
      simp only [Claim.keyFields, authorityFields, hid, hsubject, hactions]
  · exact h

/-- Different fields whose texts, cut at every `:`, spell the same
pieces. -/
def Claim.Redivided (c c' : Claim) : Prop :=
  ¬ c.SameKeyFields c' ∧ SamePieces ':' c.keyFields c'.keyFields

/-- The fields of an authority requirement's key. -/
def AuthorityRequirement.SameKeyFields (r r' : AuthorityRequirement) : Prop :=
  r.authorityId = r'.authorityId ∧ r.subjectRef = r'.subjectRef
    ∧ sortedUnique r.actionScope = sortedUnique r'.actionScope

def AuthorityRequirement.keyFields (r : AuthorityRequirement) : List String :=
  authorityFields r.authorityId r.subjectRef r.actionScope

def AuthorityRequirement.Redivided (r r' : AuthorityRequirement) : Prop :=
  ¬ r.SameKeyFields r' ∧ SamePieces ':' r.keyFields r'.keyFields

theorem Claim.expectedSemanticKey_eq_iff (c c' : Claim) :
    c.expectedSemanticKey = c'.expectedSemanticKey ↔ SamePieces ':' c.keyFields c'.keyFields := by
  rw [c.expectedSemanticKey_eq, c'.expectedSemanticKey_eq]
  exact joined_eq_iff c.keyFields_ne_nil c'.keyFields_ne_nil

theorem AuthorityRequirement.semanticKey_eq_iff (r r' : AuthorityRequirement) :
    r.semanticKey = r'.semanticKey ↔ SamePieces ':' r.keyFields r'.keyFields := by
  unfold AuthorityRequirement.semanticKey
  rw [authoritySemanticKey_eq, authoritySemanticKey_eq]
  exact joined_eq_iff (List.cons_ne_nil _ _) (List.cons_ne_nil _ _)

/-- A key that follows from the fields identifies them exactly when no
other fields give it. -/
theorem identifies_iff {key fields : Prop} (h : fields → key) :
    (key ↔ fields) ↔ ¬ (¬ fields ∧ key) := by
  constructor
  · rintro hiff ⟨hfields, hkey⟩
    exact hfields (hiff.mp hkey)
  · intro hnone
    exact ⟨fun hkey => by_contra fun hfields => hnone ⟨hfields, hkey⟩, h⟩

/-- Of two items, and of two authority requirements, the keys agree just
when the fields of the recipe do, unless one's fields are the other's
divided differently. -/
theorem semantic_keys_identify_iff [Sha256] :
    (∀ a b : ContextItem, a.Valid → b.Valid →
      ((a.semanticKey = b.semanticKey ↔ a.claim.SameKeyFields b.claim)
        ↔ ¬ a.claim.Redivided b.claim))
    ∧ ∀ r r' : AuthorityRequirement,
      ((r.semanticKey = r'.semanticKey ↔ r.SameKeyFields r') ↔ ¬ r.Redivided r') := by
  refine ⟨?_, ?_⟩
  · intro a b ha hb
    rw [ha.key_recipe, hb.key_recipe, Claim.expectedSemanticKey_eq_iff]
    refine identifies_iff fun hfields => ?_
    rw [hfields.keyFields_eq]
    rfl
  · intro r r'
    rw [AuthorityRequirement.semanticKey_eq_iff]
    refine identifies_iff fun hfields => ?_
    obtain ⟨hid, hsubject, hactions⟩ := hfields
    unfold AuthorityRequirement.keyFields authorityFields
    rw [hid, hsubject, hactions]
    rfl

section Gateways

attribute [local instance] Sha256.transparent

/-- An entity of a registry, by its type and id. -/
def registryEntity (entityType entityId : String) : ContextItem :=
  .create .informative
    { sourceId := "registry", sourceKind := "catalog", locator := "entities"
      immutableCoordinate := none, contentDigest := none }
    .global []
    (.relevantEntity { entityId := entityId, entityType := entityType
                       relationToTask := "named by the task" })

theorem registryEntity_valid {entityType entityId : String}
    (h : isBlank (entityType ++ ":" ++ entityId) = false) :
    (registryEntity entityType entityId).Valid :=
  ContextItem.create_valid (by decide) h (by decide) trivial (by decide) fun hkind => by
    cases hkind

/-- The gateway of an api service and the api gateway of a service share
a key. -/
theorem gateway_keys_collide :
    ¬ ∀ a b : ContextItem, a.Valid → b.Valid → a.contextKind = b.contextKind →
      (a.semanticKey = b.semanticKey ↔ a.claim.SameKeyFields b.claim) := by
  intro h
  have hgateway : (registryEntity "service:api" "gateway").Valid :=
    registryEntity_valid (by decide)
  have hapi : (registryEntity "service" "api:gateway").Valid := registryEntity_valid (by decide)
  have hkey : (registryEntity "service:api" "gateway").semanticKey
      = (registryEntity "service" "api:gateway").semanticKey := by
    show "service:api" ++ ":" ++ "gateway" = "service" ++ ":" ++ "api:gateway"
    decide
  have hfields : ¬ (registryEntity "service:api" "gateway").claim.SameKeyFields
      (registryEntity "service" "api:gateway").claim := by
    show ¬ (["service:api", "gateway"] : List String) = ["service", "api:gateway"]
    decide
  have hkind : ∀ entityType entityId, (registryEntity entityType entityId).contextKind
      = .relevantEntity := fun _ _ => rfl
  exact hfields ((h _ _ hgateway hapi ((hkind _ _).trans (hkind _ _).symm)).mp hkey)

/-- The fields of two gateways are not each other's divided differently,
and their keys tell the gateways apart. -/
theorem registry_keys_identify :
    ¬ (registryEntity "service" "gateway").claim.Redivided (registryEntity "team" "gateway").claim
      ∧ ((registryEntity "service" "gateway").semanticKey
          = (registryEntity "team" "gateway").semanticKey
        ↔ (registryEntity "service" "gateway").claim.SameKeyFields
          (registryEntity "team" "gateway").claim)
      ∧ (registryEntity "service" "gateway").semanticKey
        ≠ (registryEntity "team" "gateway").semanticKey := by
  have hkeys : (registryEntity "service" "gateway").semanticKey
      ≠ (registryEntity "team" "gateway").semanticKey := by
    show "service" ++ ":" ++ "gateway" ≠ "team" ++ ":" ++ "gateway"
    decide
  have hdivided : ¬ (registryEntity "service" "gateway").claim.Redivided
      (registryEntity "team" "gateway").claim := fun h =>
    hkeys ((Claim.expectedSemanticKey_eq_iff _ _).mpr h.2)
  exact ⟨hdivided, (semantic_keys_identify_iff.1 (registryEntity "service" "gateway")
    (registryEntity "team" "gateway") (registryEntity_valid (by decide))
    (registryEntity_valid (by decide))).mpr hdivided, hkeys⟩

end Gateways

/-- Recipes of one kind join equally many fields. -/
theorem Claim.length_keyFields {c c' : Claim} (h : c.kind = c'.kind) :
    c.keyFields.length = c'.keyFields.length := by
  cases c <;> cases c' <;> first | rfl | cases h

/-- Items of one kind are told apart by their keys when no joined field
but the last holds a `:`; an authority's key tells apart the joined
fields then. -/
theorem Claim.keyFields_eq_of_free {c c' : Claim} (hkind : c.kind = c'.kind)
    (hfree : ∀ field ∈ c.keyFields.dropLast, ':' ∉ field.toList)
    (hfree' : ∀ field ∈ c'.keyFields.dropLast, ':' ∉ field.toList)
    (hkey : c.expectedSemanticKey = c'.expectedSemanticKey) : c.keyFields = c'.keyFields := by
  have hpieces := (Claim.expectedSemanticKey_eq_iff c c').mp hkey
  have hlength := Claim.length_keyFields hkind
  rw [← List.dropLast_append_getLast c.keyFields_ne_nil,
    ← List.dropLast_append_getLast c'.keyFields_ne_nil] at hpieces ⊢
  refine eq_of_samePieces ?_ hfree hfree' hpieces
  rw [List.length_dropLast, List.length_dropLast, hlength]

end CognitiveRuntime
