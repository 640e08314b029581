import CognitiveRuntime.Models.Canonical
import CognitiveRuntime.Models.FromMapping

/-!
# Reading a snapshot from a mapping

`ContextSnapshot.from_mapping`: ten buckets of candidates, each candidate
with the shared identity fields and those of its own class. The
validators canonicalize reference lists and derive the item id, or check
the one that is given.

What is read is a valid snapshot, and a snapshot is read back from the
document it serializes to.

How lax validation turns a float or a string into an integer, and how a
message quotes a string, are parameters. A free-form value is kept in its
normal form: dictionaries have no order.
-/

namespace CognitiveRuntime

open Ordered Fallible

/-- Lax integers, and the `repr` of a string. -/
class LaxInput where
  intOfFloat : String → Option Int
  intOfString : String → Option Int
  repr : String → String

/-- No lax integers, and quotes around plain text. -/
abbrev LaxInput.strict : LaxInput where
  intOfFloat _ := none
  intOfString _ := none
  repr s := "'" ++ s ++ "'"

/-! ## Validators -/

section Validators

variable {α : Type}

/-- A validator that raises `ValueError(message)`. -/
def valueError (message : String) : FieldError := ⟨"value_error", "Value error, " ++ message, []⟩

/-- `_non_empty`, behind the type of the field. -/
def readNonEmpty : Reader String := fun j => do
  let s ← readString j
  ensure (!isBlank s) (valueError "must be non-empty")
  .ok s

/-- `_canonical_refs`: sorted, unique. -/
def readRefs : Reader (List String) := fun j => do
  let refs ← readList readString j
  .ok (sortedUnique refs)

/-- The values of an enumeration, as a message lists them. -/
def choices : List String → String
  | [] => ""
  | [v] => "'" ++ v ++ "'"
  | [v, w] => "'" ++ v ++ "' or '" ++ w ++ "'"
  | v :: rest => "'" ++ v ++ "', " ++ choices rest

/-- A member of an enumeration by its value. -/
def readEnum (type : String) (members : List α) (value : α → String) : Reader α
  | .str s => require (members.find? fun a => value a = s)
      ⟨type, "Input should be " ++ choices (members.map value), []⟩
  | _ => .error ⟨type, "Input should be " ++ choices (members.map value), []⟩

variable [LaxInput]

def readInt : Reader Int
  | .int i => .ok i
  | .bool b => .ok (if b then 1 else 0)
  | .float f => require (LaxInput.intOfFloat f.text) ⟨"int_from_float",
      "Input should be a valid integer, got a number with a fractional part", []⟩
  | .str s => require (LaxInput.intOfString s) ⟨"int_parsing",
      "Input should be a valid integer, unable to parse string as an integer", []⟩
  | _ => .error ⟨"int_type", "Input should be a valid integer", []⟩

/-- `precedence: int | None`, with `_non_negative`. -/
def readPrecedence : Reader (Option Nat)
  | .null => .ok none
  | j => do
    let i ← readInt j
    ensure (decide (0 ≤ i)) (valueError "precedence must be non-negative")
    .ok (some i.toNat)

end Validators

/-- `value: Any`. -/
def readAny : Reader Json := fun j => .ok j.normalize

def readDecisionStatus : Reader DecisionStatus :=
  readEnum "enum" [.active, .superseded, .unknown] DecisionStatus.value

def readAuthorityLevel : Reader AuthorityLevel :=
  readEnum "enum" AuthorityLevel.all AuthorityLevel.value

def readScopeMode : Reader ContextScopeMode :=
  readEnum "enum" [.scoped, .global] ContextScopeMode.value

def readCapabilityState : Reader CapabilityState :=
  readEnum "literal_error" [.available, .unavailable, .unknown] CapabilityState.value

def readAuthorityState : Reader AuthorityState :=
  readEnum "literal_error" [.granted, .limit, .unknown] AuthorityState.value

/-- `ContextSourceRef`. -/
def ContextSourceRef.read : Reader ContextSourceRef :=
  readModel "ContextSourceRef" fun entries => do
    let sourceId ← requiredField ["source_id"] readNonEmpty entries
    let sourceKind ← requiredField ["source_kind"] readNonEmpty entries
    let locator ← requiredField ["locator"] readNonEmpty entries
    let immutableCoordinate ← defaultedField "immutable_coordinate" readOption none entries
    let contentDigest ← defaultedField "content_digest" readOption none entries
    forbidExtra [["source_id"], ["source_kind"], ["locator"], ["immutable_coordinate"],
      ["content_digest"]] entries
    .ok { sourceId, sourceKind, locator, immutableCoordinate, contentDigest }

/-! ## The item classes -/

/-- A class of context items: its name, its kind, the member its kind is
the literal of, and its own fields with their reader. -/
structure ItemClass where
  name : String
  kind : ContextKind
  literal : String
  fields : List String
  readClaim : Entries → Except FieldError Claim

def entityContextClass : ItemClass where
  name := "EntityContext"
  kind := .relevantEntity
  literal := "RELEVANT_ENTITY"
  fields := ["entity_id", "entity_type", "relation_to_task"]
  readClaim entries := do
    let entityId ← requiredField ["entity_id"] readString entries
    let entityType ← requiredField ["entity_type"] readString entries
    let relationToTask ← requiredField ["relation_to_task"] readString entries
    .ok (.relevantEntity { entityId, entityType, relationToTask })

def repositoryStateClass : ItemClass where
  name := "RepositoryState"
  kind := .repositoryState
  literal := "REPOSITORY_STATE"
  fields := ["repository_id", "revision", "subject_ref", "fact_type", "value"]
  readClaim entries := do
    let repositoryId ← requiredField ["repository_id"] readString entries
    let revision ← requiredField ["revision"] readNonEmpty entries
    let subjectRef ← requiredField ["subject_ref"] readNonEmpty entries
    let factType ← requiredField ["fact_type"] readNonEmpty entries
    let value ← defaultedField "value" readAny .null entries
    .ok (.repositoryState { repositoryId, revision, subjectRef, factType, value })

def governedConstraintClass : ItemClass where
  name := "GovernedConstraint"
  kind := .architectureConstraint
  literal := "ARCHITECTURE_CONSTRAINT"
  fields := ["constraint_id", "statement", "applies_because", "evidence_refs"]
  readClaim entries := do
    let constraintId ← requiredField ["constraint_id"] readString entries
    let statement ← requiredField ["statement"] readString entries
    let appliesBecause ← defaultedField "applies_because" (readList readString) [] entries
    let evidenceRefs ← defaultedField "evidence_refs" (readList readString) [] entries
    .ok (.architectureConstraint { constraintId, statement, appliesBecause, evidenceRefs })

def applicableLawClass [LaxInput] : ItemClass where
  name := "ApplicableLaw"
  kind := .applicableLaw
  literal := "APPLICABLE_LAW"
  fields := ["law_id", "statement", "applies_because", "precedence", "supersedes_refs"]
  readClaim entries := do
    let lawId ← requiredField ["law_id"] readString entries
    let statement ← requiredField ["statement"] readString entries
    let appliesBecause ← defaultedField "applies_because" (readList readString) [] entries
    let precedence ← defaultedField "precedence" readPrecedence none entries
    let supersedesRefs ← defaultedField "supersedes_refs" (readList readString) [] entries
    .ok (.applicableLaw { lawId, statement, appliesBecause, precedence, supersedesRefs })

def priorDecisionClass : ItemClass where
  name := "PriorDecision"
  kind := .priorDecision
  literal := "PRIOR_DECISION"
  fields := ["decision_id", "status", "statement", "supersedes_refs", "superseded_by_refs"]
  readClaim entries := do
    let decisionId ← requiredField ["decision_id"] readString entries
    let status ← requiredField ["status"] readDecisionStatus entries
    let statement ← requiredField ["statement"] readString entries
    let supersedesRefs ← defaultedField "supersedes_refs" (readList readString) [] entries
    let supersededByRefs ← defaultedField "superseded_by_refs" (readList readString) [] entries
    .ok (.priorDecision { decisionId, status, statement, supersedesRefs, supersededByRefs })

def dependencyContextClass : ItemClass where
  name := "DependencyContext"
  kind := .dependencyContext
  literal := "DEPENDENCY_CONTEXT"
  fields := ["dependency_id", "relationship", "direction", "target_ref", "version_or_revision"]
  readClaim entries := do
    let dependencyId ← requiredField ["dependency_id"] readString entries
    let relationship ← requiredField ["relationship"] readString entries
    let direction ← requiredField ["direction"] readString entries
    let targetRef ← requiredField ["target_ref"] readString entries
    let versionOrRevision ← defaultedField "version_or_revision" readOption none entries
    .ok (.dependencyContext
      { dependencyId, relationship, direction, targetRef, versionOrRevision })

def evidenceRefClass : ItemClass where
  name := "EvidenceRef"
  kind := .evidenceRef
  literal := "EVIDENCE_REF"
  fields := ["evidence_id", "evidence_type", "supports_semantic_keys", "digest"]
  readClaim entries := do
    let evidenceId ← requiredField ["evidence_id"] readString entries
    let evidenceType ← requiredField ["evidence_type"] readString entries
    let supportsSemanticKeys ←
      defaultedField "supports_semantic_keys" (readList readString) [] entries
    let digest ← defaultedField "digest" readOption none entries
    .ok (.evidenceRef { evidenceId, evidenceType, supportsSemanticKeys, digest })

def memoryContextClass : ItemClass where
  name := "MemoryContext"
  kind := .memoryContext
  literal := "MEMORY_CONTEXT"
  fields := ["memory_id", "memory_kind", "content", "relevance_reason"]
  readClaim entries := do
    let memoryId ← requiredField ["memory_id"] readString entries
    let memoryKind ← requiredField ["memory_kind"] readString entries
    let content ← defaultedField "content" readAny .null entries
    let relevanceReason ← defaultedField "relevance_reason" readString "" entries
    .ok (.memoryContext { memoryId, memoryKind, content, relevanceReason })

def capabilityFactClass : ItemClass where
  name := "CapabilityFact"
  kind := .capabilityFact
  literal := "CAPABILITY_FACT"
  fields := ["capability_id", "state", "evidence_refs"]
  readClaim entries := do
    let capabilityId ← requiredField ["capability_id"] readString entries
    let state ← requiredField ["state"] readCapabilityState entries
    let evidenceRefs ← defaultedField "evidence_refs" (readList readString) [] entries
    .ok (.capabilityFact { capabilityId, state, evidenceRefs })

def authorityFactClass [LaxInput] : ItemClass where
  name := "AuthorityFact"
  kind := .authorityFact
  literal := "AUTHORITY_FACT"
  fields := ["authority_id", "state", "subject_ref", "action_scope", "precedence"]
  readClaim entries := do
    let authorityId ← requiredField ["authority_id"] readString entries
    let state ← requiredField ["state"] readAuthorityState entries
    let subjectRef ← defaultedField "subject_ref" readOption none entries
    let actionScope ← defaultedField "action_scope" readRefs [] entries
    let precedence ← defaultedField "precedence" readPrecedence none entries
    .ok (.authorityFact { authorityId, state, subjectRef, actionScope, precedence })

/-! ## Items -/

section Items

variable [LaxInput]

/-- `context_kind: Literal[...]`: the class's own kind, also by default. -/
def ItemClass.readKind (c : ItemClass) : Reader Unit
  | .str s => ensure (s = c.kind.value) ⟨"literal_error",
      "Input should be <ContextKind." ++ c.literal ++ ": '" ++ c.kind.value ++ "'>", []⟩
  | _ => .error ⟨"literal_error",
      "Input should be <ContextKind." ++ c.literal ++ ": '" ++ c.kind.value ++ "'>", []⟩

/-- `_validate_identity`, and for memory `_authority_ceiling` after it. -/
def validateIdentity [Sha256] (item : ContextItem) : Except FieldError ContextItem := do
  ensure (!(decide (item.scopeMode = .scoped) && item.scopeRefs.isEmpty))
    (valueError "scoped context item requires non-empty scope_refs")
  ensure (!(decide (item.scopeMode = .global) && !item.scopeRefs.isEmpty))
    (valueError "global context item requires empty scope_refs")
  ensure (item.semanticKey = item.claim.expectedSemanticKey)
    (valueError ("semantic_key must equal the " ++ item.contextKind.value ++ " recipe: "
      ++ LaxInput.repr item.claim.expectedSemanticKey))
  ensure (!(item.isGoverned && !item.sourceRef.hasImmutableProvenance))
    (valueError "governed context item requires an immutable_coordinate or content_digest")
  ensure (item.itemId = "" || item.itemId = item.expectedItemId)
    (valueError ("item_id must equal the canonical ctxitem recipe over "
      ++ "(context_kind, semantic_key, claim, source identity)"))
  ensure (!(decide (item.contextKind = .memoryContext) && item.isGoverned))
    (valueError "memory_context authority is ceilinged at informative")
  .ok { item with itemId := item.expectedItemId }

/-- The fields every item class shares. -/
def itemFields : List String :=
  ["item_id", "semantic_key", "context_kind", "authority_level", "source_ref", "scope_mode",
    "scope_refs", "selected_because"]

/-- `model_validate` of an item class. -/
def ItemClass.read [Sha256] (c : ItemClass) : Reader ContextItem :=
  readModel c.name fun entries => do
    let itemId ← defaultedField "item_id" readString "" entries
    let semanticKey ← requiredField ["semantic_key"] readNonEmpty entries
    defaultedField "context_kind" c.readKind () entries
    let authorityLevel ← requiredField ["authority_level"] readAuthorityLevel entries
    let sourceRef ← requiredField ["source_ref"] ContextSourceRef.read entries
    let scopeMode ← requiredField ["scope_mode"] readScopeMode entries
    let scopeRefs ← defaultedField "scope_refs" readRefs [] entries
    let selectedBecause ← defaultedField "selected_because" readRefs [] entries
    let claim ← c.readClaim entries
    forbidExtra ((itemFields ++ c.fields).map fun field => [field]) entries
    validateIdentity { itemId, semanticKey, authorityLevel, sourceRef, scopeMode, scopeRefs,
                       selectedBecause, claim }

/-- `model_validate` of a snapshot, `_candidates_carry_no_selection`
included. -/
def SnapshotBuckets.read [Sha256] : Reader SnapshotBuckets :=
  readModel "ContextSnapshot" fun entries => do
    let relevantEntities ←
      defaultedField "relevant_entities" (readList entityContextClass.read) [] entries
    let repositoryState ←
      defaultedField "repository_state" (readList repositoryStateClass.read) [] entries
    let architectureConstraints ←
      defaultedField "architecture_constraints" (readList governedConstraintClass.read) [] entries
    let applicableLaw ←
      defaultedField "applicable_law" (readList applicableLawClass.read) [] entries
    let priorDecisions ←
      defaultedField "prior_decisions" (readList priorDecisionClass.read) [] entries
    let dependencyContext ←
      defaultedField "dependency_context" (readList dependencyContextClass.read) [] entries
    let evidenceRefs ←
      defaultedField "evidence_refs" (readList evidenceRefClass.read) [] entries
    let memoryContext ←
      defaultedField "memory_context" (readList memoryContextClass.read) [] entries
    let capabilityFacts ←
      defaultedField "capability_facts" (readList capabilityFactClass.read) [] entries
    let authorityFacts ←
      defaultedField "authority_facts" (readList authorityFactClass.read) [] entries
    forbidExtra (SnapshotBuckets.empty.named.map fun bucket => [bucket.1]) entries
    let buckets : SnapshotBuckets :=
      { relevantEntities, repositoryState, architectureConstraints, applicableLaw,
        priorDecisions, dependencyContext, evidenceRefs, memoryContext, capabilityFacts,
        authorityFacts }
    ensure (buckets.allItems.all fun item => item.selectedBecause.isEmpty)
      (valueError ("snapshot candidate must not supply selected_because; "
        ++ "selection lineage is compiler-generated"))
    .ok buckets

end Items

/-! ## What the field readers establish -/

section Fields

variable {α : Type}

theorem readNonEmpty_eq_ok {j : Json} {s : String} :
    readNonEmpty j = .ok s ↔ j = .str s ∧ isBlank s = false := by
  unfold readNonEmpty
  simp only [bind_eq_ok, readString_eq_ok, ensure_eq_ok]
  constructor
  · rintro ⟨t, rfl, _, hblank, h⟩
    obtain rfl := Except.ok.inj h
    exact ⟨rfl, by simpa using hblank⟩
  · rintro ⟨rfl, hblank⟩
    exact ⟨s, rfl, (), by simp [hblank], rfl⟩

theorem readRefs_canonical {j : Json} {refs : List String} (h : readRefs j = .ok refs) :
    sortedUnique refs = refs := by
  unfold readRefs at h
  simp only [bind_eq_ok] at h
  obtain ⟨l, -, h⟩ := h
  obtain rfl := Except.ok.inj h
  exact sortedUnique_idem l

theorem readRefs_ofStrings {refs : List String} (h : sortedUnique refs = refs) :
    readRefs (.ofStrings refs) = .ok refs := by
  unfold readRefs
  rw [readList_ofStrings, ok_bind, h]

theorem readAny_of_canonical {j : Json} (h : j.Canonical) : readAny j = .ok j :=
  congrArg Except.ok h

theorem readAny_canonical {j v : Json} (h : readAny j = .ok v) : v.Canonical := by
  obtain rfl := Except.ok.inj h
  exact Json.normalize_idem j

theorem readPrecedence_ofPrecedence [LaxInput] (o : Option Nat) :
    readPrecedence (Claim.ofPrecedence o) = .ok o := by
  cases o with
  | none => rfl
  | some n => simp [Claim.ofPrecedence, readPrecedence, readInt, ok_bind, ensure]

theorem readDecisionStatus_value (status : DecisionStatus) :
    readDecisionStatus (.str status.value) = .ok status := by
  cases status <;> simp [readDecisionStatus, readEnum, DecisionStatus.value, require]

theorem readAuthorityLevel_value (level : AuthorityLevel) :
    readAuthorityLevel (.str level.value) = .ok level := by
  cases level <;>
    simp [readAuthorityLevel, readEnum, AuthorityLevel.all, AuthorityLevel.value, require]

theorem readScopeMode_value (mode : ContextScopeMode) :
    readScopeMode (.str mode.value) = .ok mode := by
  cases mode <;> simp [readScopeMode, readEnum, ContextScopeMode.value, require]

theorem readCapabilityState_value (state : CapabilityState) :
    readCapabilityState (.str state.value) = .ok state := by
  cases state <;> simp [readCapabilityState, readEnum, CapabilityState.value, require]

theorem readAuthorityState_value (state : AuthorityState) :
    readAuthorityState (.str state.value) = .ok state := by
  cases state <;> simp [readAuthorityState, readEnum, AuthorityState.value, require]

theorem requiredField_nonEmpty {key : String} {entries : Entries} {s : String}
    (h : requiredField [key] readNonEmpty entries = .ok s) : isBlank s = false := by
  obtain ⟨j, -, hj⟩ := field_of_required h
  exact (readNonEmpty_eq_ok.mp hj).2

/-- A field holds what was read, or its default. -/
theorem defaultedField_cases {key : String} {read : Reader α} {default : α} {entries : Entries}
    {a : α} (h : defaultedField key read default entries = .ok a) :
    (∃ j, Json.field key entries = some j ∧ read j = .ok a) ∨ a = default := by
  unfold defaultedField at h
  cases hfield : Json.field key entries with
  | none =>
      rw [hfield] at h
      exact .inr (Except.ok.inj h).symm
  | some j =>
      rw [hfield] at h
      exact .inl ⟨j, rfl, within_eq_ok.mp h⟩

theorem defaultedField_refs {key : String} {entries : Entries} {refs : List String}
    (h : defaultedField key readRefs [] entries = .ok refs) : sortedUnique refs = refs := by
  rcases defaultedField_cases h with ⟨j, -, hj⟩ | rfl
  · exact readRefs_canonical hj
  · rfl

theorem defaultedField_any {key : String} {entries : Entries} {v : Json}
    (h : defaultedField key readAny .null entries = .ok v) : v.Canonical := by
  rcases defaultedField_cases h with ⟨j, -, hj⟩ | rfl
  · exact readAny_canonical hj
  · rfl

theorem ContextSourceRef.read_ok {j : Json} {ref : ContextSourceRef}
    (h : ContextSourceRef.read j = .ok ref) :
    isBlank ref.sourceId = false ∧ isBlank ref.sourceKind = false
      ∧ isBlank ref.locator = false := by
  unfold ContextSourceRef.read at h
  obtain ⟨entries, rfl, hfields⟩ := readModel_eq_ok.mp h
  simp only [bind_eq_ok] at hfields
  obtain ⟨sourceId, hid, sourceKind, hkind, locator, hlocator, coordinate, -, digest, -, _, -,
    href⟩ := hfields
  obtain rfl := Except.ok.inj href
  exact ⟨requiredField_nonEmpty hid, requiredField_nonEmpty hkind,
    requiredField_nonEmpty hlocator⟩

theorem ContextSourceRef.read_identityPayload {ref : ContextSourceRef}
    (h : isBlank ref.sourceId = false ∧ isBlank ref.sourceKind = false
      ∧ isBlank ref.locator = false) :
    ContextSourceRef.read ref.identityPayload = .ok ref := by
  unfold ContextSourceRef.read ContextSourceRef.identityPayload readModel
  dsimp only
  rw [requiredField_of_field rfl (readNonEmpty_eq_ok.mpr ⟨rfl, h.1⟩), ok_bind,
    requiredField_of_field rfl (readNonEmpty_eq_ok.mpr ⟨rfl, h.2.1⟩), ok_bind,
    requiredField_of_field rfl (readNonEmpty_eq_ok.mpr ⟨rfl, h.2.2⟩), ok_bind,
    defaultedField_of_field rfl (readOption_ofOption _), ok_bind,
    defaultedField_of_field rfl (readOption_ofOption _), ok_bind,
    forbidExtra_of_declared (by simp), ok_bind]

end Fields

/-! ## The item classes read what they write -/

/-- The entries of the document of an item. -/
def ContextItem.entries (item : ContextItem) : Entries :=
  [("item_id", .str item.itemId), ("semantic_key", .str item.semanticKey),
    ("context_kind", .str item.contextKind.value),
    ("authority_level", .str item.authorityLevel.value),
    ("source_ref", item.sourceRef.identityPayload),
    ("scope_mode", .str item.scopeMode.value),
    ("scope_refs", .ofStrings item.scopeRefs),
    ("selected_because", .ofStrings item.selectedBecause)] ++ item.claim.payload

theorem ContextItem.toJson_eq (item : ContextItem) : item.toJson = .obj item.entries := rfl

/-- A class reads valid claims of its own kind, and exactly its own
fields of what such a claim writes. -/
structure ItemClass.Lawful (c : ItemClass) : Prop where
  sound : ∀ entries claim, c.readClaim entries = .ok claim → claim.kind = c.kind ∧ claim.Valid
  keys : ∀ claim : Claim, claim.kind = c.kind → claim.payload.map Prod.fst = c.fields
  reads : ∀ item : ContextItem, item.claim.kind = c.kind → item.claim.Valid →
    c.readClaim item.entries = .ok item.claim

theorem entityContextClass_lawful : entityContextClass.Lawful where
  sound := by
    intro entries claim h
    simp only [entityContextClass, bind_eq_ok] at h
    obtain ⟨_, -, _, -, _, -, h⟩ := h
    obtain rfl := Except.ok.inj h
    exact ⟨rfl, trivial⟩
  keys := by
    intro claim hkind
    cases claim with
    | relevantEntity c => rfl
    | _ => cases hkind
  reads := by
    rintro ⟨id, key, level, source, mode, refs, selected, claim⟩ hkind hvalid
    cases claim with
    | relevantEntity c =>
        dsimp only [entityContextClass]
        rw [requiredField_of_field rfl (readString_str _), ok_bind,
          requiredField_of_field rfl (readString_str _), ok_bind,
          requiredField_of_field rfl (readString_str _), ok_bind]
    | _ => cases hkind

theorem repositoryStateClass_lawful : repositoryStateClass.Lawful where
  sound := by
    intro entries claim h
    simp only [repositoryStateClass, bind_eq_ok] at h
    obtain ⟨_, -, _, hrevision, _, hsubject, _, hfact, _, hvalue, h⟩ := h
    obtain rfl := Except.ok.inj h
    exact ⟨rfl, requiredField_nonEmpty hrevision, requiredField_nonEmpty hsubject,
      requiredField_nonEmpty hfact, defaultedField_any hvalue⟩
  keys := by
    intro claim hkind
    cases claim with
    | repositoryState c => rfl
    | _ => cases hkind
  reads := by
    rintro ⟨id, key, level, source, mode, refs, selected, claim⟩ hkind hvalid
    cases claim with
    | repositoryState c =>
        obtain ⟨hrevision, hsubject, hfact, hvalue⟩ := hvalid
        dsimp only [repositoryStateClass]
        rw [requiredField_of_field rfl (readString_str _), ok_bind,
          requiredField_of_field rfl (readNonEmpty_eq_ok.mpr ⟨rfl, hrevision⟩), ok_bind,
          requiredField_of_field rfl (readNonEmpty_eq_ok.mpr ⟨rfl, hsubject⟩), ok_bind,
          requiredField_of_field rfl (readNonEmpty_eq_ok.mpr ⟨rfl, hfact⟩), ok_bind,
          defaultedField_of_field rfl (readAny_of_canonical hvalue), ok_bind]
    | _ => cases hkind

theorem governedConstraintClass_lawful : governedConstraintClass.Lawful where
  sound := by
    intro entries claim h
    simp only [governedConstraintClass, bind_eq_ok] at h
    obtain ⟨_, -, _, -, _, -, _, -, h⟩ := h
    obtain rfl := Except.ok.inj h
    exact ⟨rfl, trivial⟩
  keys := by
    intro claim hkind
    cases claim with
    | architectureConstraint c => rfl
    | _ => cases hkind
  reads := by
    rintro ⟨id, key, level, source, mode, refs, selected, claim⟩ hkind hvalid
    cases claim with
    | architectureConstraint c =>
        dsimp only [governedConstraintClass]
        rw [requiredField_of_field rfl (readString_str _), ok_bind,
          requiredField_of_field rfl (readString_str _), ok_bind,
          defaultedField_of_field rfl (readList_ofStrings _), ok_bind,
          defaultedField_of_field rfl (readList_ofStrings _), ok_bind]
    | _ => cases hkind

theorem applicableLawClass_lawful [LaxInput] : applicableLawClass.Lawful where
  sound := by
    intro entries claim h
    simp only [applicableLawClass, bind_eq_ok] at h
    obtain ⟨_, -, _, -, _, -, _, -, _, -, h⟩ := h
    obtain rfl := Except.ok.inj h
    exact ⟨rfl, trivial⟩
  keys := by
    intro claim hkind
    cases claim with
    | applicableLaw c => rfl
    | _ => cases hkind
  reads := by
    rintro ⟨id, key, level, source, mode, refs, selected, claim⟩ hkind hvalid
    cases claim with
    | applicableLaw c =>
        dsimp only [applicableLawClass]
        rw [requiredField_of_field rfl (readString_str _), ok_bind,
          requiredField_of_field rfl (readString_str _), ok_bind,
          defaultedField_of_field rfl (readList_ofStrings _), ok_bind,
          defaultedField_of_field rfl (readPrecedence_ofPrecedence _), ok_bind,
          defaultedField_of_field rfl (readList_ofStrings _), ok_bind]
    | _ => cases hkind

theorem priorDecisionClass_lawful : priorDecisionClass.Lawful where
  sound := by
    intro entries claim h
    simp only [priorDecisionClass, bind_eq_ok] at h
    obtain ⟨_, -, _, -, _, -, _, -, _, -, h⟩ := h
    obtain rfl := Except.ok.inj h
    exact ⟨rfl, trivial⟩
  keys := by
    intro claim hkind
    cases claim with
    | priorDecision c => rfl
    | _ => cases hkind
  reads := by
    rintro ⟨id, key, level, source, mode, refs, selected, claim⟩ hkind hvalid
    cases claim with
    | priorDecision c =>
        dsimp only [priorDecisionClass]
        rw [requiredField_of_field rfl (readString_str _), ok_bind,
          requiredField_of_field rfl (readDecisionStatus_value _), ok_bind,
          requiredField_of_field rfl (readString_str _), ok_bind,
          defaultedField_of_field rfl (readList_ofStrings _), ok_bind,
          defaultedField_of_field rfl (readList_ofStrings _), ok_bind]
    | _ => cases hkind

theorem dependencyContextClass_lawful : dependencyContextClass.Lawful where
  sound := by
    intro entries claim h
    simp only [dependencyContextClass, bind_eq_ok] at h
    obtain ⟨_, -, _, -, _, -, _, -, _, -, h⟩ := h
    obtain rfl := Except.ok.inj h
    exact ⟨rfl, trivial⟩
  keys := by
    intro claim hkind
    cases claim with
    | dependencyContext c => rfl
    | _ => cases hkind
  reads := by
    rintro ⟨id, key, level, source, mode, refs, selected, claim⟩ hkind hvalid
    cases claim with
    | dependencyContext c =>
        dsimp only [dependencyContextClass]
        rw [requiredField_of_field rfl (readString_str _), ok_bind,
          requiredField_of_field rfl (readString_str _), ok_bind,
          requiredField_of_field rfl (readString_str _), ok_bind,
          requiredField_of_field rfl (readString_str _), ok_bind,
          defaultedField_of_field rfl (readOption_ofOption _), ok_bind]
    | _ => cases hkind

theorem evidenceRefClass_lawful : evidenceRefClass.Lawful where
  sound := by
    intro entries claim h
    simp only [evidenceRefClass, bind_eq_ok] at h
    obtain ⟨_, -, _, -, _, -, _, -, h⟩ := h
    obtain rfl := Except.ok.inj h
    exact ⟨rfl, trivial⟩
  keys := by
    intro claim hkind
    cases claim with
    | evidenceRef c => rfl
    | _ => cases hkind
  reads := by
    rintro ⟨id, key, level, source, mode, refs, selected, claim⟩ hkind hvalid
    cases claim with
    | evidenceRef c =>
        dsimp only [evidenceRefClass]
        rw [requiredField_of_field rfl (readString_str _), ok_bind,
          requiredField_of_field rfl (readString_str _), ok_bind,
          defaultedField_of_field rfl (readList_ofStrings _), ok_bind,
          defaultedField_of_field rfl (readOption_ofOption _), ok_bind]
    | _ => cases hkind

theorem memoryContextClass_lawful : memoryContextClass.Lawful where
  sound := by
    intro entries claim h
    simp only [memoryContextClass, bind_eq_ok] at h
    obtain ⟨_, -, _, -, _, hcontent, _, -, h⟩ := h
    obtain rfl := Except.ok.inj h
    exact ⟨rfl, defaultedField_any hcontent⟩
  keys := by
    intro claim hkind
    cases claim with
    | memoryContext c => rfl
    | _ => cases hkind
  reads := by
    rintro ⟨id, key, level, source, mode, refs, selected, claim⟩ hkind hvalid
    cases claim with
    | memoryContext c =>
        dsimp only [memoryContextClass]
        rw [requiredField_of_field rfl (readString_str _), ok_bind,
          requiredField_of_field rfl (readString_str _), ok_bind,
          defaultedField_of_field rfl (readAny_of_canonical hvalid), ok_bind,
          defaultedField_of_field rfl (readString_str _), ok_bind]
    | _ => cases hkind

theorem capabilityFactClass_lawful : capabilityFactClass.Lawful where
  sound := by
    intro entries claim h
    simp only [capabilityFactClass, bind_eq_ok] at h
    obtain ⟨_, -, _, -, _, -, h⟩ := h
    obtain rfl := Except.ok.inj h
    exact ⟨rfl, trivial⟩
  keys := by
    intro claim hkind
    cases claim with
    | capabilityFact c => rfl
    | _ => cases hkind
  reads := by
    rintro ⟨id, key, level, source, mode, refs, selected, claim⟩ hkind hvalid
    cases claim with
    | capabilityFact c =>
        dsimp only [capabilityFactClass]
        rw [requiredField_of_field rfl (readString_str _), ok_bind,
          requiredField_of_field rfl (readCapabilityState_value _), ok_bind,
          defaultedField_of_field rfl (readList_ofStrings _), ok_bind]
    | _ => cases hkind

theorem authorityFactClass_lawful [LaxInput] : authorityFactClass.Lawful where
  sound := by
    intro entries claim h
    simp only [authorityFactClass, bind_eq_ok] at h
    obtain ⟨_, -, _, -, _, -, _, hscope, _, -, h⟩ := h
    obtain rfl := Except.ok.inj h
    exact ⟨rfl, defaultedField_refs hscope⟩
  keys := by
    intro claim hkind
    cases claim with
    | authorityFact c => rfl
    | _ => cases hkind
  reads := by
    rintro ⟨id, key, level, source, mode, refs, selected, claim⟩ hkind hvalid
    cases claim with
    | authorityFact c =>
        dsimp only [authorityFactClass]
        rw [requiredField_of_field rfl (readString_str _), ok_bind,
          requiredField_of_field rfl (readAuthorityState_value _), ok_bind,
          defaultedField_of_field rfl (readOption_ofOption _), ok_bind,
          defaultedField_of_field rfl (readRefs_ofStrings hvalid), ok_bind,
          defaultedField_of_field rfl (readPrecedence_ofPrecedence _), ok_bind]
    | _ => cases hkind

/-! ## Items -/

section ReadItems

variable [Sha256] [LaxInput]

/-- What the validators of an item accept, and the item they leave. -/
theorem validateIdentity_eq_ok {item item' : ContextItem} :
    validateIdentity item = .ok item' ↔
      (item.scopeMode = .scoped → item.scopeRefs ≠ [])
        ∧ (item.scopeMode = .global → item.scopeRefs = [])
        ∧ item.semanticKey = item.claim.expectedSemanticKey
        ∧ (item.isGoverned = true → item.sourceRef.hasImmutableProvenance = true)
        ∧ (item.itemId = "" ∨ item.itemId = item.expectedItemId)
        ∧ (item.contextKind = .memoryContext → item.isGoverned = false)
        ∧ item' = { item with itemId := item.expectedItemId } := by
  have hscoped : (!(decide (item.scopeMode = .scoped) && item.scopeRefs.isEmpty)) = true
      ↔ (item.scopeMode = .scoped → item.scopeRefs ≠ []) := by
    simp [imp_iff_not_or]
  have hglobal : (!(decide (item.scopeMode = .global) && !item.scopeRefs.isEmpty)) = true
      ↔ (item.scopeMode = .global → item.scopeRefs = []) := by
    simp [imp_iff_not_or]
  have hgoverned : (!(item.isGoverned && !item.sourceRef.hasImmutableProvenance)) = true
      ↔ (item.isGoverned = true → item.sourceRef.hasImmutableProvenance = true) := by
    simp [imp_iff_not_or]
  have hmemory : (!(decide (item.contextKind = .memoryContext) && item.isGoverned)) = true
      ↔ (item.contextKind = .memoryContext → item.isGoverned = false) := by
    simp [imp_iff_not_or]
  have hid : (decide (item.itemId = "") || decide (item.itemId = item.expectedItemId)) = true
      ↔ (item.itemId = "" ∨ item.itemId = item.expectedItemId) := by
    rw [Bool.or_eq_true, decide_eq_true_eq, decide_eq_true_eq]
  unfold validateIdentity
  simp only [bind_eq_ok, ensure_eq_ok, hscoped, hglobal, hgoverned, hmemory, hid,
    decide_eq_true_eq]
  constructor
  · rintro ⟨_, h1, _, h2, _, h3, _, h4, _, h5, _, h6, h⟩
    exact ⟨h1, h2, h3, h4, h5, h6, (Except.ok.inj h).symm⟩
  · rintro ⟨h1, h2, h3, h4, h5, h6, rfl⟩
    exact ⟨(), h1, (), h2, (), h3, (), h4, (), h5, (), h6, rfl⟩

theorem ItemClass.read_ok {c : ItemClass} (hc : c.Lawful) {j : Json} {item : ContextItem}
    (h : c.read j = .ok item) : item.Valid ∧ item.contextKind = c.kind := by
  unfold ItemClass.read at h
  obtain ⟨entries, rfl, hfields⟩ := readModel_eq_ok.mp h
  simp only [bind_eq_ok] at hfields
  obtain ⟨itemId, -, semanticKey, hkey, _, -, level, -, source, hsource, mode, -, refs, hrefs,
    selected, -, claim, hclaim, _, -, hvalid⟩ := hfields
  obtain ⟨hscoped, hglobal, hrecipe, hgoverned, -, hmemory, rfl⟩ := validateIdentity_eq_ok.mp hvalid
  obtain ⟨j, -, hj⟩ := field_of_required hsource
  obtain ⟨hkind, hclaimvalid⟩ := hc.sound entries claim hclaim
  exact ⟨{
      source_ne := ContextSourceRef.read_ok hj
      key_ne := requiredField_nonEmpty hkey
      refs_canonical := defaultedField_refs hrefs
      scoped_refs := hscoped
      global_refs := hglobal
      claim_valid := hclaimvalid
      key_recipe := hrecipe
      governed_provenance := hgoverned
      memory_ceiling := hmemory
      id_recipe := rfl }, hkind⟩

omit [Sha256] [LaxInput] in
theorem ContextItem.keys_entries {c : ItemClass} (hc : c.Lawful) {item : ContextItem}
    (hkind : item.contextKind = c.kind) :
    item.entries.map Prod.fst = itemFields ++ c.fields := by
  unfold ContextItem.entries
  rw [List.map_append, hc.keys item.claim hkind]
  rfl

/-- A valid item is read back by its class. -/
theorem ItemClass.read_toJson {c : ItemClass} (hc : c.Lawful) {item : ContextItem}
    (hvalid : item.Valid) (hkind : item.contextKind = c.kind)
    (hselected : item.selectedBecause = []) : c.read item.toJson = .ok item := by
  have hid : validateIdentity item = .ok item := by
    refine validateIdentity_eq_ok.mpr ⟨hvalid.scoped_refs, hvalid.global_refs, hvalid.key_recipe,
      hvalid.governed_provenance, .inr hvalid.id_recipe, hvalid.memory_ceiling, ?_⟩
    rw [← hvalid.id_recipe]
  have hkindfield : c.readKind (.str item.contextKind.value) = .ok () := by
    rw [hkind]
    simp [ItemClass.readKind]
  have hextra : forbidExtra ((itemFields ++ c.fields).map fun field => [field]) item.entries
      = .ok () := by
    refine forbidExtra_of_declared fun key hkey => ?_
    rw [ContextItem.keys_entries hc hkind] at hkey
    exact ⟨[key], List.mem_map_of_mem hkey, rfl⟩
  have hrefs : sortedUnique item.selectedBecause = item.selectedBecause := by
    rw [hselected]
    rfl
  rw [ContextItem.toJson_eq]
  unfold ItemClass.read readModel
  dsimp only
  rw [defaultedField_of_field rfl (readString_str _), ok_bind,
    requiredField_of_field rfl (readNonEmpty_eq_ok.mpr ⟨rfl, hvalid.key_ne⟩), ok_bind,
    defaultedField_of_field rfl hkindfield, ok_bind,
    requiredField_of_field rfl (readAuthorityLevel_value _), ok_bind,
    requiredField_of_field rfl (ContextSourceRef.read_identityPayload hvalid.source_ne), ok_bind,
    requiredField_of_field rfl (readScopeMode_value _), ok_bind,
    defaultedField_of_field rfl (readRefs_ofStrings hvalid.refs_canonical), ok_bind,
    defaultedField_of_field rfl (readRefs_ofStrings hrefs), ok_bind,
    hc.reads item hkind hvalid.claim_valid, ok_bind, hextra, ok_bind]
  exact hid

/-! ## Snapshots -/

/-- What a bucket holds when its class has read it. -/
theorem readBucket_ok {c : ItemClass} (hc : c.Lawful) {key : String} {entries : Entries}
    {items : List ContextItem}
    (h : defaultedField key (readList c.read) [] entries = .ok items) :
    ∀ item ∈ items, item.Valid ∧ item.contextKind = c.kind := by
  intro item hitem
  rcases defaultedField_cases h with ⟨j, -, hj⟩ | rfl
  · obtain ⟨l, rfl, hl⟩ := readList_eq_ok.mp hj
    obtain ⟨i, hi, rfl⟩ := List.getElem_of_mem hitem
    have hlen := hl.length_eq
    exact ItemClass.read_ok hc (hl.get (by omega) hi)
  · cases hitem

/-- The buckets a mapping is read into make a snapshot. -/
theorem SnapshotBuckets.read_ok {j : Json} {s : SnapshotBuckets}
    (h : SnapshotBuckets.read j = .ok s) :
    (∀ bucket ∈ s.named, ∀ item ∈ bucket.2.2, item.Valid ∧ item.contextKind = bucket.2.1)
      ∧ ∀ item ∈ s.allItems, item.selectedBecause = [] := by
  unfold SnapshotBuckets.read at h
  obtain ⟨entries, rfl, hfields⟩ := readModel_eq_ok.mp h
  simp only [bind_eq_ok, ensure_eq_ok] at hfields
  obtain ⟨entities, hentities, states, hstates, constraints, hconstraints, laws, hlaws, decisions,
    hdecisions, dependencies, hdependencies, evidence, hevidence, memory, hmemory, capabilities,
    hcapabilities, authorities, hauthorities, _, -, _, hselected, hs⟩ := hfields
  obtain rfl := Except.ok.inj hs
  refine ⟨?_, ?_⟩
  · unfold SnapshotBuckets.named
    simp only [List.forall_mem_cons]
    exact ⟨readBucket_ok entityContextClass_lawful hentities,
      readBucket_ok repositoryStateClass_lawful hstates,
      readBucket_ok governedConstraintClass_lawful hconstraints,
      readBucket_ok applicableLawClass_lawful hlaws,
      readBucket_ok priorDecisionClass_lawful hdecisions,
      readBucket_ok dependencyContextClass_lawful hdependencies,
      readBucket_ok evidenceRefClass_lawful hevidence,
      readBucket_ok memoryContextClass_lawful hmemory,
      readBucket_ok capabilityFactClass_lawful hcapabilities,
      readBucket_ok authorityFactClass_lawful hauthorities, fun _ h => by cases h⟩
  · intro item hitem
    exact List.isEmpty_iff.mp (List.all_eq_true.mp hselected item hitem)

/-- `ContextSnapshot.from_mapping`. -/
def ContextSnapshot.fromMapping (doc : Json) : Except RuntimeError ContextSnapshot :=
  match h : SnapshotBuckets.read doc with
  | .ok s => .ok
      { toSnapshotBuckets := s
        kinds := fun bucket hb item hi => ((SnapshotBuckets.read_ok h).1 bucket hb item hi).2
        valid := by
          intro item hitem
          obtain ⟨bucket, hb, hi⟩ := List.mem_flatMap.mp hitem
          exact ((SnapshotBuckets.read_ok h).1 bucket hb item hi).1
        unselected := (SnapshotBuckets.read_ok h).2 }
  | .error e => .error (translateValidationError e)

/-- A bucket of valid items is read back. -/
theorem readBucket_toJson {c : ItemClass} (hc : c.Lawful) {items : List ContextItem}
    (h : ∀ item ∈ items, item.Valid ∧ item.contextKind = c.kind ∧ item.selectedBecause = []) :
    readList c.read (.arr (items.map ContextItem.toJson)) = .ok items := by
  refine readList_eq_ok.mpr ⟨_, rfl, ?_⟩
  rw [List.forall₂_map_left_iff]
  exact List.forall₂_same.mpr fun item hitem =>
    ItemClass.read_toJson hc (h item hitem).1 (h item hitem).2.1 (h item hitem).2.2

theorem SnapshotBuckets.read_toJson (s : ContextSnapshot) :
    SnapshotBuckets.read s.toSnapshotBuckets.toJson = .ok s.toSnapshotBuckets := by
  have hbucket : ∀ bucket ∈ s.toSnapshotBuckets.named, ∀ item ∈ bucket.2.2,
      item.Valid ∧ item.contextKind = bucket.2.1 ∧ item.selectedBecause = [] := by
    intro bucket hb item hi
    have hall : item ∈ s.toSnapshotBuckets.allItems := List.mem_flatMap.mpr ⟨bucket, hb, hi⟩
    exact ⟨s.valid item hall, s.kinds bucket hb item hi, s.unselected item hall⟩
  unfold SnapshotBuckets.named at hbucket
  simp only [List.forall_mem_cons] at hbucket
  obtain ⟨hentities, hstates, hconstraints, hlaws, hdecisions, hdependencies, hevidence, hmemory,
    hcapabilities, hauthorities, -⟩ := hbucket
  have hselected : (s.toSnapshotBuckets.allItems.all fun item => item.selectedBecause.isEmpty)
      = true :=
    List.all_eq_true.mpr fun item hitem => List.isEmpty_iff.mpr (s.unselected item hitem)
  unfold SnapshotBuckets.read SnapshotBuckets.toJson SnapshotBuckets.named readModel
  dsimp only
  rw [defaultedField_of_field rfl (readBucket_toJson entityContextClass_lawful hentities), ok_bind,
    defaultedField_of_field rfl (readBucket_toJson repositoryStateClass_lawful hstates), ok_bind,
    defaultedField_of_field rfl (readBucket_toJson governedConstraintClass_lawful hconstraints),
    ok_bind, defaultedField_of_field rfl (readBucket_toJson applicableLawClass_lawful hlaws),
    ok_bind, defaultedField_of_field rfl (readBucket_toJson priorDecisionClass_lawful hdecisions),
    ok_bind,
    defaultedField_of_field rfl (readBucket_toJson dependencyContextClass_lawful hdependencies),
    ok_bind, defaultedField_of_field rfl (readBucket_toJson evidenceRefClass_lawful hevidence),
    ok_bind, defaultedField_of_field rfl (readBucket_toJson memoryContextClass_lawful hmemory),
    ok_bind,
    defaultedField_of_field rfl (readBucket_toJson capabilityFactClass_lawful hcapabilities),
    ok_bind,
    defaultedField_of_field rfl (readBucket_toJson authorityFactClass_lawful hauthorities),
    ok_bind, forbidExtra_of_declared (by simp [SnapshotBuckets.empty]), ok_bind, hselected]
  rfl

/-- A snapshot is read back from the document it serializes to. -/
theorem ContextSnapshot.fromMapping_toJson (s : ContextSnapshot) :
    ContextSnapshot.fromMapping s.toSnapshotBuckets.toJson = .ok s := by
  have hread := SnapshotBuckets.read_toJson s
  unfold ContextSnapshot.fromMapping
  split
  · next s' h =>
      obtain rfl := Except.ok.inj (h.symm.trans hread)
      rfl
  · next e h => cases h.symm.trans hread

/-- Every error of the mapping is one of the models'. -/
theorem ContextSnapshot.fromMapping_error {doc : Json} {e : RuntimeError}
    (h : ContextSnapshot.fromMapping doc = .error e) :
    (Raised.model e).isModelValidation = true := by
  unfold ContextSnapshot.fromMapping at h
  split at h
  · cases h
  · next e' h' =>
      obtain rfl := Except.error.inj h
      unfold translateValidationError
      dsimp only
      split <;> split <;> rfl

end ReadItems

end CognitiveRuntime
