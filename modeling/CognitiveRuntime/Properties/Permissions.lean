import CognitiveRuntime.Properties.ObligationConservation
import CognitiveRuntime.Properties.Unknowns

/-!
# Permissions and capabilities nobody proved

An authority or capability that a compile requires has a governed fact
behind it or is on record as a gap. What a fact proves is decided by two
relations on the required subject and actions: a grant must contain them,
a limit need only meet them.

Containment reads an unstated required subject as more than any stated
one, and unstated required actions as less. `grant_coverage_monotone_iff`
says where that costs monotonicity.
-/

namespace CognitiveRuntime

open Ordered Fallible

/-! ## Coverage -/

theorem grantSubjectCovers_iff {granted required : Option String} :
    grantSubjectCovers granted required = true ↔ granted = none ∨ granted = required := by
  cases granted with
  | none => simp [grantSubjectCovers]
  | some s => simp [grantSubjectCovers]

theorem grantActionsCover_iff {granted required : List String} :
    grantActionsCover granted required = true ↔ granted = [] ∨ required ⊆ granted := by
  cases granted with
  | nil => simp [grantActionsCover]
  | cons a rest =>
      simp only [grantActionsCover, List.all_eq_true, decide_eq_true_eq, reduceCtorEq, false_or]
      exact Iff.rfl

theorem limitSubjectBears_iff {limit required : Option String} :
    limitSubjectBears limit required = true ↔
      limit = none ∨ required = none ∨ limit = required := by
  cases limit with
  | none => simp [limitSubjectBears]
  | some l => cases required <;> simp [limitSubjectBears]

theorem limitActionsBear_iff {limit required : List String} :
    limitActionsBear limit required = true ↔
      limit = [] ∨ required = [] ∨ ∃ a ∈ limit, a ∈ required := by
  cases limit with
  | nil => simp [limitActionsBear]
  | cons l limit =>
      cases required with
      | nil => simp [limitActionsBear]
      | cons r required => simp [limitActionsBear]

theorem grantCoversRequirement_iff {fact : AuthorityFact} {r : AuthorityRequirement} :
    grantCoversRequirement fact r = true ↔ fact.authorityId = r.authorityId
      ∧ (fact.subjectRef = none ∨ fact.subjectRef = r.subjectRef)
      ∧ (fact.actionScope = [] ∨ r.actionScope ⊆ fact.actionScope) := by
  unfold grantCoversRequirement
  rw [Bool.and_eq_true, Bool.and_eq_true, beq_iff_eq, grantSubjectCovers_iff,
    grantActionsCover_iff, and_assoc]

theorem limitBearsOnRequirement_iff {fact : AuthorityFact} {r : AuthorityRequirement} :
    limitBearsOnRequirement fact r = true ↔ fact.authorityId = r.authorityId
      ∧ (fact.subjectRef = none ∨ r.subjectRef = none ∨ fact.subjectRef = r.subjectRef)
      ∧ (fact.actionScope = [] ∨ r.actionScope = []
        ∨ ∃ a ∈ fact.actionScope, a ∈ r.actionScope) := by
  unfold limitBearsOnRequirement
  rw [Bool.and_eq_true, Bool.and_eq_true, beq_iff_eq, limitSubjectBears_iff,
    limitActionsBear_iff, and_assoc]

/-- The first requirement asks for no more than the second: an unstated
subject or action scope asks for everything. -/
structure AsksNoMore (less more : AuthorityRequirement) : Prop where
  authority : less.authorityId = more.authorityId
  subject : more.subjectRef = none ∨ less.subjectRef = more.subjectRef
  actions : more.actionScope = [] ∨ (less.actionScope ≠ [] ∧ less.actionScope ⊆ more.actionScope)

/-- A grant limited to some actions, under a requirement for all of
them, that leaves out an action the smaller requirement names. -/
def PartialGrant (fact : AuthorityFact) (less more : AuthorityRequirement) : Prop :=
  more.actionScope = [] ∧ fact.actionScope ≠ [] ∧ fact.authorityId = more.authorityId
    ∧ grantSubjectCovers fact.subjectRef more.subjectRef = true
    ∧ ∃ a ∈ less.actionScope, a ∉ fact.actionScope

/-- A limit that bears on a requirement bears on every larger one. -/
theorem limit_bears_mono {fact : AuthorityFact} {less more : AuthorityRequirement}
    (h : AsksNoMore less more) (hless : limitBearsOnRequirement fact less = true) :
    limitBearsOnRequirement fact more = true := by
  obtain ⟨hauthority, hsubject, hactions⟩ := limitBearsOnRequirement_iff.mp hless
  refine limitBearsOnRequirement_iff.mpr ⟨hauthority.trans h.authority, ?_, ?_⟩
  · rcases h.subject with hnone | hsame
    · exact .inr (.inl hnone)
    · rw [← hsame]
      exact hsubject
  · rcases h.actions with hnil | ⟨hstated, hsubset⟩
    · exact .inr (.inl hnil)
    · rcases hactions with hlimit | hrequired | ⟨a, ha, hmem⟩
      · exact .inl hlimit
      · exact absurd hrequired hstated
      · exact .inr (.inr ⟨a, ha, hsubset hmem⟩)

/-- Coverage is monotone in the requirement exactly where no grant of
some actions stands under a requirement for all of them and leaves out
what the smaller one names. -/
theorem grant_coverage_monotone_iff (fact : AuthorityFact) (less more : AuthorityRequirement)
    (h : AsksNoMore less more) :
    ((grantCoversRequirement fact more = true → grantCoversRequirement fact less = true)
      ∧ (limitBearsOnRequirement fact less = true → limitBearsOnRequirement fact more = true))
    ↔ ¬PartialGrant fact less more := by
  constructor
  · rintro ⟨hcovers, -⟩ ⟨hall, hstated, hauthority, hsubject, a, ha, hmissing⟩
    have hmore : grantCoversRequirement fact more = true := by
      refine grantCoversRequirement_iff.mpr
        ⟨hauthority, grantSubjectCovers_iff.mp hsubject, .inr ?_⟩
      rw [hall]
      exact List.nil_subset _
    obtain ⟨-, -, hactions⟩ := grantCoversRequirement_iff.mp (hcovers hmore)
    rcases hactions with hnil | hsubset
    · exact hstated hnil
    · exact hmissing (hsubset ha)
  · intro hpartial
    refine ⟨fun hmore => ?_, limit_bears_mono h⟩
    obtain ⟨hauthority, hsubject, hactions⟩ := grantCoversRequirement_iff.mp hmore
    refine grantCoversRequirement_iff.mpr ⟨hauthority.trans h.authority.symm, ?_, ?_⟩
    · rcases hsubject with hnone | hsame
      · exact .inl hnone
      · rcases h.subject with hall | hless
        · exact .inl (hsame.trans hall)
        · exact .inr (hsame.trans hless.symm)
    · by_contra hcon
      rw [not_or] at hcon
      obtain ⟨hstated, hnot⟩ := hcon
      rcases h.actions with hall | ⟨-, hsubset⟩
      · obtain ⟨a, ha, hmissing⟩ : ∃ a ∈ less.actionScope, a ∉ fact.actionScope := by
          by_contra hnone
          push Not at hnone
          exact hnot hnone
        exact hpartial ⟨hall, hstated, hauthority, grantSubjectCovers_iff.mpr hsubject, a, ha,
          hmissing⟩
      · rcases hactions with hnil | hmoreActions
        · exact hstated hnil
        · exact hnot (List.Subset.trans hsubset hmoreActions)

section Delivery

attribute [local instance] Sha256.transparent

/-- Delivery as an objective requires it: no subject and no actions. -/
def anyDelivery : AuthorityRequirement :=
  .create "delivery" none [] "objective requires delivery in mode RETURNED_FILES" []

/-- Delivery of the archive alone. -/
def archiveDelivery : AuthorityRequirement :=
  .create "delivery" none ["archive"] "delivery of the archive" []

/-- A grant to deliver files. -/
def filesGrant : AuthorityFact :=
  { authorityId := "delivery", state := .granted, subjectRef := none, actionScope := ["files"]
    precedence := none }

/-- The grant closes the requirement for every delivery and not the one
for the archive. -/
theorem files_grant_closes_any_delivery :
    AsksNoMore archiveDelivery anyDelivery
      ∧ grantCoversRequirement filesGrant anyDelivery = true
      ∧ grantCoversRequirement filesGrant archiveDelivery = false :=
  ⟨⟨rfl, .inl rfl, .inl rfl⟩, by decide, by decide⟩

/-- Where the grant names the archive too, it covers both. -/
theorem archive_grant_covers_both :
    (grantCoversRequirement { filesGrant with actionScope := ["archive", "files"] } anyDelivery
        = true →
      grantCoversRequirement { filesGrant with actionScope := ["archive", "files"] }
        archiveDelivery = true)
      ∧ (limitBearsOnRequirement { filesGrant with actionScope := ["archive", "files"] }
          archiveDelivery = true →
        limitBearsOnRequirement { filesGrant with actionScope := ["archive", "files"] }
          anyDelivery = true) := by
  refine (grant_coverage_monotone_iff _ archiveDelivery anyDelivery
    ⟨rfl, .inl rfl, .inl rfl⟩).mpr ?_
  rintro ⟨-, -, -, -, a, ha, hmissing⟩
  obtain rfl : a = "archive" := by simpa [archiveDelivery, AuthorityRequirement.create] using ha
  exact hmissing (by decide)

end Delivery

/-! ## Dispositions -/

theorem CapabilityDisposition.value_inj :
    ∀ {s t : CapabilityDisposition}, s.value = t.value ↔ s = t := by
  intro s t
  cases s <;> cases t <;> simp [CapabilityDisposition.value]

theorem AuthorityDisposition.value_inj :
    ∀ {s t : AuthorityDisposition}, s.value = t.value ↔ s = t := by
  intro s t
  cases s <;> cases t <;> simp [AuthorityDisposition.value]

theorem capabilityDisposition_available {id : String} {available unavailable unknown : List String}
    (h : capabilityDisposition id available unavailable unknown = .available) :
    id ∈ available ∧ id ∉ unavailable := by
  unfold capabilityDisposition at h
  split at h
  · cases h
  · next hnot =>
      split at h
      · next hmem => exact ⟨hmem, hnot⟩
      · split at h <;> cases h

theorem authorityDisposition_granted {r : AuthorityRequirement}
    {granted limits unknown : List ContextItem}
    (h : authorityDisposition r granted limits unknown = .granted) :
    ∃ item ∈ granted, ∃ fact, item.authorityFact? = some fact
      ∧ grantCoversRequirement fact r = true := by
  unfold authorityDisposition at h
  split at h
  · next hany =>
      obtain ⟨item, hitem, hcovers⟩ := List.any_eq_true.mp hany
      obtain ⟨fact, hfact, hcovers⟩ := (Option.any_eq_true _ _).mp hcovers
      exact ⟨item, hitem, fact, hfact, hcovers⟩
  · split at h
    · cases h
    · split at h
      · cases h
      · split at h <;> cases h

theorem capabilityFact?_eq_some {item : ContextItem} {fact : CapabilityFact} :
    item.capabilityFact? = some fact ↔ item.claim = .capabilityFact fact := by
  unfold ContextItem.capabilityFact?
  cases item.claim <;> simp

theorem authorityFact?_eq_some {item : ContextItem} {fact : AuthorityFact} :
    item.authorityFact? = some fact ↔ item.claim = .authorityFact fact := by
  unfold ContextItem.authorityFact?
  cases item.claim <;> simp

theorem mem_capabilityFactsIn {state : CapabilityState} {items : List ContextItem}
    {item : ContextItem} : item ∈ capabilityFactsIn state items ↔
      item ∈ items ∧ ∃ fact, item.claim = .capabilityFact fact ∧ fact.state = state := by
  unfold capabilityFactsIn
  simp only [List.mem_filter, Option.any_eq_true, capabilityFact?_eq_some, beq_iff_eq]

theorem mem_authorityFactsIn {state : AuthorityState} {items : List ContextItem}
    {item : ContextItem} : item ∈ authorityFactsIn state items ↔
      item ∈ items ∧ ∃ fact, item.claim = .authorityFact fact ∧ fact.state = state := by
  unfold authorityFactsIn
  simp only [List.mem_filter, Option.any_eq_true, authorityFact?_eq_some, beq_iff_eq]

theorem mem_capabilityIds {items : List ContextItem} {id : String} :
    id ∈ capabilityIds items ↔
      ∃ item ∈ items, ∃ fact, item.claim = .capabilityFact fact ∧ fact.capabilityId = id := by
  unfold capabilityIds
  simp only [List.mem_filterMap, Option.map_eq_some_iff, capabilityFact?_eq_some]

/-! ## Gaps on record -/

/-- An unknown records a missing authority with its subject and actions. -/
structure RecordsAuthority (u : ContextUnknown) (r : AuthorityRequirement) : Prop where
  reason : u.reasonCode = .missingAuthority
  authority : Json.field "authority_id" u.details = some (.str r.authorityId)
  subject : Json.field "subject_ref" u.details = some (.ofOption r.subjectRef)
  actions : Json.field "action_scope" u.details = some (.ofStrings r.actionScope)

/-- An unknown records a capability that is not available. -/
structure RecordsCapability (u : ContextUnknown) (capabilityId : String) : Prop where
  reason : u.reasonCode = .unsupportedCapability
  capability : Json.field "capability_id" u.details = some (.str capabilityId)

section Gaps

variable [Sha256]

theorem capabilityUnknown_records (id : String) (state : CapabilityDisposition) :
    RecordsCapability (capabilityUnknown id state) id :=
  ⟨rfl, rfl⟩

/-- Two authority gaps under one id record one gap in one state. -/
theorem authorityUnknown_of_id (hsha : Sha256.Injective) {r r' : AuthorityRequirement}
    {state state' : AuthorityDisposition}
    (h : (authorityUnknown r' state').unknownId = (authorityUnknown r state).unknownId) :
    RecordsAuthority (authorityUnknown r' state') r ∧ state' = state := by
  have hsame := sameIdentity_of_id hsha (u := authorityUnknown r' state')
    (v := authorityUnknown r state) rfl rfl h
  have hid := hsame.recorded "authority_id"
  have hsubject := hsame.recorded "subject_ref"
  have hactions := hsame.recorded "action_scope"
  have hstate := hsame.recorded "state"
  simp [authorityUnknown, ContextUnknown.create, Json.field] at hid hsubject hactions hstate
  refine ⟨⟨rfl, ?_, ?_, ?_⟩, AuthorityDisposition.value_inj.mp hstate⟩
  · rw [← hid]
    rfl
  · rw [← hsubject]
    rfl
  · rw [← hactions]
    rfl

/-- Two capability gaps under one id record one gap in one state. -/
theorem capabilityUnknown_of_id (hsha : Sha256.Injective) {id id' : String}
    {state state' : CapabilityDisposition}
    (h : (capabilityUnknown id' state').unknownId = (capabilityUnknown id state).unknownId) :
    id' = id ∧ state' = state := by
  have hsame := sameIdentity_of_id hsha (u := capabilityUnknown id' state')
    (v := capabilityUnknown id state) rfl rfl h
  have hid := hsame.recorded "capability_id"
  have hstate := hsame.recorded "state"
  simp [capabilityUnknown, ContextUnknown.create, Json.field] at hid hstate
  exact ⟨hid, CapabilityDisposition.value_inj.mp hstate⟩

/-- Every authority gap is on record in the finished context, with the
materiality its state calls for. -/
theorem authority_gap_recorded (hsha : Sha256.Injective) {inputs : CompileInputs}
    {selectionUnknowns : List ContextUnknown} {selected : List ContextItem}
    {r : AuthorityRequirement} {state : AuthorityDisposition}
    (h : authorityUnknown r state ∈ gapUnknowns inputs selected) :
    ∃ u ∈ (assembleContext inputs selectionUnknowns selected).unresolvedUnknowns,
      RecordsAuthority u r ∧ u.materiality = (authorityUnknown r state).materiality := by
  obtain ⟨u, hu, hgap, hid⟩ := exists_mem_unknowns_of_gap h
  rcases mem_gapUnknowns hgap with ⟨id, state', rfl⟩ | ⟨r', state', rfl⟩
  · have hreason := (sameIdentity_of_id hsha (u := capabilityUnknown id state')
      (v := authorityUnknown r state) rfl rfl hid).reasonCode
    cases hreason
  · obtain ⟨hrecords, rfl⟩ := authorityUnknown_of_id hsha hid
    exact ⟨_, hu, hrecords, rfl⟩

/-- Every capability gap is on record in the finished context, with the
materiality its state calls for. -/
theorem capability_gap_recorded (hsha : Sha256.Injective) {inputs : CompileInputs}
    {selectionUnknowns : List ContextUnknown} {selected : List ContextItem}
    {id : String} {state : CapabilityDisposition}
    (h : capabilityUnknown id state ∈ gapUnknowns inputs selected) :
    ∃ u ∈ (assembleContext inputs selectionUnknowns selected).unresolvedUnknowns,
      RecordsCapability u id ∧ u.materiality = (capabilityUnknown id state).materiality := by
  obtain ⟨u, hu, hgap, hid⟩ := exists_mem_unknowns_of_gap h
  rcases mem_gapUnknowns hgap with ⟨id', state', rfl⟩ | ⟨r', state', rfl⟩
  · obtain ⟨rfl, rfl⟩ := capabilityUnknown_of_id hsha hid
    exact ⟨_, hu, capabilityUnknown_records _ _, rfl⟩
  · have hreason := (sameIdentity_of_id hsha (u := authorityUnknown r' state')
      (v := capabilityUnknown id state) rfl rfl hid).reasonCode
    cases hreason

/-! ## What a finished compile proves -/

/-- A selected, governed grant that covers the requirement. -/
def HasGrant (context : CompiledTaskContext) (r : AuthorityRequirement) : Prop :=
  ∃ item ∈ context.selectedItems, ∃ fact, item.claim = .authorityFact fact
    ∧ item.isGoverned = true ∧ fact.state = .granted ∧ fact.authorityId = r.authorityId
    ∧ (fact.subjectRef = none ∨ fact.subjectRef = r.subjectRef)
    ∧ (fact.actionScope = [] ∨ r.actionScope ⊆ fact.actionScope)

/-- A selected, governed fact that the capability is available. -/
def HasCapability (context : CompiledTaskContext) (id : String) : Prop :=
  ∃ item ∈ context.selectedItems, ∃ fact, item.claim = .capabilityFact fact
    ∧ item.isGoverned = true ∧ fact.state = .available ∧ fact.capabilityId = id

/-- No selected fact says that the capability is unavailable. -/
def NotUnavailable (context : CompiledTaskContext) (id : String) : Prop :=
  ∀ item ∈ context.selectedItems, ∀ fact, item.claim = .capabilityFact fact →
    fact.capabilityId = id → fact.state ≠ .unavailable

/-- A blocking unknown that the bundle carries as a required obligation. -/
structure Blocks (bundle : RuntimeBundle) (u : ContextUnknown) : Prop where
  present : u ∈ bundle.taskContext.unresolvedUnknowns
  blocking : u.materiality = .blocking
  obligation : contextObligationId u.unknownId ∈ requiredPendingIds bundle.execution.obligations

/-- The state of a required authority, as the finished context has it. -/
def authorityState (context : CompiledTaskContext) (r : AuthorityRequirement) :
    AuthorityDisposition :=
  authorityDisposition r context.authority.granted context.authority.limits
    context.authority.unknown

/-- The state of a required capability, as the finished context has it. -/
def capabilityState (context : CompiledTaskContext) (id : String) : CapabilityDisposition :=
  capabilityDisposition id (capabilityIds context.capabilities.available)
    (capabilityIds context.capabilities.unavailable) (capabilityIds context.capabilities.unknown)

/-- Nothing is permitted or possible in a bundle that nobody proved. -/
structure PermissionsProved (bundle : RuntimeBundle) : Prop where
  authority : ∀ r ∈ bundle.taskContext.authority.required,
    (∀ u ∈ bundle.taskContext.unresolvedUnknowns, ¬RecordsAuthority u r) →
      HasGrant bundle.taskContext r
  capability : ∀ r ∈ bundle.taskContext.capabilities.required,
    (∀ u ∈ bundle.taskContext.unresolvedUnknowns, ¬RecordsCapability u r.capabilityId) →
      HasCapability bundle.taskContext r.capabilityId
        ∧ NotUnavailable bundle.taskContext r.capabilityId
  refused_authority : ∀ r ∈ bundle.taskContext.authority.required,
    authorityState bundle.taskContext r = .limitedWithoutGrant
      ∨ authorityState bundle.taskContext r = .insufficientScope →
        ∃ u, RecordsAuthority u r ∧ Blocks bundle u
  refused_capability : ∀ r ∈ bundle.taskContext.capabilities.required,
    capabilityState bundle.taskContext r.capabilityId = .unavailable →
      ∃ u, RecordsCapability u r.capabilityId ∧ Blocks bundle u

section Compiled

variable {inputs : CompileInputs} {selection : Selection} {unknowns : List ContextUnknown}

/-- What is selected of a kind that only governed facts may fill is
governed. -/
theorem selected_governed
    (h : selectAll inputs.requirementPlan.globalBudget inputs.resolution
      inputs.requirementPlan.requirements .empty = .ok (selection, unknowns))
    {item : ContextItem} (hitem : item ∈ selection.selected)
    (hkind : item.contextKind.isGovernedOnly = true) : item.isGoverned = true := by
  obtain ⟨other, -, r, -, hmatch, rfl⟩ := selected_matches h hitem
  exact matches_governed hmatch hkind

/-- An authority that is not granted is a gap. -/
theorem authority_gap {r : AuthorityRequirement}
    (hr : r ∈ (assembleContext inputs unknowns selection.selected).authority.required)
    (hstate : authorityState (assembleContext inputs unknowns selection.selected) r ≠ .granted) :
    authorityUnknown r (authorityState (assembleContext inputs unknowns selection.selected) r)
      ∈ gapUnknowns inputs selection.selected :=
  List.mem_append_right _ (List.mem_filterMap.mpr ⟨r, hr, if_neg hstate⟩)

/-- A capability that is not available is a gap. -/
theorem capability_gap {r : CapabilityRequirement}
    (hr : r ∈ (assembleContext inputs unknowns selection.selected).capabilities.required)
    (hstate : capabilityState (assembleContext inputs unknowns selection.selected) r.capabilityId
      ≠ .available) :
    capabilityUnknown r.capabilityId
        (capabilityState (assembleContext inputs unknowns selection.selected) r.capabilityId)
      ∈ gapUnknowns inputs selection.selected :=
  List.mem_append_left _ (List.mem_filterMap.mpr ⟨r, hr, if_neg hstate⟩)

/-- A required authority is granted by a selected fact or on record as a
gap. -/
theorem authority_granted_or_gap
    (h : selectAll inputs.requirementPlan.globalBudget inputs.resolution
      inputs.requirementPlan.requirements .empty = .ok (selection, unknowns))
    {r : AuthorityRequirement}
    (hr : r ∈ (assembleContext inputs unknowns selection.selected).authority.required) :
    HasGrant (assembleContext inputs unknowns selection.selected) r
      ∨ authorityUnknown r (authorityState
          (assembleContext inputs unknowns selection.selected) r)
        ∈ gapUnknowns inputs selection.selected := by
  by_cases hstate : authorityState (assembleContext inputs unknowns selection.selected) r
      = .granted
  · left
    obtain ⟨item, hitem, fact, hfact, hcovers⟩ := authorityDisposition_granted hstate
    have hclaim := authorityFact?_eq_some.mp hfact
    obtain ⟨hsel, fact', hfact', hgranted⟩ := mem_authorityFactsIn.mp hitem
    obtain rfl : fact = fact' := Claim.authorityFact.inj (hclaim.symm.trans hfact')
    have hkind : item.contextKind.isGovernedOnly = true := by
      unfold ContextItem.contextKind
      rw [hclaim]
      rfl
    obtain ⟨hid, hsubject, hactions⟩ := grantCoversRequirement_iff.mp hcovers
    exact ⟨item, mem_assembled_items.mpr hsel, fact, hclaim, selected_governed h hsel hkind,
      hgranted, hid, hsubject, hactions⟩
  · right
    exact authority_gap hr hstate

/-- A required capability is available by a selected fact or on record
as a gap. -/
theorem capability_available_or_gap
    (h : selectAll inputs.requirementPlan.globalBudget inputs.resolution
      inputs.requirementPlan.requirements .empty = .ok (selection, unknowns))
    {r : CapabilityRequirement}
    (hr : r ∈ (assembleContext inputs unknowns selection.selected).capabilities.required) :
    (HasCapability (assembleContext inputs unknowns selection.selected) r.capabilityId
        ∧ NotUnavailable (assembleContext inputs unknowns selection.selected) r.capabilityId)
      ∨ capabilityUnknown r.capabilityId (capabilityState
          (assembleContext inputs unknowns selection.selected) r.capabilityId)
        ∈ gapUnknowns inputs selection.selected := by
  by_cases hstate : capabilityState (assembleContext inputs unknowns selection.selected)
      r.capabilityId = .available
  · left
    obtain ⟨havailable, hnot⟩ := capabilityDisposition_available hstate
    obtain ⟨item, hitem, fact, hclaim, hid⟩ := mem_capabilityIds.mp havailable
    obtain ⟨hsel, fact', hfact', havail⟩ := mem_capabilityFactsIn.mp hitem
    obtain rfl : fact = fact' := Claim.capabilityFact.inj (hclaim.symm.trans hfact')
    have hkind : item.contextKind.isGovernedOnly = true := by
      unfold ContextItem.contextKind
      rw [hclaim]
      rfl
    refine ⟨⟨item, mem_assembled_items.mpr hsel, fact, hclaim, selected_governed h hsel hkind,
      havail, hid⟩, fun other hother fact' hfact' hid' hunavailable => hnot ?_⟩
    exact mem_capabilityIds.mpr ⟨other, mem_capabilityFactsIn.mpr
      ⟨mem_assembled_items.mp hother, fact', hfact', hunavailable⟩, fact', hfact', hid'⟩
  · right
    exact capability_gap hr hstate

end Compiled

end Gaps

end CognitiveRuntime
