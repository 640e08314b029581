import CognitiveRuntime.Properties.Selected

/-!
# What becomes of an unknown

Unknowns are merged by id, and the last one written under an id is the
one kept. The id covers the requirement, the key, the reason and the
details; materiality and provenance stay out, so two unknowns with one
id may differ there and only there.
-/

namespace CognitiveRuntime

open Ordered Fallible

section Unknowns

variable [Sha256]

/-! ## Identity -/

/-- What the id of an unknown covers. -/
structure ContextUnknown.SameIdentity (u v : ContextUnknown) : Prop where
  requirementRef : u.requirementRef = v.requirementRef
  semanticKey : u.semanticKey = v.semanticKey
  reasonCode : u.reasonCode = v.reasonCode
  details : Json.normalize (.obj u.details) = Json.normalize (.obj v.details)

theorem sameIdentity_of_id (hsha : Sha256.Injective) {u v : ContextUnknown} (hu : u.Valid)
    (hv : v.Valid) (h : u.unknownId = v.unknownId) : u.SameIdentity v := by
  have hpayload := deriveId_inj hsha (hu.symm.trans (h.trans hv))
  have hfield := fun key => Json.field_of_normalize_eq hpayload key
  have hrequirement := hfield "requirement_ref"
  have hkey := hfield "semantic_key"
  have hreason := hfield "reason_code"
  have hdetails := hfield "details"
  simp [Json.field] at hrequirement hkey hreason hdetails
  exact ⟨Json.ofOption_inj.mp hrequirement, Json.ofOption_inj.mp hkey,
    UnknownReasonCode.value_inj.mp hreason, hdetails⟩

omit [Sha256] in
/-- Unknowns with one identity record the same under each key. -/
theorem ContextUnknown.SameIdentity.recorded {u v : ContextUnknown} (h : u.SameIdentity v)
    (key : String) :
    (Json.field key u.details).map Json.normalize = (Json.field key v.details).map Json.normalize :=
  Json.field_of_normalize_eq h.details key

/-! ## Merging -/

omit [Sha256] in
/-- The merge keeps the last unknown written under each id. -/
theorem mem_dedupeUnknowns {unknowns : List ContextUnknown} {u : ContextUnknown} :
    u ∈ dedupeUnknowns unknowns ↔
      lastBy ContextUnknown.unknownId u.unknownId unknowns = some u :=
  mem_dedupeLast

omit [Sha256] in
/-- What is written last is replaced only by what is written with it. -/
theorem exists_mem_dedupe_append {earlier later : List ContextUnknown} {u : ContextUnknown}
    (h : u ∈ later) :
    ∃ v ∈ dedupeUnknowns (earlier ++ later), v ∈ later ∧ v.unknownId = u.unknownId := by
  obtain ⟨v, hv, hid, hlast⟩ := exists_lastBy_of_mem ContextUnknown.unknownId h
  refine ⟨v, mem_dedupeUnknowns.mpr ?_, hv, hid⟩
  rw [lastBy_append, hid, hlast, Option.some_or]

/-! ## Where unknowns come from -/

/-- The unknowns of a view are bound to no requirement and carry their
derived id. -/
theorem mem_supersessionUnknowns {kind : ContextKind} {members : List ContextItem}
    {u : ContextUnknown} (h : u ∈ supersessionUnknowns kind members) :
    u.requirementRef = none ∧ u.Valid := by
  unfold supersessionUnknowns at h
  rcases List.mem_append.mp h with h | h
  · rcases List.mem_append.mp h with h | h
    · obtain ⟨component, -, h⟩ := List.mem_flatMap.mp h
      obtain ⟨domain, -, rfl⟩ := List.mem_map.mp h
      exact ⟨rfl, rfl⟩
    · obtain ⟨edge, -, rfl⟩ := List.mem_map.mp h
      exact ⟨rfl, rfl⟩
  · obtain ⟨entry, -, rfl⟩ := List.mem_map.mp h
    exact ⟨rfl, rfl⟩

/-- The unknowns of a view come from the supersession of one kind. -/
theorem mem_view_unknowns {items : List ContextItem} {u : ContextUnknown} :
    u ∈ (resolveCandidates items).supersessionUnknowns ↔ ∃ kind,
      isSupersessionKind kind = true ∧ u ∈ supersessionUnknowns kind (ofKindIn kind items) := by
  show u ∈ (applySupersession items).2 ↔ _
  unfold applySupersession
  rw [List.mem_flatMap]
  constructor
  · rintro ⟨⟨kind, members⟩, hgroup, hu⟩
    obtain ⟨-, rfl⟩ := (mem_groupBy _).mp hgroup
    split at hu
    · next hkind => exact ⟨kind, hkind, hu⟩
    · cases hu
  · rintro ⟨kind, hkind, hu⟩
    by_cases hmem : kind ∈ items.map ContextItem.contextKind
    · refine ⟨(kind, ofKindIn kind items), (mem_groupBy _).mpr ⟨hmem, rfl⟩, ?_⟩
      rw [if_pos hkind]
      exact hu
    · have hnone : ofKindIn kind items = [] := by
        refine List.filter_eq_nil_iff.mpr fun item hitem hkind' => hmem ?_
        rw [← of_decide_eq_true hkind']
        exact List.mem_map_of_mem hitem
      rw [hnone] at hu
      cases hu

/-- What a requirement leaves to record. -/
inductive SelectionUnknown (resolution : SnapshotResolution) (r : ContextRequirement) :
    ContextUnknown → Prop
  | supersession (u : ContextUnknown)
      (h : u ∈ (requirementView resolution r).supersessionUnknowns) :
      SelectionUnknown resolution r u
  | conflict (entry : (ContextKind × String) × GroupResolution)
      (h : entry ∈ conflictGroups (requirementView resolution r)) :
      SelectionUnknown resolution r (requirementConflict r entry)
  | shortfall (reason : UnknownReasonCode) (details : List (String × Json))
      (h : reason = .budgetInsufficient ∨ reason = .missingRequiredContext) :
      SelectionUnknown resolution r
        (.create (some r.requirementId) none reason details (materialityFor r) [])

theorem SelectionUnknown.valid {resolution : SnapshotResolution} {r : ContextRequirement}
    {u : ContextUnknown} (h : SelectionUnknown resolution r u) : u.Valid := by
  cases h with
  | supersession _ h =>
      obtain ⟨kind, -, hu⟩ := mem_view_unknowns.mp h
      exact (mem_supersessionUnknowns hu).2
  | conflict => rfl
  | shortfall => rfl

theorem mem_shortfall {requirement : ContextRequirement} {state : LoopState}
    {stop : Option BudgetStop} {disposedKeys : List String} {short : List ContextUnknown}
    (h : shortfall requirement state stop disposedKeys = .ok short) {u : ContextUnknown}
    (hu : u ∈ short) : ∃ reason details,
      (reason = .budgetInsufficient ∨ reason = .missingRequiredContext)
      ∧ u = .create (some requirement.requirementId) none reason details
        (materialityFor requirement) [] := by
  unfold shortfall at h
  split at h
  · cases h
    cases hu
  · unfold disposeUnsatisfied at h
    cases hpolicy : requirement.missingPolicy with
    | block =>
        rw [hpolicy] at h
        cases h
    | optional =>
        rw [hpolicy] at h
        cases stop with
        | none =>
            cases h
            cases hu
        | some stop =>
            obtain rfl := Except.ok.inj h
            exact ⟨.budgetInsufficient, _, .inl rfl, List.mem_singleton.mp hu⟩
    | preserveUnknown =>
        rw [hpolicy] at h
        obtain rfl := Except.ok.inj h
        cases stop with
        | none => exact ⟨.missingRequiredContext, _, .inr rfl, List.mem_singleton.mp hu⟩
        | some stop => exact ⟨.budgetInsufficient, _, .inl rfl, List.mem_singleton.mp hu⟩

/-- A requirement that preserves unknowns and is not satisfied leaves one. -/
theorem shortfall_unsatisfied {requirement : ContextRequirement} {state : LoopState}
    {stop : Option BudgetStop} {disposedKeys : List String} {short : List ContextUnknown}
    (h : shortfall requirement state stop disposedKeys = .ok short)
    (hpolicy : requirement.missingPolicy = .preserveUnknown)
    (hnot : satisfied requirement state.selectedCount state.selectedKeys disposedKeys stop.isSome
      = false) :
    ∃ reason details, (reason = .budgetInsufficient ∨ reason = .missingRequiredContext)
      ∧ ContextUnknown.create (some requirement.requirementId) none reason details
        (materialityFor requirement) [] ∈ short := by
  unfold shortfall disposeUnsatisfied at h
  rw [hnot, hpolicy] at h
  obtain rfl := Except.ok.inj h
  cases stop with
  | none => exact ⟨.missingRequiredContext, _, .inr rfl, List.mem_singleton_self _⟩
  | some stop => exact ⟨.budgetInsufficient, _, .inl rfl, List.mem_singleton_self _⟩

theorem selectFor_unknown {budget : ContextBudget} {resolution : SnapshotResolution}
    {r : ContextRequirement} {before after : Selection} {unknowns : List ContextUnknown}
    (h : selectFor budget resolution r before = .ok (after, unknowns)) {u : ContextUnknown}
    (hu : u ∈ unknowns) : SelectionUnknown resolution r u := by
  obtain ⟨state, stop, short, -, hshort, -, rfl⟩ := selectFor_ok h
  rcases List.mem_append.mp hu with hu | hu
  · rcases List.mem_append.mp hu with hu | hu
    · exact .supersession u hu
    · obtain ⟨entry, hentry, rfl⟩ := List.mem_map.mp hu
      exact .conflict entry hentry
  · obtain ⟨reason, details, hreason, rfl⟩ := mem_shortfall hshort hu
    exact .shortfall reason details hreason

/-! ## The unknowns of a finished context -/

/-- The gaps a compile records over its selection, capabilities first. -/
def gapUnknowns (inputs : CompileInputs) (selected : List ContextItem) : List ContextUnknown :=
  (compileCapabilities inputs.intent inputs.activation inputs.kernels selected).2
    ++ (compileAuthority inputs.intent inputs.scope inputs.activation inputs.kernels selected
      inputs.defaultAuthorityOrder).2

/-- The gaps are written last. -/
theorem exists_mem_unknowns_of_gap {inputs : CompileInputs}
    {selectionUnknowns : List ContextUnknown} {selected : List ContextItem} {u : ContextUnknown}
    (h : u ∈ gapUnknowns inputs selected) :
    ∃ v ∈ (assembleContext inputs selectionUnknowns selected).unresolvedUnknowns,
      v ∈ gapUnknowns inputs selected ∧ v.unknownId = u.unknownId := by
  rw [assembleContext_unknowns, contributedUnknowns, List.append_assoc]
  exact exists_mem_dedupe_append h

/-- The unknowns of decisions whose status is unknown. -/
theorem mem_unknownStatusDecisions {selected : List ContextItem} {u : ContextUnknown}
    (h : u ∈ unknownStatusDecisions selected) : u.requirementRef = none ∧ u.Valid := by
  obtain ⟨item, -, h⟩ := List.mem_filterMap.mp h
  split at h
  · split at h
    · rw [← Option.some.inj h]
      exact ⟨rfl, rfl⟩
    · cases h
  · cases h

/-- A gap is a capability that is not available or an authority that is
not granted. -/
theorem mem_gapUnknowns {inputs : CompileInputs} {selected : List ContextItem}
    {u : ContextUnknown} (h : u ∈ gapUnknowns inputs selected) :
    (∃ id state, u = capabilityUnknown id state) ∨ ∃ r state, u = authorityUnknown r state := by
  rcases List.mem_append.mp h with h | h
  · obtain ⟨r, -, hr⟩ := List.mem_filterMap.mp h
    dsimp only at hr
    split at hr
    · cases hr
    · exact .inl ⟨_, _, (Option.some.inj hr).symm⟩
  · obtain ⟨r, -, hr⟩ := List.mem_filterMap.mp h
    dsimp only at hr
    split at hr
    · cases hr
    · exact .inr ⟨_, _, (Option.some.inj hr).symm⟩

/-- A shortfall of a requirement of the plan is on record in the finished
context, with the requirement's materiality: nothing written after it
has its id and another requirement's. -/
theorem shortfall_recorded (hsha : Sha256.Injective) {inputs : CompileInputs}
    (hplan : inputs.requirementPlan.Valid) {selection : Selection}
    {unknowns : List ContextUnknown}
    (hselect : selectAll inputs.requirementPlan.globalBudget inputs.resolution
      inputs.requirementPlan.requirements .empty = .ok (selection, unknowns))
    {r : ContextRequirement} (hr : r ∈ inputs.requirementPlan.requirements)
    {reason : UnknownReasonCode} {details : List (String × Json)}
    (hreason : reason = .budgetInsufficient ∨ reason = .missingRequiredContext)
    (hu : ContextUnknown.create (some r.requirementId) none reason details (materialityFor r) []
      ∈ unknowns) :
    ∃ u ∈ (assembleContext inputs unknowns selection.selected).unresolvedUnknowns,
      u.requirementRef = some r.requirementId ∧ u.reasonCode = reason
        ∧ u.materiality = materialityFor r := by
  have hcontributed : contributedUnknowns inputs unknowns selection.selected
      = (inputs.scope.unresolvedUnknowns ++ inputs.discovery.unresolvedUnknowns)
        ++ (unknowns ++ (unknownStatusDecisions selection.selected
          ++ gapUnknowns inputs selection.selected)) := by
    simp only [contributedUnknowns, gapUnknowns, List.append_assoc]
  rw [assembleContext_unknowns, hcontributed]
  obtain ⟨u, hmem, hlater, hid⟩ := exists_mem_dedupe_append (List.mem_append_left _ hu)
  refine ⟨u, hmem, ?_⟩
  have hsame : u.Valid → u.requirementRef = some r.requirementId ∧ u.reasonCode = reason :=
    fun hvalid => by
      have hsame := sameIdentity_of_id hsha hvalid (ContextUnknown.create_valid ..) hid
      exact ⟨hsame.requirementRef, hsame.reasonCode⟩
  have hbound : u.Valid → u.requirementRef ≠ none := fun hvalid hnone => by
    rw [(hsame hvalid).1] at hnone
    cases hnone
  rcases List.mem_append.mp hlater with hlater | hlater
  · obtain ⟨r', hr', before, after, first, hfor, hfirst⟩ := mem_selectAll_unknowns hselect hlater
    have horigin := selectFor_unknown hfor hfirst
    obtain ⟨href, hcode⟩ := hsame horigin.valid
    refine ⟨href, hcode, ?_⟩
    cases horigin with
    | supersession _ h =>
        obtain ⟨kind, -, hview⟩ := mem_view_unknowns.mp h
        rw [(mem_supersessionUnknowns hview).1] at href
        cases href
    | conflict =>
        have hconflict : UnknownReasonCode.conflictingGovernedClaims = reason := hcode
        subst hconflict
        rcases hreason with hreason | hreason <;> cases hreason
    | shortfall =>
        -- ids of the plan are distinct, so this is the same requirement
        have hrequirement : r'.requirementId = r.requirementId := Option.some.inj href
        rw [List.inj_on_of_nodup_map hplan.ids_nodup hr' hr hrequirement]
        rfl
  · rcases List.mem_append.mp hlater with hlater | hlater
    · obtain ⟨hnone, hvalid⟩ := mem_unknownStatusDecisions hlater
      exact absurd hnone (hbound hvalid)
    · rcases mem_gapUnknowns hlater with ⟨id, state, rfl⟩ | ⟨r', state, rfl⟩
      · exact absurd rfl (hbound rfl)
      · exact absurd rfl (hbound rfl)

/-! ## The items of a finished context -/

/-- The buckets of a finished context hold the selection between them. -/
theorem mem_assembled_items {inputs : CompileInputs} {selectionUnknowns : List ContextUnknown}
    {selected : List ContextItem} {item : ContextItem} :
    item ∈ (assembleContext inputs selectionUnknowns selected).selectedItems
      ↔ item ∈ selected := by
  unfold CompiledTaskContext.selectedItems
  rw [assembleContext_capabilities, assembleContext_authority]
  simp only [assembleContext, compileCapabilities, compileAuthority, ofKind,
    capabilityFactsIn, authorityFactsIn, List.mem_append, List.mem_filter, decide_eq_true_eq]
  constructor
  · intro h
    simp only [← and_or_left] at h
    exact h.1
  · intro h
    obtain ⟨id, key, level, source, mode, refs, because, claim⟩ := item
    simp only [h, true_and, ContextItem.contextKind, ContextItem.capabilityFact?,
      ContextItem.authorityFact?]
    cases claim with
    | capabilityFact c => obtain ⟨_, state, _⟩ := c; cases state <;> simp [Claim.kind]
    | authorityFact c => obtain ⟨_, state, _, _, _⟩ := c; cases state <;> simp [Claim.kind]
    | _ => simp [Claim.kind]

end Unknowns

end CognitiveRuntime
