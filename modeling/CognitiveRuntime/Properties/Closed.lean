import CognitiveRuntime.Compiler.Closure
import CognitiveRuntime.Properties.Selected

/-!
# What closure proves

The eleven checks of a context that closes, one field each, and what
they say about every single item and requirement.
-/

namespace CognitiveRuntime

open Ordered Fallible

section Closed

variable [Sha256]

/-- A capability is available by one selected fact and unavailable by
another. -/
def contradictoryCapabilities (context : CompiledTaskContext) : List String :=
  sortedUnique ((capabilityIds context.capabilities.available).filter
    (· ∈ capabilityIds context.capabilities.unavailable))

/-- The eleven checks hold. -/
structure Closed (context : CompiledTaskContext) (plan : ContextRequirementPlan)
    (resolution : SnapshotResolution) (kernels : List KernelBinding) : Prop where
  disposed : undisposedRequirements context plan = []
  provenance : ∀ item ∈ context.selectedItems,
    (item.isGoverned = true → item.sourceRef.hasImmutableProvenance = true)
      ∧ ¬(item.contextKind = .repositoryState ∧ item.authorityLevel = .unverified)
  identity : ∀ item ∈ context.selectedItems,
    item.semanticKey = item.claim.expectedSemanticKey ∧ item.itemId = item.expectedItemId
  relevance : ∀ item ∈ context.selectedItems, item.selectedBecause ≠ []
    ∧ ∀ id ∈ item.selectedBecause, id ∈ plan.requirements.map ContextRequirement.requirementId
  kernels : context.selectedKernels = kernels.map KernelBinding.toDict
  conflicts : silentConflicts context plan resolution = []
  memory : ∀ item ∈ context.selectedItems, item.contextKind = .memoryContext →
    (∀ id ∈ item.selectedBecause, id ∈ (plan.requirements.filter fun r =>
        r.contextKind = .memoryContext).map ContextRequirement.requirementId)
      ∧ item.isGoverned = false
  gaps : undisposedCapabilities context = [] ∧ undisposedAuthorities context = []
    ∧ contradictoryCapabilities context = [] ∧ context.authority.effectiveOrder ≠ []
  budgets : budgetBreaches context plan resolution = []
    ∧ context.selectedItems.length ≤ plan.globalBudget.maxTotalItems
    ∧ totalCost context.selectedItems ≤ plan.globalBudget.maxTotalBytes
  coverage : coverageBreaches context plan resolution = []
  unknowns : ∀ u ∈ context.unresolvedUnknowns, u.unknownId = u.expectedUnknownId
    ∧ (∀ ref, u.requirementRef = some ref → ref ≠ "" →
      ref ∈ plan.requirements.map ContextRequirement.requirementId)
    ∧ ∀ r ∈ plan.requirements, u.requirementRef = some r.requirementId →
      r.missingPolicy = .optional → r.required = false

omit [Sha256] in
theorem filter_eq_nil_iff_forall {α : Type} {p : α → Bool} {l : List α} :
    l.filter p = [] ↔ ∀ a ∈ l, p a = false := by
  simp only [List.filter_eq_nil_iff, Bool.not_eq_true]

/-- Closure returns exactly where the eleven checks hold. -/
theorem validateClosure_ok_iff {context : CompiledTaskContext} {plan : ContextRequirementPlan}
    {resolution : SnapshotResolution} {kernels : List KernelBinding}
    {report : ContextClosureReport} :
    validateClosure context plan resolution kernels = .ok report ↔
      Closed context plan resolution kernels
        ∧ report = { checks := contextChecks, passed := true } := by
  simp only [validateClosure, bind_eq_ok, ensure_eq_ok, decide_eq_true_eq, exists_const,
    Except.ok.injEq, filter_eq_nil_iff_forall, Bool.and_eq_false_iff, Bool.not_eq_false',
    decide_eq_false_iff_not, ne_eq, not_not, List.any_eq_false, List.mem_filter, and_imp,
    Option.any_eq_false, not_and]
  constructor
  · rintro ⟨hdisposed, ⟨hprovenance, hstate⟩, ⟨hkeys, hids⟩, ⟨hreasons, hplanned⟩, hkernels,
      hconflicts, ⟨hleaked, hgoverned⟩, hgaps, hbudgets, hcoverage, ⟨hbound, hstable, hpolicy⟩,
      hreport⟩
    refine ⟨⟨hdisposed, fun item h => ⟨fun hg => ?_, ?_⟩, fun item h => ⟨hkeys item h, hids item h⟩,
      fun item h => ⟨hreasons item h, hplanned item h⟩, hkernels, hconflicts,
      fun item h hkind => ⟨hleaked item h hkind, hgoverned item h hkind⟩, hgaps, hbudgets,
      hcoverage, fun u h => ⟨hstable u h, ?_, ?_⟩⟩, hreport.symm⟩
    · exact (hprovenance item h).resolve_left (by simp [hg])
    · rintro ⟨hkind, hlevel⟩
      exact (hstate item h).elim (fun h => h hkind) fun h => h hlevel
    · exact fun ref href => hbound u h ref href
    · intro r hr href hoptional
      simpa [href, hoptional] using hpolicy u h r hr
  · rintro ⟨h, hreport⟩
    refine ⟨h.disposed, ⟨fun item hitem => ?_, fun item hitem => ?_⟩,
      ⟨fun item hitem => (h.identity item hitem).1, fun item hitem => (h.identity item hitem).2⟩,
      ⟨fun item hitem => (h.relevance item hitem).1,
        fun item hitem => (h.relevance item hitem).2⟩, h.kernels, h.conflicts,
      ⟨fun item hitem hkind => (h.memory item hitem hkind).1,
        fun item hitem hkind => (h.memory item hitem hkind).2⟩, h.gaps, h.budgets, h.coverage,
      ⟨fun u hu => (h.unknowns u hu).2.1, fun u hu => (h.unknowns u hu).1, fun u hu r hr => ?_⟩,
      hreport.symm⟩
    · cases hg : item.isGoverned with
      | false => exact .inl rfl
      | true => exact .inr ((h.provenance item hitem).1 hg)
    · exact not_and_or.mp (h.provenance item hitem).2
    · have hpolicy := (h.unknowns u hu).2.2 r hr
      simp only [Bool.and_eq_true, decide_eq_true_eq]
      rintro ⟨⟨href, hoptional⟩, hrequired⟩
      rw [hpolicy href hoptional] at hrequired
      cases hrequired

/-! ## What is bound was eligible -/

variable {context : CompiledTaskContext} {plan : ContextRequirementPlan}
  {resolution : SnapshotResolution} {kernels : List KernelBinding} {r : ContextRequirement}

omit [Sha256] in
theorem mem_boundItems {item : ContextItem} :
    item ∈ boundItems context r ↔
      item ∈ context.selectedItems ∧ r.requirementId ∈ item.selectedBecause := by
  unfold boundItems
  rw [List.mem_filter, decide_eq_true_eq]

omit [Sha256] in
theorem mem_settledItems {view : ResolvedCandidates} {item : ContextItem} :
    item ∈ settledItems view ↔ item ∈ eligibleItems view := by
  rw [mem_eligibleItems]
  unfold settledItems
  simp only [List.mem_flatMap, List.mem_filter, Bool.not_eq_true', and_assoc]

omit [Sha256] in
theorem perm_settledItems (view : ResolvedCandidates) :
    (settledItems view).Perm (eligibleItems view) := by
  have hgroups : view.sortedGroups.Perm view.groups := perm_sortedBy _ _
  exact ((hgroups.symm.filter _).flatMap_right _).trans (perm_sortedBy _ _).symm

omit [Sha256] in
theorem mem_eligibleIds {view : ResolvedCandidates} {id : String} :
    id ∈ (eligibleKeys view).map Prod.fst ↔ ∃ e ∈ eligibleItems view, e.itemId = id := by
  unfold eligibleKeys dictOf
  rw [map_key_dedupeLast, mem_sortedUnique]
  simp only [List.mem_map, Prod.exists, Prod.mk.injEq, exists_and_right, exists_eq_right,
    mem_settledItems]
  constructor
  · rintro ⟨key, e, he, hid, -⟩
    exact ⟨e, he, hid⟩
  · rintro ⟨e, he, hid⟩
    exact ⟨e.semanticKey, e, he, hid, rfl⟩

/-- The coverage check of one requirement. -/
theorem Closed.coverage_of (h : Closed context plan resolution kernels)
    (hr : r ∈ plan.requirements) :
    coverageBreach r (eligibleKeys (requirementView resolution r))
      ((boundItems context r).map ContextItem.itemId)
      ((boundItems context r).map ContextItem.semanticKey)
      (conflictDisposedKeys context resolution r) (budgetStopProven context plan resolution r)
    = none :=
  List.filterMap_eq_nil_iff.mp h.coverage r hr

omit [Sha256] in
/-- A requirement takes only what is eligible for it. -/
theorem taken_eligible {eligible : List (String × String)}
    {taken takenKeys disposedKeys : List String} {truncated : Bool}
    (h : coverageBreach r eligible taken takenKeys disposedKeys truncated = none) {id : String}
    (hid : id ∈ taken) : id ∈ eligible.map Prod.fst := by
  by_contra hnot
  have hineligible : sortedUnique (taken.filter (· ∉ eligible.map Prod.fst)) ≠ [] := by
    intro hnil
    have hmem : id ∈ sortedUnique (taken.filter (· ∉ eligible.map Prod.fst)) :=
      mem_sortedUnique.mpr (List.mem_filter.mpr ⟨hid, decide_eq_true hnot⟩)
    rw [hnil] at hmem
    cases hmem
  unfold coverageBreach at h
  rw [if_pos hineligible] at h
  cases h

omit [Sha256] in
/-- Where certain keys are required, no other key is taken. -/
theorem taken_requested {eligible : List (String × String)}
    {taken takenKeys disposedKeys : List String} {truncated : Bool}
    (h : coverageBreach r eligible taken takenKeys disposedKeys truncated = none)
    (hmode : r.coverageMode = .semanticKeys) {key : String} (hkey : key ∈ takenKeys) :
    key ∈ r.requiredSemanticKeys := by
  by_contra hnot
  have hunrequested : sortedUnique (takenKeys.filter (· ∉ r.requiredSemanticKeys)) ≠ [] :=
    List.ne_nil_of_mem (mem_sortedUnique.mpr (List.mem_filter.mpr ⟨hkey, decide_eq_true hnot⟩))
  unfold coverageBreach at h
  rw [hmode] at h
  dsimp only at h
  rw [if_pos hunrequested] at h
  split at h <;> cases h

/-- What a closed context binds to a requirement has the id of something
eligible for it. -/
theorem Closed.bound_eligible (h : Closed context plan resolution kernels)
    (hr : r ∈ plan.requirements) {item : ContextItem} (hitem : item ∈ boundItems context r) :
    ∃ e ∈ eligibleItems (requirementView resolution r), e.itemId = item.itemId :=
  mem_eligibleIds.mp (taken_eligible (h.coverage_of hr) (List.mem_map_of_mem hitem))

/-- Every selected item of a closed context is bound to a requirement of
the plan. -/
theorem Closed.exists_bound (h : Closed context plan resolution kernels) {item : ContextItem}
    (hitem : item ∈ context.selectedItems) :
    ∃ r ∈ plan.requirements, item ∈ boundItems context r := by
  obtain ⟨hne, hplanned⟩ := h.relevance item hitem
  obtain ⟨id, hid⟩ := List.exists_mem_of_ne_nil _ hne
  obtain ⟨r, hr, rfl⟩ := List.mem_map.mp (hplanned id hid)
  exact ⟨r, hr, mem_boundItems.mpr ⟨hitem, hid⟩⟩

/-- A selected item and the eligible candidate under its id share
everything an id covers. -/
theorem Closed.sameItem (hsha : Sha256.Injective) (h : Closed context plan resolution kernels)
    (hids : ∀ c ∈ resolution.candidates, c.itemId = c.expectedItemId) {item e : ContextItem}
    (hitem : item ∈ context.selectedItems)
    (he : e ∈ eligibleItems (requirementView resolution r)) (hid : e.itemId = item.itemId) :
    SameItem item e :=
  sameItem_of_id hsha (h.identity item hitem).2 (hids e (eligible_matches he).1) hid.symm

end Closed

end CognitiveRuntime
