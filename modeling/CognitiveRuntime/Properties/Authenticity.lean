import CognitiveRuntime.Properties.BudgetProof

/-!
# What closure knows about a selected item

Closure compares selected items with candidates by id. An id covers all
of an item but the authority level, and a set of ids has no repetitions,
so a closed context is authentic up to these two.
-/

namespace CognitiveRuntime

open Ordered Fallible

/-! ## Candidate dictionaries -/

theorem Claim.payload_keys {c d : Claim} (h : c.kind = d.kind) :
    c.payload.map Prod.fst = d.payload.map Prod.fst := by
  cases c <;> cases d <;> first | rfl | cases h

theorem Claim.nodup_payload_keys (c : Claim) : (c.payload.map Prod.fst).Nodup := by
  cases c <;> simp [Claim.payload]

/-- Items of one kind with the same claim have equal claim entries. -/
theorem SameClaim.entries {a b : ContextItem} (h : SameClaim a b)
    (hkind : a.contextKind = b.contextKind) :
    a.claim.payload.map (fun e => (e.1, e.2.normalize))
      = b.claim.payload.map fun e => (e.1, e.2.normalize) := by
  have hkeys := Claim.payload_keys hkind
  have hvalues := Json.values_eq_of_normalize_eq h hkeys a.claim.nodup_payload_keys
  refine List.ext_getElem (by simpa using congrArg List.length hkeys) fun n hn hn' => ?_
  rw [List.length_map] at hn hn'
  have hkey := List.getElem_of_eq hkeys (by rwa [List.length_map])
  have hvalue := List.getElem_of_eq hvalues (by rwa [List.length_map])
  rw [List.getElem_map, List.getElem_map] at hkey hvalue ⊢
  exact Prod.ext hkey hvalue

/-- The dictionary of a candidate is its id, what the id covers, and its
authority level. -/
theorem candidateDict_congr {a b : ContextItem} (hid : a.itemId = b.itemId) (h : SameItem a b)
    (hlevel : a.authorityLevel = b.authorityLevel) :
    a.candidateDict.normalize = b.candidateDict.normalize := by
  have hentries := h.claim.entries h.contextKind
  have hplace := h.applicability
  simp only [ContextItem.applicabilityPayload, Json.obj.injEq, List.cons.injEq, Prod.mk.injEq,
    true_and, and_true, Json.str.injEq, Json.ofStrings_inj] at hplace
  have hkind : a.claim.kind = b.claim.kind := h.contextKind
  unfold ContextItem.candidateDict ContextItem.toJson ContextItem.contextKind
  rw [Json.normalize_obj, Json.normalize_obj, List.map_append, List.map_append, hentries]
  dsimp only
  rw [hid, h.semanticKey, hkind, hlevel, h.sourceRef, hplace.1, hplace.2]

theorem candidateDict_fields {a b : ContextItem}
    (h : a.candidateDict.normalize = b.candidateDict.normalize) :
    a.itemId = b.itemId ∧ a.authorityLevel = b.authorityLevel := by
  have hid := Json.field_of_normalize_eq h "item_id"
  have hlevel := Json.field_of_normalize_eq h "authority_level"
  simp [Json.field, AuthorityLevel.value_inj] at hid hlevel
  exact ⟨hid, hlevel⟩

/-! ## Authentic selections -/

section Authenticity

variable [Sha256]

/-- Every selected item is a candidate but for its selection lineage, and
selected once. -/
def Authentic (context : CompiledTaskContext) (resolution : SnapshotResolution) : Prop :=
  (∀ item ∈ context.selectedItems, ∃ c ∈ resolution.candidates,
      item.candidateDict.normalize = c.candidateDict.normalize)
    ∧ (context.selectedItems.map ContextItem.itemId).Nodup

/-- Every selected item has the authority level of a candidate under its
id, and no id is selected twice. -/
def LevelsHeld (context : CompiledTaskContext) (resolution : SnapshotResolution) : Prop :=
  (∀ item ∈ context.selectedItems, ∃ c ∈ resolution.candidates,
      c.itemId = item.itemId ∧ c.authorityLevel = item.authorityLevel)
    ∧ (context.selectedItems.map ContextItem.itemId).Nodup

/-- Closure binds everything of a selected item but its level. -/
theorem authentic_iff (hsha : Sha256.Injective) {context : CompiledTaskContext}
    {plan : ContextRequirementPlan} {resolution : SnapshotResolution}
    {kernels : List KernelBinding}
    (hids : ∀ c ∈ resolution.candidates, c.itemId = c.expectedItemId)
    (h : Closed context plan resolution kernels) :
    Authentic context resolution ↔ LevelsHeld context resolution := by
  constructor
  · rintro ⟨hcandidates, honce⟩
    refine ⟨fun item hitem => ?_, honce⟩
    obtain ⟨c, hc, hdict⟩ := hcandidates item hitem
    obtain ⟨hid, hlevel⟩ := candidateDict_fields hdict
    exact ⟨c, hc, hid.symm, hlevel.symm⟩
  · rintro ⟨hlevels, honce⟩
    refine ⟨fun item hitem => ?_, honce⟩
    obtain ⟨c, hc, hid, hlevel⟩ := hlevels item hitem
    have hsame := sameItem_of_id hsha (h.identity item hitem).2 (hids c hc) hid.symm
    exact ⟨c, hc, candidateDict_congr hid.symm hsame hlevel.symm⟩

/-- Every selected item of a closed context is a candidate for one of its
requirements but for its lineage and its level. -/
theorem Closed.selected_from (hsha : Sha256.Injective) {context : CompiledTaskContext}
    {plan : ContextRequirementPlan} {resolution : SnapshotResolution}
    {kernels : List KernelBinding}
    (hids : ∀ c ∈ resolution.candidates, c.itemId = c.expectedItemId)
    (h : Closed context plan resolution kernels) {item : ContextItem}
    (hitem : item ∈ context.selectedItems) :
    ∃ r ∈ plan.requirements, r.requirementId ∈ item.selectedBecause
      ∧ ∃ c ∈ resolution.candidates, matchesRequirement r c = true ∧ c.itemId = item.itemId
        ∧ SameItem item c := by
  obtain ⟨r, hr, hbound⟩ := h.exists_bound hitem
  obtain ⟨c, hc, hid⟩ := h.bound_eligible hr hbound
  obtain ⟨hcandidate, hmatches⟩ := eligible_matches hc
  exact ⟨r, hr, (mem_boundItems.mp hbound).2, c, hcandidate, hmatches, hid,
    h.sameItem hsha hids hitem hc hid⟩

/-- A selected item of a closed context shares all that an id covers with
a candidate for one of its requirements; the context is authentic exactly
where it holds the levels of its candidates and selects no id twice. -/
theorem closure_authentic_iff (hsha : Sha256.Injective) (context : CompiledTaskContext)
    (plan : ContextRequirementPlan) (resolution : SnapshotResolution)
    (kernels : List KernelBinding) (report : ContextClosureReport)
    (hids : ∀ c ∈ resolution.candidates, c.itemId = c.expectedItemId)
    (hvalidate : validateClosure context plan resolution kernels = .ok report) :
    (∀ item ∈ context.selectedItems, ∃ r ∈ plan.requirements,
      r.requirementId ∈ item.selectedBecause ∧ ∃ c ∈ resolution.candidates,
        matchesRequirement r c = true ∧ c.itemId = item.itemId ∧ SameItem item c)
    ∧ (Authentic context resolution ↔ LevelsHeld context resolution) := by
  have hclosed := (validateClosure_ok_iff.mp hvalidate).1
  exact ⟨fun item hitem => hclosed.selected_from hsha hids hitem, authentic_iff hsha hids hclosed⟩

end Authenticity

/-! ## A level raised after the fact -/

section Raised

attribute [local instance] Sha256.transparent

/-- The first service with some authority level. -/
def ranked (level : AuthorityLevel) : ContextItem := { service "auth" with authorityLevel := level }

/-- The catalog's one service, which it only informs of. -/
def rankedResolution : SnapshotResolution := { candidates := [ranked .informative] }

theorem ranked_valid (level : AuthorityLevel) : (ranked level).Valid := by
  have hservice : (service "auth").Valid := services_valid _ (List.mem_cons_self ..)
  exact { hservice with
    governed_provenance := fun _ => rfl
    memory_ceiling := fun h => by cases h }

theorem ranked_cost (level : AuthorityLevel) : (ranked level).canonicalCost ≤ 131072 := by
  have hunselected : (ranked level).candidateDict = (ranked level).toJson := rfl
  unfold ContextItem.canonicalCost
  rw [hunselected, Json.size_normalize, ContextItem.size_transparent (ranked_valid level).id_recipe]
  cases level <;> decide +kernel

/-- Closure accepts the service at any level. -/
theorem ranked_closed (level : AuthorityLevel) :
    Closed (servicesContext [ranked level] []) servicesPlan rankedResolution [] := by
  have hview : requirementView rankedResolution servicesRequirement
      = resolveCandidates [ranked .informative] := rfl
  have hkeys : ∀ a ∈ [ranked .informative], ∀ b ∈ [ranked .informative],
      groupKey a = groupKey b → a = b := by
    intro a ha b hb _
    rw [List.mem_singleton.mp ha, List.mem_singleton.mp hb]
  have heligible : ∀ id, id ∈ (eligibleKeys (resolveCandidates [ranked .informative])).map Prod.fst
      ↔ id ∈ [ranked level].map ContextItem.itemId := by
    intro id
    rw [mem_eligibleIds]
    constructor
    · rintro ⟨e, he, rfl⟩
      have hleft := (mem_eligible_of_distinct_keys hkeys).mp he
      rw [List.mem_singleton.mp (mem_of_mem_leftOver hleft)]
      exact List.mem_singleton_self _
    · intro hid
      rw [List.mem_singleton.mp hid]
      exact ⟨ranked .informative, (mem_eligible_of_distinct_keys hkeys).mpr
        (mem_leftOver_of_kind (List.mem_singleton_self _) rfl), rfl⟩
  refine services_closed_of (fun w hw => ?_) (hview ▸ conflictGroups_of_distinct_keys hkeys)
    (by simp) (fun w hw => ?_) (hview ▸ coverageBreach_complete rfl heligible)
    (fun u hu => absurd hu List.not_mem_nil)
  · rw [List.mem_singleton.mp hw]
    exact ⟨ranked_valid level, rfl⟩
  · rw [List.mem_singleton.mp hw]
    exact ranked_cost level

/-- The service at its own level is authentic. -/
theorem informative_service_authentic :
    Authentic (servicesContext [ranked .informative] []) rankedResolution := by
  refine (closure_authentic_iff Sha256.transparent_injective _ servicesPlan rankedResolution [] _
    (fun c hc => ?_) (validateClosure_ok_iff.mpr ⟨ranked_closed .informative, rfl⟩)).2.mpr
      ⟨fun item hitem => ?_, ?_⟩
  · rw [List.mem_singleton.mp hc]
    exact (ranked_valid .informative).id_recipe
  · rw [services_selected] at hitem
    rw [List.mem_singleton.mp hitem]
    exact ⟨ranked .informative, List.mem_singleton_self _, rfl, rfl⟩
  · rw [services_selected]
    exact List.nodup_singleton _

/-- A service the catalog only informs of closes as a governed one. -/
theorem raised_service_closes :
    ∃ report, validateClosure (servicesContext [ranked .governedAuthoritative] []) servicesPlan
        rankedResolution [] = .ok report
      ∧ ¬Authentic (servicesContext [ranked .governedAuthoritative] []) rankedResolution := by
  refine ⟨_, validateClosure_ok_iff.mpr ⟨ranked_closed .governedAuthoritative, rfl⟩, fun h => ?_⟩
  obtain ⟨c, hc, hdict⟩ := h.1 _ (by
    rw [services_selected]
    exact List.mem_singleton_self _)
  rw [List.mem_singleton.mp hc] at hdict
  have hlevel := (candidateDict_fields hdict).2
  cases hlevel

end Raised

end CognitiveRuntime
