import CognitiveRuntime.Properties.Displacement
import CognitiveRuntime.Properties.Snapshotless

/-!
# Snapshots that nothing contests

Where every candidate has a key of its own, no consumer of a snapshot can
find a conflict and no capability can be proven both ways. Such a
snapshot compiles from the shipped pack for every mission, and what its
requirements match they select as far as the budget goes.
-/

namespace CognitiveRuntime

open Ordered Fallible

section Uncontested

variable [Sha256]

/-- The snapshot is within the ceilings, a key stands for one candidate,
and a repository state has a source that verified it. -/
structure ContextSnapshot.Uncontested (s : ContextSnapshot) : Prop where
  withinCeilings : WithinCeilings s.toSnapshotBuckets
  keys : ∀ a ∈ s.allItems, ∀ b ∈ s.allItems, groupKey a = groupKey b → a = b
  verified : ∀ c ∈ s.allItems, c.contextKind = .repositoryState →
    c.authorityLevel ≠ .unverified

variable {snapshot : ContextSnapshot} {inputs : CompileInputs} {selection : Selection}
  {unknowns : List ContextUnknown}

theorem mem_candidates (hresolution : inputs.resolution = resolveSnapshot
    snapshot.toSnapshotBuckets) {c : ContextItem} :
    c ∈ inputs.resolution.candidates ↔ c ∈ snapshot.allItems := by
  rw [hresolution]
  exact mem_sortedBy _

/-- No consumer of the snapshot finds a conflict. -/
theorem ContextSnapshot.Uncontested.unseen (h : snapshot.Uncontested)
    (hresolution : inputs.resolution = resolveSnapshot snapshot.toSnapshotBuckets)
    {key : ContextKind × String} : ¬ConflictSeen inputs key := by
  rintro ⟨eligible, -, entry, hentry, -⟩
  have hnone : conflictGroups (inputs.resolution.resolve eligible) = [] :=
    conflictGroups_of_distinct_keys fun a ha b hb =>
      h.keys a ((mem_candidates hresolution).mp (List.mem_filter.mp ha).1)
        b ((mem_candidates hresolution).mp (List.mem_filter.mp hb).1)
  rw [hnone] at hentry
  cases hentry

/-- No capability is selected as available and as unavailable. -/
theorem ContextSnapshot.Uncontested.capabilities (h : snapshot.Uncontested)
    (hresolution : inputs.resolution = resolveSnapshot snapshot.toSnapshotBuckets)
    (hrun : FinishedRun inputs selection unknowns) :
    contradictoryCapabilities (assembleContext inputs unknowns selection.selected) = [] := by
  unfold contradictoryCapabilities
  rw [sortedUnique_eq_nil, List.filter_eq_nil_iff]
  intro id havailable hunavailable
  obtain ⟨a, ha, fact, hfact, rfl⟩ := mem_capabilityIds.mp havailable
  obtain ⟨b, hb, fact', hfact', hid⟩ := mem_capabilityIds.mp (of_decide_eq_true hunavailable)
  obtain ⟨hin, f, hf, hstate⟩ := mem_capabilityFactsIn.mp ha
  obtain ⟨hin', f', hf', hstate'⟩ := mem_capabilityFactsIn.mp hb
  obtain rfl : fact = f := Claim.capabilityFact.inj (hfact.symm.trans hf)
  obtain rfl : fact' = f' := Claim.capabilityFact.inj (hfact'.symm.trans hf')
  obtain ⟨c, hc, hfrom⟩ := hrun.selected_from (mem_assembled_items.mpr hin)
  obtain ⟨c', hc', hfrom'⟩ := hrun.selected_from (mem_assembled_items.mpr hin')
  rw [hfrom] at hfact
  rw [hfrom'] at hfact'
  change c.claim = _ at hfact
  change c'.claim = _ at hfact'
  -- one key, so one candidate and one state
  have hkey : groupKey c = groupKey c' := by
    unfold groupKey ContextItem.contextKind
    rw [(hrun.valid c hc).key_recipe, (hrun.valid c' hc').key_recipe, hfact, hfact']
    exact Prod.ext rfl hid.symm
  obtain rfl := h.keys c ((mem_candidates hresolution).mp hc) c'
    ((mem_candidates hresolution).mp hc') hkey
  obtain rfl : fact = fact' := Claim.capabilityFact.inj (hfact.symm.trans hfact')
  rw [hstate] at hstate'
  cases hstate'

/-- From the shipped pack every mission compiles over a snapshot that
nothing contests. -/
theorem uncontested_compiles [TextTables] (hsha : Sha256.Injective) {pack : RuntimePack}
    (hpack : pack.Ships) (request : CompileRequest) (hmission : request.mission ≠ "")
    (h : snapshot.Uncontested) :
    ∃ root, compileRoot request pack (some snapshot) .standard none = .ok root := by
  obtain ⟨prepared, hprepared, hactivated, hneeds, -, hscope, hresolution⟩ :=
    prepares_shipped hsha hpack request hmission (some snapshot) h.withinCeilings
  have hquiet : QuietScope prepared.compileInputs.scope := by
    show QuietScope prepared.scope
    rw [hscope]
    exact compileScope_quiet _
  have hfrom : prepared.compileInputs.resolution
      = resolveSnapshot snapshot.toSnapshotBuckets := hresolution
  obtain ⟨root, -, hroot⟩ := compileRoot_of_settled hsha hprepared hactivated hneeds hscope
    fun selection unknowns hrun => by
      refine ⟨fun item hitem ⟨hkind, hlevel⟩ => ?_, h.capabilities hfrom hrun, ?_⟩
      · obtain ⟨c, hc, hsame⟩ := hrun.selected_from hitem
        rw [hsame] at hkind hlevel
        exact h.verified c ((mem_candidates hfrom).mp hc) hkind hlevel
      · exact (selectedConflicts_eq_nil_iff hsha hrun hquiet).mpr
          fun key hseen => absurd hseen (h.unseen hfrom)
  exact ⟨root, hroot⟩

/-- What a requirement for everything matches it selects, where no bound
stops it. -/
theorem ContextSnapshot.Uncontested.selected (hsha : Sha256.Injective) (h : snapshot.Uncontested)
    (hresolution : inputs.resolution = resolveSnapshot snapshot.toSnapshotBuckets)
    (hrun : FinishedRun inputs selection unknowns) (hample : AmpleBudget inputs)
    {r : ContextRequirement} (hr : r ∈ inputs.requirementPlan.requirements)
    (hcoverage : r.coverageMode = .allEligible) {c : ContextItem} (hc : c ∈ snapshot.allItems)
    (hkind : isSupersessionKind c.contextKind = false) (hmatch : matchesRequirement r c = true) :
    ∃ reasons, c.withSelection reasons
      ∈ (assembleContext inputs unknowns selection.selected).selectedItems := by
  have hfrontier : c ∈ selectionFrontier inputs.resolution r := by
    unfold selectionFrontier
    rw [frontierFrom_allEligible hcoverage]
    refine (mem_eligible_of_distinct_keys fun a ha b hb => ?_).mpr (mem_leftOver_of_kind
      (List.mem_filter.mpr ⟨(mem_candidates hresolution).mpr hc, hmatch⟩) hkind)
    exact h.keys a ((mem_candidates hresolution).mp (List.mem_filter.mp ha).1)
      b ((mem_candidates hresolution).mp (List.mem_filter.mp hb).1)
  obtain ⟨item, hitem, hkey⟩ := hrun.frontier_selected hsha hample hr hfrontier
  obtain ⟨c', hc', hfrom⟩ := hrun.selected_from hitem
  have hsame : c' = c := by
    refine h.keys c' ((mem_candidates hresolution).mp hc') c hc ?_
    rw [← hkey, hfrom]
    rfl
  rw [hsame] at hfrom
  exact ⟨_, hfrom ▸ hitem⟩

end Uncontested

end CognitiveRuntime
