import CognitiveRuntime.Properties.Permissions
import CognitiveRuntime.Properties.Uncontested

/-!
# No permission without a proof

A compile that returns has a governed fact behind every authority and
capability it does not report as a gap, and a proven negative blocks.
The report is exact the other way too: a missing authority is on record
only where a required one is not granted.
-/

namespace CognitiveRuntime

open Ordered Fallible

section Proven

variable [Sha256]

/-- A compile that returns implies no permission and no capability that
nobody proved, and what is proven refused blocks. -/
theorem permissions_proved [TextTables] (hsha : Sha256.Injective) (request : CompileRequest)
    (pack : RuntimePack) (snapshot : Option ContextSnapshot) (options : RunOptions)
    (expected : Option String) (root : RootCompilation)
    (h : compileRoot request pack snapshot options expected = .ok root) :
    PermissionsProved root.bundle := by
  obtain ⟨prepared, -, hfrom⟩ := compileRoot_ok h
  obtain ⟨selection, unknowns, hselect, hcontext⟩ := compileContext_ok hfrom.context
  have hblocks : ∀ u ∈ root.bundle.taskContext.unresolvedUnknowns,
      u.materiality = .blocking → Blocks root.bundle u := fun u hu hblock =>
    ⟨hu, hblock, blocking_unknown_required hfrom hu hblock⟩
  refine ⟨?_, ?_, ?_, ?_⟩ <;> rw [hcontext] at hblocks ⊢ <;> intro r hr
  · intro hnone
    rcases authority_granted_or_gap hselect hr with hgrant | hgap
    · exact hgrant
    · obtain ⟨u, hu, hrecords, -⟩ := authority_gap_recorded hsha hgap
      exact absurd hrecords (hnone u hu)
  · intro hnone
    rcases capability_available_or_gap hselect hr with hproved | hgap
    · exact hproved
    · obtain ⟨u, hu, hrecords, -⟩ := capability_gap_recorded hsha hgap
      exact absurd hrecords (hnone u hu)
  · intro hstate
    have hgap := authority_gap hr (by rcases hstate with hstate | hstate <;> simp [hstate])
    obtain ⟨u, hu, hrecords, hmateriality⟩ := authority_gap_recorded hsha hgap
    refine ⟨u, hrecords, hblocks u hu ?_⟩
    rw [hmateriality]
    rcases hstate with hstate | hstate <;> rw [hstate] <;> rfl
  · intro hstate
    have hgap := capability_gap hr (by simp [hstate])
    obtain ⟨u, hu, hrecords, hmateriality⟩ := capability_gap_recorded hsha hgap
    refine ⟨u, hrecords, hblocks u hu ?_⟩
    rw [hmateriality, hstate]
    rfl

section Report

variable {inputs : CompileInputs} {selection : Selection} {unknowns : List ContextUnknown}

/-- A missing authority on record is a required one that is not granted. -/
theorem missing_authority_ungranted (hrun : FinishedRun inputs selection unknowns)
    (hscope : inputs.scope = compileScope inputs.intent) {u : ContextUnknown}
    (hu : u ∈ (assembleContext inputs unknowns selection.selected).unresolvedUnknowns)
    (hreason : u.reasonCode = .missingAuthority) :
    ∃ r ∈ (assembleContext inputs unknowns selection.selected).authority.required,
      authorityState (assembleContext inputs unknowns selection.selected) r ≠ .granted
        ∧ u = authorityUnknown r
          (authorityState (assembleContext inputs unknowns selection.selected) r) := by
  rcases List.mem_append.mp (raised_of_recorded hrun.discovery hu) with hu | hu
  · rw [hscope] at hu
    unfold compileScope TaskScope.create at hu
    rcases List.mem_append.mp hu with hu | hu <;> split at hu
    · cases hu
    · obtain rfl := List.mem_singleton.mp hu
      cases hreason
    · obtain rfl := List.mem_singleton.mp hu
      cases hreason
    · cases hu
  rcases List.mem_append.mp hu with hu | hu
  · rcases List.mem_append.mp hu with hu | hu
    · obtain ⟨s, -, rfl⟩ := sighting_of_view hu
      exact absurd hreason (doubt_reason_ne rfl s)
    · obtain ⟨entry, -, rfl⟩ := List.mem_map.mp hu
      cases hreason
  rcases List.mem_append.mp hu with hu | hu
  · obtain ⟨r, -, before, after, first, hfor, hfirst⟩ := mem_selectAll_unknowns hrun.select hu
    cases selectFor_unknown hfor hfirst with
    | supersession _ h =>
        obtain ⟨s, -, rfl⟩ := sighting_of_view h
        exact absurd hreason (doubt_reason_ne rfl s)
    | conflict entry hentry => cases hreason
    | shortfall reason _ h => rcases h with rfl | rfl <;> cases hreason
  rcases List.mem_append.mp hu with hu | hu
  · rw [unknownStatusDecisions_eq] at hu
    obtain ⟨o, -, rfl⟩ := List.mem_map.mp hu
    cases hreason
  rcases List.mem_append.mp hu with hu | hu
  · obtain ⟨r, -, hr⟩ := List.mem_filterMap.mp hu
    dsimp only at hr
    split at hr
    · cases hr
    · rw [← Option.some.inj hr] at hreason
      cases hreason
  · obtain ⟨r, hr, hgap⟩ := List.mem_filterMap.mp hu
    dsimp only at hgap
    split at hgap
    · cases hgap
    · next hstate => exact ⟨r, hr, hstate, (Option.some.inj hgap).symm⟩

end Report

end Proven

/-! ## A repair that may write and may not deliver -/

section Repair

attribute [local instance] Sha256.transparent TextTables.ascii

/-- A request to change the workspace, without hints. -/
def repairRequest : CompileRequest :=
  { mission := "fix the worker queue", taskType := "feature", constraints := []
    desiredOutputs := [], sourceContext := [], unknowns := [] }

/-- A policy's word on an authority, over every subject. -/
def policyFact (authorityId : String) (state : AuthorityState) (actions : List String) :
    ContextItem :=
  .create .governedAuthoritative
    { sourceId := "policy-2", sourceKind := "policy", locator := "policies/access.yaml"
      immutableCoordinate := some "71d0", contentDigest := none }
    .global []
    (.authorityFact { authorityId := authorityId, state := state, subjectRef := none
                      actionScope := actions, precedence := none })

def writeGrant : ContextItem := policyFact "repository_write" .granted []

def deliveryLimit : ContextItem := policyFact "delivery" .limit ["production"]

theorem repair_fact {c : ContextItem} (h : c ∈ [writeGrant, deliveryLimit]) :
    c.Valid ∧ c.contextKind = .authorityFact ∧ c.selectedBecause = [] := by
  rcases List.mem_pair.mp h with rfl | rfl
  · exact ⟨ContextItem.create_valid (by decide) (by decide) (by decide) rfl
      (fun _ => by decide) (fun h => by cases h), rfl, rfl⟩
  · exact ⟨ContextItem.create_valid (by decide) (by decide) (by decide) rfl
      (fun _ => by decide) (fun h => by cases h), rfl, rfl⟩

/-- A policy that grants the write and limits delivery to production. -/
def repairSnapshot : ContextSnapshot where
  toSnapshotBuckets := { SnapshotBuckets.empty with authorityFacts := [writeGrant, deliveryLimit] }
  kinds := by
    simp [SnapshotBuckets.named, SnapshotBuckets.empty, writeGrant, deliveryLimit, policyFact,
      ContextItem.create, ContextItem.contextKind, Claim.kind]
  valid c hc := (repair_fact hc).1
  unselected c hc := (repair_fact hc).2.2

theorem repair_sizes : ∀ c ∈ repairSnapshot.allItems, c.toJson.size ≤ 32000 := by
  intro c hc
  rw [ContextItem.size_transparent (repair_fact hc).1.id_recipe]
  rcases List.mem_pair.mp hc with rfl | rfl
  · decide +kernel
  · decide +kernel

theorem repair_uncontested : repairSnapshot.Uncontested where
  withinCeilings := withinCeilings_of_few (by decide) fun c hc =>
    (repair_sizes c hc).trans (by decide)
  keys a ha b hb hkey := by
    have hkeys : groupKey writeGrant ≠ groupKey deliveryLimit := by decide
    rcases List.mem_pair.mp ha with rfl | rfl <;> rcases List.mem_pair.mp hb with rfl | rfl
    · rfl
    · exact absurd hkey hkeys
    · exact absurd hkey.symm hkeys
    · rfl
  verified c hc hkind := by
    rw [(repair_fact hc).2.1] at hkind
    cases hkind

/-- The repair is a mutation with a delivery, and names no target. -/
theorem repair_objective {intent : IntentContract} (h : deriveIntent repairRequest = .ok intent) :
    intent.objective.realizationMode = .mutation ∧ intent.objective.deliveryRequired = true
      ∧ intent.sourceContext = [] := by
  have hmode : deriveRealizationMode repairRequest.mission = .mutation := by decide
  unfold deriveIntent at h
  rw [hmode] at h
  obtain rfl := Except.ok.inj h
  exact ⟨rfl, rfl, rfl⟩

/-- A compile of the repair, read stage by stage. -/
structure RepairRun (prepared : PreparedContextPlan) (selection : Selection)
    (unknowns : List ContextUnknown) : Prop where
  intent : deriveIntent repairRequest = .ok prepared.intent
  scope : prepared.scope = compileScope prepared.intent
  resolution : prepared.resolution = resolveSnapshot repairSnapshot.toSnapshotBuckets
  planned : PlannedFrom prepared.snapshot prepared.compileInputs
  run : FinishedRun prepared.compileInputs selection unknowns

theorem repair_run : ∃ root prepared selection unknowns,
    compileRoot repairRequest shippedPack (some repairSnapshot) .standard none = .ok root
      ∧ RepairRun prepared selection unknowns
      ∧ root.bundle.taskContext
        = assembleContext prepared.compileInputs unknowns selection.selected := by
  have hmission : repairRequest.mission ≠ "" := by decide
  obtain ⟨root, hroot⟩ := uncontested_compiles Sha256.transparent_injective shippedPack_ships
    repairRequest hmission repair_uncontested
  obtain ⟨prepared, hprepared, -, hneeds, hintent, hscope, hresolution⟩ :=
    prepares_shipped Sha256.transparent_injective shippedPack_ships repairRequest hmission
      (some repairSnapshot) repair_uncontested.withinCeilings
  obtain ⟨prepared', hprepared', hfrom⟩ := compileRoot_ok hroot
  obtain rfl := Except.ok.inj (hprepared.symm.trans hprepared')
  have hplanned := prepareContextPlan_plannedFrom hprepared
  have hunbound : UnboundUnknowns prepared.compileInputs.scope := by
    show UnboundUnknowns prepared.scope
    rw [hscope]
    exact compileScope_unbound _
  obtain ⟨selection, unknowns, hrun, hcontext⟩ :=
    finishedRun_of_compile hplanned hneeds hunbound hfrom.context
  exact ⟨root, prepared, selection, unknowns, hroot, ⟨hintent, hscope, hresolution, hplanned, hrun⟩,
    hcontext⟩

section Run

variable {prepared : PreparedContextPlan} {selection : Selection} {unknowns : List ContextUnknown}

/-- The repair asks for the write and for the delivery, of nothing in
particular. -/
theorem RepairRun.required (h : RepairRun prepared selection unknowns) (authorityId : String)
    (hid : authorityId = "repository_write" ∨ authorityId = "delivery") :
    ∃ r ∈ (assembleContext prepared.compileInputs unknowns selection.selected).authority.required,
      r.authorityId = authorityId ∧ r.subjectRef = none ∧ r.actionScope = [] := by
  obtain ⟨hmode, hdelivery, hhints⟩ := repair_objective h.intent
  have htargets : prepared.scope.targetRefs = [] := by
    rw [h.scope]
    unfold compileScope
    rw [hhints]
    rfl
  have hnamed : namedTargets prepared.scope selection.selected = [] := by
    unfold namedTargets
    refine List.filterMap_eq_nil_iff.mpr fun item _ => ?_
    rw [htargets]
    cases item.repositoryState? <;> simp
  have hsubjects : repositorySubjects prepared.scope selection.selected = [(none, [])] := by
    unfold repositorySubjects
    rw [hnamed, htargets]
    rfl
  rw [assembleContext_authority]
  show ∃ r ∈ authorityRequirements prepared.intent prepared.scope prepared.activation
    prepared.kernels selection.selected, _
  unfold authorityRequirements
  simp only [hmode, hdelivery, hsubjects, if_true, mem_sortedBy, List.mem_append]
  rcases hid with rfl | rfl
  · exact ⟨_, .inl (.inl (List.mem_singleton_self _)), rfl, rfl, rfl⟩
  · exact ⟨_, .inl (.inr (List.mem_singleton_self _)), rfl, rfl, rfl⟩

/-- Both facts of the policy are selected. -/
theorem RepairRun.selects (h : RepairRun prepared selection unknowns) {c : ContextItem}
    (hc : c ∈ [writeGrant, deliveryLimit]) :
    ∃ reasons, c.withSelection reasons ∈ (assembleContext prepared.compileInputs unknowns
      selection.selected).selectedItems := by
  have hplan := h.planned.plan
  obtain ⟨b, hb⟩ := exists_baseline hplan (show isScopedKind .authorityFact = true from rfl)
  have hscope := inGoverningScope_of_mem hplan hb.planned
  have hglobal : b.scopeMode = .global := by
    have heligible : prepared.compileInputs.scope.eligibleRefs = [] := by
      show prepared.scope.eligibleRefs = []
      obtain ⟨-, -, hhints⟩ := repair_objective h.intent
      rw [h.scope]
      unfold compileScope
      rw [hhints]
      rfl
    rw [hscope.mode (by rw [hb.kind_eq]; rfl), heligible]
    rfl
  have hmatch : matchesRequirement b c = true := by
    unfold matchesRequirement scopeMatches freshnessMatches
    rw [hb.kind_eq, hb.floor, hglobal, hscope.freshness]
    rcases List.mem_pair.mp hc with rfl | rfl <;> rfl
  obtain ⟨hcount, hcost⟩ := candidates_small (s := repairSnapshot.toSnapshotBuckets) (by decide)
    (fun c hc => (repair_fact hc).2.2) repair_sizes
  rw [← h.resolution] at hcount hcost
  refine repair_uncontested.selected Sha256.transparent_injective h.resolution h.run
    (ample_of_few hplan hcount hcost) hb.planned hb.coverage hc ?_ hmatch
  rw [(repair_fact hc).2.1]
  rfl

/-- Whatever asks to write is granted. -/
theorem RepairRun.write_granted (h : RepairRun prepared selection unknowns)
    {r : AuthorityRequirement} (hid : r.authorityId = "repository_write") :
    authorityState (assembleContext prepared.compileInputs unknowns selection.selected) r
      = .granted := by
  obtain ⟨reasons, hselected⟩ := h.selects (List.mem_cons_self ..)
  refine if_pos (List.any_eq_true.mpr ⟨writeGrant.withSelection reasons,
    mem_authorityFactsIn.mpr ⟨mem_assembled_items.mp hselected, _, rfl, rfl⟩, ?_⟩)
  exact grantCoversRequirement_iff.mpr ⟨hid.symm, .inl rfl, .inl rfl⟩

/-- Whatever asks to deliver meets the limit and no grant. -/
theorem RepairRun.delivery_limited (h : RepairRun prepared selection unknowns)
    {r : AuthorityRequirement} (hid : r.authorityId = "delivery") (hactions : r.actionScope = []) :
    authorityState (assembleContext prepared.compileInputs unknowns selection.selected) r
      = .limitedWithoutGrant := by
  obtain ⟨reasons, hselected⟩ := h.selects (List.mem_cons_of_mem _ (List.mem_singleton_self _))
  unfold authorityState authorityDisposition
  rw [if_neg, if_pos]
  · exact List.any_eq_true.mpr ⟨deliveryLimit.withSelection reasons,
      mem_authorityFactsIn.mpr ⟨mem_assembled_items.mp hselected, _, rfl, rfl⟩,
      limitBearsOnRequirement_iff.mpr ⟨hid.symm, .inl rfl, .inr (.inl hactions)⟩⟩
  · intro hany
    obtain ⟨item, hitem, hcovers⟩ := List.any_eq_true.mp hany
    obtain ⟨hin, fact, hfact, hgranted⟩ := mem_authorityFactsIn.mp hitem
    obtain ⟨fact', hfact', hcovers⟩ := (Option.any_eq_true _ _).mp hcovers
    obtain rfl : fact = fact' :=
      Claim.authorityFact.inj (hfact.symm.trans (authorityFact?_eq_some.mp hfact'))
    obtain ⟨c, hc, hfrom⟩ := h.run.selected_from (mem_assembled_items.mpr hin)
    have hmem : c ∈ repairSnapshot.allItems := (mem_candidates h.resolution).mp hc
    rw [hfrom] at hfact
    rcases List.mem_pair.mp hmem with rfl | rfl
    · obtain rfl := Claim.authorityFact.inj hfact
      have hother := (grantCoversRequirement_iff.mp hcovers).1.trans hid
      exact absurd hother (by decide)
    · obtain rfl := Claim.authorityFact.inj hfact
      cases hgranted

end Run

/-- The repair compiles with its write granted, and with its delivery
refused and blocked on. -/
theorem repair_permissions_proved : ∃ root,
    compileRoot repairRequest shippedPack (some repairSnapshot) .standard none = .ok root
      ∧ PermissionsProved root.bundle
      ∧ (∃ r ∈ root.bundle.taskContext.authority.required, r.authorityId = "repository_write"
        ∧ HasGrant root.bundle.taskContext r)
      ∧ ∃ r ∈ root.bundle.taskContext.authority.required, r.authorityId = "delivery"
        ∧ authorityState root.bundle.taskContext r = .limitedWithoutGrant
        ∧ ∃ u, RecordsAuthority u r ∧ Blocks root.bundle u := by
  obtain ⟨root, prepared, selection, unknowns, hroot, hrun, hcontext⟩ := repair_run
  have hproved := permissions_proved Sha256.transparent_injective repairRequest shippedPack
    (some repairSnapshot) .standard none root hroot
  obtain ⟨write, hwrite, hwriteId, -, -⟩ := hrun.required "repository_write" (.inl rfl)
  obtain ⟨delivery, hdelivery, hdeliveryId, -, hactions⟩ := hrun.required "delivery" (.inr rfl)
  have hlimited := hrun.delivery_limited hdeliveryId hactions
  rw [← hcontext] at hwrite hdelivery hlimited
  refine ⟨root, hroot, hproved, ⟨write, hwrite, hwriteId, hproved.authority write hwrite
    fun u hu hrecords => ?_⟩, delivery, hdelivery, hdeliveryId, hlimited,
    hproved.refused_authority delivery hdelivery (.inl hlimited)⟩
  -- a gap on record under the write's id would be one that is not granted
  rw [hcontext] at hu
  obtain ⟨r, -, hungranted, rfl⟩ := missing_authority_ungranted hrun.run hrun.scope hu hrecords.reason
  have hauthority : some (Json.str r.authorityId) = some (.str write.authorityId) :=
    hrecords.authority
  exact hungranted (hrun.write_granted
    ((Json.str.inj (Option.some.inj hauthority)).trans hwriteId))

end Repair

end CognitiveRuntime
