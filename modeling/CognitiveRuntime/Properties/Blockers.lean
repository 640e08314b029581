import CognitiveRuntime.Properties.CausalProvenance
import CognitiveRuntime.Properties.Permissions

/-!
# What the merge does to blockers

Of the unknowns raised under one id the last one written is kept, with
its own materiality. Whose materiality can differ under one id:

- sightings of one cycle, as each view reads the members it is eligible
  for and a weaker view may read weaker members under the same ids,
- decisions of unknown status under one key, selected for different
  requirements,
- whatever the scope carries, which is written first.

Nothing else can: a requirement's conflicts and shortfalls all have the
requirement's materiality, and the details of a gap record its state.
-/

namespace CognitiveRuntime

open Ordered Fallible

section Blockers

variable [Sha256]

/-! ## What is raised -/

/-- The unknowns of the discovery view, before they are merged. -/
def discoveryUnknowns (scope : TaskScope) (resolution : SnapshotResolution) :
    List ContextUnknown :=
  let view := resolution.resolve (discoveryEligible scope.eligibleRefs)
  view.supersessionUnknowns
    ++ ((discoveryGroups view).filter fun entry => entry.2.conflict).map discoveryConflict

/-- What the compile itself raises, on top of what the scope carries. -/
def foundUnknowns (inputs : CompileInputs) (selectionUnknowns : List ContextUnknown)
    (selected : List ContextItem) : List ContextUnknown :=
  discoveryUnknowns inputs.scope inputs.resolution
    ++ (selectionUnknowns ++ (unknownStatusDecisions selected ++ gapUnknowns inputs selected))

/-- Every unknown that a contributor to a compile raises, in the order it
is written. -/
def raisedUnknowns (inputs : CompileInputs) (selectionUnknowns : List ContextUnknown)
    (selected : List ContextItem) : List ContextUnknown :=
  inputs.scope.unresolvedUnknowns ++ foundUnknowns inputs selectionUnknowns selected

/-- The merge of discovery changes nothing about who speaks last. -/
theorem lastBy_contributed {inputs : CompileInputs} {selectionUnknowns : List ContextUnknown}
    {selected : List ContextItem} (id : String)
    (hdiscovery : inputs.discovery = discover inputs.scope inputs.resolution) :
    lastBy ContextUnknown.unknownId id (contributedUnknowns inputs selectionUnknowns selected)
      = lastBy ContextUnknown.unknownId id
          (raisedUnknowns inputs selectionUnknowns selected) := by
  have hmerge : lastBy ContextUnknown.unknownId id inputs.discovery.unresolvedUnknowns
      = lastBy ContextUnknown.unknownId id
          (discoveryUnknowns inputs.scope inputs.resolution) := by
    rw [hdiscovery]
    exact lastBy_dedupeLast ..
  have hcontributed : contributedUnknowns inputs selectionUnknowns selected
      = inputs.scope.unresolvedUnknowns ++ (inputs.discovery.unresolvedUnknowns
        ++ (selectionUnknowns ++ (unknownStatusDecisions selected
          ++ gapUnknowns inputs selected))) := by
    simp only [contributedUnknowns, gapUnknowns, List.append_assoc]
  unfold raisedUnknowns foundUnknowns
  rw [hcontributed]
  simp only [lastBy_append, hmerge]

/-- What a finished context keeps under an id. -/
theorem mem_context_unknowns {inputs : CompileInputs} {selectionUnknowns : List ContextUnknown}
    {selected : List ContextItem} {u : ContextUnknown}
    (hdiscovery : inputs.discovery = discover inputs.scope inputs.resolution) :
    u ∈ (assembleContext inputs selectionUnknowns selected).unresolvedUnknowns ↔
      lastBy ContextUnknown.unknownId u.unknownId
        (raisedUnknowns inputs selectionUnknowns selected) = some u := by
  rw [assembleContext_unknowns, mem_dedupeUnknowns, lastBy_contributed _ hdiscovery]

/-! ## Decisions of unknown status -/

/-- The selected decisions whose status is unknown. -/
def openDecisions (selected : List ContextItem) : List (ContextItem × PriorDecision) :=
  selected.filterMap fun item =>
    match item.priorDecision? with
    | some decision => if decision.status = .unknown then some (item, decision) else none
    | none => none

/-- The keys under which an open decision is recorded. -/
def openLabel (o : ContextItem × PriorDecision) : String × String :=
  (o.1.semanticKey, o.2.decisionId)

def openUnknown (o : ContextItem × PriorDecision) : ContextUnknown :=
  .create none (some o.1.semanticKey) .unknownSupersession
    [("decision_id", .str o.2.decisionId), ("reason", .str "decision status unknown")]
    (truthTierMateriality [o.1]) [o.1.sourceRef]

theorem unknownStatusDecisions_eq (selected : List ContextItem) :
    unknownStatusDecisions selected = (openDecisions selected).map openUnknown := by
  unfold unknownStatusDecisions openDecisions
  rw [List.map_filterMap]
  refine List.filterMap_congr fun item _ => ?_
  cases item.priorDecision? with
  | none => rfl
  | some decision =>
      dsimp only
      split <;> rfl

theorem openUnknown_id_iff (hsha : Sha256.Injective) {o o' : ContextItem × PriorDecision} :
    (openUnknown o).unknownId = (openUnknown o').unknownId ↔ openLabel o = openLabel o' := by
  constructor
  · intro h
    have hsame := sameIdentity_of_id hsha (u := openUnknown o) (v := openUnknown o') rfl rfl h
    have hkey : o.1.semanticKey = o'.1.semanticKey := Option.some.inj hsame.semanticKey
    have hdecision := hsame.recorded "decision_id"
    simp [openUnknown, ContextUnknown.create, Json.field] at hdecision
    unfold openLabel
    rw [hkey, hdecision]
  · intro h
    obtain ⟨hkey, hdecision⟩ := Prod.mk.inj h
    unfold openUnknown ContextUnknown.create
    rw [hkey, hdecision]

theorem openUnknown_blocking {o : ContextItem × PriorDecision} :
    (openUnknown o).materiality = .blocking ↔ o.1.isGoverned = true := by
  show truthTierMateriality [o.1] = .blocking ↔ _
  unfold truthTierMateriality
  rw [List.any_cons, List.any_nil, Bool.or_false]
  split
  · next h => exact iff_of_true rfl h
  · next h => exact iff_of_false (fun hcase => by cases hcase) h

/-- What a finished context holds under the id of an open decision: the
last selected one with its keys. -/
theorem final_of_decision (hsha : Sha256.Injective) {inputs : CompileInputs}
    {selectionUnknowns : List ContextUnknown} {selected : List ContextItem}
    (hdiscovery : inputs.discovery = discover inputs.scope inputs.resolution)
    {o : ContextItem × PriorDecision} (ho : o ∈ openDecisions selected) {u : ContextUnknown} :
    u ∈ (assembleContext inputs selectionUnknowns selected).unresolvedUnknowns
        ∧ u.unknownId = (openUnknown o).unknownId ↔
      ∃ last, lastBy openLabel (openLabel o) (openDecisions selected) = some last
        ∧ u = openUnknown last := by
  obtain ⟨last, hlast⟩ := exists_lastBy openLabel (List.mem_map_of_mem ho)
  have hgaps : lastBy ContextUnknown.unknownId (openUnknown o).unknownId
      (gapUnknowns inputs selected) = none := by
    refine lastBy_eq_none _ fun gap hgap hid => ?_
    rcases mem_gapUnknowns hgap with ⟨id, state, rfl⟩ | ⟨r, state, rfl⟩
    · have hreason := (sameIdentity_of_id hsha (u := capabilityUnknown id state)
        (v := openUnknown o) rfl rfl hid).reasonCode
      cases hreason
    · have hreason := (sameIdentity_of_id hsha (u := authorityUnknown r state)
        (v := openUnknown o) rfl rfl hid).reasonCode
      cases hreason
  have hopen : lastBy ContextUnknown.unknownId (openUnknown o).unknownId
      (unknownStatusDecisions selected)
      = (lastBy openLabel (openLabel o) (openDecisions selected)).map openUnknown := by
    rw [unknownStatusDecisions_eq]
    exact lastBy_map _ fun o' _ => openUnknown_id_iff hsha
  have hkept : lastBy ContextUnknown.unknownId (openUnknown o).unknownId
      (raisedUnknowns inputs selectionUnknowns selected) = some (openUnknown last) := by
    unfold raisedUnknowns foundUnknowns
    rw [lastBy_append, lastBy_append, lastBy_append, lastBy_append, hgaps, hopen, hlast]
    rfl
  rw [mem_context_unknowns hdiscovery]
  constructor
  · rintro ⟨hu, hid⟩
    rw [hid, hkept] at hu
    exact ⟨last, hlast, (Option.some.inj hu).symm⟩
  · rintro ⟨last', hlast', rfl⟩
    rw [hlast] at hlast'
    obtain rfl := Option.some.inj hlast'
    have hid := (lastBy_eq_some _ hkept).2
    exact ⟨hid ▸ hkept, hid⟩

/-! ## Who may raise what -/

/-- The contributors to a compile, but for its scope. -/
inductive FoundBy (inputs : CompileInputs) (selected : List ContextItem) : ContextUnknown → Prop
  | doubt (s : Sighting) (h : s ∈ sightings inputs) : FoundBy inputs selected s.unknown
  | routing (entry : (ContextKind × String) × GroupResolution) :
      FoundBy inputs selected (discoveryConflict entry)
  | requirement (r : ContextRequirement) (h : r ∈ inputs.requirementPlan.requirements)
      (u : ContextUnknown) (hvalid : u.Valid) (href : u.requirementRef = some r.requirementId)
      (hmateriality : u.materiality = materialityFor r) : FoundBy inputs selected u
  | decision (o : ContextItem × PriorDecision) (h : o ∈ openDecisions selected) :
      FoundBy inputs selected (openUnknown o)
  | gap (u : ContextUnknown) (h : u ∈ gapUnknowns inputs selected) : FoundBy inputs selected u

theorem sighting_of_view {items : List ContextItem} {u : ContextUnknown}
    (h : u ∈ (resolveCandidates items).supersessionUnknowns) :
    ∃ s ∈ sightingsIn items, u = s.unknown := by
  rw [view_unknowns_eq] at h
  obtain ⟨s, hs, rfl⟩ := List.mem_map.mp h
  exact ⟨s, hs, rfl⟩

theorem foundBy {inputs : CompileInputs} {selection : Selection} {unknowns : List ContextUnknown}
    (hselect : selectAll inputs.requirementPlan.globalBudget inputs.resolution
      inputs.requirementPlan.requirements .empty = .ok (selection, unknowns))
    {u : ContextUnknown} (hu : u ∈ foundUnknowns inputs unknowns selection.selected) :
    FoundBy inputs selection.selected u := by
  rcases List.mem_append.mp hu with hu | hu
  · rcases List.mem_append.mp hu with hu | hu
    · obtain ⟨s, hs, rfl⟩ := sighting_of_view hu
      exact .doubt s (List.mem_append_left _ hs)
    · obtain ⟨entry, -, rfl⟩ := List.mem_map.mp hu
      exact .routing entry
  rcases List.mem_append.mp hu with hu | hu
  · obtain ⟨r, hr, before, after, first, hfor, hfirst⟩ := mem_selectAll_unknowns hselect hu
    cases selectFor_unknown hfor hfirst with
    | supersession _ h =>
        obtain ⟨s, hs, rfl⟩ := sighting_of_view h
        exact .doubt s (List.mem_append_right _ (List.mem_flatMap.mpr ⟨r, hr, hs⟩))
    | conflict entry => exact .requirement r hr _ rfl rfl rfl
    | shortfall reason details => exact .requirement r hr _ rfl rfl rfl
  rcases List.mem_append.mp hu with hu | hu
  · rw [unknownStatusDecisions_eq] at hu
    obtain ⟨o, ho, rfl⟩ := List.mem_map.mp hu
    exact .decision o ho
  · exact .gap u hu

theorem FoundBy.valid {inputs : CompileInputs} {selected : List ContextItem} {u : ContextUnknown}
    (h : FoundBy inputs selected u) : u.Valid := by
  cases h with
  | doubt s => rfl
  | routing entry => rfl
  | requirement r _ _ hvalid => exact hvalid
  | decision o => rfl
  | gap _ h => rcases mem_gapUnknowns h with ⟨id, state, rfl⟩ | ⟨r, state, rfl⟩ <;> rfl

/-- Only a requirement binds its unknowns, and those of one requirement
have one materiality. -/
theorem FoundBy.bound {inputs : CompileInputs} {selected : List ContextItem} {u : ContextUnknown}
    (hplan : inputs.requirementPlan.Valid) (h : FoundBy inputs selected u)
    {r : ContextRequirement} (hr : r ∈ inputs.requirementPlan.requirements)
    (href : u.requirementRef = some r.requirementId) : u.materiality = materialityFor r := by
  cases h with
  | doubt s => cases href
  | routing entry => cases href
  | requirement r' hr' _ _ href' hmateriality =>
      have hid : r'.requirementId = r.requirementId := Option.some.inj (href'.symm.trans href)
      rw [hmateriality, List.inj_on_of_nodup_map hplan.ids_nodup hr' hr hid]
  | decision o => cases href
  | gap _ h => rcases mem_gapUnknowns h with ⟨id, state, rfl⟩ | ⟨r', state, rfl⟩ <;> cases href

/-! ## Whose blockers are kept -/

/-- Every blocking unknown raised is on record as blocking, and owes a
required obligation. -/
def BlockersKept (inputs : CompileInputs) (context : CompiledTaskContext) : Prop :=
  ∀ selection unknowns, selectAll inputs.requirementPlan.globalBudget inputs.resolution
      inputs.requirementPlan.requirements .empty = .ok (selection, unknowns) →
    ∀ u ∈ raisedUnknowns inputs unknowns selection.selected, u.materiality = .blocking →
      (∃ v ∈ context.unresolvedUnknowns, v.unknownId = u.unknownId ∧ v.materiality = .blocking)
      ∧ contextObligationId u.unknownId ∈ requiredPendingIds
          (deriveObligations inputs.intent inputs.activation inputs.kernels context)

/-- The last word under each id that may be raised with two materialities
is no weaker than what was said before it. -/
structure LastWordHolds (inputs : CompileInputs) (selectionUnknowns : List ContextUnknown)
    (selected : List ContextItem) : Prop where
  cycles : ∀ s ∈ sightings inputs, s.materiality = .blocking →
    ∀ last, lastBy Sighting.label s.label (sightings inputs) = some last →
      last.materiality = .blocking
  decisions : ∀ o ∈ openDecisions selected, o.1.isGoverned = true →
    ∀ last, lastBy openLabel (openLabel o) (openDecisions selected) = some last →
      last.1.isGoverned = true
  scope : ∀ u ∈ inputs.scope.unresolvedUnknowns, u.materiality = .blocking →
    ∀ last, lastBy ContextUnknown.unknownId u.unknownId
        (raisedUnknowns inputs selectionUnknowns selected) = some last →
      last.materiality = .blocking

/-- A gap is written last, and its id covers its state. -/
theorem gap_kept (hsha : Sha256.Injective) {inputs : CompileInputs}
    {selectionUnknowns : List ContextUnknown} {selected : List ContextItem} {u : ContextUnknown}
    (hu : u ∈ gapUnknowns inputs selected) :
    ∃ v ∈ (assembleContext inputs selectionUnknowns selected).unresolvedUnknowns,
      v.unknownId = u.unknownId ∧ v.materiality = u.materiality := by
  obtain ⟨v, hv, hgap, hid⟩ := exists_mem_unknowns_of_gap hu
  refine ⟨v, hv, hid, ?_⟩
  rcases mem_gapUnknowns hu with ⟨id, state, rfl⟩ | ⟨r, state, rfl⟩
  · rcases mem_gapUnknowns hgap with ⟨id', state', rfl⟩ | ⟨r', state', rfl⟩
    · obtain ⟨-, rfl⟩ := capabilityUnknown_of_id hsha hid
      rfl
    · have hreason := (sameIdentity_of_id hsha (u := authorityUnknown r' state')
        (v := capabilityUnknown id state) rfl rfl hid).reasonCode
      cases hreason
  · rcases mem_gapUnknowns hgap with ⟨id', state', rfl⟩ | ⟨r', state', rfl⟩
    · have hreason := (sameIdentity_of_id hsha (u := capabilityUnknown id' state')
        (v := authorityUnknown r state) rfl rfl hid).reasonCode
      cases hreason
    · obtain ⟨-, rfl⟩ := authorityUnknown_of_id hsha hid
      rfl

/-- What a requirement raises is kept with the requirement's materiality. -/
theorem bound_kept (hsha : Sha256.Injective) {inputs : CompileInputs}
    {selection : Selection} {unknowns : List ContextUnknown}
    (hplan : inputs.requirementPlan.Valid)
    (hdiscovery : inputs.discovery = discover inputs.scope inputs.resolution)
    (hselect : selectAll inputs.requirementPlan.globalBudget inputs.resolution
      inputs.requirementPlan.requirements .empty = .ok (selection, unknowns))
    {r : ContextRequirement} (hr : r ∈ inputs.requirementPlan.requirements)
    {u : ContextUnknown} (hu : u ∈ foundUnknowns inputs unknowns selection.selected)
    (href : u.requirementRef = some r.requirementId) :
    ∃ v ∈ (assembleContext inputs unknowns selection.selected).unresolvedUnknowns,
      v.unknownId = u.unknownId ∧ v.materiality = materialityFor r := by
  obtain ⟨v, hv, hid, hlast⟩ := exists_lastBy_of_mem ContextUnknown.unknownId hu
  refine ⟨v, ?_, hid, ?_⟩
  · rw [mem_context_unknowns hdiscovery]
    unfold raisedUnknowns
    rw [lastBy_append, hid, hlast, Option.some_or]
  · have hfound := foundBy hselect hv
    refine hfound.bound hplan hr ?_
    rw [(sameIdentity_of_id hsha hfound.valid (foundBy hselect hu).valid hid).requirementRef, href]

theorem mem_raised_of_sighting {inputs : CompileInputs} {selection : Selection}
    {unknowns : List ContextUnknown}
    (hselect : selectAll inputs.requirementPlan.globalBudget inputs.resolution
      inputs.requirementPlan.requirements .empty = .ok (selection, unknowns))
    {s : Sighting} (hs : s ∈ sightings inputs) :
    s.unknown ∈ raisedUnknowns inputs unknowns selection.selected := by
  refine List.mem_append_right _ ?_
  rcases List.mem_append.mp hs with hs | hs
  · refine List.mem_append_left _ (List.mem_append_left _ ?_)
    show s.unknown ∈ (resolveCandidates (routingCandidates inputs)).supersessionUnknowns
    rw [view_unknowns_eq]
    exact List.mem_map_of_mem hs
  · obtain ⟨r, hr, hs⟩ := List.mem_flatMap.mp hs
    obtain ⟨before, after, us, hfor, hus, -⟩ := selectAll_step hselect hr
    obtain ⟨state, stop, short, -, -, -, rfl⟩ := selectFor_ok hfor
    refine List.mem_append_right _ (List.mem_append_left _ (hus ?_))
    refine List.mem_append_left _ (List.mem_append_left _ ?_)
    show s.unknown ∈ (resolveCandidates (requirementCandidates inputs r)).supersessionUnknowns
    rw [view_unknowns_eq]
    exact List.mem_map_of_mem hs

/-- The blocker behind each unknown raised is kept where the last words
hold. -/
theorem blocker_kept (hsha : Sha256.Injective) {inputs : CompileInputs} {selection : Selection}
    {unknowns : List ContextUnknown} (hplan : inputs.requirementPlan.Valid)
    (hdiscovery : inputs.discovery = discover inputs.scope inputs.resolution)
    (hcompile : compileContext inputs = .ok (assembleContext inputs unknowns selection.selected))
    (hselect : selectAll inputs.requirementPlan.globalBudget inputs.resolution
      inputs.requirementPlan.requirements .empty = .ok (selection, unknowns))
    (hlast : LastWordHolds inputs unknowns selection.selected) {u : ContextUnknown}
    (hu : u ∈ raisedUnknowns inputs unknowns selection.selected)
    (hblock : u.materiality = .blocking) :
    ∃ v ∈ (assembleContext inputs unknowns selection.selected).unresolvedUnknowns,
      v.unknownId = u.unknownId ∧ v.materiality = .blocking := by
  rcases List.mem_append.mp hu with hscope | hfound
  · obtain ⟨v, -, hid, hv⟩ := exists_lastBy_of_mem ContextUnknown.unknownId hu
    refine ⟨v, ?_, hid, hlast.scope u hscope hblock v hv⟩
    rw [mem_context_unknowns hdiscovery, hid]
    exact hv
  cases foundBy hselect hfound with
  | doubt s hs =>
      obtain ⟨last, hword⟩ := exists_lastBy Sighting.label (List.mem_map_of_mem hs)
      obtain ⟨hkept, hid⟩ := (final_of_sighting hsha hdiscovery hcompile hs).mpr ⟨last, hword, rfl⟩
      exact ⟨_, hkept, hid, hlast.cycles s hs hblock last hword⟩
  | routing entry => cases hblock
  | requirement r hr _ _ href hmateriality =>
      obtain ⟨v, hv, hid, hsame⟩ := bound_kept hsha hplan hdiscovery hselect hr hfound href
      exact ⟨v, hv, hid, hsame.trans (hmateriality.symm.trans hblock)⟩
  | decision o ho =>
      obtain ⟨last, hword⟩ := exists_lastBy openLabel (List.mem_map_of_mem ho)
      obtain ⟨hkept, hid⟩ := (final_of_decision hsha hdiscovery ho).mpr ⟨last, hword, rfl⟩
      have hgoverned := hlast.decisions o ho (openUnknown_blocking.mp hblock) last hword
      exact ⟨_, hkept, hid, openUnknown_blocking.mpr hgoverned⟩
  | gap _ hgap =>
      obtain ⟨v, hv, hid, hsame⟩ := gap_kept hsha hgap
      exact ⟨v, hv, hid, hsame.trans hblock⟩

/-- Deduplication erases no blocker exactly where the last view of each
governed cycle is governed, the last open decision of each key that has a
governed one is governed, and no blocker of the scope is written over. -/
theorem blockers_kept_iff (hsha : Sha256.Injective) (inputs : CompileInputs)
    (context : CompiledTaskContext) (hplan : inputs.requirementPlan.Valid)
    (hdiscovery : inputs.discovery = discover inputs.scope inputs.resolution)
    (hcompile : compileContext inputs = .ok context) :
    BlockersKept inputs context ↔
      ∀ selection unknowns, selectAll inputs.requirementPlan.globalBudget inputs.resolution
          inputs.requirementPlan.requirements .empty = .ok (selection, unknowns) →
        LastWordHolds inputs unknowns selection.selected := by
  obtain ⟨selection, unknowns, hselect, rfl⟩ := compileContext_ok hcompile
  have hone : ∀ {selection' unknowns'}, selectAll inputs.requirementPlan.globalBudget
      inputs.resolution inputs.requirementPlan.requirements .empty = .ok (selection', unknowns') →
      selection' = selection ∧ unknowns' = unknowns := by
    intro selection' unknowns' h
    rw [hselect] at h
    obtain ⟨hselection, hunknowns⟩ := Prod.mk.inj (Except.ok.inj h)
    exact ⟨hselection.symm, hunknowns.symm⟩
  constructor
  · intro hkept selection' unknowns' hselect'
    obtain ⟨rfl, rfl⟩ := hone hselect'
    refine ⟨fun s hs hblock last hword => ?_, fun o ho hgoverned last hword => ?_,
      fun u hu hblock last hword => ?_⟩
    · obtain ⟨⟨v, hv, hid, hstill⟩, -⟩ := hkept _ _ hselect' _
        (mem_raised_of_sighting hselect' hs) hblock
      obtain ⟨t, ht, rfl⟩ := (final_of_sighting hsha hdiscovery hcompile hs).mp ⟨hv, hid⟩
      obtain rfl := Option.some.inj (ht.symm.trans hword)
      exact hstill
    · have hraised : openUnknown o ∈ raisedUnknowns inputs unknowns' selection'.selected := by
        refine List.mem_append_right _ (List.mem_append_right _ (List.mem_append_right _
          (List.mem_append_left _ ?_)))
        rw [unknownStatusDecisions_eq]
        exact List.mem_map_of_mem ho
      obtain ⟨⟨v, hv, hid, hstill⟩, -⟩ := hkept _ _ hselect' _ hraised
        (openUnknown_blocking.mpr hgoverned)
      obtain ⟨t, ht, rfl⟩ := (final_of_decision hsha hdiscovery ho).mp ⟨hv, hid⟩
      obtain rfl := Option.some.inj (ht.symm.trans hword)
      exact openUnknown_blocking.mp hstill
    · obtain ⟨⟨v, hv, hid, hstill⟩, -⟩ := hkept _ _ hselect' u (List.mem_append_left _ hu) hblock
      rw [mem_context_unknowns hdiscovery, hid, hword] at hv
      rw [Option.some.inj hv]
      exact hstill
  · intro hholds selection' unknowns' hselect' u hu hblock
    obtain ⟨rfl, rfl⟩ := hone hselect'
    obtain ⟨v, hv, hid, hstill⟩ := blocker_kept hsha hplan hdiscovery hcompile hselect'
      (hholds _ _ hselect') hu hblock
    refine ⟨⟨v, hv, hid, hstill⟩, ?_⟩
    rw [← hid]
    exact contextObligation_required hv hstill

end Blockers

/-! ## Two laws that retire each other -/

section Mutual

attribute [local instance] Sha256.transparent

def archiveRule (level : AuthorityLevel) : ContextItem := rule "ARCHIVE" "policy" level ["PURGE"]

def purgeRule (level : AuthorityLevel) : ContextItem := rule "PURGE" "policy" level ["ARCHIVE"]

/-- The laws as every given authority states them. -/
def mutualLaws (levels : List AuthorityLevel) : List ContextItem :=
  levels.flatMap fun level => [archiveRule level, purgeRule level]

/-- What an item id leaves out. -/
theorem mutual_ids (level level' : AuthorityLevel) :
    (archiveRule level).itemId = (archiveRule level').itemId
      ∧ (purgeRule level).itemId = (purgeRule level').itemId :=
  ⟨rfl, rfl⟩

theorem archive_ne_purge (level level' : AuthorityLevel) :
    (archiveRule level).itemId ≠ (purgeRule level').itemId := by
  intro h
  have hkey : "ARCHIVE" = "PURGE" :=
    (sameItem_of_id Sha256.transparent_injective rfl rfl h).semanticKey
  exact absurd hkey (by decide)

theorem mem_mutualLaws {levels : List AuthorityLevel} {law : ContextItem} :
    law ∈ mutualLaws levels ↔ ∃ level ∈ levels, law = archiveRule level ∨ law = purgeRule level := by
  unfold mutualLaws
  simp only [List.mem_flatMap, List.mem_cons, List.not_mem_nil, or_false]

theorem mutualLaws_valid (levels : List AuthorityLevel) : ∀ law ∈ mutualLaws levels, law.Valid
    ∧ law.contextKind = .applicableLaw ∧ law.selectedBecause = [] := by
  intro law hlaw
  obtain ⟨level, -, rfl | rfl⟩ := mem_mutualLaws.mp hlaw <;>
    exact ⟨rule_valid _ _ (by decide) (by decide), rfl, rfl⟩

def mutualSnapshot (levels : List AuthorityLevel) : ContextSnapshot :=
  lawSnapshot (mutualLaws levels) (mutualLaws_valid levels)

/-- A view in which both laws are read at one authority. -/
structure ReadAt (level : AuthorityLevel) (members : List ContextItem) : Prop where
  subset : ∀ law ∈ members, ∃ level', law = archiveRule level' ∨ law = purgeRule level'
  archive : byItem members (archiveRule level).itemId = some (archiveRule level)
  purge : byItem members (purgeRule level).itemId = some (purgeRule level)

namespace ReadAt

variable {level : AuthorityLevel} {members : List ContextItem}

theorem ids (h : ReadAt level members) {id : String} (hid : id ∈ members.map ContextItem.itemId) :
    id = (archiveRule level).itemId ∨ id = (purgeRule level).itemId := by
  obtain ⟨law, hlaw, rfl⟩ := List.mem_map.mp hid
  obtain ⟨level', rfl | rfl⟩ := h.subset law hlaw
  · exact .inl (mutual_ids level' level).1
  · exact .inr (mutual_ids level' level).2

theorem unnamed (h : ReadAt level members) {ref : String} (href : ref.toList.head? ≠ some 'c') :
    byItem members ref = none := by
  refine lastBy_eq_none _ fun law hlaw => ?_
  obtain ⟨level', rfl | rfl⟩ := h.subset law hlaw
  · exact itemId_ne_of_recipe rfl href
  · exact itemId_ne_of_recipe rfl href

/-- Each law retires the other, and nothing else is retired. -/
theorem supersedes (h : ReadAt level members) (s t : String) : Supersedes members s t ↔
    (s = (archiveRule level).itemId ∧ t = (purgeRule level).itemId)
      ∨ (s = (purgeRule level).itemId ∧ t = (archiveRule level).itemId) := by
  have harchive := (byItem_eq_some h.archive).1
  have hpurge := (byItem_eq_some h.purge).1
  rw [supersedes_iff]
  constructor
  · rintro ⟨hedge, -⟩
    obtain ⟨hs, ht⟩ := proposed_endpoints hedge
    have hne := proposed_irrefl hedge
    rcases h.ids hs with rfl | rfl <;> rcases h.ids ht with rfl | rfl
    · exact absurd rfl hne
    · exact .inl ⟨rfl, rfl⟩
    · exact .inr ⟨rfl, rfl⟩
    · exact absurd rfl hne
  · rintro (⟨rfl, rfl⟩ | ⟨rfl, rfl⟩)
    · refine ⟨proposed_by_domain harchive hpurge (List.mem_singleton_self "PURGE")
        (h.unnamed (by decide)) rfl ?_ (archive_ne_purge level level).symm, ?_⟩
      · unfold domainOf
        rw [h.archive]
        show "ARCHIVE" ≠ "PURGE"
        decide
      · unfold rankOf
        rw [h.archive, h.purge]
        show level.rank ≤ level.rank
        exact le_refl _
    · refine ⟨proposed_by_domain hpurge harchive (List.mem_singleton_self "ARCHIVE")
        (h.unnamed (by decide)) rfl ?_ (archive_ne_purge level level), ?_⟩
      · unfold domainOf
        rw [h.purge]
        show "PURGE" ≠ "ARCHIVE"
        decide
      · unfold rankOf
        rw [h.archive, h.purge]
        show level.rank ≤ level.rank
        exact le_refl _

/-- Two views that read the laws at one authority each see the same
cycles. -/
theorem cycles_eq (h : ReadAt level members) {level' : AuthorityLevel}
    {members' : List ContextItem} (h' : ReadAt level' members') :
    supersessionCycles members = supersessionCycles members' := by
  refine supersessionCycles_congr fun s t => ?_
  rw [h.supersedes, h'.supersedes, (mutual_ids level level').1, (mutual_ids level level').2]

theorem domainOf_eq (h : ReadAt level members) {id : String} {level' : AuthorityLevel}
    {members' : List ContextItem} (h' : ReadAt level' members')
    (hid : id ∈ members.map ContextItem.itemId) : domainOf members id = domainOf members' id := by
  unfold domainOf
  rcases h.ids hid with rfl | rfl
  · rw [h.archive, (mutual_ids level level').1, h'.archive]
    rfl
  · rw [h.purge, (mutual_ids level level').2, h'.purge]
    rfl

/-- The cycle touches the archive law. -/
theorem exists_cycle (h : ReadAt level members) :
    ∃ component ∈ supersessionCycles members, (archiveRule level).itemId ∈ component := by
  have hthere := (h.supersedes _ _).mpr (.inl ⟨rfl, rfl⟩)
  have hback := (h.supersedes _ _).mpr (.inr ⟨rfl, rfl⟩)
  exact List.mem_flatten.mp (mem_onCycle.mpr (.tail (.single hthere) hback))

theorem mem_ids_of_cycle {component : List String} {id : String}
    (hcomponent : component ∈ supersessionCycles members) (hid : id ∈ component) :
    id ∈ members.map ContextItem.itemId := by
  have hcycle : id ∈ onCycle members := List.mem_flatten.mpr ⟨component, hcomponent, hid⟩
  obtain ⟨other, hedge, -⟩ := Relation.TransGen.head'_iff.mp (mem_onCycle.mp hcycle)
  exact (supersedes_endpoints hedge).1

/-- The cycle at the archive law, as a view sees it. -/
def sighting (members : List ContextItem) (component : List String) : Sighting :=
  ⟨.applicableLaw, members, .cycle component "ARCHIVE"⟩

theorem sighting_doubt (h : ReadAt level members) {component : List String}
    (hcomponent : component ∈ supersessionCycles members)
    (hid : (archiveRule level).itemId ∈ component) :
    (sighting members component).doubt ∈ doubts members := by
  refine List.mem_append_left _ (List.mem_append_left _ (List.mem_flatMap.mpr
    ⟨component, hcomponent, List.mem_map_of_mem ((mem_sortedUnique).mpr ?_)⟩))
  refine List.mem_map.mpr ⟨_, hid, ?_⟩
  unfold domainOf
  rw [h.archive]
  rfl

theorem sighting_label (h : ReadAt level members) {level' : AuthorityLevel}
    {members' : List ContextItem} (h' : ReadAt level' members') {component : List String}
    (hcomponent : component ∈ supersessionCycles members) :
    (sighting members component).label = (sighting members' component).label := by
  have hdomains : component.map (domainOf members) = component.map (domainOf members') :=
    List.map_congr_left fun id hid => h.domainOf_eq h' (mem_ids_of_cycle hcomponent hid)
  unfold Sighting.label sighting
  dsimp only
  rw [hdomains]

/-- Every cause that the view can name is read at its authority. -/
theorem causes_level {s : Sighting} (h : ReadAt level s.members) :
    ∀ c ∈ s.causes, c.authorityLevel = level := by
  have hread : ∀ {id : String} {c : ContextItem}, byItem s.members id = some c →
      c.authorityLevel = level := by
    intro id c hc
    obtain ⟨hmem, rfl⟩ := byItem_eq_some hc
    rcases h.ids (List.mem_map_of_mem hmem) with hid | hid <;> rw [hid] at hc
    · obtain rfl := Option.some.inj (h.archive.symm.trans hc)
      rfl
    · obtain rfl := Option.some.inj (h.purge.symm.trans hc)
      rfl
  intro c hc
  unfold Sighting.causes at hc
  split at hc
  · obtain ⟨id, -, hc⟩ := List.mem_filterMap.mp hc
    exact hread hc
  · rcases List.mem_append.mp hc with hc | hc <;> exact hread (Option.mem_toList.mp hc)
  · obtain ⟨id, -, hc⟩ := List.mem_filterMap.mp hc
    exact hread hc

/-- A cycle is in the tier of the authority at which the laws are read. -/
theorem sighting_materiality (h : ReadAt level members) {component : List String}
    (hid : (archiveRule level).itemId ∈ component) :
    (sighting members component).materiality = .blocking ↔ level.isGoverned = true := by
  have hcauses := causes_level (s := sighting members component) h
  have harchive : archiveRule level ∈ (sighting members component).causes :=
    List.mem_filterMap.mpr ⟨_, hid, h.archive⟩
  show truthTierMateriality (sighting members component).causes = .blocking ↔ _
  unfold truthTierMateriality
  split
  · next hany =>
      obtain ⟨c, hc, hgoverned⟩ := List.any_eq_true.mp hany
      refine iff_of_true rfl ?_
      rw [← hcauses c hc]
      exact hgoverned
  · next hany =>
      refine iff_of_false (fun hcase => by cases hcase) fun hgoverned => hany ?_
      exact List.any_eq_true.mpr ⟨_, harchive, hgoverned⟩

end ReadAt

/-- The audit over the laws. -/
def mutualInputs (levels : List AuthorityLevel) (plan : ContextRequirementPlan) : CompileInputs :=
  auditInputs (mutualSnapshot levels) plan

theorem mutual_candidates (levels : List AuthorityLevel) (plan : ContextRequirementPlan) :
    (mutualInputs levels plan).resolution.candidates
      = sortedBy ContextItem.sortKey (mutualLaws levels) :=
  lawSnapshot_candidates

/-- The laws that discovery resolves. -/
def routedLaws (levels : List AuthorityLevel) (plan : ContextRequirementPlan) : List ContextItem :=
  ofKindIn .applicableLaw (routingCandidates (mutualInputs levels plan))

/-- The laws that the law requirement resolves. -/
def requiredLaws (levels : List AuthorityLevel) (plan : ContextRequirementPlan) :
    List ContextItem :=
  ofKindIn .applicableLaw (requirementCandidates (mutualInputs levels plan)
    (lawRequirement (compileScope auditIntent)))

/-- Discovery reads the governed statements alone. -/
theorem routedLaws_readAt {levels : List AuthorityLevel} (plan : ContextRequirementPlan)
    (hmem : AuthorityLevel.governedAuthoritative ∈ levels)
    (hone : ∀ level ∈ levels, level.isGoverned = true → level = .governedAuthoritative) :
    ReadAt .governedAuthoritative (routedLaws levels plan) := by
  have hrouted : ∀ law, law ∈ routedLaws levels plan ↔
      law = archiveRule .governedAuthoritative ∨ law = purgeRule .governedAuthoritative := by
    intro law
    unfold routedLaws ofKindIn routingCandidates
    rw [mutual_candidates, List.mem_filter, List.mem_filter, mem_sortedBy, mem_mutualLaws]
    constructor
    · rintro ⟨⟨⟨level, hlevel, hlaw⟩, heligible⟩, -⟩
      have hgoverned : law.isGoverned = true := by
        unfold discoveryEligible at heligible
        simp only [Bool.and_eq_true] at heligible
        exact heligible.1.2
      rcases hlaw with rfl | rfl
      · rw [← hone level hlevel hgoverned]
        exact .inl rfl
      · rw [← hone level hlevel hgoverned]
        exact .inr rfl
    · rintro (rfl | rfl)
      · exact ⟨⟨⟨_, hmem, .inl rfl⟩, rfl⟩, rfl⟩
      · exact ⟨⟨⟨_, hmem, .inr rfl⟩, rfl⟩, rfl⟩
  refine ⟨fun law hlaw => ⟨_, (hrouted law).mp hlaw⟩, ?_, ?_⟩
  · refine byItem_of_mem ((hrouted _).mpr (.inl rfl)) fun other hother hid => ?_
    rcases (hrouted other).mp hother with rfl | rfl
    · rfl
    · exact absurd hid.symm (archive_ne_purge _ _)
  · refine byItem_of_mem ((hrouted _).mpr (.inr rfl)) fun other hother hid => ?_
    rcases (hrouted other).mp hother with rfl | rfl
    · exact absurd hid (archive_ne_purge _ _)
    · rfl

/-- The laws as last stated. -/
theorem byItem_mutualLaws (levels : List AuthorityLevel) (level : AuthorityLevel) :
    byItem (mutualLaws (levels ++ [level])) (archiveRule level).itemId = some (archiveRule level)
      ∧ byItem (mutualLaws (levels ++ [level])) (purgeRule level).itemId
        = some (purgeRule level) := by
  have hlast : mutualLaws (levels ++ [level])
      = mutualLaws levels ++ [archiveRule level] ++ [purgeRule level] := by
    simp [mutualLaws]
  have halone : ∀ law : ContextItem, lastBy ContextItem.itemId law.itemId [law] = some law := by
    intro law
    rw [lastBy, if_pos rfl]
    rfl
  unfold byItem
  rw [hlast, lastBy_append, lastBy_append, lastBy_append, halone, halone,
    lastBy_eq_none ContextItem.itemId (l := [purgeRule level])]
  · exact ⟨rfl, rfl⟩
  · intro law hlaw
    rw [List.mem_singleton.mp hlaw]
    exact (archive_ne_purge _ _).symm

/-- The law requirement reads each law as it was last stated. -/
theorem requiredLaws_readAt (levels : List AuthorityLevel) {level : AuthorityLevel}
    (plan : ContextRequirementPlan)
    (hlevels : ∀ level' ∈ levels ++ [level], level'.rank ≤ AuthorityLevel.informative.rank) :
    ReadAt level (requiredLaws (levels ++ [level]) plan) := by
  have hall : requiredLaws (levels ++ [level]) plan
      = sortedBy ContextItem.sortKey (mutualLaws (levels ++ [level])) := by
    unfold requiredLaws ofKindIn requirementCandidates
    rw [mutual_candidates, List.filter_eq_self.mpr, List.filter_eq_self.mpr]
    · intro law hlaw
      obtain ⟨level', hlevel', rfl | rfl⟩ := mem_mutualLaws.mp ((mem_sortedBy _).mp hlaw) <;>
        exact audit_matches_rule _ _ (hlevels level' hlevel') _
    · intro law hlaw
      have hmem := (mem_sortedBy _).mp (List.mem_filter.mp hlaw).1
      exact decide_eq_true (mutualLaws_valid _ law hmem).2.1
  have hkeys : ∀ law ∈ mutualLaws (levels ++ [level]), ∀ law' ∈ mutualLaws (levels ++ [level]),
      law.itemId = law'.itemId → law.sortKey = law'.sortKey := by
    intro law hlaw law' hlaw' hid
    obtain ⟨l, -, rfl | rfl⟩ := mem_mutualLaws.mp hlaw <;>
      obtain ⟨l', -, rfl | rfl⟩ := mem_mutualLaws.mp hlaw'
    · rfl
    · exact absurd hid (archive_ne_purge _ _)
    · exact absurd hid.symm (archive_ne_purge _ _)
    · rfl
  have hread : ∀ id, byItem (requiredLaws (levels ++ [level]) plan) id
      = byItem (mutualLaws (levels ++ [level])) id := by
    intro id
    unfold byItem
    rw [hall]
    exact lastBy_sortedBy _ fun law hlaw law' hlaw' h h' => hkeys law hlaw law' hlaw' (h.trans h'.symm)
  refine ⟨fun law hlaw => ?_, ?_, ?_⟩
  · rw [hall] at hlaw
    obtain ⟨level', -, hlaw⟩ := mem_mutualLaws.mp ((mem_sortedBy _).mp hlaw)
    exact ⟨level', hlaw⟩
  · rw [hread]
    exact (byItem_mutualLaws levels level).1
  · rw [hread]
    exact (byItem_mutualLaws levels level).2

/-- Without kernels one requirement of a plan asks for laws. -/
theorem sole_law_requirement {scope : TaskScope} {discovery : DiscoveryContext}
    {activation : ActivationPlan} {plan : ContextRequirementPlan}
    (hplan : planRequirements scope discovery activation [] = .ok plan)
    {r : ContextRequirement} (hr : r ∈ plan.requirements) (hkind : r.contextKind = .applicableLaw) :
    r = lawRequirement scope := by
  obtain ⟨spec, hspec, rfl⟩ := exists_spec_of_mem hplan hr
  have hspeckind : spec.kind = .applicableLaw := hkind
  rcases List.mem_append.mp hspec with hspec | hspec
  · simp only [baselineSpecs, List.mem_cons, List.not_mem_nil, or_false] at hspec
    rcases hspec with rfl | rfl | rfl | rfl | rfl | rfl | rfl | rfl | rfl | rfl
    case inr.inl => rfl
    all_goals cases hspeckind
  · cases hspec

theorem kind_of_label {s t : Sighting} (h : s.label = t.label) : s.kind = t.kind := by
  unfold Sighting.label at h
  cases hs : s.doubt <;> cases ht : t.doubt <;> simp [hs, ht] at h <;> exact h.1

/-- What a requirement sees is the last word over what discovery sees. -/
theorem last_of_required {inputs : CompileInputs} {r : ContextRequirement}
    (hr : r ∈ inputs.requirementPlan.requirements) {s t last : Sighting}
    (ht : t ∈ sightingsIn (requirementCandidates inputs r)) (hlabel : t.label = s.label)
    (hlast : lastBy Sighting.label s.label (sightings inputs) = some last) :
    last ∈ (inputs.requirementPlan.requirements.flatMap fun r =>
        sightingsIn (requirementCandidates inputs r)) ∧ last.label = s.label := by
  have hmem : t ∈ inputs.requirementPlan.requirements.flatMap fun r =>
      sightingsIn (requirementCandidates inputs r) := List.mem_flatMap.mpr ⟨r, hr, ht⟩
  obtain ⟨word, hword⟩ := exists_lastBy Sighting.label (List.mem_map_of_mem hmem)
  rw [hlabel] at hword
  unfold sightings at hlast
  rw [lastBy_append, hword, Option.some_or] at hlast
  obtain rfl := Option.some.inj hlast
  exact lastBy_eq_some _ hword

/-- Discovery sees the cycle. -/
theorem mutual_seen {levels : List AuthorityLevel} {level : AuthorityLevel}
    {plan : ContextRequirementPlan} (h : ReadAt level (routedLaws levels plan))
    {component : List String} (hcomponent : component ∈ supersessionCycles (routedLaws levels plan))
    (hid : (archiveRule level).itemId ∈ component) :
    ReadAt.sighting (routedLaws levels plan) component ∈ sightings (mutualInputs levels plan) :=
  List.mem_append_left _ (mem_sightingsIn.mpr ⟨rfl, rfl, h.sighting_doubt hcomponent hid⟩)

/-- The cycle that discovery sees is on record in the tier of the laws as
they were last stated. -/
theorem mutual_record (levels : List AuthorityLevel) {level : AuthorityLevel}
    {all : List AuthorityLevel} (hall : levels ++ [level] = all)
    {plan : ContextRequirementPlan} {context : CompiledTaskContext}
    (hfrom : PlannedFrom (mutualSnapshot all) (mutualInputs all plan))
    (hcompile : compileContext (mutualInputs all plan) = .ok context)
    (hlevels : ∀ level' ∈ all, level'.rank ≤ AuthorityLevel.informative.rank)
    (hmem : AuthorityLevel.governedAuthoritative ∈ all)
    (hone : ∀ level' ∈ all, level'.isGoverned = true →
      level' = .governedAuthoritative)
    {component : List String}
    (hcomponent : component ∈ supersessionCycles (routedLaws all plan))
    (hid : (archiveRule .governedAuthoritative).itemId ∈ component) :
    ∃ last : Sighting, (last.materiality = .blocking ↔ level.isGoverned = true)
      ∧ ∀ u, (u ∈ context.unresolvedUnknowns ∧ u.unknownId
          = (ReadAt.sighting (routedLaws all plan) component).unknown.unknownId)
        ↔ u = last.unknown := by
  subst hall
  have hrouted := routedLaws_readAt plan hmem hone
  have hrequired := requiredLaws_readAt levels plan hlevels
  have hcomponent' : component ∈ supersessionCycles (requiredLaws (levels ++ [level]) plan) := by
    rw [← hrouted.cycles_eq hrequired]
    exact hcomponent
  have hid' : (archiveRule level).itemId ∈ component := by
    rw [(mutual_ids level .governedAuthoritative).1]
    exact hid
  have hseen := mutual_seen hrouted hcomponent hid
  have ht : ReadAt.sighting (requiredLaws (levels ++ [level]) plan) component
      ∈ sightingsIn (requirementCandidates (mutualInputs (levels ++ [level]) plan)
        (lawRequirement (compileScope auditIntent))) :=
    mem_sightingsIn.mpr ⟨rfl, rfl, hrequired.sighting_doubt hcomponent' hid'⟩
  have hlabel := hrequired.sighting_label hrouted hcomponent'
  obtain ⟨last, hlast⟩ := exists_lastBy Sighting.label (List.mem_map_of_mem hseen)
  refine ⟨last, ?_, fun u => (final_of_sighting Sha256.transparent_injective hfrom.discovery
    hcompile hseen).trans ⟨?_, fun hu => ⟨last, hlast, hu⟩⟩⟩
  · -- the requirements speak after discovery
    obtain ⟨hrequirements, hsame⟩ := last_of_required (lawRequirement_mem hfrom.plan) ht hlabel hlast
    obtain ⟨r, hr, hsighting⟩ := List.mem_flatMap.mp hrequirements
    have hlaw : last.kind = .applicableLaw := kind_of_label hsame
    obtain ⟨-, hmembers, hdoubt⟩ := mem_sightingsIn.mp hsighting
    have hrequirement : r = lawRequirement (compileScope auditIntent) := by
      refine sole_law_requirement hfrom.plan hr ?_
      obtain ⟨cause, hcause⟩ := List.exists_mem_of_ne_nil _ (causes_ne_nil hdoubt)
      have hcandidate := mem_causes hcause
      rw [hmembers, hlaw] at hcandidate
      obtain ⟨hcandidate, hcausekind⟩ := List.mem_filter.mp hcandidate
      rw [← of_decide_eq_true hcausekind]
      exact (matches_kind (List.mem_filter.mp hcandidate).2).symm
    rw [hrequirement, hlaw] at hmembers
    have hread : ReadAt level last.members := by
      rw [hmembers]
      exact hrequired
    -- a label of a cycle lists its items
    obtain ⟨kind, members, doubt⟩ := last
    cases doubt with
    | cycle other domain =>
        have hids : sortedBy id other = sortedBy id component := (DoubtLabel.cycle.inj hsame).2.2.2
        have hother : (archiveRule level).itemId ∈ other := by
          rw [← mem_sortedBy id, hids, mem_sortedBy]
          exact hid'
        exact hread.sighting_materiality hother
    | refused => cases hsame
    | dangling => cases hsame
  · rintro ⟨other, hother, rfl⟩
    rw [Option.some.inj (hother.symm.trans hlast)]

/-- The blocker that two governed laws raise is kept. -/
theorem mutual_blockers_kept : ∃ plan context,
    compileContext (mutualInputs [.governedAuthoritative] plan) = .ok context
      ∧ BlockersKept (mutualInputs [.governedAuthoritative] plan) context := by
  obtain ⟨plan, context, hfrom, hcompile⟩ :=
    audit_planned (mutualSnapshot [.governedAuthoritative])
  have hgoverned : ∀ law ∈ (mutualInputs [.governedAuthoritative] plan).resolution.candidates,
      law.isGoverned = true ∧ law.contextKind = .applicableLaw := by
    intro law hlaw
    rw [mutual_candidates, mem_sortedBy] at hlaw
    obtain ⟨level, hlevel, hlaw'⟩ := mem_mutualLaws.mp hlaw
    obtain rfl := List.mem_singleton.mp hlevel
    refine ⟨?_, (mutualLaws_valid _ law hlaw).2.1⟩
    rcases hlaw' with rfl | rfl <;> rfl
  refine ⟨plan, context, hcompile, (blockers_kept_iff Sha256.transparent_injective _ context
    (planRequirements_eq_ok hfrom.plan).2.1 hfrom.discovery hcompile).mpr ?_⟩
  intro selection unknowns hselect
  refine ⟨fun s hs hblock last hlast => ?_, fun o ho => ?_, fun u hu => ?_⟩
  · obtain ⟨hmem, hlabel⟩ := lastBy_eq_some _ hlast
    obtain ⟨hdoubt, hcandidates⟩ := mem_sightings hmem
    have hcycle : ∃ component domain, last.doubt = .cycle component domain := by
      unfold Sighting.materiality at hblock
      unfold Sighting.label at hlabel
      cases hs : s.doubt <;> cases hl : last.doubt <;> simp [hs, hl] at hblock hlabel ⊢
    obtain ⟨component, domain, hcycle⟩ := hcycle
    obtain ⟨cause, hcause⟩ := List.exists_mem_of_ne_nil _ (causes_ne_nil hdoubt)
    unfold Sighting.materiality truthTierMateriality
    rw [hcycle]
    exact if_pos (List.any_eq_true.mpr
      ⟨cause, hcause, (hgoverned cause (hcandidates cause (mem_causes hcause))).1⟩)
  · obtain ⟨item, hitem, hopen⟩ := List.mem_filterMap.mp ho
    obtain ⟨other, hother, r, -, -, rfl⟩ := selected_matches hselect hitem
    have hlaw := (hgoverned other hother).2
    have hnone : (other.withSelection (selection.reasonsOf other.itemId)).priorDecision? = none := by
      obtain ⟨_, _, _, _, _, _, _, claim⟩ := other
      cases claim <;> first | rfl | cases hlaw
    rw [hnone] at hopen
    cases hopen
  · cases hu

/-- Informative statements of the two laws erase the blocker that the
governed ones raise. -/
theorem restated_laws_erase_blocker : ∃ plan context,
    PlannedFrom (mutualSnapshot [.governedAuthoritative, .informative])
        (mutualInputs [.governedAuthoritative, .informative] plan)
      ∧ compileContext (mutualInputs [.governedAuthoritative, .informative] plan) = .ok context
      ∧ ¬BlockersKept (mutualInputs [.governedAuthoritative, .informative] plan) context := by
  obtain ⟨plan, context, hfrom, hcompile⟩ :=
    audit_planned (mutualSnapshot [.governedAuthoritative, .informative])
  refine ⟨plan, context, hfrom, hcompile, fun hkept => ?_⟩
  have hrouted : ReadAt .governedAuthoritative
      (routedLaws [.governedAuthoritative, .informative] plan) :=
    routedLaws_readAt plan (by decide) (by decide)
  obtain ⟨component, hcomponent, hid⟩ := hrouted.exists_cycle
  have hseen := mutual_seen hrouted hcomponent hid
  obtain ⟨last, htier, hrecord⟩ := mutual_record [.governedAuthoritative] rfl hfrom hcompile
    (by decide) (by decide) (by decide) hcomponent hid
  obtain ⟨selection, unknowns, hselect, rfl⟩ := compileContext_ok hcompile
  obtain ⟨⟨v, hv, hsame, hstill⟩, -⟩ := hkept _ _ hselect _
    (mem_raised_of_sighting hselect hseen) ((hrouted.sighting_materiality hid).mpr rfl)
  rw [(hrecord v).mp ⟨hv, hsame⟩] at hstill
  cases htier.mp hstill

end Mutual

end CognitiveRuntime
