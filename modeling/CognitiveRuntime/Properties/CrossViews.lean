import CognitiveRuntime.Compiler.Liveness
import CognitiveRuntime.Properties.Agreement
import CognitiveRuntime.Properties.ExactSelection
import CognitiveRuntime.Properties.InputOrder

/-!
# One consumer's conflict, another's selection

Every consumer resolves the candidates it is eligible for, so a key can
contradict itself in one view and be settled in another. The context then
reports the conflict and holds an item under its key, which the liveness
gate refuses.

`selectedConflicts_eq_nil_iff` reads the gate's condition off the views:
no conflict of a consumer is the key of a selected item.
`conflicts_unselected_iff` replaces the selection by what the
requirements would select if no bound stopped them.
-/

namespace CognitiveRuntime

open Ordered

section CrossViews

variable [Sha256] {inputs : CompileInputs} {selection : Selection}
  {unknowns : List ContextUnknown}

/-! ## What is reported -/

omit [Sha256] in
theorem ContextKind.value_ne (kind : ContextKind) : kind.value ≠ "" := by
  cases kind <;> decide

omit [Sha256] in
/-- The key a conflict is read under. -/
theorem conflictKey_of_fields {u : ContextUnknown} {kind : ContextKind} {key : String}
    (hreason : u.reasonCode = .conflictingGovernedClaims) (hkey : u.semanticKey = some key)
    (hne : key ≠ "") (hkind : Json.field "context_kind" u.details = some (.str kind.value)) :
    conflictKey u = some (some kind.value, key) := by
  have htruthy : truthy (.str kind.value) = true := decide_eq_true kind.value_ne
  have hkept : (some key).filter (fun k => decide (k ≠ "")) = some key :=
    if_pos (decide_eq_true hne)
  unfold conflictKey
  rw [if_pos hreason, hkey, hkind, Option.filter_some_pos htruthy, hkept]
  rfl

/-- A conflict is between eligible candidates of its key. -/
theorem conflict_entry {eligible : ContextItem → Bool} {resolution : SnapshotResolution}
    {entry : (ContextKind × String) × GroupResolution}
    (h : entry ∈ conflictGroups (resolution.resolve eligible)) :
    ∃ item ∈ resolution.candidates, eligible item = true ∧ groupKey item = entry.1 := by
  obtain ⟨hsorted, -⟩ := List.mem_filter.mp h
  obtain ⟨hne, -⟩ := mem_groups.mp (mem_sortedGroups.mp hsorted)
  obtain ⟨item, hitem⟩ := List.exists_mem_of_ne_nil _ hne
  obtain ⟨hleft, hkey⟩ := mem_groupMembers.mp hitem
  obtain ⟨hcandidate, heligible⟩ := List.mem_filter.mp (mem_of_mem_leftOver hleft)
  exact ⟨item, hcandidate, heligible, hkey⟩

/-- What discovery walks leaves no conflict of its view out. -/
theorem mem_discoveryConflicts {scope : TaskScope} {resolution : SnapshotResolution}
    {entry : (ContextKind × String) × GroupResolution} :
    entry ∈ (discoveryGroups (resolution.resolve (discoveryEligible scope.eligibleRefs))).filter
        (fun entry => entry.2.conflict)
      ↔ entry ∈ conflictGroups (resolution.resolve (discoveryEligible scope.eligibleRefs)) := by
  unfold discoveryGroups
  rw [List.mem_filter, List.mem_flatMap]
  constructor
  · rintro ⟨⟨kind, -, hentry⟩, hconflict⟩
    exact List.mem_filter.mpr ⟨(List.mem_filter.mp hentry).1, hconflict⟩
  · intro h
    obtain ⟨hsorted, hconflict⟩ := List.mem_filter.mp h
    obtain ⟨item, -, heligible, hkey⟩ := conflict_entry h
    have hkind : item.contextKind ∈ discoveryKinds := by
      unfold discoveryEligible at heligible
      simp only [Bool.and_eq_true, decide_eq_true_eq] at heligible
      exact heligible.1.1
    refine ⟨⟨item.contextKind, hkind, List.mem_filter.mpr ⟨hsorted, decide_eq_true ?_⟩⟩, hconflict⟩
    exact (congrArg Prod.fst hkey).symm

/-- The consumer with the given rule has a conflict under a key. -/
def ConflictSeen (inputs : CompileInputs) (key : ContextKind × String) : Prop :=
  ∃ eligible ∈ consumers inputs.scope inputs.requirementPlan,
    ∃ entry ∈ conflictGroups (inputs.resolution.resolve eligible), entry.1 = key

/-- The scope carries no conflict of its own. -/
def QuietScope (scope : TaskScope) : Prop :=
  ∀ u ∈ scope.unresolvedUnknowns, u.reasonCode ≠ .conflictingGovernedClaims

theorem compileScope_quiet (intent : IntentContract) : QuietScope (compileScope intent) := by
  intro u hu
  unfold compileScope TaskScope.create at hu
  rcases List.mem_append.mp hu with hu | hu <;> split at hu
  · cases hu
  · obtain rfl := List.mem_singleton.mp hu
    exact fun h => by cases h
  · obtain rfl := List.mem_singleton.mp hu
    exact fun h => by cases h
  · cases hu

/-- A conflict that is raised is one that a consumer sees. -/
theorem seen_of_raised (hrun : FinishedRun inputs selection unknowns) (hquiet : QuietScope inputs.scope)
    {u : ContextUnknown} (hu : u ∈ raisedUnknowns inputs unknowns selection.selected)
    (hreason : u.reasonCode = .conflictingGovernedClaims) :
    ∃ key, ConflictSeen inputs key ∧ u.semanticKey = some key.2
      ∧ Json.field "context_kind" u.details = some (.str key.1.value) := by
  rcases List.mem_append.mp hu with hu | hu
  · exact absurd hreason (hquiet u hu)
  rcases List.mem_append.mp hu with hu | hu
  · rcases List.mem_append.mp hu with hu | hu
    · obtain ⟨s, -, rfl⟩ := sighting_of_view hu
      exact absurd hreason (doubt_reason_ne rfl s)
    · obtain ⟨entry, hentry, rfl⟩ := List.mem_map.mp hu
      exact ⟨entry.1, ⟨_, List.mem_cons_self .., entry, mem_discoveryConflicts.mp hentry, rfl⟩,
        rfl, rfl⟩
  rcases List.mem_append.mp hu with hu | hu
  · obtain ⟨r, hr, before, after, first, hfor, hfirst⟩ := mem_selectAll_unknowns hrun.select hu
    cases selectFor_unknown hfor hfirst with
    | supersession _ h =>
        obtain ⟨s, -, rfl⟩ := sighting_of_view h
        exact absurd hreason (doubt_reason_ne rfl s)
    | conflict entry hentry =>
        obtain ⟨item, -, hmatch, hkey⟩ := conflict_entry hentry
        have hkind : entry.1.1 = r.contextKind := by
          rw [← hkey]
          exact matches_kind hmatch
        refine ⟨entry.1, ⟨_, List.mem_cons_of_mem _ (List.mem_map_of_mem hr), entry, hentry, rfl⟩,
          rfl, ?_⟩
        rw [hkind]
        rfl
    | shortfall reason _ h => rcases h with rfl | rfl <;> cases hreason
  rcases List.mem_append.mp hu with hu | hu
  · rw [unknownStatusDecisions_eq] at hu
    obtain ⟨o, -, rfl⟩ := List.mem_map.mp hu
    cases hreason
  · rcases mem_gapUnknowns hu with ⟨_, _, rfl⟩ | ⟨_, _, rfl⟩ <;> cases hreason

/-- A conflict that a consumer sees is raised. -/
theorem raised_of_seen (hrun : FinishedRun inputs selection unknowns) {key : ContextKind × String}
    (h : ConflictSeen inputs key) :
    ∃ u ∈ raisedUnknowns inputs unknowns selection.selected,
      u.reasonCode = .conflictingGovernedClaims ∧ u.semanticKey = some key.2
        ∧ Json.field "context_kind" u.details = some (.str key.1.value) := by
  obtain ⟨eligible, heligible, entry, hentry, rfl⟩ := h
  rcases List.mem_cons.mp heligible with rfl | heligible
  · refine ⟨discoveryConflict entry, ?_, rfl, rfl, rfl⟩
    exact List.mem_append_right _ (List.mem_append_left _ (List.mem_append_right _
      (List.mem_map_of_mem (mem_discoveryConflicts.mpr hentry))))
  · obtain ⟨r, hr, rfl⟩ := List.mem_map.mp heligible
    obtain ⟨item, -, hmatch, hkey⟩ := conflict_entry hentry
    have hkind : entry.1.1 = r.contextKind := by
      rw [← hkey]
      exact matches_kind hmatch
    obtain ⟨before, taken, rest, stop, short, hat⟩ := exists_runAt hrun.select hrun.ids_nodup hr
    refine ⟨requirementConflict r entry, raised_of_selected (hat.conflicts entry hentry), rfl, rfl, ?_⟩
    rw [hkind]
    rfl

theorem seen_key_ne (hrun : FinishedRun inputs selection unknowns) {key : ContextKind × String}
    (h : ConflictSeen inputs key) : key.2 ≠ "" := by
  obtain ⟨eligible, -, entry, hentry, rfl⟩ := h
  obtain ⟨item, hcandidate, -, hkey⟩ := conflict_entry hentry
  rw [← hkey]
  intro hempty
  have hblank := (hrun.valid item hcandidate).key_ne
  rw [show item.semanticKey = "" from hempty] at hblank
  revert hblank
  decide

/-- The context reports exactly the conflicts that its consumers see. -/
theorem mem_reported (hsha : Sha256.Injective) (hrun : FinishedRun inputs selection unknowns)
    (hquiet : QuietScope inputs.scope) {kind : Option String} {key : String} :
    (kind, key) ∈ (assembleContext inputs unknowns
        selection.selected).unresolvedUnknowns.filterMap conflictKey
      ↔ ∃ seen, ConflictSeen inputs seen ∧ kind = some seen.1.value ∧ key = seen.2 := by
  rw [List.mem_filterMap]
  constructor
  · rintro ⟨u, hu, hkey⟩
    have hreason : u.reasonCode = .conflictingGovernedClaims := by
      by_contra hne
      unfold conflictKey at hkey
      rw [if_neg hne] at hkey
      cases hkey
    obtain ⟨seen, hseen, hsemantic, hkind⟩ := seen_of_raised hrun hquiet
      (raised_of_recorded hrun.discovery hu) hreason
    rw [conflictKey_of_fields hreason hsemantic (seen_key_ne hrun hseen) hkind] at hkey
    obtain ⟨rfl, rfl⟩ := Prod.mk.inj (Option.some.inj hkey)
    exact ⟨seen, hseen, rfl, rfl⟩
  · rintro ⟨seen, hseen, rfl, rfl⟩
    obtain ⟨u, hu, hreason, hkey, hkind⟩ := raised_of_seen hrun hseen
    obtain ⟨v, hv, hraised, hsame⟩ := raised_recorded hsha hrun.scope hrun.discovery hrun.select hu
    have hreason' : v.reasonCode = .conflictingGovernedClaims := hsame.reasonCode.trans hreason
    obtain ⟨seen', -, -, hkind'⟩ := seen_of_raised hrun hquiet hraised hreason'
    have hvalue := hsame.recorded "context_kind"
    rw [hkind, hkind'] at hvalue
    have hkinds : seen'.1.value = seen.1.value := by simpa using hvalue
    rw [hkinds] at hkind'
    exact ⟨v, hv, conflictKey_of_fields hreason' (hsame.semanticKey.trans hkey)
      (seen_key_ne hrun hseen) hkind'⟩

/-- The gate's condition: no conflict of a consumer is the key of a
selected item. -/
theorem selectedConflicts_eq_nil_iff (hsha : Sha256.Injective)
    (hrun : FinishedRun inputs selection unknowns) (hquiet : QuietScope inputs.scope) :
    selectedConflicts (assembleContext inputs unknowns selection.selected) = [] ↔
      ∀ key, ConflictSeen inputs key →
        ∀ item ∈ (assembleContext inputs unknowns selection.selected).selectedItems,
          groupKey item ≠ key := by
  unfold selectedConflicts
  dsimp only
  rw [List.filter_eq_nil_iff]
  simp only [mem_reported hsha hrun hquiet, decide_eq_true_eq]
  constructor
  · rintro h key hseen item hitem rfl
    exact h item hitem (.inl ⟨_, hseen, rfl, rfl⟩)
  · rintro h item hitem (⟨seen, hseen, hkind, hkey⟩ | ⟨seen, -, hkind, -⟩)
    · exact h seen hseen item hitem
        (Prod.ext (ContextKind.value_inj.mp (Option.some.inj hkind)) hkey)
    · cases hkind

/-! ## What is selected -/

/-- A selected item is on the frontier of a requirement, as a candidate. -/
theorem exists_selected_frontier {inputs : CompileInputs} {selection : Selection}
    {unknowns : List ContextUnknown}
    (hselect : selectAll inputs.requirementPlan.globalBudget inputs.resolution
      inputs.requirementPlan.requirements .empty = .ok (selection, unknowns))
    (hids : (inputs.requirementPlan.requirements.map ContextRequirement.requirementId).Nodup)
    {item : ContextItem}
    (hitem : item ∈ (assembleContext inputs unknowns selection.selected).selectedItems) :
    ∃ r ∈ inputs.requirementPlan.requirements, ∃ c ∈ selectionFrontier inputs.resolution r,
      c.itemId = item.itemId := by
  obtain ⟨hsound, hgrown⟩ := selectAll_grows hselect (.empty _)
  obtain ⟨other, hother, rfl⟩ := mem_selected (mem_assembled_items.mp hitem)
  obtain ⟨⟨id, q⟩, hreason, hid⟩ := List.mem_map.mp
    ((hsound.recorded _).mpr (List.mem_map_of_mem hother))
  obtain ⟨added, hadded, hplanned⟩ := hgrown.reasons
  have hmem := hreason
  rw [hadded] at hmem
  obtain ⟨r, hr, rfl⟩ := List.mem_map.mp (hplanned _ hmem)
  obtain ⟨before, taken, rest, stop, short, hat⟩ := exists_runAt hselect hids hr
  obtain ⟨c, hc, hcid⟩ := List.mem_map.mp ((hat.taken_iff id).mp hreason)
  have hfrontier : selectionFrontier inputs.resolution r = taken ++ rest := hat.loop.frontier
  exact ⟨r, hr, c, hfrontier ▸ List.mem_append_left _ hc, hcid.trans hid⟩

/-- A selected item was on the frontier of a requirement. -/
theorem FinishedRun.on_frontier (hsha : Sha256.Injective)
    (hrun : FinishedRun inputs selection unknowns) {item : ContextItem}
    (hitem : item ∈ (assembleContext inputs unknowns selection.selected).selectedItems) :
    ∃ r ∈ inputs.requirementPlan.requirements, ∃ other ∈ selectionFrontier inputs.resolution r,
      groupKey other = groupKey item := by
  obtain ⟨r, hr, other, hother, hid⟩ := exists_selected_frontier hrun.select hrun.ids_nodup hitem
  refine ⟨r, hr, other, hother, ?_⟩
  obtain ⟨c, hc, hfrom⟩ := hrun.selected_from hitem
  obtain ⟨hcandidate, -⟩ := eligible_matches (frontierFrom_sublist.subset hother)
  have hidc : other.itemId = c.itemId := by
    rw [hid, hfrom]
    rfl
  have hsame := sameItem_of_id hsha (hrun.ids other hcandidate) (hrun.ids c hc) hidc
  rw [hfrom]
  exact Prod.ext hsame.contextKind hsame.semanticKey

/-- The bounds of every requirement admit its frontier, and the global ones
admit all the candidates at once. -/
structure AmpleBudget (inputs : CompileInputs) : Prop where
  totalItems : inputs.resolution.candidates.length
    ≤ inputs.requirementPlan.globalBudget.maxTotalItems
  totalBytes : totalCost inputs.resolution.candidates
    ≤ inputs.requirementPlan.globalBudget.maxTotalBytes
  maxItems : ∀ r ∈ inputs.requirementPlan.requirements, ∀ limit, r.maxItems = some limit →
    (selectionFrontier inputs.resolution r).length ≤ limit
  maxBytes : ∀ r ∈ inputs.requirementPlan.requirements, ∀ limit, r.maxBytes = some limit →
    totalCost (selectionFrontier inputs.resolution r) ≤ limit

omit [Sha256] in
/-- Candidates that are told apart by id are no more than all of them. -/
theorem within_candidates {items candidates : List ContextItem} (hnodup : items.Nodup)
    (hsub : ∀ item ∈ items, item ∈ candidates) :
    items.length ≤ candidates.length ∧ totalCost items ≤ totalCost candidates := by
  have hsubperm : items.Subperm candidates := List.subperm_of_subset hnodup hsub
  refine ⟨hsubperm.length_le, ?_⟩
  obtain ⟨kept, hperm, hsublist⟩ := hsubperm
  rw [← totalCost_perm hperm]
  exact List.Sublist.sum_le_sum (hsublist.map _) fun _ _ => Nat.zero_le _

omit [Sha256] in
/-- The planner bounds no requirement below what recall may take. -/
theorem plannedSpecs_maxItems {scope : TaskScope} {discovery : DiscoveryContext}
    {activation : ActivationPlan} {kernels : List KernelBinding} :
    ∀ spec ∈ plannedSpecs scope discovery activation kernels, memoryMinItems ≤ spec.maxItems := by
  have hdefault : memoryMinItems ≤ perRequirementMaxItems := by decide
  intro spec hspec
  rcases List.mem_append.mp hspec with hspec | hspec
  · simp only [baselineSpecs, List.mem_cons, List.not_mem_nil, or_false] at hspec
    rcases hspec with rfl | rfl | rfl | rfl | rfl | rfl | rfl | rfl | rfl | rfl
    all_goals
      first
        | exact hdefault
        | exact le_refl memoryMinItems
  · obtain ⟨need, refs, -, -, rfl⟩ := mem_kernelNeedSpecs hspec
    exact hdefault.trans (le_max_left perRequirementMaxItems _)

/-- A few small candidates are within every bound that the planner sets. -/
theorem ample_of_few {scope : TaskScope} {discovery : DiscoveryContext}
    {activation : ActivationPlan} {kernels : List KernelBinding}
    (hplan : planRequirements scope discovery activation kernels = .ok inputs.requirementPlan)
    (hcount : inputs.resolution.candidates.length ≤ memoryMinItems)
    (hcost : totalCost inputs.resolution.candidates ≤ perRequirementMaxBytes) :
    AmpleBudget inputs := by
  have hbudget := (planRequirements_eq_ok hplan).2.2.1
  have hfrontier : ∀ r, (selectionFrontier inputs.resolution r).length
        ≤ inputs.resolution.candidates.length
      ∧ totalCost (selectionFrontier inputs.resolution r)
        ≤ totalCost inputs.resolution.candidates := by
    intro r
    refine within_candidates (((nodup_eligibleItems _).sublist frontierFrom_sublist)) ?_
    exact fun item hitem => (eligible_matches (frontierFrom_sublist.subset hitem)).1
  refine ⟨?_, ?_, fun r hr limit hlimit => ?_, fun r hr limit hlimit => ?_⟩
  · rw [hbudget]
    exact hcount.trans (by decide)
  · rw [hbudget]
    exact hcost.trans (by decide)
  · obtain ⟨spec, hspec, rfl⟩ := exists_spec_of_mem hplan hr
    obtain rfl : spec.maxItems = limit := Option.some.inj hlimit
    exact (hfrontier _).1.trans (hcount.trans (plannedSpecs_maxItems spec hspec))
  · obtain ⟨spec, -, rfl⟩ := exists_spec_of_mem hplan hr
    obtain rfl : perRequirementMaxBytes = limit := Option.some.inj hlimit
    exact (hfrontier _).2.trans hcost

/-- Under an ample budget no bound stops a requirement. -/
theorem RunAt.unstopped (hrun : FinishedRun inputs selection unknowns)
    (hample : AmpleBudget inputs)
    {r : ContextRequirement} (hr : r ∈ inputs.requirementPlan.requirements) {before : Selection}
    {taken rest : List ContextItem} {stop : Option BudgetStop} {short : List ContextUnknown}
    (h : RunAt inputs.requirementPlan.globalBudget inputs.resolution
      inputs.requirementPlan.requirements r selection unknowns before taken rest stop short) :
    selectionFrontier inputs.resolution r = taken := by
  have hfrontier : selectionFrontier inputs.resolution r = taken ++ rest := h.loop.frontier
  cases hstop : stop with
  | none => rw [hfrontier, h.loop.finished hstop, List.append_nil]
  | some s =>
      obtain ⟨blocked, after, hrest, hblocked⟩ := h.loop.stopped s hstop
      have hitems := hample.maxItems r hr
      have hbytes := hample.maxBytes r hr
      rw [hfrontier, hrest] at hitems hbytes
      have hcandidate : blocked ∈ inputs.resolution.candidates := by
        have hin : blocked ∈ selectionFrontier inputs.resolution r := by
          rw [hfrontier, hrest]
          exact List.mem_append_right _ (List.mem_cons_self ..)
        exact (eligible_matches (frontierFrom_sublist.subset hin)).1
      have hone : totalCost [blocked] = blocked.canonicalCost := by simp [totalCost]
      have hcount : taken.length + 1 ≤ (taken ++ blocked :: after).length := by
        rw [List.length_append, List.length_cons]
        omega
      have hcost : totalCost taken + blocked.canonicalCost ≤ totalCost (taken ++ blocked :: after) := by
        rw [← List.singleton_append, totalCost_append, totalCost_append, hone]
        omega
      have hfits : Fits r inputs.requirementPlan.globalBudget (stateAfter before r taken) blocked := by
        refine ⟨fun limit hlimit => ?_, fun limit hlimit => ?_, ?_⟩
        · rw [selectedCount_stateAfter]
          exact hcount.trans (hitems limit hlimit)
        · rw [requirementBytes_stateAfter]
          exact hcost.trans (hbytes limit hlimit)
        · by_cases hhas : blocked.itemId
              ∈ (stateAfter before r taken).selection.byItem.map ContextItem.itemId
          · exact .inl hhas
          · -- what is held and the blocked candidate are distinct candidates
            have hdistinct : ((stateAfter before r taken).selection.byItem ++ [blocked]).Nodup := by
              refine List.Nodup.of_map ContextItem.itemId ?_
              rw [List.map_append, List.map_singleton, ← List.concat_eq_append]
              exact h.sound_after.ids_nodup.concat hhas
            have hheld : ∀ item ∈ (stateAfter before r taken).selection.byItem ++ [blocked],
                item ∈ inputs.resolution.candidates := by
              intro item hitem
              rcases List.mem_append.mp hitem with hitem | hitem
              · rcases mem_byItem_selectAll hrun.select (h.kept.subset hitem) with hempty | ⟨_, -, he⟩
                · cases hempty
                · exact (eligible_matches he).1
              · rwa [List.mem_singleton.mp hitem]
            obtain ⟨hitems, hbytes⟩ := within_candidates hdistinct hheld
            have hcounted : (stateAfter before r taken).selection.totalBytes
                = totalCost (stateAfter before r taken).selection.byItem := h.sound_after.bytes
            rw [List.length_append, List.length_singleton] at hitems
            rw [totalCost_append, hone, ← hcounted] at hbytes
            exact .inr ⟨hitems.trans hample.totalItems, hbytes.trans hample.totalBytes⟩
      cases (budgetStop_eq_none.mpr hfits).symm.trans hblocked

/-- Under an ample budget a requirement selects its whole frontier. -/
theorem FinishedRun.frontier_selected (hsha : Sha256.Injective)
    (hrun : FinishedRun inputs selection unknowns)
    (hample : AmpleBudget inputs)
    {r : ContextRequirement} (hr : r ∈ inputs.requirementPlan.requirements) {other : ContextItem}
    (hother : other ∈ selectionFrontier inputs.resolution r) :
    ∃ item ∈ (assembleContext inputs unknowns selection.selected).selectedItems,
      groupKey item = groupKey other := by
  obtain ⟨before, taken, rest, stop, short, hat⟩ := exists_runAt hrun.select hrun.ids_nodup hr
  rw [hat.unstopped hrun hample hr] at hother
  have hreason := (hat.taken_iff other.itemId).mpr (List.mem_map_of_mem hother)
  obtain ⟨hsound, -⟩ := selectAll_grows hrun.select (.empty _)
  obtain ⟨held, hheld, hid⟩ := List.mem_map.mp
    ((hsound.recorded other.itemId).mp (List.mem_map_of_mem hreason))
  have hselected : held.withSelection (selection.reasonsOf held.itemId)
      ∈ (assembleContext inputs unknowns selection.selected).selectedItems :=
    mem_assembled_items.mpr ((perm_selected selection).mem_iff.mpr
      (List.mem_map.mpr ⟨held, hheld, rfl⟩))
  refine ⟨_, hselected, ?_⟩
  obtain ⟨hcandidate, -⟩ := eligible_matches (hat.taken_eligible hother)
  rcases mem_byItem_selectAll hrun.select hheld with hempty | ⟨r', -, hview⟩
  · cases hempty
  · obtain ⟨hcandidate', -⟩ := eligible_matches hview
    have hsame := sameItem_of_id hsha (hrun.ids held hcandidate') (hrun.ids other hcandidate) hid
    exact Prod.ext hsame.contextKind hsame.semanticKey

/-! ## Conflicts that stay apart -/

/-- No conflict of one consumer is the key of a candidate on the frontier
of a requirement. -/
def ConflictsApart (inputs : CompileInputs) : Prop :=
  ∀ key, ConflictSeen inputs key → ∀ r ∈ inputs.requirementPlan.requirements,
    ∀ item ∈ selectionFrontier inputs.resolution r, groupKey item ≠ key

/-- The gate finds no conflict selected where the conflicts of all
consumers stay apart from the frontiers, and, where no bound stops the
selection, only there. -/
theorem conflicts_unselected_iff (hsha : Sha256.Injective) (snapshot : ContextSnapshot)
    (inputs : CompileInputs) (context : CompiledTaskContext) (hfrom : PlannedFrom snapshot inputs)
    (hneeds : NeedsAccepted inputs.kernels) (hscope : UnboundUnknowns inputs.scope)
    (hquiet : QuietScope inputs.scope) (hcompile : compileContext inputs = .ok context) :
    (ConflictsApart inputs → selectedConflicts context = [])
      ∧ (AmpleBudget inputs →
        (selectedConflicts context = [] ↔ ConflictsApart inputs)) := by
  obtain ⟨selection, unknowns, hrun, rfl⟩ := finishedRun_of_compile hfrom hneeds hscope hcompile
  have henough : ConflictsApart inputs →
      selectedConflicts (assembleContext inputs unknowns selection.selected) = [] := by
    intro hapart
    refine (selectedConflicts_eq_nil_iff hsha hrun hquiet).mpr fun key hseen item hitem hkey => ?_
    obtain ⟨r, hr, other, hother, hsame⟩ := hrun.on_frontier hsha hitem
    exact hapart key hseen r hr other hother (hsame.trans hkey)
  refine ⟨henough, fun hample => ⟨fun hnone key hseen r hr other hother hkey => ?_, henough⟩⟩
  obtain ⟨item, hitem, hsame⟩ := hrun.frontier_selected hsha hample hr hother
  exact (selectedConflicts_eq_nil_iff hsha hrun hquiet).mp hnone key hseen item hitem
    (hsame.trans hkey)

end CrossViews

/-! ## A service of two descriptions -/

section Greeter

attribute [local instance] Sha256.transparent

/-- The layering rule is nobody's conflict. -/
theorem layering_rule_apart : ∃ plan context,
    compileContext (layeringInputs plan) = .ok context ∧ selectedConflicts context = [] := by
  have hneeds : NeedsAccepted [] := fun _ h => absurd h List.not_mem_nil
  have hversion : isBlank packageVersion = false := by decide
  obtain ⟨plan, hplan⟩ := planRequirements_ok Sha256.transparent_injective
    (compileScope auditIntent)
    (discover (compileScope auditIntent) (resolveSnapshot layeringSnapshot.toSnapshotBuckets))
    layeringActivation hneeds
  have hfrom : PlannedFrom layeringSnapshot (layeringInputs plan) := ⟨rfl, rfl, hplan⟩
  obtain ⟨context, hcompile⟩ := hfrom.finishes hneeds hversion
  have hone : (layeringInputs plan).resolution.candidates
      = [layeringRule "no upward imports" .global []] := rfl
  have hapart : ConflictsApart (layeringInputs plan) := by
    rintro key ⟨eligible, -, entry, hentry, -⟩
    have hnone : conflictGroups (resolveCandidates
        ((layeringInputs plan).resolution.candidates.filter eligible)) = [] := by
      refine conflictGroups_of_distinct_keys fun a ha b hb _ => ?_
      rw [hone] at ha hb
      rw [List.mem_singleton.mp (List.mem_filter.mp ha).1,
        List.mem_singleton.mp (List.mem_filter.mp hb).1]
    unfold SnapshotResolution.resolve at hentry
    rw [hnone] at hentry
    cases hentry
  exact ⟨plan, context, hcompile, (conflicts_unselected_iff Sha256.transparent_injective
    layeringSnapshot (layeringInputs plan) context hfrom hneeds (compileScope_unbound _)
    (compileScope_quiet _) hcompile).1 hapart⟩

/-- The audit, asked about one directory. -/
def greetingIntent : IntentContract :=
  { auditIntent with sourceContext := [("target_refs", .ofStrings ["src/greeting"])] }

/-- What a catalog says of a service, where it says so. -/
def greeter (relation : String) (scopeMode : ContextScopeMode) (scopeRefs : List String) :
    ContextItem :=
  .create .governedAuthoritative
    { sourceId := "catalog-4", sourceKind := "catalog", locator := "catalog/services.yaml"
      immutableCoordinate := some "9c1e", contentDigest := none }
    scopeMode scopeRefs
    (.relevantEntity { entityId := "greeter", entityType := "service"
                       relationToTask := relation })

def greeterKey : ContextKind × String := (.relevantEntity, "service:greeter")

/-- A caller wherever it is met, and the target in its own directory. -/
def greeters : List ContextItem :=
  [greeter "caller of the target" .global [], greeter "the target" .scoped ["src/greeting"]]

theorem greeter_valid : ∀ item ∈ greeters, item.Valid := by
  intro item hitem
  rcases List.mem_cons.mp hitem with rfl | hitem
  · exact ContextItem.create_valid (by decide) (by decide) (by decide) trivial (fun _ => by decide)
      (fun h => by cases h)
  · rw [List.mem_singleton.mp hitem]
    exact ContextItem.create_valid (by decide) (by decide) (by decide) trivial (fun _ => by decide)
      (fun h => by cases h)

theorem greeter_kind : ∀ item ∈ greeters, item.contextKind = .relevantEntity := by
  intro item hitem
  rcases List.mem_cons.mp hitem with rfl | hitem
  · rfl
  · rw [List.mem_singleton.mp hitem]
    rfl

theorem greeter_unselected : ∀ item ∈ greeters, item.selectedBecause = [] := by
  intro item hitem
  rcases List.mem_cons.mp hitem with rfl | hitem
  · rfl
  · rw [List.mem_singleton.mp hitem]
    rfl

/-- A snapshot that only holds entities. -/
def entitySnapshot (entities : List ContextItem) (hkind : ∀ e ∈ entities,
    e.contextKind = .relevantEntity) (hvalid : ∀ e ∈ entities, e.Valid)
    (hunselected : ∀ e ∈ entities, e.selectedBecause = []) : ContextSnapshot where
  toSnapshotBuckets := { SnapshotBuckets.empty with relevantEntities := entities }
  kinds := by
    simpa [SnapshotBuckets.named, SnapshotBuckets.empty] using hkind
  valid := by
    simpa [SnapshotBuckets.allItems, SnapshotBuckets.named, SnapshotBuckets.empty] using hvalid
  unselected := by
    simpa [SnapshotBuckets.allItems, SnapshotBuckets.named, SnapshotBuckets.empty] using
      hunselected

theorem entitySnapshot_allItems {entities : List ContextItem} {hkind : ∀ e ∈ entities,
    e.contextKind = .relevantEntity} {hvalid : ∀ e ∈ entities, e.Valid}
    {hunselected : ∀ e ∈ entities, e.selectedBecause = []} :
    (entitySnapshot entities hkind hvalid hunselected).allItems = entities := by
  simp [entitySnapshot, SnapshotBuckets.allItems, SnapshotBuckets.named, SnapshotBuckets.empty]

def greeterSnapshot : ContextSnapshot :=
  entitySnapshot greeters greeter_kind greeter_valid greeter_unselected

theorem entitySnapshot_candidates {entities : List ContextItem} {hkind : ∀ e ∈ entities,
    e.contextKind = .relevantEntity} {hvalid : ∀ e ∈ entities, e.Valid}
    {hunselected : ∀ e ∈ entities, e.selectedBecause = []} :
    (resolveSnapshot (entitySnapshot entities hkind hvalid
      hunselected).toSnapshotBuckets).candidates = sortedBy ContextItem.sortKey entities := by
  unfold resolveSnapshot
  rw [entitySnapshot_allItems]

theorem mem_greeter_candidates {item : ContextItem} :
    item ∈ (resolveSnapshot greeterSnapshot.toSnapshotBuckets).candidates ↔ item ∈ greeters := by
  unfold greeterSnapshot
  rw [entitySnapshot_candidates, mem_sortedBy]

/-- Candidates of one rank and key are all its strongest. -/
theorem strongestIn_of_rank {items : List ContextItem} {key : ContextKind × String}
    {rank : Nat} {item : ContextItem} (hkind : isSupersessionKind key.1 = false)
    (hitem : item ∈ items) (hkey : groupKey item = key)
    (hrank : ∀ other ∈ items, other.authorityRank = rank) : StrongestIn items key item := by
  have hsame : isSupersessionKind item.contextKind = false := by
    rw [show item.contextKind = key.1 from congrArg Prod.fst hkey]
    exact hkind
  refine ⟨mem_groupMembers.mpr ⟨mem_leftOver_of_kind hitem hsame, hkey⟩, fun other hother => ?_⟩
  rw [hrank item hitem, hrank other (mem_of_mem_leftOver (mem_groupMembers.mp hother).1)]

/-- The greeters are rivals for discovery. -/
theorem greeters_conflict {items : List ContextItem}
    (hin : ∀ item ∈ items, item ∈ greeters) (hall : ∀ item ∈ greeters, item ∈ items) :
    ∃ entry ∈ conflictGroups (resolveCandidates items), entry.1 = greeterKey := by
  have hrank : ∀ item ∈ items, item.authorityRank = 0 := by
    intro item hitem
    rcases List.mem_cons.mp (hin item hitem) with rfl | hitem
    · rfl
    · rw [List.mem_singleton.mp hitem]
      rfl
  have hglobal : StrongestIn items greeterKey (greeter "caller of the target" .global []) :=
    strongestIn_of_rank rfl (hall _ (List.mem_cons_self ..)) rfl hrank
  have hscoped : StrongestIn items greeterKey (greeter "the target" .scoped ["src/greeting"]) :=
    strongestIn_of_rank rfl (hall _ (List.mem_cons_of_mem _ (List.mem_singleton_self _))) rfl hrank
  have hdiffer : claimDigest (greeter "caller of the target" .global [])
      ≠ claimDigest (greeter "the target" .scoped ["src/greeting"]) := by
    intro hdigest
    have hplace := ((claimDigest_eq_iff Sha256.transparent_injective).mp hdigest).2
    revert hplace
    decide
  have hconflict := conflict_of_rivals (fun hmany => by
    unfold resolveGroup
    split
    · next item hone => exact absurd hone (hmany item)
    · rfl) hglobal hscoped hdiffer
  exact ⟨(greeterKey, _), List.mem_filter.mpr ⟨mem_sortedGroups.mpr
    (mem_groups.mpr ⟨List.ne_nil_of_mem hglobal.1, rfl⟩), hconflict⟩, rfl⟩

theorem greeter_size : ∀ item ∈ greeters, item.toJson.size ≤ 32000 := by
  intro item hitem
  rw [ContextItem.size_transparent (greeter_valid item hitem).id_recipe]
  rcases List.mem_cons.mp hitem with rfl | hitem
  · decide +kernel
  · rw [List.mem_singleton.mp hitem]
    decide +kernel

theorem greeter_withinCeilings : WithinCeilings greeterSnapshot.toSnapshotBuckets := by
  have hitems : greeterSnapshot.allItems = greeters := entitySnapshot_allItems
  refine withinCeilings_of_few ?_ fun item hitem => ?_
  · rw [hitems]
    decide
  · rw [hitems] at hitem
    exact (greeter_size item hitem).trans (by decide)

/-- Two small candidates are within every bound that the planner sets. -/
theorem candidates_small {s : SnapshotBuckets} (hcount : s.allItems.length ≤ 2)
    (hunselected : ∀ c ∈ s.allItems, c.selectedBecause = [])
    (hsize : ∀ c ∈ s.allItems, c.toJson.size ≤ 32000) :
    (resolveSnapshot s).candidates.length ≤ memoryMinItems
      ∧ totalCost (resolveSnapshot s).candidates ≤ perRequirementMaxBytes := by
  have hperm : (resolveSnapshot s).candidates.Perm s.allItems := perm_sortedBy _ _
  rw [hperm.length_eq, totalCost_perm hperm]
  refine ⟨hcount.trans (by decide), ?_⟩
  have hcost : ∀ n ∈ s.allItems.map ContextItem.canonicalCost, n ≤ 32000 := by
    intro n hn
    obtain ⟨item, hitem, rfl⟩ := List.mem_map.mp hn
    unfold ContextItem.canonicalCost ContextItem.candidateDict
    rw [← hunselected item hitem, Json.size_normalize]
    exact hsize item hitem
  have hsum : (s.allItems.map ContextItem.canonicalCost).sum ≤ s.allItems.length * 32000 := by
    have hle := List.sum_le_card_nsmul _ 32000 hcost
    rw [List.length_map] at hle
    exact hle
  unfold totalCost perRequirementMaxBytes
  omega

theorem greeter_candidates_small :
    (resolveSnapshot greeterSnapshot.toSnapshotBuckets).candidates.length ≤ memoryMinItems
      ∧ totalCost (resolveSnapshot greeterSnapshot.toSnapshotBuckets).candidates
        ≤ perRequirementMaxBytes := by
  have hitems : greeterSnapshot.allItems = greeters := entitySnapshot_allItems
  refine candidates_small ?_ ?_ ?_ <;> rw [hitems]
  · decide
  · exact greeter_unselected
  · exact greeter_size

/-- What the planner asks about entities. -/
def entityRequirement (scope : TaskScope) : ContextRequirement :=
  (baselineSpec scope.eligibleRefs .relevantEntity
    "entities materially related to the task scope").draft.canonical

/-- Only what is said in the directory is selectable for it. -/
theorem greeter_matches : ∀ item ∈ greeters,
    matchesRequirement (entityRequirement (compileScope greetingIntent)) item = true ↔
      item = greeter "the target" .scoped ["src/greeting"] := by
  have hrefs : (compileScope greetingIntent).eligibleRefs = ["src/greeting"] := by decide
  unfold entityRequirement
  rw [hrefs]
  intro item hitem
  rcases List.mem_cons.mp hitem with rfl | hitem
  · refine ⟨fun h => ?_, fun h => ?_⟩
    · exact absurd h (by decide)
    · exact absurd (congrArg ContextItem.scopeMode h) (by decide)
  · rw [List.mem_singleton.mp hitem]
    exact ⟨fun _ => rfl, fun _ => by decide⟩

/-- Discovery finds the greeters in conflict, and the context reports it
and selects the scoped one. -/
theorem conflicting_greeter_selected :
    ∃ plan context, PlannedFrom greeterSnapshot (inputsOver greetingIntent
        (compileScope greetingIntent) auditActivation [] plan greeterSnapshot)
      ∧ WithinCeilings greeterSnapshot.toSnapshotBuckets
      ∧ compileContext (inputsOver greetingIntent (compileScope greetingIntent) auditActivation []
        plan greeterSnapshot) = .ok context
      ∧ selectedConflicts context ≠ [] := by
  have hneeds : NeedsAccepted [] := fun _ h => absurd h List.not_mem_nil
  have hversion : isBlank packageVersion = false := by decide
  obtain ⟨plan, hplan⟩ := planRequirements_ok Sha256.transparent_injective
    (compileScope greetingIntent)
    (discover (compileScope greetingIntent) (resolveSnapshot greeterSnapshot.toSnapshotBuckets))
    auditActivation hneeds
  have hfrom : PlannedFrom greeterSnapshot (inputsOver greetingIntent
      (compileScope greetingIntent) auditActivation [] plan greeterSnapshot) := ⟨rfl, rfl, hplan⟩
  obtain ⟨context, hcompile⟩ := hfrom.finishes hneeds hversion
  refine ⟨plan, context, hfrom, greeter_withinCeilings, hcompile, fun hnone => ?_⟩
  obtain ⟨selection, unknowns, hrun, rfl⟩ := finishedRun_of_compile hfrom hneeds
    (compileScope_unbound _) hcompile
  have hrefs : (compileScope greetingIntent).eligibleRefs = ["src/greeting"] := by decide
  have hseen : ConflictSeen (inputsOver greetingIntent (compileScope greetingIntent)
      auditActivation [] plan greeterSnapshot) greeterKey := by
    refine ⟨_, List.mem_cons_self .., greeters_conflict (fun item hitem =>
      mem_greeter_candidates.mp (List.mem_filter.mp hitem).1) fun item hitem =>
        List.mem_filter.mpr ⟨mem_greeter_candidates.mpr hitem, ?_⟩⟩
    show discoveryEligible (compileScope greetingIntent).eligibleRefs item = true
    rw [hrefs]
    rcases List.mem_cons.mp hitem with rfl | hitem
    · decide
    · rw [List.mem_singleton.mp hitem]
      decide
  have hmember : greeter "the target" .scoped ["src/greeting"] ∈ greeters :=
    List.mem_cons_of_mem _ (List.mem_singleton_self _)
  have hfrontier : greeter "the target" .scoped ["src/greeting"] ∈ selectionFrontier
      (resolveSnapshot greeterSnapshot.toSnapshotBuckets)
      (entityRequirement (compileScope greetingIntent)) := by
    unfold selectionFrontier
    rw [frontierFrom_allEligible rfl]
    refine (mem_eligible_of_distinct_keys fun a ha b hb _ => ?_).mpr (mem_leftOver_of_kind
      (List.mem_filter.mpr ⟨mem_greeter_candidates.mpr hmember,
        (greeter_matches _ hmember).mpr rfl⟩) rfl)
    obtain ⟨ha, hmatch⟩ := List.mem_filter.mp ha
    obtain ⟨hb, hmatch'⟩ := List.mem_filter.mp hb
    rw [(greeter_matches a (mem_greeter_candidates.mp ha)).mp hmatch,
      (greeter_matches b (mem_greeter_candidates.mp hb)).mp hmatch']
  have hplanned : entityRequirement (compileScope greetingIntent) ∈ plan.requirements := by
    refine ((planRequirements_eq_ok hplan).1 _).mpr
      (List.mem_map.mpr ⟨_, List.mem_append_left _ ?_, rfl⟩)
    simp [baselineSpecs]
  obtain ⟨item, hitem, hkey⟩ := hrun.frontier_selected Sha256.transparent_injective
    (ample_of_few hplan greeter_candidates_small.1 greeter_candidates_small.2) hplanned hfrontier
  exact (selectedConflicts_eq_nil_iff Sha256.transparent_injective hrun
    (compileScope_quiet _)).mp hnone greeterKey hseen item hitem hkey

end Greeter

end CognitiveRuntime
