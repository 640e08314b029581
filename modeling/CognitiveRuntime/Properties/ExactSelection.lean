import CognitiveRuntime.Properties.ArchitectureSurvival
import CognitiveRuntime.Properties.BudgetStops
import CognitiveRuntime.Properties.PlanRuns

/-!
# Exactly what fits

The items bound to a requirement are the longest prefix of its frontier
that its own bounds and what is left of the global ones admit. An item
that an earlier requirement selected counts against the requirement, and
against the global bounds only once.
-/

namespace CognitiveRuntime

open Ordered Fallible Greedy

/-! ## What a requirement pays for -/

/-- The items paid for once a requirement took some more: what was held
before, and what of these was not. -/
def paidFor (held taken : List ContextItem) : List ContextItem :=
  held ++ taken.filter fun item => item.itemId ∉ held.map ContextItem.itemId

/-- A candidate that no bound refuses, told from what earlier requirements
hold and what this one has taken. -/
structure FitsBudget (r : ContextRequirement) (budget : ContextBudget)
    (held taken : List ContextItem) (item : ContextItem) : Prop where
  maxItems : ∀ limit, r.maxItems = some limit → taken.length + 1 ≤ limit
  maxBytes : ∀ limit, r.maxBytes = some limit → totalCost taken + item.canonicalCost ≤ limit
  shared : item.itemId ∈ (paidFor held taken).map ContextItem.itemId
    ∨ (paidFor held taken).length + 1 ≤ budget.maxTotalItems
      ∧ totalCost (paidFor held taken) + item.canonicalCost ≤ budget.maxTotalBytes

variable {r : ContextRequirement} {budget : ContextBudget} {before : Selection}
  {held taken first : List ContextItem} {item : ContextItem}

theorem requirementBytes_stateAfter : (stateAfter before r taken).requirementBytes
    = totalCost taken :=
  LoopState.requirementBytes_admitAll.trans (Nat.zero_add _)

theorem LoopState.admitAll_append {state : LoopState} {items items' : List ContextItem}
    {requirementId : String} : state.admitAll (items ++ items') requirementId
      = (state.admitAll items requirementId).admitAll items' requirementId :=
  List.foldl_append ..

/-- Distinct ids are each paid for once. -/
theorem byItem_admitAll_eq {requirementId : String} :
    ∀ {items : List ContextItem} {state : LoopState}, (items.map ContextItem.itemId).Nodup →
      (state.admitAll items requirementId).selection.byItem
        = paidFor state.selection.byItem items
  | [], state, _ => (List.append_nil _).symm
  | item :: rest, state, hnodup => by
      obtain ⟨hnew, hrest⟩ := List.nodup_cons.mp hnodup
      rw [LoopState.admitAll_cons, byItem_admitAll_eq hrest]
      unfold LoopState.admitItem Selection.admitItem paidFor
      dsimp only
      rw [List.filter_cons]
      by_cases hhas : item.itemId ∈ state.selection.byItem.map ContextItem.itemId
      · have hhas' : state.selection.has item.itemId = true := decide_eq_true hhas
        have hskip : ¬decide (item.itemId
            ∉ state.selection.byItem.map ContextItem.itemId) = true := fun h =>
          of_decide_eq_true h hhas
        rw [if_pos hhas', if_neg hskip]
      · have hnot : ¬state.selection.has item.itemId = true := fun h =>
          hhas (of_decide_eq_true h)
        rw [if_neg hnot, if_pos (decide_eq_true hhas), List.append_assoc,
          List.singleton_append]
        refine congrArg (fun kept => state.selection.byItem ++ item :: kept)
          (List.filter_congr fun other hother => ?_)
        have hne : other.itemId ≠ item.itemId := fun h =>
          hnew (h ▸ List.mem_map_of_mem hother)
        rw [decide_eq_decide, List.map_append, List.map_singleton, List.mem_append,
          List.mem_singleton, not_or]
        exact and_iff_left hne

/-- The bytes counted are those of the items held. -/
theorem totalBytes_admitAll {requirementId : String} :
    ∀ {items : List ContextItem} {state : LoopState},
      state.selection.totalBytes = totalCost state.selection.byItem →
      (state.admitAll items requirementId).selection.totalBytes
        = totalCost (state.admitAll items requirementId).selection.byItem
  | [], _, h => h
  | item :: rest, state, h => by
      rw [LoopState.admitAll_cons]
      refine totalBytes_admitAll ?_
      unfold LoopState.admitItem Selection.admitItem
      dsimp only
      split
      · exact h
      · rw [totalCost_append, h]
        simp [totalCost]

theorem totalCost_prefix {items items' : List ContextItem} (h : items <+: items') :
    totalCost items ≤ totalCost items' := by
  obtain ⟨rest, rfl⟩ := h
  rw [totalCost_append]
  omega

/-- A run within its bounds fitted at each of its admissions. -/
theorem fits_of_within (hbytes : before.totalBytes = totalCost before.byItem)
    (hwithin : (stateAfter before r taken).Within r)
    (hsound : (stateAfter before r taken).selection.Sound budget)
    (hbegins : first ++ [item] <+: taken) : Fits r budget (stateAfter before r first) item := by
  obtain ⟨later, rfl⟩ := hbegins
  have hcount : first.length + 1 ≤ (first ++ [item] ++ later).length := by
    simp
  have hcost : totalCost first + item.canonicalCost ≤ totalCost (first ++ [item] ++ later) := by
    rw [totalCost_append, totalCost_append]
    simp [totalCost]
  refine ⟨fun limit hlimit => ?_, fun limit hlimit => ?_, ?_⟩
  · have hlast := hwithin.items_le limit hlimit
    rw [selectedCount_stateAfter] at hlast ⊢
    exact hcount.trans hlast
  · have hlast := hwithin.bytes_le limit hlimit
    rw [requirementBytes_stateAfter] at hlast ⊢
    exact hcost.trans hlast
  · by_cases hhas : item.itemId
        ∈ (stateAfter before r first).selection.byItem.map ContextItem.itemId
    · exact .inl hhas
    · have hfinal : stateAfter before r (first ++ [item] ++ later)
          = ((stateAfter before r first).admitItem item r.requirementId).admitAll later
            r.requirementId := by
        unfold stateAfter
        rw [LoopState.admitAll_append, LoopState.admitAll_append]
        rfl
      have hheld : (stateAfter before r first).selection.byItem ++ [item]
          <+: (stateAfter before r (first ++ [item] ++ later)).selection.byItem := by
        have hnot : ¬(stateAfter before r first).selection.has item.itemId = true := fun h =>
          hhas (of_decide_eq_true h)
        have hnext : ((stateAfter before r first).admitItem item
            r.requirementId).selection.byItem
              = (stateAfter before r first).selection.byItem ++ [item] := if_neg hnot
        rw [hfinal, ← hnext]
        exact byItem_admitAll
      have hitems := hheld.length_le
      rw [List.length_append, List.length_singleton] at hitems
      have hpaid := totalCost_prefix hheld
      rw [totalCost_append, ← hsound.bytes] at hpaid
      have hcounted : (stateAfter before r first).selection.totalBytes
          = totalCost (stateAfter before r first).selection.byItem := totalBytes_admitAll hbytes
      have hone : totalCost [item] = item.canonicalCost := by simp [totalCost]
      refine .inr ⟨hitems.trans hsound.items_le, ?_⟩
      rw [hcounted, ← hone]
      exact hpaid.trans hsound.bytes_le

/-- The bounds read ids, counts and costs, so whoever holds the same is
stopped the same. -/
theorem fits_iff_fitsBudget (hbytes : before.totalBytes = totalCost before.byItem)
    (hids : (held.map ContextItem.itemId).Perm (before.byItem.map ContextItem.itemId))
    (hcosts : (held.map ContextItem.canonicalCost).Perm
      (before.byItem.map ContextItem.canonicalCost))
    (hnodup : (first.map ContextItem.itemId).Nodup) :
    Fits r budget (stateAfter before r first) item ↔ FitsBudget r budget held first item := by
  have hnew : first.filter (fun x => x.itemId ∉ before.byItem.map ContextItem.itemId)
      = first.filter fun x => x.itemId ∉ held.map ContextItem.itemId :=
    List.filter_congr fun x _ => by rw [decide_eq_decide, hids.mem_iff]
  have hbyItem : (stateAfter before r first).selection.byItem = before.byItem
      ++ first.filter fun x => x.itemId ∉ held.map ContextItem.itemId :=
    (byItem_admitAll_eq hnodup).trans (congrArg (before.byItem ++ ·) hnew)
  have hpaidIds : ((paidFor held first).map ContextItem.itemId).Perm
      ((stateAfter before r first).selection.byItem.map ContextItem.itemId) := by
    rw [hbyItem]
    unfold paidFor
    rw [List.map_append, List.map_append]
    exact hids.append_right _
  have hcost : totalCost (paidFor held first)
      = (stateAfter before r first).selection.totalBytes := by
    have hcounted : (stateAfter before r first).selection.totalBytes
        = totalCost (stateAfter before r first).selection.byItem := totalBytes_admitAll hbytes
    have hheld : totalCost held = totalCost before.byItem := hcosts.sum_eq
    rw [hcounted, hbyItem]
    unfold paidFor
    rw [totalCost_append, totalCost_append, hheld]
  have hcount : (paidFor held first).length
      = (stateAfter before r first).selection.byItem.length := by
    have hlength := hpaidIds.length_eq
    rwa [List.length_map, List.length_map] at hlength
  constructor
  · rintro ⟨hitems, hbound, hshared⟩
    rw [selectedCount_stateAfter] at hitems
    rw [requirementBytes_stateAfter] at hbound
    refine ⟨hitems, hbound, ?_⟩
    rw [hpaidIds.mem_iff, hcost, hcount]
    exact hshared
  · rintro ⟨hitems, hbound, hshared⟩
    rw [hpaidIds.mem_iff, hcost, hcount] at hshared
    refine ⟨?_, ?_, hshared⟩
    · rw [selectedCount_stateAfter]
      exact hitems
    · rw [requirementBytes_stateAfter]
      exact hbound

section Exact

variable [Sha256] {inputs : CompileInputs} {selection : Selection}
  {unknowns : List ContextUnknown} {rest : List ContextItem} {stop : Option BudgetStop}
  {short : List ContextUnknown}

/-- A requirement of a finished run took the longest prefix that fits. -/
theorem RunAt.longest {resolution : SnapshotResolution} {requirements : List ContextRequirement}
    (h : RunAt budget resolution requirements r selection unknowns before taken rest stop short) :
    LongestFit (fun first => Fits r budget (stateAfter before r first))
      (selectionFrontier resolution r) taken := by
  have hfrontier : selectionFrontier resolution r = taken ++ rest := h.loop.frontier
  refine ⟨hfrontier ▸ List.prefix_append _ _,
    fun first x hx => fits_of_within h.sound.bytes h.within h.sound_after hx, fun x hx hfits => ?_⟩
  cases hstop : stop with
  | none =>
      rw [hfrontier, h.loop.finished hstop, List.append_nil] at hx
      have hlength := hx.length_le
      rw [List.length_append, List.length_singleton] at hlength
      omega
  | some s =>
      obtain ⟨blocked, after, hrest, hblocked⟩ := h.loop.stopped s hstop
      rw [hfrontier, hrest, List.prefix_append_right_inj] at hx
      obtain ⟨rfl, -⟩ := List.cons_prefix_cons.mp hx
      cases (budgetStop_eq_none.mpr hfits).symm.trans hblocked

/-- What the finished context holds for the requirements decided before
the given one. -/
def heldBefore (context : CompiledTaskContext) (plan : ContextRequirementPlan)
    (r : ContextRequirement) : List ContextItem :=
  context.selectedItems.filter fun item =>
    item.selectedBecause.any (· ∈ earlierIds plan.requirements r)

/-- What is held before a requirement is what the run had selected. -/
theorem heldBefore_perm {β : Type} {f : ContextItem → β}
    (hf : ∀ {a b}, FromView inputs.resolution a → FromView inputs.resolution b →
      a.itemId = b.itemId → f a = f b)
    (hselect : selectAll inputs.requirementPlan.globalBudget inputs.resolution
      inputs.requirementPlan.requirements .empty = .ok (selection, unknowns))
    (h : RunAt inputs.requirementPlan.globalBudget inputs.resolution
      inputs.requirementPlan.requirements r selection unknowns before taken rest stop short) :
    ((heldBefore (assembleContext inputs unknowns selection.selected) inputs.requirementPlan
      r).map f).Perm (before.byItem.map f) := by
  obtain ⟨hsound, -⟩ := selectAll_grows hselect (.empty _)
  have hkept : before.byItem <+: selection.byItem :=
    byItem_admitAll.trans h.kept
  refine perm_map_of_keys ContextItem.itemId f ?_ h.sound.ids_nodup (fun id => ?_)
    fun a ha b hb hid => ?_
  · refine ((perm_bound fun reasons => reasons.any
      (· ∈ earlierIds inputs.requirementPlan.requirements r)).map
      ContextItem.itemId).nodup_iff.mpr ?_
    rw [List.map_map]
    exact hsound.ids_nodup.sublist (List.filter_sublist.map _)
  · rw [← h.earlier_iff]
    unfold heldBefore
    rw [mem_reasoned hselect]
    simp only [decide_eq_true_eq]
  · exact hf (fromView_selected hselect (List.mem_filter.mp ha).1)
      (fromView_byItem hselect (hkept.subset hb)) hid

theorem FromView.same (hsha : Sha256.Injective) {resolution : SnapshotResolution}
    (hids : ∀ c ∈ resolution.candidates, c.itemId = c.expectedItemId) {a b : ContextItem}
    (ha : FromView resolution a) (hb : FromView resolution b) (hid : a.itemId = b.itemId) :
    a.candidateDict.normalize = b.candidateDict.normalize := by
  obtain ⟨r, e, he, _, rfl⟩ := ha
  obtain ⟨r', e', he', _, rfl⟩ := hb
  obtain ⟨hc, -⟩ := eligible_matches he
  obtain ⟨hc', -⟩ := eligible_matches he'
  have hlevel : e.authorityLevel = e'.authorityLevel := AuthorityLevel.rank_inj.mp
    (le_antisymm (eligible_strongest hsha hids he hc' hid)
      (eligible_strongest hsha hids he' hc hid.symm))
  exact candidateDict_congr hid (sameItem_of_id hsha (hids e hc) (hids e' hc') hid) hlevel

/-- An item selected for a requirement is matched by it, whichever
requirement admitted it first. -/
theorem RunAt.matches (hsha : Sha256.Injective)
    (hids : ∀ c ∈ inputs.resolution.candidates, c.itemId = c.expectedItemId)
    (hselect : selectAll inputs.requirementPlan.globalBudget inputs.resolution
      inputs.requirementPlan.requirements .empty = .ok (selection, unknowns))
    (h : RunAt inputs.requirementPlan.globalBudget inputs.resolution
      inputs.requirementPlan.requirements r selection unknowns before taken rest stop short)
    (hitem : item ∈ selection.byItem) (hreason : (item.itemId, r.requirementId) ∈ selection.reasons) :
    matchesRequirement r item = true := by
  obtain ⟨e, he, hid⟩ := List.mem_map.mp ((h.taken_iff item.itemId).mp hreason)
  have heligible := h.taken_eligible he
  obtain ⟨hcandidate, hmatch⟩ := eligible_matches heligible
  rcases mem_byItem_selectAll hselect hitem with hempty | ⟨r', -, hview⟩
  · cases hempty
  · obtain ⟨hcandidate', -⟩ := eligible_matches hview
    exact (sameItem_of_id hsha (hids e hcandidate) (hids item hcandidate') hid).matches
      (eligible_strongest hsha hids hview hcandidate hid.symm) hmatch

/-- The context holds exactly what fits: for every requirement the longest
prefix of its frontier, the settled candidates as closure recomputes them,
that its bounds and the global ones admit, where what earlier requirements
hold is paid for once; the global bounds hold of all of it, no item occurs
twice, and every item is a candidate that each requirement it was selected
for matches. -/
theorem selection_exact (hsha : Sha256.Injective) (inputs : CompileInputs)
    (context : CompiledTaskContext)
    (hplan : (inputs.requirementPlan.requirements.map ContextRequirement.requirementId).Nodup)
    (hids : ∀ c ∈ inputs.resolution.candidates, c.itemId = c.expectedItemId)
    (hcompile : compileContext inputs = .ok context) :
    (∀ r ∈ inputs.requirementPlan.requirements, ∃ taken,
      LongestFit (FitsBudget r inputs.requirementPlan.globalBudget
          (heldBefore context inputs.requirementPlan r))
        (selectionFrontier inputs.resolution r) taken
      ∧ eligibleFrontier r (requirementView inputs.resolution r)
          = selectionFrontier inputs.resolution r
      ∧ ((boundItems context r).map fun item => item.candidateDict.normalize).Perm
          (taken.map fun item => item.candidateDict.normalize))
    ∧ context.selectedItems.length ≤ inputs.requirementPlan.globalBudget.maxTotalItems
    ∧ totalCost context.selectedItems ≤ inputs.requirementPlan.globalBudget.maxTotalBytes
    ∧ (context.selectedItems.map ContextItem.itemId).Nodup
    ∧ ∀ item ∈ context.selectedItems,
        (∃ c ∈ inputs.resolution.candidates, item = c.withSelection item.selectedBecause)
        ∧ ∀ q ∈ item.selectedBecause, ∃ r ∈ inputs.requirementPlan.requirements,
            r.requirementId = q ∧ matchesRequirement r item = true := by
  obtain ⟨selection, unknowns, hselect, rfl⟩ := compileContext_ok hcompile
  obtain ⟨hsound, hgrown⟩ := selectAll_grows hselect (.empty _)
  have hperm : (assembleContext inputs unknowns selection.selected).selectedItems.Perm
      (selection.byItem.map fun item =>
        item.withSelection (selection.reasonsOf item.itemId)) :=
    perm_assembled_items.trans (perm_selected selection)
  refine ⟨fun r hr => ?_, ?_, ?_, ?_, fun item hitem => ?_⟩
  · obtain ⟨before, taken, rest, stop, short, hrun⟩ := exists_runAt hselect hplan hr
    obtain ⟨-, hnodup⟩ := hrun.frontier hsha hids
    have hfrontier : selectionFrontier inputs.resolution r = taken ++ rest := hrun.loop.frontier
    refine ⟨taken, hrun.longest.congr fun first x hx => ?_, eligibleFrontier_eq hsha hids r,
      hrun.perm_bound_taken hsha hids (FromView.same hsha hids) hselect⟩
    have hfirst : (first.map ContextItem.itemId).Nodup := by
      rw [hfrontier] at hx
      refine hnodup.sublist (List.Sublist.map _ ?_)
      exact (List.prefix_append first [x]).sublist.trans hx.sublist
    exact fits_iff_fitsBudget hrun.sound.bytes
      (heldBefore_perm (fun _ _ hid => hid) hselect hrun)
      (heldBefore_perm (FromView.cost hsha hids) hselect hrun) hfirst
  · rw [hperm.length_eq, List.length_map]
    exact hsound.items_le
  · rw [totalCost_perm hperm, totalCost_withSelection, ← hsound.bytes]
    exact hsound.bytes_le
  · refine (hperm.map ContextItem.itemId).nodup_iff.mpr ?_
    rw [List.map_map]
    exact hsound.ids_nodup
  · obtain ⟨other, hother, rfl⟩ := List.mem_map.mp (hperm.mem_iff.mp hitem)
    refine ⟨?_, fun q hq => ?_⟩
    · rcases mem_byItem_selectAll hselect hother with hempty | ⟨r', -, hview⟩
      · cases hempty
      · exact ⟨other, (eligible_matches hview).1, rfl⟩
    · have hreason : (other.itemId, q) ∈ selection.reasons := mem_reasonsOf.mp hq
      obtain ⟨added, hadded, hknown⟩ := hgrown.reasons
      have hempty : Selection.empty.reasons = [] := rfl
      rw [hempty, List.nil_append] at hadded
      obtain ⟨r, hr, hrid⟩ := List.mem_map.mp (hknown _ (hadded ▸ hreason))
      obtain rfl : r.requirementId = q := hrid
      obtain ⟨before, taken, rest, stop, short, hrun⟩ := exists_runAt hselect hplan hr
      have hmatch : matchesRequirement r other = true :=
        hrun.matches hsha hids hselect hother hreason
      exact ⟨r, hr, rfl, hmatch⟩

end Exact

section Layering

attribute [local instance] Sha256.transparent

theorem layeringRule_cost : (layeringRule "no upward imports" .global []).canonicalCost ≤ 65536 := by
  have hunselected : (layeringRule "no upward imports" .global []).candidateDict
      = (layeringRule "no upward imports" .global []).toJson := rfl
  unfold ContextItem.canonicalCost
  rw [hunselected, Json.size_normalize]
  exact layeringRule_size

/-- The requirement for constraints, whether or not they are material. -/
def constraintRequirement (reason : String) (material : Bool) : ContextRequirement :=
  (requirableSpec (baselineSpec [] .architectureConstraint reason) material).draft.canonical

/-- The rule fits where nothing but itself is held. -/
theorem layeringRule_fits {reason : String} {material : Bool} {held : List ContextItem}
    (hheld : ∀ item ∈ held, item.itemId = (layeringRule "no upward imports" .global []).itemId) :
    FitsBudget (constraintRequirement reason material)
      { maxTotalItems := globalMaxItems, maxTotalBytes := globalMaxBytes } held []
      (layeringRule "no upward imports" .global []) where
  maxItems limit hlimit := by
    obtain rfl : perRequirementMaxItems = limit := Option.some.inj hlimit
    decide
  maxBytes limit hlimit := by
    obtain rfl : perRequirementMaxBytes = limit := Option.some.inj hlimit
    have hnothing : totalCost [] = 0 := rfl
    have hcost := layeringRule_cost
    unfold perRequirementMaxBytes
    omega
  shared := by
    cases held with
    | nil =>
        have hnothing : totalCost (paidFor [] []) = 0 := rfl
        have hcost := layeringRule_cost
        refine .inr ⟨by decide, ?_⟩
        unfold globalMaxBytes
        dsimp only
        omega
    | cons item rest =>
        refine .inl (List.mem_map.mpr ⟨item, ?_, hheld item (List.mem_cons_self ..)⟩)
        exact List.mem_append_left _ (List.mem_cons_self ..)

/-- Constraints are always planned for. -/
theorem constraint_planned {scope : TaskScope} {discovery : DiscoveryContext}
    {activation : ActivationPlan} {kernels : List KernelBinding} {plan : ContextRequirementPlan}
    (hplan : planRequirements scope discovery activation kernels = .ok plan) :
    ∃ reason material,
      (requirableSpec (baselineSpec scope.eligibleRefs .architectureConstraint reason)
        material).draft.canonical ∈ plan.requirements :=
  ⟨_, _, ((planRequirements_eq_ok hplan).1 _).mpr
    (List.mem_map.mpr ⟨_, List.mem_append_left _ (List.mem_cons_self ..), rfl⟩)⟩

/-- The audit under one constraint selects what fits, the constraint. -/
theorem layering_selection_exact :
    ∃ plan context, compileContext (layeringInputs plan) = .ok context
      ∧ (∀ r ∈ plan.requirements, ∃ taken,
        LongestFit (FitsBudget r plan.globalBudget (heldBefore context plan r))
          (selectionFrontier (layeringInputs plan).resolution r) taken
        ∧ eligibleFrontier r (requirementView (layeringInputs plan).resolution r)
          = selectionFrontier (layeringInputs plan).resolution r
        ∧ ((boundItems context r).map fun item => item.candidateDict.normalize).Perm
            (taken.map fun item => item.candidateDict.normalize))
      ∧ (context.selectedItems.map ContextItem.itemId).Nodup
      ∧ ∃ because, (layeringRule "no upward imports" .global []).withSelection because
          ∈ context.selectedItems := by
  have hneeds : NeedsAccepted [] := fun _ h => absurd h List.not_mem_nil
  have hversion : isBlank packageVersion = false := by decide
  obtain ⟨plan, hplan⟩ := planRequirements_ok Sha256.transparent_injective
    (compileScope auditIntent)
    (discover (compileScope auditIntent) (resolveSnapshot layeringSnapshot.toSnapshotBuckets))
    layeringActivation hneeds
  have hfrom : PlannedFrom layeringSnapshot (layeringInputs plan) := ⟨rfl, rfl, hplan⟩
  obtain ⟨context, hcompile⟩ := hfrom.finishes hneeds hversion
  obtain ⟨hmem, hvalid, hbudget, -⟩ := planRequirements_eq_ok hplan
  obtain ⟨hexact, -, -, hnodup, hcandidates⟩ := selection_exact Sha256.transparent_injective
    (layeringInputs plan) context hvalid.ids_nodup hfrom.ids hcompile
  refine ⟨plan, context, hcompile, hexact, hnodup, ?_⟩
  have hsole : ∀ item ∈ context.selectedItems, ∃ because,
      item = (layeringRule "no upward imports" .global []).withSelection because := by
    intro item hitem
    obtain ⟨⟨c, hc, hsame⟩, -⟩ := hcandidates item hitem
    obtain rfl := List.mem_singleton.mp hc
    exact ⟨_, hsame⟩
  obtain ⟨reason, material, hr⟩ : ∃ reason material,
      constraintRequirement reason material ∈ plan.requirements := by
    obtain ⟨reason, material, hr⟩ := constraint_planned hplan
    rw [audit_scope.2] at hr
    exact ⟨reason, material, hr⟩
  obtain ⟨taken, hlongest, -, hbound⟩ := hexact _ hr
  have htaken : taken ≠ [] := by
    rintro rfl
    have heligible : layeringRule "no upward imports" .global [] ∈ eligibleItems
        (requirementView (layeringInputs plan).resolution (constraintRequirement reason material)) :=
      sole_eligible rfl rfl rfl
    have hmode : (constraintRequirement reason material).coverageMode = .allEligible := rfl
    have hfrontier : layeringRule "no upward imports" .global [] ∈ selectionFrontier
        (layeringInputs plan).resolution (constraintRequirement reason material) := by
      refine mem_frontierFrom_of_asked ?_ (fun h => ?_) heligible
      · rw [hmode]
        decide
      · cases hmode.symm.trans h
    obtain ⟨first, rest, hsplit⟩ := List.exists_cons_of_ne_nil (List.ne_nil_of_mem hfrontier)
    have hfirst : first = layeringRule "no upward imports" .global [] := by
      have hmemFirst := frontierFrom_sublist.subset (hsplit ▸ List.mem_cons_self ..)
      exact List.mem_singleton.mp (eligible_matches hmemFirst).1
    have hbegins : [] ++ [layeringRule "no upward imports" .global []]
        <+: selectionFrontier (layeringInputs plan).resolution
          (constraintRequirement reason material) := ⟨rest, hfirst ▸ hsplit.symm⟩
    refine hlongest.stops _ hbegins ?_
    rw [show (layeringInputs plan).requirementPlan.globalBudget = _ from hbudget]
    refine layeringRule_fits fun item hitem => ?_
    obtain ⟨because, rfl⟩ := hsole item (List.mem_filter.mp hitem).1
    rfl
  obtain ⟨item, hitem⟩ : ∃ item, item ∈ boundItems context (constraintRequirement reason material) := by
    refine List.exists_mem_of_ne_nil _ fun hnil => htaken ?_
    have hlength := hbound.length_eq
    rw [hnil] at hlength
    exact List.map_eq_nil_iff.mp (List.length_eq_zero_iff.mp hlength.symm)
  obtain ⟨because, hsame⟩ := hsole item (mem_boundItems.mp hitem).1
  exact ⟨because, hsame ▸ (mem_boundItems.mp hitem).1⟩

end Layering

end CognitiveRuntime
