import CognitiveRuntime.Properties.LoadedNeeds
import CognitiveRuntime.Properties.Recomputation

/-!
# The compiler and its closure validator

Closure recomputes what the compiler decided. Over a plan of the
planner it finds every one of its eleven checks met, but for two facts
that the compiler selects and closure refuses: a repository state that
nobody verified, and a capability proven both available and not.

Coverage and bounds are discharged requirement by requirement from the
run that took its items, the other checks from the selection as a whole.
-/

namespace CognitiveRuntime

open Ordered Fallible

section Agreement

variable [Sha256]

/-! ## Coverage -/

omit [Sha256] in
/-- Coverage is complete, or excused, mode by mode. -/
theorem coverageBreach_none {r : ContextRequirement} {eligible : List (String × String)}
    {taken takenKeys disposedKeys : List String} {truncated : Bool}
    (hin : ∀ id ∈ taken, id ∈ eligible.map Prod.fst)
    (hall : r.coverageMode = .allEligible → truncated = false →
      ∀ id ∈ eligible.map Prod.fst, id ∈ taken)
    (hmost : r.coverageMode = .minimum →
      (firstSeen taken).length ≤ min r.minItems eligible.length)
    (hleast : r.coverageMode = .minimum → truncated = false →
      min r.minItems eligible.length ≤ (firstSeen taken).length)
    (hasked : r.coverageMode = .semanticKeys → ∀ key ∈ takenKeys, key ∈ r.requiredSemanticKeys)
    (hkeys : r.coverageMode = .semanticKeys → truncated = false →
      ∀ key ∈ eligible.map Prod.snd, key ∈ r.requiredSemanticKeys →
        key ∈ takenKeys ∨ key ∈ disposedKeys) :
    coverageBreach r eligible taken takenKeys disposedKeys truncated = none := by
  have hnil : sortedUnique (taken.filter (· ∉ eligible.map Prod.fst)) = [] :=
    sortedUnique_eq_nil.mpr (List.filter_eq_nil_iff.mpr fun id hid => by simpa using hin id hid)
  unfold coverageBreach
  dsimp only
  rw [if_neg (not_not.mpr hnil)]
  cases hmode : r.coverageMode with
  | allEligible =>
      refine if_neg ?_
      rintro ⟨hmissed, htruncated⟩
      refine hmissed (sortedUnique_eq_nil.mpr (List.filter_eq_nil_iff.mpr fun id hid => ?_))
      simpa using hall hmode htruncated id hid
  | minimum =>
      dsimp only
      rw [if_neg (not_lt.mpr (hmost hmode)), if_neg]
      rintro ⟨hlt, htruncated⟩
      exact absurd (hleast hmode htruncated) (not_le.mpr hlt)
  | semanticKeys =>
      have hrequested : sortedUnique (takenKeys.filter (· ∉ r.requiredSemanticKeys)) = [] :=
        sortedUnique_eq_nil.mpr (List.filter_eq_nil_iff.mpr fun key hkey => by
          simpa using hasked hmode key hkey)
      dsimp only
      rw [if_neg (not_not.mpr hrequested)]
      refine if_neg ?_
      rintro ⟨hmissed, htruncated⟩
      refine hmissed (sortedUnique_eq_nil.mpr (List.filter_eq_nil_iff.mpr fun key hkey => ?_))
      obtain ⟨hmem, hreq⟩ := List.mem_filter.mp hkey
      have hcovered := hkeys hmode htruncated key hmem (of_decide_eq_true hreq)
      rw [decide_eq_true_eq, not_and_or, not_not, not_not]
      exact hcovered

/-- Each eligible id is counted once. -/
theorem length_eligibleKeys (hsha : Sha256.Injective) {resolution : SnapshotResolution}
    (hids : ∀ c ∈ resolution.candidates, c.itemId = c.expectedItemId) (r : ContextRequirement) :
    (eligibleKeys (requirementView resolution r)).length
      = (eligibleItems (requirementView resolution r)).length := by
  have hperm := perm_settledItems (requirementView resolution r)
  have hnodup : ((settledItems (requirementView resolution r)).map ContextItem.itemId).Nodup :=
    (hperm.map _).nodup_iff.mpr (nodup_eligible_ids hsha hids r)
  have hkeys : (eligibleKeys (requirementView resolution r)).map Prod.fst
      = sortedUnique ((settledItems (requirementView resolution r)).map ContextItem.itemId) := by
    unfold eligibleKeys dictOf
    rw [map_key_dedupeLast, List.map_map]
    rfl
  have hlength := congrArg List.length hkeys
  unfold sortedUnique at hlength
  rw [firstSeen_of_nodup hnodup, (perm_sortedBy _ _).length_eq, List.length_map, List.length_map,
    hperm.length_eq] at hlength
  exact hlength

theorem mem_eligible_of_key {resolution : SnapshotResolution} {r : ContextRequirement}
    {key : String} (h : key ∈ (eligibleKeys (requirementView resolution r)).map Prod.snd) :
    ∃ item ∈ eligibleItems (requirementView resolution r), item.semanticKey = key := by
  obtain ⟨⟨id, key⟩, hentry, rfl⟩ := List.mem_map.mp h
  obtain ⟨item, hitem, heq⟩ := List.mem_map.mp (mem_of_mem_dedupeLast hentry)
  exact ⟨item, mem_settledItems.mp hitem, congrArg Prod.snd heq⟩

section Covered

variable {inputs : CompileInputs} {selection : Selection} {unknowns : List ContextUnknown}
  {r : ContextRequirement} {before : Selection} {taken rest : List ContextItem}
  {stop : Option BudgetStop} {short : List ContextUnknown}

/-- A shortfall on record for a stop proves it. -/
theorem RunAt.stop_proven (hsha : Sha256.Injective)
    (hids : ∀ c ∈ inputs.resolution.candidates, c.itemId = c.expectedItemId)
    (hscope : UnboundUnknowns inputs.scope)
    (hdiscovery : inputs.discovery = discover inputs.scope inputs.resolution)
    (hselect : selectAll inputs.requirementPlan.globalBudget inputs.resolution
      inputs.requirementPlan.requirements .empty = .ok (selection, unknowns))
    (h : RunAt inputs.requirementPlan.globalBudget inputs.resolution
      inputs.requirementPlan.requirements r selection unknowns before taken rest stop short)
    (hr : r.Planned) {s : BudgetStop} (hstop : stop = some s) {keys disposedKeys : List String}
    (hshort : short = [shortfallUnknown r stop keys disposedKeys]) :
    budgetStopProven (assembleContext inputs unknowns selection.selected) inputs.requirementPlan
      inputs.resolution r = true := by
  subst hstop
  obtain ⟨blocked, after, hrest, hblocked⟩ := h.loop.stopped s rfl
  have honly : ∀ u, u ∈ short ↔ u = shortfallUnknown r (some s) keys disposedKeys := by
    intro u
    rw [hshort, List.mem_singleton]
  have hrecorded := fun u => h.mem_recorded hsha hscope hdiscovery hselect hr (u := u)
  obtain ⟨hmem, href, -⟩ := (hrecorded _).mpr ((honly _).mpr rfl)
  have hwitness : budgetWitness? (assembleContext inputs unknowns selection.selected) r
      = some (shortfallUnknown r (some s) keys disposedKeys) := by
    unfold budgetWitness?
    cases hfind : (assembleContext inputs unknowns selection.selected).unresolvedUnknowns.find?
        fun u => u.reasonCode = .budgetInsufficient
          ∧ u.requirementRef = some r.requirementId with
    | none =>
        have hnone := List.find?_eq_none.mp hfind _ hmem
        exact absurd (decide_eq_true ⟨rfl, rfl⟩) hnone
    | some u =>
        have hfound := List.find?_some hfind
        rw [decide_eq_true_eq] at hfound
        obtain ⟨hreason, hbound⟩ := hfound
        refine congrArg some ((honly u).mp ((hrecorded u).mp
          ⟨List.mem_of_find?_eq_some hfind, hbound, ?_⟩))
        rw [hreason]
        rfl
  refine budgetStopProven_of_stop hwitness (fun key hkey => ?_)
    (h.recomputed hsha hids hselect hrest) hblocked
  -- the particulars of the stop stand behind four entries with other keys
  simp only [budgetWitnessKeys, List.mem_cons, List.not_mem_nil, or_false] at hkey
  rcases hkey with rfl | rfl | rfl | rfl | rfl | rfl <;> rfl

/-- A finished compile over valid candidates and a plan of the planner. -/
structure FinishedRun (inputs : CompileInputs) (selection : Selection)
    (unknowns : List ContextUnknown) : Prop where
  valid : ∀ c ∈ inputs.resolution.candidates, c.Valid
  scope : UnboundUnknowns inputs.scope
  discovery : inputs.discovery = discover inputs.scope inputs.resolution
  planned : ∀ r ∈ inputs.requirementPlan.requirements, r.Planned
  ids_nodup : (inputs.requirementPlan.requirements.map ContextRequirement.requirementId).Nodup
  select : selectAll inputs.requirementPlan.globalBudget inputs.resolution
    inputs.requirementPlan.requirements .empty = .ok (selection, unknowns)

theorem FinishedRun.ids (hrun : FinishedRun inputs selection unknowns) :
    ∀ c ∈ inputs.resolution.candidates, c.itemId = c.expectedItemId := fun c hc =>
  (hrun.valid c hc).id_recipe

/-- The keys bound to a requirement are those of what it took. -/
theorem RunAt.mem_boundKeys (hsha : Sha256.Injective) (hrun : FinishedRun inputs selection unknowns)
    (h : RunAt inputs.requirementPlan.globalBudget inputs.resolution
      inputs.requirementPlan.requirements r selection unknowns before taken rest stop short)
    {key : String} :
    key ∈ (boundItems (assembleContext inputs unknowns selection.selected) r).map
        ContextItem.semanticKey
      ↔ key ∈ taken.map ContextItem.semanticKey :=
  (h.perm_bound_taken hsha hrun.ids (fun ha hb hid => ha.key hsha hrun.ids hb hid)
    hrun.select).mem_iff

/-- Closure counts a conflict as disposed where the requirement did. -/
theorem RunAt.conflict_disposed (hsha : Sha256.Injective)
    (hrun : FinishedRun inputs selection unknowns)
    (h : RunAt inputs.requirementPlan.globalBudget inputs.resolution
      inputs.requirementPlan.requirements r selection unknowns before taken rest stop short)
    (hr : r.Planned) {key : String}
    (hkey : key ∈ (conflictGroups (requirementView inputs.resolution r)).map fun e => e.1.2) :
    key ∈ conflictDisposedKeys (assembleContext inputs unknowns selection.selected)
      inputs.resolution r := by
  obtain ⟨⟨⟨kind, key⟩, group⟩, hentry, rfl⟩ := List.mem_map.mp hkey
  obtain ⟨v, hv, -, hsame⟩ := raised_recorded hsha hrun.scope hrun.discovery hrun.select
    (raised_of_selected (h.conflicts _ hentry))
  obtain ⟨hsorted, hconflict⟩ := List.mem_filter.mp hentry
  have hgroup := mem_sortedGroups.mp hsorted
  -- a group has the key of a candidate, which is not blank
  have hne : key ≠ "" := by
    obtain ⟨hmembers, -⟩ := mem_groups.mp hgroup
    obtain ⟨item, hitem⟩ := List.exists_mem_of_ne_nil _ hmembers
    obtain ⟨hleft, hitemKey⟩ := mem_groupMembers.mp hitem
    have hcandidate := (List.mem_filter.mp (mem_of_mem_leftOver hleft)).1
    have hblank := (hrun.valid item hcandidate).key_ne
    have hsameKey : item.semanticKey = key := congrArg Prod.snd hitemKey
    rw [hsameKey] at hblank
    rintro rfl
    revert hblank
    decide
  unfold conflictDisposedKeys
  refine List.mem_filterMap.mpr ⟨v, hv, ?_⟩
  rw [if_pos ⟨hsame.reasonCode, hsame.requirementRef, hr.id_ne⟩, hsame.semanticKey]
  refine Option.filter_eq_some_iff.mpr ⟨rfl, decide_eq_true ⟨hne, ?_⟩⟩
  exact List.mem_map.mpr ⟨_, List.mem_filter.mpr ⟨hgroup, hconflict⟩, rfl⟩

/-- Every planned requirement is covered, or its stop is proven. -/
theorem RunAt.covers (hsha : Sha256.Injective) (hrun : FinishedRun inputs selection unknowns)
    (h : RunAt inputs.requirementPlan.globalBudget inputs.resolution
      inputs.requirementPlan.requirements r selection unknowns before taken rest stop short)
    (hr : r.Planned) :
    coverageBreach r (eligibleKeys (requirementView inputs.resolution r))
      (boundIds (assembleContext inputs unknowns selection.selected) r)
      ((boundItems (assembleContext inputs unknowns selection.selected) r).map
        ContextItem.semanticKey)
      (conflictDisposedKeys (assembleContext inputs unknowns selection.selected)
        inputs.resolution r)
      (budgetStopProven (assembleContext inputs unknowns selection.selected)
        inputs.requirementPlan inputs.resolution r) = none := by
  have hfrontier : frontierFrom r 0 (eligibleItems (requirementView inputs.resolution r))
      = taken ++ rest := h.loop.frontier
  have hcount : (firstSeen (boundIds (assembleContext inputs unknowns selection.selected)
      r)).length = taken.length := by
    have hperm := h.perm_bound_taken hsha hrun.ids (fun _ _ hid => hid) hrun.select
    have hnodup := (h.frontier hsha hrun.ids).2
    rw [List.map_append] at hnodup
    unfold boundIds
    rw [firstSeen_of_nodup (hperm.nodup_iff.mpr hnodup.of_append_left), hperm.length_eq,
      List.length_map]
  -- a stop that no satisfied requirement saw is proven
  have hexcused : budgetStopProven (assembleContext inputs unknowns selection.selected)
      inputs.requirementPlan inputs.resolution r = false →
      rest = [] ∨ ∃ s, stop = some s ∧ satisfied r taken.length
        (taken.map ContextItem.semanticKey) ((conflictGroups (requirementView inputs.resolution
          r)).map fun entry => entry.1.2) true = true := by
    intro hnot
    cases hstop : stop with
    | none => exact .inl (h.loop.finished hstop)
    | some s =>
        right
        refine ⟨s, rfl, ?_⟩
        rcases shortfall_planned hr h.short_eq with ⟨-, hsatisfied | ⟨hnone, -⟩⟩ | hone
        · rw [LoopState.selectedCount_admitAll, LoopState.selectedKeys_admitAll, hstop] at hsatisfied
          have hcounted : satisfied r (0 + taken.length)
              ([] ++ taken.map ContextItem.semanticKey) _ true = true := hsatisfied
          rw [Nat.zero_add, List.nil_append] at hcounted
          exact hcounted
        · rw [hstop] at hnone
          cases hnone
        · rw [h.stop_proven hsha hrun.ids hrun.scope hrun.discovery hrun.select hr hstop hone] at hnot
          cases hnot
  refine coverageBreach_none (fun id hid => ?_) (fun hmode hnot id hid => ?_) (fun hmode => ?_)
    (fun hmode hnot => ?_) (fun hmode key hkey => ?_) (fun hmode hnot key hkey hreq => ?_)
  · obtain ⟨item, hitem, rfl⟩ := List.mem_map.mp ((h.mem_boundIds hrun.select).mp hid)
    exact mem_eligibleIds.mpr ⟨item, h.taken_eligible hitem, rfl⟩
  · obtain ⟨item, hitem, rfl⟩ := mem_eligibleIds.mp hid
    rcases hexcused hnot with hnil | ⟨s, -, hsatisfied⟩
    · rw [frontierFrom_allEligible hmode, hnil, List.append_nil] at hfrontier
      exact (h.mem_boundIds hrun.select).mpr (List.mem_map_of_mem (hfrontier ▸ hitem))
    · unfold satisfied at hsatisfied
      rw [hmode] at hsatisfied
      split at hsatisfied <;> cases hsatisfied
  · rw [hcount, length_eligibleKeys hsha hrun.ids]
    have hlength := congrArg List.length hfrontier
    rw [frontierFrom_minimum hmode, List.length_take, List.length_append] at hlength
    omega
  · rw [hcount, length_eligibleKeys hsha hrun.ids]
    rcases hexcused hnot with hnil | ⟨s, -, hsatisfied⟩
    · rw [frontierFrom_minimum hmode, hnil, List.append_nil] at hfrontier
      have hlength := congrArg List.length hfrontier
      rw [List.length_take] at hlength
      omega
    · unfold satisfied at hsatisfied
      split at hsatisfied
      · cases hsatisfied
      · omega
  · obtain ⟨item, hitem, rfl⟩ := List.mem_map.mp ((h.mem_boundKeys hsha hrun).mp hkey)
    have hon : item ∈ frontierFrom r 0 (eligibleItems (requirementView inputs.resolution r)) := by
      rw [hfrontier]
      exact List.mem_append_left _ hitem
    rw [frontierFrom_semanticKeys hmode] at hon
    exact of_decide_eq_true (List.mem_filter.mp hon).2
  · rcases hexcused hnot with hnil | ⟨s, -, hsatisfied⟩
    · obtain ⟨item, hitem, rfl⟩ := mem_eligible_of_key hkey
      left
      rw [frontierFrom_semanticKeys hmode, hnil, List.append_nil] at hfrontier
      have htaken : item ∈ taken := by
        rw [← hfrontier]
        exact List.mem_filter.mpr ⟨hitem, decide_eq_true hreq⟩
      exact (h.mem_boundKeys hsha hrun).mpr (List.mem_map_of_mem htaken)
    · unfold satisfied at hsatisfied
      rw [hmode] at hsatisfied
      split at hsatisfied
      · cases hsatisfied
      · have hcovered := List.all_eq_true.mp hsatisfied key hreq
        simp only [Bool.or_eq_true, decide_eq_true_eq] at hcovered
        exact hcovered.imp (h.mem_boundKeys hsha hrun).mpr (h.conflict_disposed hsha hrun hr)

omit [Sha256] in
theorem filterMap_scalarText (keys : List String) :
    (keys.map Json.str).filterMap scalarText = keys := by
  rw [List.filterMap_map]
  exact List.filterMap_some

/-- A shortfall lists the required keys that are neither taken nor
disposed. -/
theorem mem_listedMissingKeys (hmode : r.coverageMode = .semanticKeys) {keys disposedKeys : List String}
    {key : String} (hkey : key ∈ r.requiredSemanticKeys) (htaken : key ∉ keys)
    (hdisposed : key ∉ disposedKeys) :
    key ∈ listedMissingKeys (shortfallUnknown r stop keys disposedKeys) := by
  have hfield : Json.field "missing_semantic_keys" (shortfallUnknown r stop keys disposedKeys).details
      = some (.arr ((sortedUnique (r.requiredSemanticKeys.filter fun key =>
          key ∉ keys ∧ key ∉ disposedKeys)).map Json.str)) := by
    show Json.field "missing_semantic_keys" (shortfallDetails r stop keys disposedKeys) = _
    unfold shortfallDetails
    rw [if_pos hmode]
    cases stop <;> rfl
  unfold listedMissingKeys
  rw [hfield]
  dsimp only
  rw [filterMap_scalarText, mem_sortedUnique]
  exact List.mem_filter.mpr ⟨hkey, decide_eq_true ⟨htaken, hdisposed⟩⟩

/-- Every planned requirement is within its bounds, and met or on record
as short. -/
theorem RunAt.bounded (hsha : Sha256.Injective) (hrun : FinishedRun inputs selection unknowns)
    (h : RunAt inputs.requirementPlan.globalBudget inputs.resolution
      inputs.requirementPlan.requirements r selection unknowns before taken rest stop short)
    (hr : r.Planned) :
    requirementBreach r (boundItems (assembleContext inputs unknowns selection.selected) r).length
      (totalCost (boundItems (assembleContext inputs unknowns selection.selected) r))
      ((boundItems (assembleContext inputs unknowns selection.selected) r).map
        ContextItem.semanticKey)
      (conflictDisposedKeys (assembleContext inputs unknowns selection.selected)
        inputs.resolution r)
      (!(shortfallUnknowns (assembleContext inputs unknowns selection.selected) r).isEmpty)
      ((shortfallUnknowns (assembleContext inputs unknowns selection.selected) r).flatMap
        listedMissingKeys) = none := by
  have hcosts := h.perm_bound_taken hsha hrun.ids
    (fun ha hb hid => ha.cost hsha hrun.ids hb hid) hrun.select
  have hlength := hcosts.length_eq
  rw [List.length_map, List.length_map] at hlength
  have hcost : totalCost (boundItems (assembleContext inputs unknowns selection.selected) r)
      = totalCost taken := hcosts.sum_eq
  have hcount : ((LoopState.start before).admitAll taken r.requirementId).selectedCount
      = taken.length := LoopState.selectedCount_admitAll.trans (Nat.zero_add _)
  have hbytes : ((LoopState.start before).admitAll taken r.requirementId).requirementBytes
      = totalCost taken := LoopState.requirementBytes_admitAll.trans (Nat.zero_add _)
  have hkeys : ((LoopState.start before).admitAll taken r.requirementId).selectedKeys
      = taken.map ContextItem.semanticKey :=
    LoopState.selectedKeys_admitAll.trans (List.nil_append _)
  have hshort := shortfall_planned hr h.short_eq
  rw [hcount, hkeys] at hshort
  unfold requirementBreach
  rw [hlength, hcost, if_neg, if_neg]
  · cases hrequired : r.required with
    | false => rfl
    | true =>
        -- met, or short and on record
        have houtcome : satisfied r taken.length (taken.map ContextItem.semanticKey)
            ((conflictGroups (requirementView inputs.resolution r)).map fun entry => entry.1.2)
            stop.isSome = true
            ∨ shortfallUnknown r stop (taken.map ContextItem.semanticKey)
                ((conflictGroups (requirementView inputs.resolution r)).map fun entry => entry.1.2)
              ∈ shortfallUnknowns (assembleContext inputs unknowns selection.selected) r := by
          rcases hshort with ⟨-, hsatisfied | ⟨-, hoptional⟩⟩ | hone
          · exact .inl hsatisfied
          · rw [hrequired] at hoptional
            cases hoptional
          · obtain ⟨hmem, href, hreason⟩ := (h.mem_recorded hsha hrun.scope hrun.discovery
              hrun.select hr).mpr (hone ▸ List.mem_singleton_self _)
            refine .inr (List.mem_filter.mpr ⟨hmem, ?_⟩)
            rw [hreason, href, decide_eq_true rfl, decide_eq_true hr.id_ne]
            rfl
        rw [if_neg (by simp), if_neg]
        · split
          · next hmode =>
            have hnone : sortedUnique (r.requiredSemanticKeys.filter fun key =>
                key ∉ (boundItems (assembleContext inputs unknowns selection.selected) r).map
                    ContextItem.semanticKey
                  ∧ key ∉ conflictDisposedKeys (assembleContext inputs unknowns
                    selection.selected) inputs.resolution r
                  ∧ key ∉ (shortfallUnknowns (assembleContext inputs unknowns
                    selection.selected) r).flatMap listedMissingKeys) = [] := by
              rw [sortedUnique_eq_nil, List.filter_eq_nil_iff]
              intro key hkey hmissing
              obtain ⟨htaken, hdisposed, hlisted⟩ := of_decide_eq_true hmissing
              have htaken' := fun hmem => htaken ((h.mem_boundKeys hsha hrun).mpr hmem)
              have hdisposed' := fun hmem => hdisposed (h.conflict_disposed hsha hrun hr hmem)
              rcases houtcome with hsatisfied | hmem
              · unfold satisfied at hsatisfied
                rw [hmode] at hsatisfied
                split at hsatisfied
                · cases hsatisfied
                · have hcovered := List.all_eq_true.mp hsatisfied key hkey
                  simp only [Bool.or_eq_true, decide_eq_true_eq] at hcovered
                  exact hcovered.elim htaken' hdisposed'
              · exact hlisted (List.mem_flatMap.mpr
                  ⟨_, hmem, mem_listedMissingKeys hmode hkey htaken' hdisposed'⟩)
            exact if_neg (not_not.mpr hnone)
          · rfl
        · rintro ⟨hlt, hunrecorded⟩
          rcases houtcome with hsatisfied | hmem
          · unfold satisfied at hsatisfied
            split at hsatisfied
            · cases hsatisfied
            · omega
          · rw [Bool.not_eq_false', List.isEmpty_iff] at hunrecorded
            rw [hunrecorded] at hmem
            cases hmem
  · rw [Option.any_eq_true]
    rintro ⟨limit, hlimit, hlt⟩
    have hle := h.within.bytes_le limit hlimit
    rw [hbytes] at hle
    exact absurd (of_decide_eq_true hlt) (not_lt.mpr hle)
  · rw [Option.any_eq_true]
    rintro ⟨limit, hlimit, hlt⟩
    have hle := h.within.items_le limit hlimit
    rw [hcount] at hle
    exact absurd (of_decide_eq_true hlt) (not_lt.mpr hle)

end Covered

/-! ## The eleven checks -/

section Checks

variable {inputs : CompileInputs} {selection : Selection} {unknowns : List ContextUnknown}

/-- A selected item is a candidate with its lineage. -/
theorem FinishedRun.selected_from (hrun : FinishedRun inputs selection unknowns)
    {item : ContextItem}
    (hitem : item ∈ (assembleContext inputs unknowns selection.selected).selectedItems) :
    ∃ c ∈ inputs.resolution.candidates, item = c.withSelection (selection.reasonsOf item.itemId) := by
  obtain ⟨c, hc, r, -, -, hsame⟩ := selected_matches hrun.select (mem_assembled_items.mp hitem)
  refine ⟨c, hc, ?_⟩
  have hid : item.itemId = c.itemId := by
    rw [hsame]
    rfl
  rw [hid]
  exact hsame

/-- The reasons of a selected item name requirements of the plan. -/
theorem FinishedRun.reason_planned (hrun : FinishedRun inputs selection unknowns) {id q : String}
    (h : (id, q) ∈ selection.reasons) :
    ∃ r ∈ inputs.requirementPlan.requirements, r.requirementId = q := by
  obtain ⟨-, hgrown⟩ := selectAll_grows hrun.select (.empty _)
  obtain ⟨added, hadded, hplanned⟩ := hgrown.reasons
  rw [hadded] at h
  exact List.mem_map.mp (hplanned _ h)

theorem FinishedRun.recorded_nonempty (hrun : FinishedRun inputs selection unknowns)
    {item : ContextItem}
    (hitem : item ∈ (assembleContext inputs unknowns selection.selected).selectedItems) :
    selection.reasonsOf item.itemId ≠ [] := by
  obtain ⟨hsound, -⟩ := selectAll_grows hrun.select (.empty _)
  obtain ⟨other, hother, rfl⟩ := mem_selected (mem_assembled_items.mp hitem)
  obtain ⟨⟨id, q⟩, he, hid⟩ := List.mem_map.mp
    ((hsound.recorded _).mpr (List.mem_map_of_mem hother))
  have hmem : q ∈ selection.reasonsOf other.itemId := mem_reasonsOf.mpr (hid ▸ he)
  exact List.ne_nil_of_mem hmem

/-- Check 1: a required requirement took something, or is on record as
short. -/
theorem FinishedRun.disposed (hsha : Sha256.Injective)
    (hrun : FinishedRun inputs selection unknowns) :
    undisposedRequirements (assembleContext inputs unknowns selection.selected)
      inputs.requirementPlan = [] := by
  unfold undisposedRequirements
  rw [List.map_eq_nil_iff, List.filter_eq_nil_iff]
  intro r hr hundisposed
  simp only [Bool.and_eq_true, decide_eq_true_eq, Bool.not_eq_true', List.any_eq_false,
    List.mem_flatMap, not_exists, not_and] at hundisposed
  obtain ⟨⟨hrequired, hunbound⟩, hunrecorded⟩ := hundisposed
  obtain ⟨before, taken, rest, stop, short, h⟩ := exists_runAt hrun.select hrun.ids_nodup hr
  have hplanned := hrun.planned r hr
  have htaken : taken = [] := by
    rw [List.eq_nil_iff_forall_not_mem]
    intro item hitem
    obtain ⟨bound, hbound, -⟩ := List.mem_map.mp
      ((h.mem_boundIds hrun.select).mpr (List.mem_map_of_mem hitem))
    obtain ⟨hselected, hreason⟩ := mem_boundItems.mp hbound
    exact hunbound bound hselected hreason
  rcases shortfall_planned hplanned h.short_eq with ⟨-, hsatisfied | ⟨-, hoptional⟩⟩ | hone
  · unfold satisfied at hsatisfied
    rw [htaken, if_pos] at hsatisfied
    · cases hsatisfied
    · exact hplanned.required_min hrequired
  · rw [hrequired] at hoptional
    cases hoptional
  · obtain ⟨hmem, href, hreason⟩ := (h.mem_recorded hsha hrun.scope hrun.discovery
      hrun.select hplanned).mpr (hone ▸ List.mem_singleton_self _)
    refine hunrecorded _ hmem ?_ href
    revert hreason
    unfold UnknownReasonCode.isShortfall UnknownReasonCode.isDisposing
    split <;> simp_all

/-- Check 6: every conflict a requirement could see is on record for it. -/
theorem FinishedRun.conflicts (hsha : Sha256.Injective)
    (hrun : FinishedRun inputs selection unknowns) :
    silentConflicts (assembleContext inputs unknowns selection.selected) inputs.requirementPlan
      inputs.resolution = [] := by
  unfold silentConflicts
  rw [List.flatMap_eq_nil_iff]
  intro r hr
  rw [List.map_eq_nil_iff, List.filter_eq_nil_iff]
  intro entry hentry
  obtain ⟨before, taken, rest, stop, short, h⟩ := exists_runAt hrun.select hrun.ids_nodup hr
  obtain ⟨v, hv, -, hsame⟩ := raised_recorded hsha hrun.scope hrun.discovery hrun.select
    (raised_of_selected (h.conflicts entry hentry))
  rw [Bool.not_eq_true, Bool.not_eq_false', List.any_eq_true]
  have hreason : v.reasonCode = .conflictingGovernedClaims := hsame.reasonCode
  have href : v.requirementRef = some r.requirementId := hsame.requirementRef
  have hkey : v.semanticKey = some entry.1.2 := hsame.semanticKey
  refine ⟨v, hv, ?_⟩
  rw [hreason, href, hkey]
  simp only [decide_true, Bool.and_self]

/-- Check 7: recall is bound to requirements that ask for recall. -/
theorem FinishedRun.memory (hsha : Sha256.Injective) (hrun : FinishedRun inputs selection unknowns)
    {item : ContextItem}
    (hitem : item ∈ (assembleContext inputs unknowns selection.selected).selectedItems)
    (hkind : item.contextKind = .memoryContext) {q : String} (hq : q ∈ item.selectedBecause) :
    q ∈ (inputs.requirementPlan.requirements.filter fun r =>
      r.contextKind = .memoryContext).map ContextRequirement.requirementId := by
  obtain ⟨c, hc, hsame⟩ := hrun.selected_from hitem
  have hreason : (item.itemId, q) ∈ selection.reasons := by
    refine mem_reasonsOf.mp ?_
    rw [hsame] at hq
    exact hq
  obtain ⟨r, hr, rfl⟩ := hrun.reason_planned hreason
  obtain ⟨before, taken, rest, stop, short, h⟩ := exists_runAt hrun.select hrun.ids_nodup hr
  obtain ⟨e, he, hid⟩ := List.mem_map.mp ((h.taken_iff _).mp hreason)
  obtain ⟨hcandidate, hmatch⟩ := eligible_matches (h.taken_eligible he)
  have hidc : e.itemId = c.itemId := by
    rw [hid, hsame]
    rfl
  have hkinds := (sameItem_of_id hsha (hrun.ids e hcandidate) (hrun.ids c hc) hidc).contextKind
  refine List.mem_map_of_mem (List.mem_filter.mpr ⟨hr, decide_eq_true ?_⟩)
  rw [← matches_kind hmatch, hkinds, ← hkind, hsame]
  rfl

/-- Check 8: an unproven capability is on record. -/
theorem capabilities_disposed (hsha : Sha256.Injective) :
    undisposedCapabilities (assembleContext inputs unknowns selection.selected) = [] := by
  unfold undisposedCapabilities
  refine List.Perm.eq_nil ((perm_sortedBy _ _).trans ?_)
  rw [List.map_eq_nil_iff.mpr (List.filter_eq_nil_iff.mpr ?_)]
  intro r hr hundisposed
  simp only [Bool.and_eq_true, decide_eq_true_eq] at hundisposed
  obtain ⟨hunavailable, hunrecorded⟩ := hundisposed
  rw [assembleContext_capabilities] at hr hunavailable
  have hgap : capabilityUnknown r.capabilityId (capabilityDisposition r.capabilityId
      (capabilityIds (capabilityFactsIn .available selection.selected))
      (capabilityIds (capabilityFactsIn .unavailable selection.selected))
      (capabilityIds (capabilityFactsIn .unknown selection.selected)))
      ∈ gapUnknowns inputs selection.selected :=
    List.mem_append_left _ (List.mem_filterMap.mpr ⟨r, hr, if_neg hunavailable⟩)
  obtain ⟨u, hu, hrecords, -⟩ : ∃ u ∈ (assembleContext inputs unknowns
      selection.selected).unresolvedUnknowns, RecordsCapability u r.capabilityId ∧ _ :=
    capability_gap_recorded hsha hgap
  refine hunrecorded (List.mem_filterMap.mpr ⟨u, List.mem_filter.mpr
    ⟨hu, decide_eq_true hrecords.reason⟩, ?_⟩)
  rw [hrecords.capability]
  rfl

/-- Check 8: an authority that is not granted is on record under its
key. -/
theorem FinishedRun.authorities_disposed (hsha : Sha256.Injective)
    (hrun : FinishedRun inputs selection unknowns) :
    undisposedAuthorities (assembleContext inputs unknowns selection.selected) = [] := by
  unfold undisposedAuthorities
  refine List.Perm.eq_nil ((perm_sortedBy _ _).trans ?_)
  rw [List.map_eq_nil_iff.mpr (List.filter_eq_nil_iff.mpr ?_)]
  intro r hr hundisposed
  simp only [Bool.and_eq_true, decide_eq_true_eq] at hundisposed
  obtain ⟨hungranted, hunrecorded⟩ := hundisposed
  rw [assembleContext_authority] at hr hungranted
  have hgap : authorityUnknown r (authorityDisposition r
      (authorityFactsIn .granted selection.selected) (authorityFactsIn .limit selection.selected)
      (authorityFactsIn .unknown selection.selected)) ∈ gapUnknowns inputs selection.selected :=
    List.mem_append_right _ (List.mem_filterMap.mpr ⟨r, hr, if_neg hungranted⟩)
  have hraised : authorityUnknown r _ ∈ raisedUnknowns inputs unknowns selection.selected :=
    List.mem_append_right _ (List.mem_append_right _ (List.mem_append_right _
      (List.mem_append_right _ hgap)))
  obtain ⟨v, hv, -, hsame⟩ := raised_recorded hsha hrun.scope hrun.discovery hrun.select hraised
  have hreason : v.reasonCode = .missingAuthority := hsame.reasonCode
  have hkey : v.semanticKey = some r.semanticKey := hsame.semanticKey
  exact hunrecorded (List.mem_map.mpr
    ⟨v, List.mem_filter.mpr ⟨hv, decide_eq_true hreason⟩, hkey⟩)

/-- Check 11: unknowns carry their derived id and are bound to planned
requirements that may leave one. -/
theorem FinishedRun.unknowns_bound (hrun : FinishedRun inputs selection unknowns)
    {u : ContextUnknown}
    (hu : u ∈ (assembleContext inputs unknowns selection.selected).unresolvedUnknowns) :
    u.unknownId = u.expectedUnknownId
      ∧ (∀ ref, u.requirementRef = some ref → ref ≠ "" →
        ref ∈ inputs.requirementPlan.requirements.map ContextRequirement.requirementId)
      ∧ ∀ r ∈ inputs.requirementPlan.requirements, u.requirementRef = some r.requirementId →
        r.missingPolicy = .optional → r.required = false := by
  obtain ⟨hvalid, hbound⟩ := raised_unbound hrun.scope hrun.select
    (raised_of_recorded hrun.discovery hu)
  refine ⟨hvalid, fun ref href _ => ?_, fun r hr _ hoptional => ?_⟩
  · rcases hbound with hnone | hmem
    · rw [hnone] at href
      cases href
    · obtain ⟨r, hr, _, _, _, hfor, hfirst⟩ := mem_selectAll_unknowns hrun.select hmem
      cases selectFor_unknown hfor hfirst with
      | supersession _ h =>
          obtain ⟨kind, -, hview⟩ := mem_view_unknowns.mp h
          rw [(mem_supersessionUnknowns hview).1] at href
          cases href
      | conflict => exact Option.some.inj href ▸ List.mem_map_of_mem hr
      | shortfall => exact Option.some.inj href ▸ List.mem_map_of_mem hr
  · have hpolicy := (hrun.planned r hr).policy
    cases hrequired : r.required with
    | false => rfl
    | true =>
        rw [hrequired, if_pos rfl, hoptional] at hpolicy
        cases hpolicy

omit [Sha256] in
theorem effectiveAuthorityOrder_ne_nil {selected granted limits : List ContextItem}
    {defaultOrder : List String} (h : defaultOrder ≠ []) :
    (effectiveAuthorityOrder selected granted limits defaultOrder).1 ≠ [] := by
  have hfirst : ∀ {l : List String}, l ≠ [] → firstSeen l ≠ [] := by
    intro l hne hnil
    obtain ⟨a, ha⟩ := List.exists_mem_of_ne_nil _ hne
    have hmem : a ∈ firstSeen l := mem_firstSeen.mpr ha
    rw [hnil] at hmem
    cases hmem
  have hsorted : ∀ {κ : Type} [LinearOrder κ] {key : ContextItem → κ} {f : ContextItem → String}
      {l : List ContextItem}, l ≠ [] → (sortedBy key l).map f ≠ [] := by
    intro κ _ key f l hne hnil
    have hperm := (perm_sortedBy key l).length_eq
    rw [List.map_eq_nil_iff.mp hnil] at hperm
    exact hne (List.length_eq_zero_iff.mp hperm.symm)
  unfold effectiveAuthorityOrder
  dsimp only
  split
  · next hfacts => exact hfirst (hsorted hfacts)
  · split
    · next hlaw => exact hfirst (hsorted hlaw)
    · exact h

/-- Closure accepts what the compiler finished, but for a repository state
that nobody verified and a capability proven both ways. -/
theorem FinishedRun.closed (hsha : Sha256.Injective) (hrun : FinishedRun inputs selection unknowns)
    (horder : inputs.defaultAuthorityOrder ≠ [])
    (hstate : ∀ item ∈ (assembleContext inputs unknowns selection.selected).selectedItems,
      ¬(item.contextKind = .repositoryState ∧ item.authorityLevel = .unverified))
    (hcapabilities :
      contradictoryCapabilities (assembleContext inputs unknowns selection.selected) = []) :
    Closed (assembleContext inputs unknowns selection.selected) inputs.requirementPlan
      inputs.resolution inputs.kernels := by
  obtain ⟨hsound, -⟩ := selectAll_grows hrun.select (.empty _)
  have hitems : (assembleContext inputs unknowns selection.selected).selectedItems.Perm
      (selection.byItem.map fun item => item.withSelection (selection.reasonsOf item.itemId)) :=
    perm_assembled_items.trans (perm_selected selection)
  refine
    { disposed := hrun.disposed hsha
      provenance := fun item hitem => ⟨?_, hstate item hitem⟩
      identity := fun item hitem => ?_
      relevance := fun item hitem => ?_
      kernels := rfl
      conflicts := hrun.conflicts hsha
      memory := fun item hitem hkind => ⟨fun q hq => hrun.memory hsha hitem hkind hq, ?_⟩
      gaps := ⟨capabilities_disposed hsha, hrun.authorities_disposed hsha, hcapabilities, ?_⟩
      budgets := ⟨?_, ?_, ?_⟩
      coverage := ?_
      unknowns := fun u hu => hrun.unknowns_bound hu }
  · obtain ⟨c, hc, hsame⟩ := hrun.selected_from hitem
    rw [hsame]
    exact (hrun.valid c hc).governed_provenance
  · obtain ⟨c, hc, hsame⟩ := hrun.selected_from hitem
    rw [hsame]
    exact ⟨(hrun.valid c hc).key_recipe, (hrun.valid c hc).id_recipe⟩
  · have hne := hrun.recorded_nonempty hitem
    obtain ⟨c, hc, hsame⟩ := hrun.selected_from hitem
    have hbecause := congrArg ContextItem.selectedBecause hsame
    change item.selectedBecause = selection.reasonsOf item.itemId at hbecause
    rw [hbecause]
    refine ⟨hne, fun q hq => ?_⟩
    obtain ⟨r, hr, rfl⟩ := hrun.reason_planned (mem_reasonsOf.mp hq)
    exact List.mem_map_of_mem hr
  · obtain ⟨c, hc, hsame⟩ := hrun.selected_from hitem
    rw [hsame] at hkind ⊢
    exact (hrun.valid c hc).memory_ceiling hkind
  · exact effectiveAuthorityOrder_ne_nil horder
  · refine List.filterMap_eq_nil_iff.mpr fun r hr => ?_
    obtain ⟨before, taken, rest, stop, short, h⟩ := exists_runAt hrun.select hrun.ids_nodup hr
    exact h.bounded hsha hrun (hrun.planned r hr)
  · rw [hitems.length_eq, List.length_map]
    exact hsound.items_le
  · rw [totalCost_perm hitems, totalCost_withSelection, ← hsound.bytes]
    exact hsound.bytes_le
  · refine List.filterMap_eq_nil_iff.mpr fun r hr => ?_
    obtain ⟨before, taken, rest, stop, short, h⟩ := exists_runAt hrun.select hrun.ids_nodup hr
    have hcovered := h.covers hsha hrun (hrun.planned r hr)
    unfold boundIds at hcovered
    exact hcovered

end Checks

/-- A compile over a snapshot and its discovery, under a plan of the
planner, is a finished run. -/
theorem finishedRun_of_plan {snapshot : ContextSnapshot} {inputs : CompileInputs}
    {context : CompiledTaskContext} {discovery : DiscoveryContext}
    (hresolution : inputs.resolution = resolveSnapshot snapshot.toSnapshotBuckets)
    (hdiscovery : inputs.discovery = discover inputs.scope inputs.resolution)
    (hplan : planRequirements inputs.scope discovery inputs.activation inputs.kernels
      = .ok inputs.requirementPlan)
    (hneeds : NeedsAccepted inputs.kernels) (hscope : UnboundUnknowns inputs.scope)
    (hcompile : compileContext inputs = .ok context) :
    ∃ selection unknowns, FinishedRun inputs selection unknowns
      ∧ context = assembleContext inputs unknowns selection.selected := by
  obtain ⟨selection, unknowns, hselect, hcontext⟩ := compileContext_ok hcompile
  refine ⟨selection, unknowns, ?_, hcontext⟩
  exact
    { valid := fun c hc => by
        rw [hresolution] at hc
        exact snapshot.valid c ((mem_sortedBy _).mp hc)
      scope := hscope
      discovery := hdiscovery
      planned := fun r hr => planned_of_mem hplan hneeds hr
      ids_nodup := (planRequirements_eq_ok hplan).2.1.ids_nodup
      select := hselect }

theorem finishedRun_of_compile {snapshot : ContextSnapshot} {inputs : CompileInputs}
    {context : CompiledTaskContext} (hfrom : PlannedFrom snapshot inputs)
    (hneeds : NeedsAccepted inputs.kernels) (hscope : UnboundUnknowns inputs.scope)
    (hcompile : compileContext inputs = .ok context) :
    ∃ selection unknowns, FinishedRun inputs selection unknowns
      ∧ context = assembleContext inputs unknowns selection.selected :=
  finishedRun_of_plan hfrom.resolution hfrom.discovery hfrom.plan hneeds hscope hcompile

/-- Over the compiler's own stages a compiled context closes exactly where
it selects no unverified repository state and no capability both
available and unavailable. -/
theorem compiled_closes_iff (hsha : Sha256.Injective) (snapshot : ContextSnapshot)
    (inputs : CompileInputs) (context : CompiledTaskContext) (hfrom : PlannedFrom snapshot inputs)
    (hneeds : NeedsAccepted inputs.kernels) (hscope : UnboundUnknowns inputs.scope)
    (horder : inputs.defaultAuthorityOrder = defaultAuthorityOrder)
    (hcompile : compileContext inputs = .ok context) :
    validateClosure context inputs.requirementPlan inputs.resolution inputs.kernels
        = .ok { checks := contextChecks, passed := true }
      ↔ (∀ item ∈ context.selectedItems,
          ¬(item.contextKind = .repositoryState ∧ item.authorityLevel = .unverified))
        ∧ contradictoryCapabilities context = [] := by
  obtain ⟨selection, unknowns, hrun, rfl⟩ := finishedRun_of_compile hfrom hneeds hscope hcompile
  have hdefault : inputs.defaultAuthorityOrder ≠ [] := by
    rw [horder]
    decide
  rw [validateClosure_ok_iff]
  constructor
  · rintro ⟨hclosed, -⟩
    exact ⟨fun item hitem => (hclosed.provenance item hitem).2, hclosed.gaps.2.2.1⟩
  · rintro ⟨hstate, hcapabilities⟩
    exact ⟨hrun.closed hsha hdefault hstate hcapabilities, rfl⟩

/-- A requirement for everything takes the one candidate it matches, where
that is within its bounds. -/
theorem FinishedRun.sole_taken {inputs : CompileInputs} {selection : Selection}
    {unknowns : List ContextUnknown} (hrun : FinishedRun inputs selection unknowns) {item : ContextItem}
    (hone : inputs.resolution.candidates = [item]) {r : ContextRequirement}
    (hr : r ∈ inputs.requirementPlan.requirements) (hmode : r.coverageMode = .allEligible)
    (hmatch : matchesRequirement r item = true)
    (hkind : isSupersessionKind item.contextKind = false)
    (hitems : ∀ limit, r.maxItems = some limit → 1 ≤ limit)
    (hbytes : ∀ limit, r.maxBytes = some limit → item.canonicalCost ≤ limit)
    (htotalItems : 2 ≤ inputs.requirementPlan.globalBudget.maxTotalItems)
    (htotalBytes : 2 * item.canonicalCost ≤ inputs.requirementPlan.globalBudget.maxTotalBytes) :
    ∃ bound ∈ (assembleContext inputs unknowns selection.selected).selectedItems,
      bound = item.withSelection bound.selectedBecause := by
  obtain ⟨before, taken, rest, stop, short, h⟩ := exists_runAt hrun.select hrun.ids_nodup hr
  have honly : ∀ e ∈ eligibleItems (requirementView inputs.resolution r), e = item := by
    intro e he
    have hcandidate := (eligible_matches he).1
    rw [hone] at hcandidate
    exact List.mem_singleton.mp hcandidate
  have heligible : item ∈ eligibleItems (requirementView inputs.resolution r) :=
    sole_eligible hone hmatch hkind
  have hfrontier : eligibleItems (requirementView inputs.resolution r) = taken ++ rest := by
    have hloop := h.loop.frontier
    rw [frontierFrom_allEligible hmode] at hloop
    exact hloop
  have htaken : item ∈ taken := by
    by_contra hnot
    have hnil : taken = [] := by
      rw [List.eq_nil_iff_forall_not_mem]
      intro e he
      exact hnot (honly e (hfrontier ▸ List.mem_append_left _ he) ▸ he)
    cases hstop : stop with
    | none =>
        rw [hfrontier, hnil, h.loop.finished hstop] at heligible
        cases heligible
    | some s =>
        obtain ⟨blocked, after, hrest, hblocked⟩ := h.loop.stopped s hstop
        obtain rfl : blocked = item := honly blocked (by
          rw [hfrontier, hrest]
          exact List.mem_append_right _ (List.mem_cons_self ..))
        -- what earlier requirements took is this candidate, at most once
        have hall : ∀ e ∈ before.byItem, e = blocked := by
          intro e he
          have hkept : before.byItem <+: selection.byItem := byItem_admitAll.trans h.kept
          rcases mem_byItem_selectAll hrun.select (hkept.subset he) with hempty | ⟨r', -, he'⟩
          · cases hempty
          · have hcandidate := (eligible_matches he').1
            rw [hone] at hcandidate
            exact List.mem_singleton.mp hcandidate
        have hlength := length_le_one_of_all_eq h.sound.ids_nodup.of_map
          fun a ha b hb => (hall a ha).trans (hall b hb).symm
        have hcost : totalCost before.byItem ≤ before.byItem.length * blocked.canonicalCost := by
          unfold totalCost
          refine (List.sum_le_card_nsmul _ blocked.canonicalCost fun n hn => ?_).trans_eq (by simp)
          obtain ⟨e, he, rfl⟩ := List.mem_map.mp hn
          rw [hall e he]
        rw [hnil] at hblocked
        change budgetStop r inputs.requirementPlan.globalBudget (.start before) blocked
          = some s at hblocked
        unfold budgetStop LoopState.start at hblocked
        dsimp only at hblocked
        rw [if_neg, if_neg, if_neg] at hblocked
        · cases hblocked
        · have hsound := h.sound.bytes
          have htotal : before.byItem.length * blocked.canonicalCost ≤ blocked.canonicalCost :=
            (Nat.mul_le_mul_right _ hlength).trans_eq (Nat.one_mul _)
          unfold Selection.wouldExceedGlobal
          simp only [Bool.and_eq_true, Bool.or_eq_true, decide_eq_true_eq]
          rintro ⟨-, hexceeds⟩
          omega
        · rw [Option.any_eq_true]
          rintro ⟨limit, hlimit, hlt⟩
          have hle := hbytes limit hlimit
          have hlt := of_decide_eq_true hlt
          omega
        · rw [Option.any_eq_true]
          rintro ⟨limit, hlimit, hlt⟩
          have hle := hitems limit hlimit
          have hlt := of_decide_eq_true hlt
          omega
  obtain ⟨bound, hbound, hid⟩ := List.mem_map.mp
    ((h.mem_boundIds hrun.select).mpr (List.mem_map_of_mem htaken))
  obtain ⟨hselected, -⟩ := mem_boundItems.mp hbound
  obtain ⟨c, hc, hsame⟩ := hrun.selected_from hselected
  rw [hone] at hc
  obtain rfl := List.mem_singleton.mp hc
  refine ⟨bound, hselected, ?_⟩
  have hbecause := congrArg ContextItem.selectedBecause hsame
  change bound.selectedBecause = selection.reasonsOf bound.itemId at hbecause
  rw [hbecause]
  exact hsame

end Agreement

/-! ## A branch nobody verified -/

section Survey

attribute [local instance] Sha256.transparent

/-- A need for repository facts of any authority. -/
def surveyNeed : KernelContextNeed :=
  { needId := "repository", contextKind := .repositoryState, required := false
    reason := "survey what is claimed of the repository", coverage := .allEligible
    minimumAuthority := .unverified, requiredSemanticKeys := [] }

/-- The kernel document that declares it. -/
def surveyDocument : List (String × Json) :=
  [("context_needs", .arr [surveyNeed.toDict])]

theorem survey_need_parses : parseContextNeeds surveyDocument "kernels/survey.yaml"
    = .ok [surveyNeed] := by rfl

def surveyKernel : KernelBinding :=
  { kernelId := "survey", sourceRef := "kernels/survey.yaml", sourceDigest := "survey"
    outputs := [], contextNeeds := [surveyNeed] }

/-- The branch of the repository as a note reports it. -/
def reportedBranch : ContextItem :=
  .create .unverified
    { sourceId := "note-3", sourceKind := "note", locator := "notes/3.md"
      immutableCoordinate := none, contentDigest := none }
    .global []
    (.repositoryState
      { repositoryId := "runtime", revision := "3f2a", subjectRef := "HEAD", factType := "branch"
        value := .str "main" })

theorem reportedBranch_valid : reportedBranch.Valid :=
  ContextItem.create_valid (by decide) (by decide) (by decide)
    ⟨by decide, by decide, by decide, rfl⟩ (fun h => by cases h) (fun h => by cases h)

def branchSnapshot : ContextSnapshot where
  toSnapshotBuckets := { SnapshotBuckets.empty with repositoryState := [reportedBranch] }
  kinds := by
    simp [SnapshotBuckets.named, SnapshotBuckets.empty, reportedBranch, ContextItem.create,
      ContextItem.contextKind, Claim.kind]
  valid := by
    intro item hitem
    obtain rfl : item = reportedBranch := List.mem_singleton.mp hitem
    exact reportedBranch_valid
  unselected := by
    intro item hitem
    obtain rfl : item = reportedBranch := List.mem_singleton.mp hitem
    rfl

/-- The inputs of the audit with the survey kernel, over a snapshot. -/
def surveyInputs (snapshot : ContextSnapshot) (plan : ContextRequirementPlan) : CompileInputs :=
  { auditInputs snapshot plan with kernels := [surveyKernel] }

theorem survey_needsAccepted : NeedsAccepted [surveyKernel] := by
  intro binding hbinding need hneed
  obtain rfl := List.mem_singleton.mp hbinding
  exact parseContextNeeds_accepted survey_need_parses need hneed

theorem survey_planned (snapshot : ContextSnapshot) :
    ∃ plan context, PlannedFrom snapshot (surveyInputs snapshot plan)
      ∧ compileContext (surveyInputs snapshot plan) = .ok context := by
  obtain ⟨plan, hplan⟩ := planRequirements_ok Sha256.transparent_injective
    (compileScope auditIntent)
    (discover (compileScope auditIntent) (resolveSnapshot snapshot.toSnapshotBuckets))
    auditActivation survey_needsAccepted
  have hfrom : PlannedFrom snapshot (surveyInputs snapshot plan) := ⟨rfl, rfl, hplan⟩
  have hversion : isBlank packageVersion = false := by decide
  obtain ⟨context, hcompile⟩ := hfrom.finishes survey_needsAccepted hversion
  exact ⟨plan, context, hfrom, hcompile⟩

/-- The requirement the survey's need becomes. -/
def surveyRequirement : ContextRequirement :=
  (kernelNeedSpec [] surveyNeed ["kernels/survey.yaml#repository"]).draft.canonical

theorem surveyRequirement_mem {snapshot : ContextSnapshot} {plan : ContextRequirementPlan}
    (h : PlannedFrom snapshot (surveyInputs snapshot plan)) :
    surveyRequirement ∈ plan.requirements := by
  refine ((planRequirements_eq_ok h.plan).1 _).mpr
    (List.mem_map.mpr ⟨_, List.mem_append_right _ ?_, rfl⟩)
  show _ ∈ kernelNeedSpecs (compileScope auditIntent).eligibleRefs [surveyKernel]
  rw [audit_scope.2]
  exact List.mem_singleton_self _

theorem reportedBranch_size : reportedBranch.toJson.size ≤ 65536 := by
  rw [ContextItem.size_transparent reportedBranch_valid.id_recipe]
  decide +kernel

theorem reportedBranch_cost : reportedBranch.canonicalCost ≤ 65536 := by
  have hunselected : reportedBranch.candidateDict = reportedBranch.toJson := rfl
  unfold ContextItem.canonicalCost
  rw [hunselected, Json.size_normalize]
  exact reportedBranch_size

/-- The compiler selects the reported branch for the survey, and closure
refuses it. -/
theorem reported_branch_refused :
    ∃ plan context, PlannedFrom branchSnapshot (surveyInputs branchSnapshot plan)
      ∧ WithinCeilings branchSnapshot.toSnapshotBuckets
      ∧ compileContext (surveyInputs branchSnapshot plan) = .ok context
      ∧ ∀ report, validateClosure context plan (surveyInputs branchSnapshot plan).resolution
          [surveyKernel] ≠ .ok report := by
  obtain ⟨plan, context, hfrom, hcompile⟩ := survey_planned branchSnapshot
  refine ⟨plan, context, hfrom, ?_, hcompile, fun report hreport => ?_⟩
  · have hsize := reportedBranch_size
    have hframe : SnapshotBuckets.frameSize ≤ 512 := by decide
    have hitems : branchSnapshot.allItems = [reportedBranch] := rfl
    refine ⟨by decide, (SnapshotBuckets.canonicalByteSize_le _).trans ?_⟩
    rw [hitems, List.map_singleton, List.sum_singleton]
    unfold snapshotMaxBytes
    omega
  obtain ⟨selection, unknowns, hrun, rfl⟩ := finishedRun_of_compile hfrom survey_needsAccepted
    (compileScope_unbound auditIntent) hcompile
  have hcost := reportedBranch_cost
  have hbudget : plan.globalBudget = { maxTotalItems := 64, maxTotalBytes := 262144 } :=
    (planRequirements_eq_ok hfrom.plan).2.2.1
  have htotal : 2 * reportedBranch.canonicalCost
      ≤ (surveyInputs branchSnapshot plan).requirementPlan.globalBudget.maxTotalBytes := by
    show _ ≤ plan.globalBudget.maxTotalBytes
    rw [hbudget]
    show _ ≤ 262144
    omega
  obtain ⟨bound, hbound, hsame⟩ := hrun.sole_taken rfl (surveyRequirement_mem hfrom) rfl rfl rfl
    (fun limit hlimit => by
      obtain rfl : 16 = limit := Option.some.inj hlimit
      decide)
    (fun limit hlimit => by
      obtain rfl : 65536 = limit := Option.some.inj hlimit
      exact hcost)
    (by
      show 2 ≤ plan.globalBudget.maxTotalItems
      rw [hbudget]
      decide) htotal
  refine ((validateClosure_ok_iff.mp hreport).1.provenance bound hbound).2 ?_
  rw [hsame]
  exact ⟨rfl, rfl⟩

/-- Over a layering rule alone, which nobody can refuse, the survey
closes. -/
theorem layering_survey_closes :
    ∃ plan context, compileContext (surveyInputs layeringSnapshot plan) = .ok context
      ∧ validateClosure context plan (surveyInputs layeringSnapshot plan).resolution [surveyKernel]
        = .ok { checks := contextChecks, passed := true } := by
  obtain ⟨plan, context, hfrom, hcompile⟩ := survey_planned layeringSnapshot
  refine ⟨plan, context, hcompile, (compiled_closes_iff Sha256.transparent_injective
    layeringSnapshot (surveyInputs layeringSnapshot plan) context hfrom survey_needsAccepted
    (compileScope_unbound auditIntent) rfl hcompile).mpr ⟨?_, ?_⟩⟩
  all_goals
    obtain ⟨selection, unknowns, hrun, rfl⟩ := finishedRun_of_compile hfrom survey_needsAccepted
      (compileScope_unbound auditIntent) hcompile
    have hrule : ∀ item ∈ (assembleContext (surveyInputs layeringSnapshot plan) unknowns
        selection.selected).selectedItems, item.contextKind = .architectureConstraint := by
      intro item hitem
      obtain ⟨c, hc, hsame⟩ := hrun.selected_from hitem
      rw [hsame, List.mem_singleton.mp hc]
      rfl
  · rintro item hitem ⟨hkind, -⟩
    rw [hrule item hitem] at hkind
    cases hkind
  · unfold contradictoryCapabilities
    rw [sortedUnique_eq_nil, List.filter_eq_nil_iff]
    intro id hid
    obtain ⟨item, hitem, fact, hclaim, -⟩ := mem_capabilityIds.mp hid
    have hkind := hrule item (mem_assembled_items.mpr (mem_capabilityFactsIn.mp hitem).1)
    unfold ContextItem.contextKind at hkind
    rw [hclaim] at hkind
    cases hkind

end Survey

end CognitiveRuntime
