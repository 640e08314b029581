import CognitiveRuntime.Properties.Blockers
import CognitiveRuntime.Properties.PlanRuns

/-!
# What closure recomputes

A planned requirement that falls short leaves one unknown, and the
finished context keeps it. Where a budget stopped the requirement, the
unknown holds the selector's state at the stop, and closure comes to the
same state from the context alone: what the requirement took, what was
selected before it, and what both cost.
-/

namespace CognitiveRuntime

open Ordered Fallible

section Recomputation

variable [Sha256]

/-! ## Planned requirements -/

/-- What the planner makes sure of in each requirement. -/
structure ContextRequirement.Planned (r : ContextRequirement) : Prop where
  id_ne : r.requirementId ≠ ""
  policy : r.missingPolicy = if r.required then .preserveUnknown else .optional
  required_min : r.required = true → 1 ≤ r.minItems

theorem deriveId_ne_empty (family : String) (payload : Json) : deriveId family payload ≠ "" := by
  intro h
  have hchars := congrArg String.toList h
  unfold deriveId at hchars
  rw [String.toList_append, String.toList_append] at hchars
  have hnil := (List.append_eq_nil_iff.mp (List.append_eq_nil_iff.mp hchars).2).1
  cases hnil

theorem planned_of_mem {scope : TaskScope} {discovery : DiscoveryContext}
    {activation : ActivationPlan} {kernels : List KernelBinding} {plan : ContextRequirementPlan}
    (h : planRequirements scope discovery activation kernels = .ok plan)
    (hneeds : NeedsAccepted kernels) {r : ContextRequirement} (hr : r ∈ plan.requirements) :
    r.Planned := by
  obtain ⟨spec, hspec, rfl⟩ := exists_spec_of_mem h hr
  have hsound := plannedSpecs_sound hneeds spec hspec
  exact ⟨deriveId_ne_empty _ _, hsound.policy, hsound.required_min⟩

/-! ## Shortfalls -/

/-- What an unsatisfied requirement leaves to record. -/
def shortfallUnknown (r : ContextRequirement) (stop : Option BudgetStop)
    (selectedKeys disposedKeys : List String) : ContextUnknown :=
  .create (some r.requirementId) none
    (if stop.isSome then .budgetInsufficient else .missingRequiredContext)
    (shortfallDetails r stop selectedKeys disposedKeys) (materialityFor r) []

/-- A planned requirement is satisfied, or takes less by its own option,
or leaves one unknown. -/
theorem shortfall_planned {r : ContextRequirement} (hr : r.Planned) {state : LoopState}
    {stop : Option BudgetStop} {disposedKeys : List String} {short : List ContextUnknown}
    (h : shortfall r state stop disposedKeys = .ok short) :
    (short = [] ∧ (satisfied r state.selectedCount state.selectedKeys disposedKeys stop.isSome
          = true ∨ (stop = none ∧ r.required = false)))
      ∨ short = [shortfallUnknown r stop state.selectedKeys disposedKeys] := by
  unfold shortfall at h
  split at h
  · next hsatisfied => exact .inl ⟨(Except.ok.inj h).symm, .inl hsatisfied⟩
  · unfold disposeUnsatisfied at h
    have hpolicy := hr.policy
    cases hrequired : r.required with
    | true =>
        rw [hrequired, if_pos rfl] at hpolicy
        rw [hpolicy] at h
        exact .inr (Except.ok.inj h).symm
    | false =>
        rw [hrequired, if_neg Bool.false_ne_true] at hpolicy
        rw [hpolicy] at h
        cases stop with
        | none => exact .inl ⟨(Except.ok.inj h).symm, .inr ⟨rfl, rfl⟩⟩
        | some stop => exact .inr (Except.ok.inj h).symm

/-! ## Unknowns -/

/-- The unknowns of a scope carry their derived id and are bound to no
requirement: scopes are compiled before requirements are planned. -/
def UnboundUnknowns (scope : TaskScope) : Prop :=
  ∀ u ∈ scope.unresolvedUnknowns, u.Valid ∧ u.requirementRef = none

theorem compileScope_unbound (intent : IntentContract) : UnboundUnknowns (compileScope intent) := by
  intro u hu
  unfold compileScope TaskScope.create at hu
  rcases List.mem_append.mp hu with hu | hu <;> split at hu
  · cases hu
  · obtain rfl := List.mem_singleton.mp hu
    exact ⟨rfl, rfl⟩
  · obtain rfl := List.mem_singleton.mp hu
    exact ⟨rfl, rfl⟩
  · cases hu

section Recorded

variable {inputs : CompileInputs} {selection : Selection} {unknowns : List ContextUnknown}

/-- Only the selection binds an unknown to a requirement. -/
theorem raised_unbound (hscope : UnboundUnknowns inputs.scope)
    (hselect : selectAll inputs.requirementPlan.globalBudget inputs.resolution
      inputs.requirementPlan.requirements .empty = .ok (selection, unknowns)) {u : ContextUnknown}
    (hu : u ∈ raisedUnknowns inputs unknowns selection.selected) :
    u.Valid ∧ (u.requirementRef = none ∨ u ∈ unknowns) := by
  rcases List.mem_append.mp hu with hu | hu
  · exact ⟨(hscope u hu).1, .inl (hscope u hu).2⟩
  refine ⟨(foundBy hselect hu).valid, ?_⟩
  rcases List.mem_append.mp hu with hu | hu
  · left
    rcases List.mem_append.mp hu with hu | hu
    · obtain ⟨kind, -, hview⟩ := mem_view_unknowns.mp hu
      exact (mem_supersessionUnknowns hview).1
    · obtain ⟨entry, -, rfl⟩ := List.mem_map.mp hu
      rfl
  rcases List.mem_append.mp hu with hu | hu
  · exact .inr hu
  left
  rcases List.mem_append.mp hu with hu | hu
  · exact (mem_unknownStatusDecisions hu).1
  · rcases mem_gapUnknowns hu with ⟨_, _, rfl⟩ | ⟨_, _, rfl⟩ <;> rfl

/-- What is raised is on record, under the same identity. -/
theorem raised_recorded (hsha : Sha256.Injective) (hscope : UnboundUnknowns inputs.scope)
    (hdiscovery : inputs.discovery = discover inputs.scope inputs.resolution)
    (hselect : selectAll inputs.requirementPlan.globalBudget inputs.resolution
      inputs.requirementPlan.requirements .empty = .ok (selection, unknowns)) {u : ContextUnknown}
    (hu : u ∈ raisedUnknowns inputs unknowns selection.selected) :
    ∃ v ∈ (assembleContext inputs unknowns selection.selected).unresolvedUnknowns,
      v ∈ raisedUnknowns inputs unknowns selection.selected ∧ v.SameIdentity u := by
  obtain ⟨v, hv, hid, hlast⟩ := exists_lastBy_of_mem ContextUnknown.unknownId hu
  refine ⟨v, (mem_context_unknowns hdiscovery).mpr (hid ▸ hlast), hv, ?_⟩
  exact sameIdentity_of_id hsha (raised_unbound hscope hselect hv).1
    (raised_unbound hscope hselect hu).1 hid

theorem raised_of_recorded
    (hdiscovery : inputs.discovery = discover inputs.scope inputs.resolution) {u : ContextUnknown}
    (hu : u ∈ (assembleContext inputs unknowns selection.selected).unresolvedUnknowns) :
    u ∈ raisedUnknowns inputs unknowns selection.selected :=
  (lastBy_eq_some _ ((mem_context_unknowns hdiscovery).mp hu)).1

theorem raised_of_selected {u : ContextUnknown} (hu : u ∈ unknowns) :
    u ∈ raisedUnknowns inputs unknowns selection.selected :=
  List.mem_append_right _ (List.mem_append_right _ (List.mem_append_left _ hu))

variable {r : ContextRequirement} {before : Selection} {taken rest : List ContextItem}
  {stop : Option BudgetStop} {short : List ContextUnknown}

/-- The shortfalls on record for a requirement are those its run left. -/
theorem RunAt.mem_recorded (hsha : Sha256.Injective) (hscope : UnboundUnknowns inputs.scope)
    (hdiscovery : inputs.discovery = discover inputs.scope inputs.resolution)
    (hselect : selectAll inputs.requirementPlan.globalBudget inputs.resolution
      inputs.requirementPlan.requirements .empty = .ok (selection, unknowns))
    (h : RunAt inputs.requirementPlan.globalBudget inputs.resolution
      inputs.requirementPlan.requirements r selection unknowns before taken rest stop short)
    (hr : r.Planned) {u : ContextUnknown} :
    (u ∈ (assembleContext inputs unknowns selection.selected).unresolvedUnknowns
        ∧ u.requirementRef = some r.requirementId ∧ u.reasonCode.isShortfall = true)
      ↔ u ∈ short := by
  have hshort : ∀ {v}, v ∈ raisedUnknowns inputs unknowns selection.selected →
      v.requirementRef = some r.requirementId → v.reasonCode.isShortfall = true → v ∈ short := by
    intro v hv href hreason
    rcases (raised_unbound hscope hselect hv).2 with hnone | hmem
    · rw [hnone] at href
      cases href
    · exact (h.shorts v).mpr ⟨hmem, href, hreason⟩
  constructor
  · rintro ⟨hu, href, hreason⟩
    exact hshort (raised_of_recorded hdiscovery hu) href hreason
  · intro hu
    obtain ⟨hmem, href, hreason⟩ := (h.shorts u).mp hu
    obtain ⟨v, hv, hraised, hsame⟩ := raised_recorded hsha hscope hdiscovery hselect
      (raised_of_selected hmem)
    have hvshort : v ∈ short := hshort hraised (hsame.requirementRef.trans href)
      (hsame.reasonCode ▸ hreason)
    -- a run leaves at most one shortfall
    obtain rfl : v = u := by
      rcases shortfall_planned hr h.short_eq with ⟨hnil, -⟩ | hone
      · rw [hnil] at hu
        cases hu
      · rw [hone] at hu hvshort
        exact (List.mem_singleton.mp hvshort).trans (List.mem_singleton.mp hu).symm
    exact ⟨hv, href, hreason⟩

end Recorded

/-! ## Budget stops -/

section Stops

variable {context : CompiledTaskContext} {plan : ContextRequirementPlan}
  {resolution : SnapshotResolution} {r : ContextRequirement}

/-- What the requirement took of its recomputed frontier. -/
def admittedFrom (context : CompiledTaskContext) (resolution : SnapshotResolution)
    (r : ContextRequirement) : List ContextItem :=
  (eligibleFrontier r (requirementView resolution r)).filter fun f =>
    f.itemId ∈ boundIds context r

/-- The selector's state at a stop as closure recomputes it. -/
structure Recomputed (context : CompiledTaskContext) (plan : ContextRequirementPlan)
    (resolution : SnapshotResolution) (r : ContextRequirement) (state : LoopState)
    (blocked : ContextItem) : Prop where
  blocked_eq : (eligibleFrontier r (requirementView resolution r)).find?
    (fun f => f.itemId ∉ boundIds context r) = some blocked
  count : state.selectedCount = (admittedFrom context resolution r).length
  bytes : state.requirementBytes = totalCost (admittedFrom context resolution r)
  items : state.selection.byItem.length
    = (stateAtStop context plan r (admittedFrom context resolution r)).length
  totalBytes : state.selection.totalBytes
    = totalCost (stateAtStop context plan r (admittedFrom context resolution r))
  has_iff : state.selection.has blocked.itemId = true ↔ blocked.itemId
    ∈ (stateAtStop context plan r (admittedFrom context resolution r)).map ContextItem.itemId

/-- The proof of a stop, over the state closure recomputes. -/
theorem budgetStopProven_eq {u : ContextUnknown} {blocked : ContextItem}
    (hu : budgetWitness? context r = some u)
    (hblocked : (eligibleFrontier r (requirementView resolution r)).find?
      (fun f => f.itemId ∉ boundIds context r) = some blocked) :
    budgetStopProven context plan resolution r
      = (budgetWitnessKeys.all (fun key => (Json.field key u.details).isSome)
        && decide (Json.field "blocked_item_id" u.details = some (.str blocked.itemId))
        && recordsNat u.details "candidate_cost" blocked.canonicalCost
        && if Json.field "bound" u.details = some (.str "requirement_max_items") then
            r.maxItems.any fun limit =>
              recordsNat u.details "limit" limit
                && recordsNat u.details "observed_count" (admittedFrom context resolution r).length
                && decide ((admittedFrom context resolution r).length + 1 > limit)
          else if Json.field "bound" u.details = some (.str "requirement_max_bytes") then
            r.maxBytes.any fun limit =>
              recordsNat u.details "limit" limit
                && recordsNat u.details "observed_bytes"
                  (totalCost (admittedFrom context resolution r))
                && decide (totalCost (admittedFrom context resolution r) + blocked.canonicalCost
                  > limit)
          else if blocked.itemId ∈ (stateAtStop context plan r
              (admittedFrom context resolution r)).map ContextItem.itemId then false
          else if Json.field "bound" u.details = some (.str "global_max_items") then
            recordsNat u.details "limit" plan.globalBudget.maxTotalItems
              && recordsNat u.details "observed_count"
                (stateAtStop context plan r (admittedFrom context resolution r)).length
              && decide ((stateAtStop context plan r (admittedFrom context resolution r)).length + 1
                > plan.globalBudget.maxTotalItems)
          else if Json.field "bound" u.details = some (.str "global_max_bytes") then
            recordsNat u.details "limit" plan.globalBudget.maxTotalBytes
              && recordsNat u.details "observed_bytes"
                (totalCost (stateAtStop context plan r (admittedFrom context resolution r)))
              && decide (totalCost (stateAtStop context plan r (admittedFrom context resolution r))
                + blocked.canonicalCost > plan.globalBudget.maxTotalBytes)
          else false) := by
  unfold budgetWitness? at hu
  unfold boundIds at hblocked
  unfold budgetStopProven
  rw [hu]
  dsimp only
  rw [hblocked]
  rfl

/-- A stop that the selector recorded is proven where its state is the
one closure recomputes. -/
theorem budgetStopProven_of_stop {u : ContextUnknown} {stop : BudgetStop} {state : LoopState}
    {blocked : ContextItem} (hu : budgetWitness? context r = some u)
    (hdetails : ∀ key ∈ budgetWitnessKeys,
      Json.field key u.details = Json.field key stop.details)
    (hstate : Recomputed context plan resolution r state blocked)
    (hstop : budgetStop r plan.globalBudget state blocked = some stop) :
    budgetStopProven context plan resolution r = true := by
  have hall : budgetWitnessKeys.all (fun key => (Json.field key u.details).isSome) = true := by
    rw [List.all_eq_true]
    intro key hkey
    rw [hdetails key hkey]
    simp only [budgetWitnessKeys, List.mem_cons, List.not_mem_nil, or_false] at hkey
    rcases hkey with rfl | rfl | rfl | rfl | rfl | rfl <;> rfl
  have hbound : Json.field "bound" u.details = some (.str stop.bound) :=
    hdetails "bound" (by decide)
  have hitem : Json.field "blocked_item_id" u.details = some (.str stop.blockedItemId) :=
    hdetails "blocked_item_id" (by decide)
  have hnat : ∀ key ∈ budgetWitnessKeys, ∀ n : Nat,
      Json.field key stop.details = some (.int n) → recordsNat u.details key n = true := by
    intro key hkey n hn
    unfold recordsNat
    rw [hdetails key hkey, hn]
    exact decide_eq_true rfl
  have hcost := hnat "candidate_cost" (by decide) stop.candidateCost rfl
  have hlimit := hnat "limit" (by decide) stop.limit rfl
  have hcount := hnat "observed_count" (by decide) stop.observedCount rfl
  have hbytes := hnat "observed_bytes" (by decide) stop.observedBytes rfl
  rw [budgetStopProven_eq hu hstate.blocked_eq, hall, hbound, hitem]
  unfold budgetStop at hstop
  dsimp only at hstop
  split at hstop
  · next hmax =>
      obtain ⟨limit, hmaxItems, hlt⟩ := (Option.any_eq_true _ _).mp hmax
      obtain rfl := Option.some.inj hstop
      rw [hmaxItems] at hlimit
      rw [hmaxItems, ← hstate.count]
      simp only [hcost, hcount, Option.getD_some ▸ hlimit, Option.any_some, hlt, if_true,
        decide_true, Bool.and_self]
  split at hstop
  · next hmax =>
      obtain ⟨limit, hmaxBytes, hlt⟩ := (Option.any_eq_true _ _).mp hmax
      obtain rfl := Option.some.inj hstop
      rw [hmaxBytes] at hlimit
      rw [hmaxBytes, ← hstate.bytes]
      simp [hcost, hbytes, Option.getD_some ▸ hlimit, hlt]
  split at hstop
  · next hglobal =>
      obtain rfl := Option.some.inj hstop
      unfold Selection.wouldExceedGlobal at hglobal
      simp only [Bool.and_eq_true, Bool.not_eq_true', Bool.or_eq_true, decide_eq_true_eq] at hglobal
      obtain ⟨hnew, hexceeds⟩ := hglobal
      have hfresh : blocked.itemId ∉ (stateAtStop context plan r
          (admittedFrom context resolution r)).map ContextItem.itemId := by
        intro hmem
        rw [hstate.has_iff.mpr hmem] at hnew
        cases hnew
      rw [hstate.items, hstate.totalBytes] at hexceeds
      unfold globalStop at hcost hlimit hcount hbytes ⊢
      dsimp only at hcost hlimit hcount hbytes ⊢
      rw [hstate.items] at hlimit hcount ⊢
      rw [hstate.totalBytes] at hbytes
      by_cases hmany : (stateAtStop context plan r (admittedFrom context resolution r)).length + 1
          > plan.globalBudget.maxTotalItems
      · rw [if_pos hmany] at hlimit
        simp [hcost, hlimit, hcount, hmany, hfresh]
      · rw [if_neg hmany] at hlimit
        simp [hcost, hlimit, hbytes, hmany, hfresh, hexceeds.resolve_left hmany]
  · cases hstop

end Stops

/-! ## What each requirement took -/

omit [Sha256] in
/-- A minimum asks for the first candidates. -/
theorem frontierFrom_minimum {r : ContextRequirement} (hmode : r.coverageMode = .minimum) :
    ∀ {n : Nat} {items : List ContextItem},
      frontierFrom r n items = items.take (r.minItems - n)
  | n, [] => by rw [List.take_nil]; rfl
  | n, item :: rest => by
      rw [frontierFrom, hmode]
      by_cases hfull : r.minItems ≤ n
      · rw [if_pos ⟨rfl, hfull⟩, Nat.sub_eq_zero_of_le hfull, List.take_zero]
      · rw [if_neg fun h => hfull h.2, if_neg (by simp), frontierFrom_minimum hmode]
        obtain ⟨k, hk⟩ : ∃ k, r.minItems - n = k + 1 := ⟨r.minItems - n - 1, by omega⟩
        rw [hk, List.take_succ_cons, show r.minItems - (n + 1) = k by omega]

omit [Sha256] in
/-- Required keys ask for the candidates that have them. -/
theorem frontierFrom_semanticKeys {r : ContextRequirement} (hmode : r.coverageMode = .semanticKeys) :
    ∀ {n : Nat} {items : List ContextItem},
      frontierFrom r n items = items.filter fun item => item.semanticKey ∈ r.requiredSemanticKeys
  | n, [] => rfl
  | n, item :: rest => by
      rw [frontierFrom, hmode, if_neg (by simp), List.filter_cons]
      by_cases hkey : item.semanticKey ∈ r.requiredSemanticKeys
      · rw [if_neg fun h => h.2 hkey, if_pos (decide_eq_true hkey), frontierFrom_semanticKeys hmode]
      · rw [if_pos ⟨rfl, hkey⟩, if_neg (by simpa using hkey), frontierFrom_semanticKeys hmode]

section Taken

variable {inputs : CompileInputs} {selection : Selection} {unknowns : List ContextUnknown}
  {r : ContextRequirement} {before : Selection} {taken rest : List ContextItem}
  {stop : Option BudgetStop} {short : List ContextUnknown}

/-- Closure admits of the frontier what the run took. -/
theorem RunAt.admittedFrom_eq (hsha : Sha256.Injective)
    (hids : ∀ c ∈ inputs.resolution.candidates, c.itemId = c.expectedItemId)
    (hselect : selectAll inputs.requirementPlan.globalBudget inputs.resolution
      inputs.requirementPlan.requirements .empty = .ok (selection, unknowns))
    (h : RunAt inputs.requirementPlan.globalBudget inputs.resolution
      inputs.requirementPlan.requirements r selection unknowns before taken rest stop short) :
    admittedFrom (assembleContext inputs unknowns selection.selected) inputs.resolution r = taken
      ∧ ∀ item ∈ rest, item.itemId
        ∉ boundIds (assembleContext inputs unknowns selection.selected) r := by
  obtain ⟨hfrontier, hnodup⟩ := h.frontier hsha hids
  rw [List.map_append] at hnodup
  have hrest : ∀ item ∈ rest, item.itemId
      ∉ boundIds (assembleContext inputs unknowns selection.selected) r := by
    intro item hitem hbound
    exact (List.nodup_append.mp hnodup).2.2 _ ((h.mem_boundIds hselect).mp hbound) _
      (List.mem_map_of_mem hitem) rfl
  refine ⟨?_, hrest⟩
  unfold admittedFrom
  rw [hfrontier, List.filter_append, List.filter_eq_self.mpr fun item hitem =>
      decide_eq_true ((h.mem_boundIds hselect).mpr (List.mem_map_of_mem hitem)),
    List.filter_eq_nil_iff.mpr fun item hitem => by simpa using hrest item hitem, List.append_nil]

/-- Where a budget stopped a run, closure recomputes the state it was
in. -/
theorem RunAt.recomputed (hsha : Sha256.Injective)
    (hids : ∀ c ∈ inputs.resolution.candidates, c.itemId = c.expectedItemId)
    (hselect : selectAll inputs.requirementPlan.globalBudget inputs.resolution
      inputs.requirementPlan.requirements .empty = .ok (selection, unknowns))
    (h : RunAt inputs.requirementPlan.globalBudget inputs.resolution
      inputs.requirementPlan.requirements r selection unknowns before taken rest stop short)
    {blocked : ContextItem} {after : List ContextItem} (hrest : rest = blocked :: after) :
    Recomputed (assembleContext inputs unknowns selection.selected) inputs.requirementPlan
      inputs.resolution r ((LoopState.start before).admitAll taken r.requirementId) blocked := by
  obtain ⟨hfrontier, -⟩ := h.frontier hsha hids
  obtain ⟨hadmitted, hleft⟩ := h.admittedFrom_eq hsha hids hselect
  have hbyItem : ∀ item ∈ ((LoopState.start before).admitAll taken
      r.requirementId).selection.byItem, FromView inputs.resolution item := fun item hitem =>
    fromView_byItem hselect (h.kept.subset hitem)
  -- the ids closure counts are those of the selection at the stop
  have hsame : ∀ id, id ∈ ((LoopState.start before).admitAll taken
      r.requirementId).selection.byItem.map ContextItem.itemId
      ↔ id ∈ (stateAtStop (assembleContext inputs unknowns selection.selected)
          inputs.requirementPlan r taken).map ContextItem.itemId := by
    intro id
    unfold stateAtStop
    rw [mem_ids_admitAll, map_key_dedupeLast, mem_sortedUnique, List.map_append, List.mem_append]
    refine or_congr_left ?_
    rw [mem_reasoned hselect]
    simp only [decide_eq_true_eq]
    exact (h.earlier_iff id).symm
  have hfrom : ∀ item ∈ stateAtStop (assembleContext inputs unknowns selection.selected)
      inputs.requirementPlan r taken, FromView inputs.resolution item := by
    intro item hitem
    rcases List.mem_append.mp (mem_of_mem_dedupeLast hitem) with hitem | hitem
    · exact fromView_selected hselect (List.mem_filter.mp hitem).1
    · exact fromView_of_eligible (h.taken_eligible hitem)
  have hnodup : ((stateAtStop (assembleContext inputs unknowns selection.selected)
      inputs.requirementPlan r taken).map ContextItem.itemId).Nodup := nodup_map_key_dedupeLast _
  have hcosts := perm_map_of_keys ContextItem.itemId ContextItem.canonicalCost
    h.sound_after.ids_nodup hnodup hsame fun a ha b hb hid =>
      (hbyItem a ha).cost hsha hids (hfrom b hb) hid
  have hlength := hcosts.length_eq
  rw [List.length_map, List.length_map] at hlength
  have hblocked : (eligibleFrontier r (requirementView inputs.resolution r)).find? (fun f =>
      f.itemId ∉ boundIds (assembleContext inputs unknowns selection.selected) r)
      = some blocked := by
    rw [hfrontier, hrest, List.find?_append, List.find?_eq_none.mpr, Option.none_or]
    · exact List.find?_cons_of_pos (decide_eq_true (hleft blocked (hrest ▸ List.mem_cons_self ..)))
    · intro item hitem hnot
      exact of_decide_eq_true hnot
        ((h.mem_boundIds hselect).mpr (List.mem_map_of_mem hitem))
  refine ⟨hblocked, ?_, ?_, ?_, ?_, ?_⟩ <;> rw [hadmitted]
  · rw [LoopState.selectedCount_admitAll]
    exact Nat.zero_add _
  · rw [LoopState.requirementBytes_admitAll]
    exact Nat.zero_add _
  · exact hlength
  · rw [h.sound_after.bytes]
    exact hcosts.sum_eq
  · rw [← hsame]
    exact decide_eq_true_iff

end Taken

end Recomputation

end CognitiveRuntime
