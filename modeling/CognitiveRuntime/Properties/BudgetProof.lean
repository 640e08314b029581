import Mathlib.Algebra.Order.BigOperators.Group.List
import CognitiveRuntime.Properties.Closed

/-!
# Budget stops that excuse

A requirement that took less than it asked for is excused by a budget
stop that closure proves again. The proof counts what was taken; it sees
where the selector stopped only if nothing was passed over.
-/

namespace CognitiveRuntime

open Ordered Fallible

/-! ## The frontier -/

/-- A candidate the coverage mode of a requirement asks for. -/
def AskedFor (requirement : ContextRequirement) (item : ContextItem) : Prop :=
  requirement.coverageMode = .semanticKeys → item.semanticKey ∈ requirement.requiredSemanticKeys

theorem frontierFrom_sublist {requirement : ContextRequirement} :
    ∀ {taken : Nat} {items : List ContextItem},
      (frontierFrom requirement taken items).Sublist items
  | _, [] => List.Sublist.slnil
  | taken, item :: rest => by
      rw [frontierFrom]
      split
      · exact List.nil_sublist _
      · split
        · exact frontierFrom_sublist.cons item
        · exact frontierFrom_sublist.cons_cons item

/-- Without a count to reach, everything that is asked for lies on the
frontier. -/
theorem frontierFrom_of_asked {r : ContextRequirement}
    (hmode : r.coverageMode ≠ .minimum) :
    ∀ {n : Nat} {items : List ContextItem}, (∀ item ∈ items, AskedFor r item) →
      frontierFrom r n items = items
  | _, [], _ => rfl
  | n, item :: rest, hasked => by
      rw [frontierFrom, if_neg fun h => hmode h.1,
        if_neg fun h => h.2 (hasked item (List.mem_cons_self ..) h.1),
        frontierFrom_of_asked hmode fun other hother => hasked other (List.mem_cons_of_mem _ hother)]

/-- Everything eligible is on the frontier where everything is asked
for. -/
theorem frontierFrom_allEligible {requirement : ContextRequirement}
    (hmode : requirement.coverageMode = .allEligible) {taken : Nat} {items : List ContextItem} :
    frontierFrom requirement taken items = items :=
  frontierFrom_of_asked (by rw [hmode]; exact fun h => by cases h) fun _ _ h => by
    rw [hmode] at h
    cases h

theorem mem_frontierFrom_of_asked {r : ContextRequirement} (hmode : r.coverageMode ≠ .minimum)
    {item : ContextItem} (hasked : AskedFor r item) :
    ∀ {n : Nat} {items : List ContextItem}, item ∈ items → item ∈ frontierFrom r n items
  | n, other :: rest, hmem => by
      rw [frontierFrom, if_neg fun h => hmode h.1]
      rcases List.mem_cons.mp hmem with rfl | hlater
      · rw [if_neg fun h => h.2 (hasked h.1)]
        exact List.mem_cons_self ..
      · have hrest : ∀ m, item ∈ frontierFrom r m rest := fun m =>
          mem_frontierFrom_of_asked hmode hasked hlater
        split
        · exact hrest n
        · exact List.mem_cons_of_mem _ (hrest (n + 1))

/-- A candidate that is asked for lies on the frontier, or the frontier
was full before it. -/
theorem mem_frontierFrom {requirement : ContextRequirement} {item : ContextItem}
    (hasked : AskedFor requirement item) :
    ∀ {taken : Nat} {items : List ContextItem},
      items.Pairwise (fun a b => candidateSortKey a ≤ candidateSortKey b) → item ∈ items →
      item ∈ frontierFrom requirement taken items
        ∨ ∀ f ∈ frontierFrom requirement taken items, candidateSortKey f ≤ candidateSortKey item
  | taken, other :: rest, hsorted, hmem => by
      obtain ⟨hfirst, hrest⟩ := List.pairwise_cons.mp hsorted
      rw [frontierFrom]
      split
      · exact .inr fun f hf => absurd hf List.not_mem_nil
      · rcases List.mem_cons.mp hmem with rfl | hlater
        · left
          split
          · next hskip => exact absurd (hasked hskip.1) hskip.2
          · exact List.mem_cons_self ..
        · split
          · exact mem_frontierFrom hasked hrest hlater
          · obtain hin | hfull := mem_frontierFrom hasked hrest hlater
            · exact .inl (List.mem_cons_of_mem _ hin)
            · right
              intro f hf
              rcases List.mem_cons.mp hf with rfl | hf
              · exact hfirst item hlater
              · exact hfull f hf

theorem mem_settled_sorted {view : ResolvedCandidates} {item : ContextItem} :
    item ∈ sortedBy candidateSortKey (settledItems view) ↔ item ∈ eligibleItems view := by
  rw [mem_sortedBy, mem_settledItems]

theorem eligible_of_mem_frontier {requirement : ContextRequirement} {view : ResolvedCandidates}
    {item : ContextItem} (h : item ∈ eligibleFrontier requirement view) :
    item ∈ eligibleItems view :=
  mem_settled_sorted.mp (frontierFrom_sublist.subset h)

theorem pairwise_frontier (requirement : ContextRequirement) (view : ResolvedCandidates) :
    (eligibleFrontier requirement view).Pairwise fun a b =>
      candidateSortKey a ≤ candidateSortKey b :=
  (pairwise_sortedBy candidateSortKey _).sublist frontierFrom_sublist

/-- Asked for but not before everything of the frontier: on the frontier
or behind it. -/
theorem frontier_or_behind {requirement : ContextRequirement} {view : ResolvedCandidates}
    {item : ContextItem} (hasked : AskedFor requirement item) (h : item ∈ eligibleItems view) :
    item ∈ eligibleFrontier requirement view
      ∨ ∀ f ∈ eligibleFrontier requirement view, candidateSortKey f ≤ candidateSortKey item :=
  mem_frontierFrom hasked (pairwise_sortedBy candidateSortKey _) (mem_settled_sorted.mpr h)

theorem itemId_eq_of_sortKey {a b : ContextItem} (h : candidateSortKey a = candidateSortKey b) :
    a.itemId = b.itemId := by
  unfold candidateSortKey at h
  simp only [EmbeddingLike.apply_eq_iff_eq, Prod.mk.injEq] at h
  exact h.2.2.2

/-- At one scope and authority the semantic key decides. -/
theorem sortKey_lt_of_key {a b : ContextItem} (hscope : a.scopeMode = b.scopeMode)
    (hrank : a.authorityRank = b.authorityRank) (hkey : a.semanticKey < b.semanticKey) :
    candidateSortKey a < candidateSortKey b := by
  unfold candidateSortKey
  rw [hscope, hrank]
  simp only [Prod.Lex.toLex_lt_toLex]
  exact .inr ⟨trivial, .inr ⟨trivial, .inl hkey⟩⟩

section BudgetProof

variable [Sha256]

/-! ## What a budget stop claims -/

/-- The ids a context binds to a requirement. -/
def boundIds (context : CompiledTaskContext) (requirement : ContextRequirement) : List String :=
  (boundItems context requirement).map ContextItem.itemId

/-- Coverage falls short of the requirement's mode. -/
def UnderCovered (context : CompiledTaskContext) (resolution : SnapshotResolution)
    (requirement : ContextRequirement) : Prop :=
  coverageBreach requirement (eligibleKeys (requirementView resolution requirement))
    (boundIds context requirement) ((boundItems context requirement).map ContextItem.semanticKey)
    (conflictDisposedKeys context resolution requirement) false ≠ none

/-- The unknown closure reads as the requirement's budget witness. -/
def budgetWitness? (context : CompiledTaskContext) (requirement : ContextRequirement) :
    Option ContextUnknown :=
  context.unresolvedUnknowns.find? fun u =>
    u.reasonCode = .budgetInsufficient ∧ u.requirementRef = some requirement.requirementId

/-- The shared selection once a requirement has taken the given items:
what earlier requirements of the plan took, and these. -/
def stateAtStop (context : CompiledTaskContext) (plan : ContextRequirementPlan)
    (requirement : ContextRequirement) (taken : List ContextItem) : List ContextItem :=
  let earlier := (plan.requirements.map ContextRequirement.requirementId).takeWhile
    (· ≠ requirement.requirementId)
  dedupeLast ContextItem.itemId
    ((context.selectedItems.filter fun item => item.selectedBecause.any (· ∈ earlier)) ++ taken)

/-- Admitting `blocked` after the given items exceeds the named bound. -/
inductive Exceeds (context : CompiledTaskContext) (plan : ContextRequirementPlan)
    (requirement : ContextRequirement) (taken : List ContextItem) (blocked : ContextItem) :
    String → Prop where
  | maxItems (limit : Nat) : requirement.maxItems = some limit → taken.length + 1 > limit →
      Exceeds context plan requirement taken blocked "requirement_max_items"
  | maxBytes (limit : Nat) : requirement.maxBytes = some limit →
      totalCost taken + blocked.canonicalCost > limit →
      Exceeds context plan requirement taken blocked "requirement_max_bytes"
  | totalItems :
      blocked.itemId ∉ (stateAtStop context plan requirement taken).map ContextItem.itemId →
      (stateAtStop context plan requirement taken).length + 1 > plan.globalBudget.maxTotalItems →
      Exceeds context plan requirement taken blocked "global_max_items"
  | totalBytes :
      blocked.itemId ∉ (stateAtStop context plan requirement taken).map ContextItem.itemId →
      totalCost (stateAtStop context plan requirement taken) + blocked.canonicalCost
        > plan.globalBudget.maxTotalBytes →
      Exceeds context plan requirement taken blocked "global_max_bytes"

/-- The requirement took its frontier up to the blocked candidate of its
witness, and taking that one too would exceed the bound the witness
names. -/
def StoppedByBudget (context : CompiledTaskContext) (plan : ContextRequirementPlan)
    (resolution : SnapshotResolution) (requirement : ContextRequirement) : Prop :=
  ∃ u bound before blocked after,
    budgetWitness? context requirement = some u
    ∧ Json.field "bound" u.details = some (.str bound)
    ∧ Json.field "blocked_item_id" u.details = some (.str blocked.itemId)
    ∧ eligibleFrontier requirement (requirementView resolution requirement)
      = before ++ blocked :: after
    ∧ (∀ id, id ∈ boundIds context requirement ↔ id ∈ before.map ContextItem.itemId)
    ∧ blocked.itemId ∉ boundIds context requirement
    ∧ Exceeds context plan requirement before blocked bound

/-- Nothing the requirement took comes after a frontier candidate that it
did not take. -/
def NothingPassedOver (context : CompiledTaskContext) (resolution : SnapshotResolution)
    (requirement : ContextRequirement) : Prop :=
  ∀ item ∈ eligibleItems (requirementView resolution requirement),
    item.itemId ∈ boundIds context requirement →
    ∀ f ∈ eligibleFrontier requirement (requirementView resolution requirement),
      candidateSortKey f < candidateSortKey item → f.itemId ∈ boundIds context requirement

/-! ## What closure proves of it -/

variable {context : CompiledTaskContext} {plan : ContextRequirementPlan}
  {resolution : SnapshotResolution} {kernels : List KernelBinding} {r : ContextRequirement}

/-- A proven stop: the first candidate of the frontier that was not taken
would exceed the bound on top of all those that were. -/
theorem budgetStopProven_spec (h : budgetStopProven context plan resolution r = true) :
    ∃ u bound before blocked after,
      budgetWitness? context r = some u
      ∧ Json.field "bound" u.details = some (.str bound)
      ∧ Json.field "blocked_item_id" u.details = some (.str blocked.itemId)
      ∧ eligibleFrontier r (requirementView resolution r) = before ++ blocked :: after
      ∧ (∀ f ∈ before, f.itemId ∈ boundIds context r)
      ∧ blocked.itemId ∉ boundIds context r
      ∧ Exceeds context plan r ((eligibleFrontier r (requirementView resolution r)).filter
          fun f => f.itemId ∈ boundIds context r) blocked bound := by
  unfold budgetStopProven at h
  split at h
  · cases h
  · next u hu =>
    dsimp only at h
    split at h
    · cases h
    · next blocked hblocked =>
      obtain ⟨hnot, before, after, hfrontier, hbefore⟩ := List.find?_eq_some_iff_append.mp hblocked
      simp only [Bool.and_eq_true, decide_eq_true_eq] at h
      obtain ⟨⟨⟨-, hid⟩, -⟩, h⟩ := h
      obtain ⟨bound, hbound, hexceeds⟩ : ∃ bound,
          Json.field "bound" u.details = some (.str bound)
          ∧ Exceeds context plan r ((eligibleFrontier r (requirementView resolution r)).filter
              fun f => f.itemId ∈ boundIds context r) blocked bound := by
        split at h
        · next hbound =>
          obtain ⟨limit, hlimit, h⟩ := (Option.any_eq_true _ _).mp h
          simp only [Bool.and_eq_true, decide_eq_true_eq] at h
          exact ⟨_, hbound, .maxItems limit hlimit h.2⟩
        · split at h
          · next hbound =>
            obtain ⟨limit, hlimit, h⟩ := (Option.any_eq_true _ _).mp h
            simp only [Bool.and_eq_true, decide_eq_true_eq] at h
            exact ⟨_, hbound, .maxBytes limit hlimit h.2⟩
          · split at h
            · cases h
            · next hnew =>
              split at h
              · next hbound =>
                simp only [Bool.and_eq_true, decide_eq_true_eq] at h
                exact ⟨_, hbound, .totalItems hnew h.2⟩
              · split at h
                · next hbound =>
                  simp only [Bool.and_eq_true, decide_eq_true_eq] at h
                  exact ⟨_, hbound, .totalBytes hnew h.2⟩
                · cases h
      refine ⟨u, bound, before, blocked, after, hu, hbound, hid, hfrontier, fun f hf => ?_,
        of_decide_eq_true hnot, hexceeds⟩
      have htaken := hbefore f hf
      simp only [decide_not, Bool.not_not, decide_eq_true_eq] at htaken
      exact htaken

omit [Sha256] in
/-- A proven stop excuses whatever eligible material was left. -/
theorem coverageBreach_truncated {eligible : List (String × String)}
    {taken takenKeys disposedKeys : List String} (hmode : r.coverageMode = .allEligible)
    (htaken : ∀ id ∈ taken, id ∈ eligible.map Prod.fst) :
    coverageBreach r eligible taken takenKeys disposedKeys true = none := by
  have hnone : taken.filter (· ∉ eligible.map Prod.fst) = [] :=
    List.filter_eq_nil_iff.mpr fun id hid => by simpa using htaken id hid
  unfold coverageBreach
  dsimp only
  rw [hnone, hmode]
  simp

omit [Sha256] in
/-- Everything eligible and nothing else is complete coverage. -/
theorem coverageBreach_complete {eligible : List (String × String)}
    {taken takenKeys disposedKeys : List String} {truncated : Bool}
    (hmode : r.coverageMode = .allEligible)
    (hsame : ∀ id, id ∈ eligible.map Prod.fst ↔ id ∈ taken) :
    coverageBreach r eligible taken takenKeys disposedKeys truncated = none := by
  have hineligible : taken.filter (· ∉ eligible.map Prod.fst) = [] :=
    List.filter_eq_nil_iff.mpr fun id hid => by simpa using (hsame id).mpr hid
  have hmissed : (eligible.map Prod.fst).filter (· ∉ taken) = [] :=
    List.filter_eq_nil_iff.mpr fun id hid => by simpa using (hsame id).mp hid
  unfold coverageBreach
  dsimp only
  rw [hineligible, hmissed, hmode]
  simp

omit [Sha256] in
/-- Eligible material that was left falls short of taking everything. -/
theorem coverageBreach_missed {eligible : List (String × String)}
    {taken takenKeys disposedKeys : List String} (hmode : r.coverageMode = .allEligible)
    {id : String} (hid : id ∈ eligible.map Prod.fst) (hnot : id ∉ taken) :
    coverageBreach r eligible taken takenKeys disposedKeys false ≠ none := by
  have hmissed : sortedUnique ((eligible.map Prod.fst).filter (· ∉ taken)) ≠ [] :=
    List.ne_nil_of_mem (mem_sortedUnique.mpr (List.mem_filter.mpr ⟨hid, decide_eq_true hnot⟩))
  unfold coverageBreach
  dsimp only
  rw [hmode]
  split
  · exact Option.some_ne_none _
  · dsimp only
    rw [if_pos ⟨hmissed, rfl⟩]
    exact Option.some_ne_none _

/-- A recorded item stop is proven where its numbers are those of the
frontier. -/
theorem budgetStopProven_of_maxItems {u : ContextUnknown} {stop : BudgetStop}
    {blocked : ContextItem} (hu : budgetWitness? context r = some u)
    (hdetails : u.details = stop.details) (hbound : stop.bound = "requirement_max_items")
    (hblocked : (eligibleFrontier r (requirementView resolution r)).find?
      (fun f => f.itemId ∉ boundIds context r) = some blocked)
    (hid : stop.blockedItemId = blocked.itemId) (hcost : stop.candidateCost = blocked.canonicalCost)
    (hlimit : r.maxItems = some stop.limit)
    (hcount : stop.observedCount = ((eligibleFrontier r (requirementView resolution r)).filter
      fun f => f.itemId ∈ boundIds context r).length)
    (hexceeds : stop.observedCount + 1 > stop.limit) :
    budgetStopProven context plan resolution r = true := by
  unfold budgetWitness? at hu
  unfold boundIds at hblocked hcount
  unfold budgetStopProven
  rw [hu]
  have hkeys : budgetWitnessKeys.all (fun key => (Json.field key stop.details).isSome) = true := rfl
  have hname : Json.field "bound" stop.details = some (.str stop.bound) := rfl
  have hitem : Json.field "blocked_item_id" stop.details = some (.str stop.blockedItemId) := rfl
  have hnat : recordsNat stop.details "candidate_cost" stop.candidateCost = true
      ∧ recordsNat stop.details "limit" stop.limit = true
      ∧ recordsNat stop.details "observed_count" stop.observedCount = true := by
    refine ⟨decide_eq_true rfl, decide_eq_true rfl, decide_eq_true rfl⟩
  simp only [hblocked, ← hcount, hdetails, hkeys, hname, hitem, hid, ← hcost, hnat, hbound, hlimit,
    Option.any_some, hexceeds, decide_true, Bool.and_self, if_true]

/-- An under-covered requirement of a closed context has a proven stop. -/
theorem Closed.stop_proven (h : Closed context plan resolution kernels)
    (hr : r ∈ plan.requirements) (hunder : UnderCovered context resolution r) :
    budgetStopProven context plan resolution r = true := by
  have hcoverage := h.coverage_of hr
  cases hproven : budgetStopProven context plan resolution r with
  | true => rfl
  | false =>
      rw [hproven] at hcoverage
      exact absurd hcoverage hunder

/-- What a closed context takes for a requirement, the requirement asks
for. -/
theorem Closed.bound_asked (hsha : Sha256.Injective)
    (hids : ∀ c ∈ resolution.candidates, c.itemId = c.expectedItemId)
    (h : Closed context plan resolution kernels) (hr : r ∈ plan.requirements) {e : ContextItem}
    (he : e ∈ eligibleItems (requirementView resolution r))
    (hbound : e.itemId ∈ boundIds context r) : AskedFor r e := by
  intro hmode
  obtain ⟨item, hitem, hid⟩ := List.mem_map.mp hbound
  have hkey := (h.sameItem hsha hids (mem_boundItems.mp hitem).1 he hid.symm).semanticKey
  rw [← hkey]
  exact taken_requested (h.coverage_of hr) hmode (List.mem_map_of_mem hitem)

/-- Where nothing was passed over, the requirement took exactly the
frontier before the first candidate it did not take. -/
theorem bound_before (hsha : Sha256.Injective)
    (hids : ∀ c ∈ resolution.candidates, c.itemId = c.expectedItemId)
    (h : Closed context plan resolution kernels) (hr : r ∈ plan.requirements)
    {before after : List ContextItem} {blocked : ContextItem}
    (hfrontier : eligibleFrontier r (requirementView resolution r) = before ++ blocked :: after)
    (hblocked : blocked.itemId ∉ boundIds context r)
    (hpassed : NothingPassedOver context resolution r) {e : ContextItem}
    (he : e ∈ eligibleItems (requirementView resolution r))
    (hbound : e.itemId ∈ boundIds context r) : e ∈ before := by
  have hsorted := pairwise_frontier r (requirementView resolution r)
  have hmem : blocked ∈ eligibleFrontier r (requirementView resolution r) := by
    rw [hfrontier]
    exact List.mem_append_right _ (List.mem_cons_self ..)
  -- a taken candidate behind the blocked one would have passed it over
  have hahead : ¬candidateSortKey blocked ≤ candidateSortKey e := by
    intro hle
    rcases hle.lt_or_eq with hlt | heq
    · exact hblocked (hpassed e he hbound blocked hmem hlt)
    · exact hblocked (itemId_eq_of_sortKey heq ▸ hbound)
  rcases frontier_or_behind (h.bound_asked hsha hids hr he hbound) he with hin | hbehind
  · rw [hfrontier] at hin hsorted
    rcases List.mem_append.mp hin with hin | hin
    · exact hin
    · rcases List.mem_cons.mp hin with rfl | hin
      · exact absurd hbound hblocked
      · obtain ⟨-, hafter, -⟩ := List.pairwise_append.mp hsorted
        exact absurd ((List.pairwise_cons.mp hafter).1 e hin) hahead
  · exact absurd (hbehind blocked hmem) hahead

/-- The stop is where closure puts it exactly where nothing was passed
over. -/
theorem stoppedByBudget_iff (hsha : Sha256.Injective)
    (hids : ∀ c ∈ resolution.candidates, c.itemId = c.expectedItemId)
    (h : Closed context plan resolution kernels) (hr : r ∈ plan.requirements)
    (hunder : UnderCovered context resolution r) :
    StoppedByBudget context plan resolution r ↔ NothingPassedOver context resolution r := by
  constructor
  · rintro ⟨u, bound, before, blocked, after, -, -, -, hfrontier, hbound, -, -⟩ item hitem hid f hf
      hlt
    obtain ⟨item', hmem, hid'⟩ := List.mem_map.mp ((hbound _).mp hid)
    have hmem' : item' ∈ eligibleFrontier r (requirementView resolution r) := by
      rw [hfrontier]
      exact List.mem_append_left _ hmem
    obtain rfl : item' = item := eligible_eq_of_id hsha
      (fun c hc => hids c (List.mem_filter.mp hc).1) (eligible_of_mem_frontier hmem') hitem hid'
    have hsorted := pairwise_frontier r (requirementView resolution r)
    rw [hfrontier] at hf hsorted
    rcases List.mem_append.mp hf with hf | hf
    · exact (hbound _).mpr (List.mem_map_of_mem hf)
    · obtain ⟨-, -, hacross⟩ := List.pairwise_append.mp hsorted
      exact absurd (hacross item' hmem f hf) (not_le_of_gt hlt)
  · intro hpassed
    obtain ⟨u, bound, before, blocked, after, hu, hname, hid, hfrontier, hbefore, hblocked,
      hexceeds⟩ := budgetStopProven_spec (h.stop_proven hr hunder)
    have htaken := fun {e} => bound_before hsha hids h hr hfrontier hblocked hpassed
      (e := e)
    have hnodup : (eligibleFrontier r (requirementView resolution r)).Nodup :=
      (nodup_sortedBy _ ((perm_settledItems _).nodup_iff.mpr (nodup_eligibleItems _))).sublist
        frontierFrom_sublist
    have hadmitted : (eligibleFrontier r (requirementView resolution r)).filter
        (fun f => f.itemId ∈ boundIds context r) = before := by
      rw [hfrontier] at hnodup ⊢
      rw [List.filter_append, List.filter_eq_self.mpr fun f hf => decide_eq_true (hbefore f hf),
        List.filter_eq_nil_iff.mpr, List.append_nil]
      intro f hf hbound
      have hin := htaken (eligible_of_mem_frontier (by
        rw [hfrontier]
        exact List.mem_append_right _ hf)) (of_decide_eq_true hbound)
      exact (List.nodup_append.mp hnodup).2.2 f hin f hf rfl
    rw [hadmitted] at hexceeds
    refine ⟨u, bound, before, blocked, after, hu, hname, hid, hfrontier, fun id => ⟨?_, ?_⟩,
      hblocked, hexceeds⟩
    · intro hbound
      obtain ⟨item, hitem, rfl⟩ := List.mem_map.mp hbound
      obtain ⟨e, he, heid⟩ := h.bound_eligible hr hitem
      exact List.mem_map.mpr ⟨e, htaken he (heid ▸ hbound), heid⟩
    · intro hmem
      obtain ⟨f, hf, rfl⟩ := List.mem_map.mp hmem
      exact hbefore f hf

/-- Closure's budget proof is sound exactly for the selections that pass
nothing over. -/
theorem budget_proof_sound_iff (hsha : Sha256.Injective) (context : CompiledTaskContext)
    (plan : ContextRequirementPlan) (resolution : SnapshotResolution)
    (kernels : List KernelBinding) (report : ContextClosureReport)
    (hids : ∀ c ∈ resolution.candidates, c.itemId = c.expectedItemId)
    (hvalidate : validateClosure context plan resolution kernels = .ok report) :
    ∀ r ∈ plan.requirements, UnderCovered context resolution r →
      (StoppedByBudget context plan resolution r ↔ NothingPassedOver context resolution r) :=
  fun _ hr hunder => stoppedByBudget_iff hsha hids (validateClosure_ok_iff.mp hvalidate).1 hr hunder

end BudgetProof

/-! ## Three services, two of them wanted -/

section Services

attribute [local instance] Sha256.transparent

/-- An entry of a service catalog. -/
def service (name : String) : ContextItem :=
  .create .informative
    { sourceId := "catalog", sourceKind := "service_catalog", locator := "catalog.yaml"
      immutableCoordinate := some "9c41", contentDigest := none }
    .global []
    (.relevantEntity { entityId := name, entityType := "service", relationToTask := "target" })

def services : List ContextItem := [service "auth", service "billing", service "search"]

def servicesDraft : ContextRequirement :=
  { requirementId := "", contextKind := .relevantEntity, reason := "the services of the task"
    required := false, scopeMode := .global, scopeRefs := []
    freshnessRequirement := .any, coordinateConstraint := none
    minimumAuthority := .informative, priority := 50, coverageMode := .allEligible
    minItems := 0, requiredSemanticKeys := [], maxItems := some 2, maxBytes := none
    missingPolicy := .optional, kernelNeedRefs := [] }

/-- All eligible services, but at most two. -/
def servicesRequirement : ContextRequirement :=
  { servicesDraft with requirementId := deriveId "ctxreq" (.obj servicesDraft.identityPayload) }

def servicesScope : TaskScope := .create "Describe the services" "unknown" [] [] [] [] [] []

def servicesPlan : ContextRequirementPlan :=
  { planId := "", taskScopeDigest := servicesScope.sha256, matchedRoute := "default"
    globalBudget := { maxTotalItems := 64, maxTotalBytes := 524288 }
    requirements := [servicesRequirement] }

/-- The stop that names a service as what the bound blocked. -/
def servicesStop (taken : List ContextItem) (blocked : ContextItem) : BudgetStop :=
  { bound := "requirement_max_items", blockedItemId := blocked.itemId
    observedCount := taken.length, observedBytes := totalCost taken
    candidateCost := blocked.canonicalCost, limit := 2 }

def servicesUnknown (taken : List ContextItem) (blocked : ContextItem) : ContextUnknown :=
  .create (some servicesRequirement.requirementId) none .budgetInsufficient
    (servicesStop taken blocked).details .nonBlocking []

/-- A context with the given services, all bound to the requirement. -/
def servicesContext (taken : List ContextItem) (unknowns : List ContextUnknown) :
    CompiledTaskContext :=
  { taskScope := servicesScope
    relevantEntities := taken.map (·.withSelection [servicesRequirement.requirementId])
    repositoryState := [], architectureConstraints := [], applicableLaw := []
    priorDecisions := [], dependencyContext := [], evidenceRefs := [], memoryContext := []
    selectedKernels := []
    capabilities := { required := [], available := [], unavailable := [], unknown := [] }
    authority :=
      { required := [], granted := [], limits := [], unknown := []
        effectiveOrder := ["task instruction"], effectiveOrderSource := .compilerDefault }
    unresolvedUnknowns := unknowns
    provenance :=
      { taskScopeDigest := servicesScope.sha256, discoveryDigest := ""
        contextRequirementsDigest := servicesPlan.sha256, discoveryItemDigests := []
        selectedItemDigests := [], kernelDigests := []
        compilerIdentity := { packageVersion := "", semanticsVersion := "" } } }

section Context

variable {taken : List ContextItem} {unknowns : List ContextUnknown}

theorem services_selected : (servicesContext taken unknowns).selectedItems
    = taken.map (·.withSelection [servicesRequirement.requirementId]) := by
  simp [CompiledTaskContext.selectedItems, servicesContext]

theorem services_bound : boundItems (servicesContext taken unknowns) servicesRequirement
    = taken.map (·.withSelection [servicesRequirement.requirementId]) := by
  unfold boundItems
  rw [services_selected]
  refine List.filter_eq_self.mpr fun item hitem => ?_
  obtain ⟨w, -, rfl⟩ := List.mem_map.mp hitem
  exact decide_eq_true (List.mem_singleton_self _)

theorem services_boundIds : boundIds (servicesContext taken unknowns) servicesRequirement
    = taken.map ContextItem.itemId := by
  unfold boundIds
  rw [services_bound, List.map_map]
  rfl

/-- What is left to check of a context with valid services: the view has
no conflict, the bounds hold, coverage does, and the unknowns are bound. -/
theorem services_closed_of {resolution : SnapshotResolution}
    (hvalid : ∀ w ∈ taken, w.Valid ∧ w.contextKind = .relevantEntity)
    (hconflicts : conflictGroups (requirementView resolution servicesRequirement) = [])
    (hcount : taken.length ≤ 2) (hcost : ∀ w ∈ taken, w.canonicalCost ≤ 131072)
    (hcoverage : coverageBreach servicesRequirement
      (eligibleKeys (requirementView resolution servicesRequirement))
      (taken.map ContextItem.itemId) ((boundItems (servicesContext taken unknowns)
        servicesRequirement).map ContextItem.semanticKey)
      (conflictDisposedKeys (servicesContext taken unknowns) resolution servicesRequirement)
      (budgetStopProven (servicesContext taken unknowns) servicesPlan resolution
        servicesRequirement) = none)
    (hunknowns : ∀ u ∈ unknowns, u.Valid
      ∧ u.requirementRef = some servicesRequirement.requirementId) :
    Closed (servicesContext taken unknowns) servicesPlan resolution [] := by
  have hplan : servicesPlan.requirements = [servicesRequirement] := rfl
  have hselected : ∀ item ∈ (servicesContext taken unknowns).selectedItems, ∃ w ∈ taken,
      w.withSelection [servicesRequirement.requirementId] = item := by
    intro item hitem
    rw [services_selected] at hitem
    exact List.mem_map.mp hitem
  have hkind : ∀ item ∈ (servicesContext taken unknowns).selectedItems,
      item.contextKind = .relevantEntity := by
    intro item hitem
    obtain ⟨w, hw, rfl⟩ := hselected item hitem
    exact (hvalid w hw).2
  have htotal : totalCost (taken.map (·.withSelection [servicesRequirement.requirementId]))
      ≤ taken.length * 131072 := by
    unfold totalCost
    rw [List.map_map]
    refine (List.sum_le_card_nsmul _ 131072 fun n hn => ?_).trans_eq (by simp)
    obtain ⟨w, hw, rfl⟩ := List.mem_map.mp hn
    exact hcost w hw
  refine
    { disposed := rfl
      provenance := fun item hitem => ⟨?_, fun hstate => ?_⟩
      identity := ?_
      relevance := ?_
      kernels := rfl
      conflicts := ?_
      memory := fun item hitem hmemory => ?_
      gaps := ⟨rfl, rfl, rfl, List.cons_ne_nil _ _⟩
      budgets := ⟨?_, ?_, ?_⟩
      coverage := ?_
      unknowns := ?_ }
  · obtain ⟨w, hw, rfl⟩ := hselected item hitem
    exact (hvalid w hw).1.governed_provenance
  · have hentity := (hkind item hitem).symm.trans hstate.1
    cases hentity
  · intro item hitem
    obtain ⟨w, hw, rfl⟩ := hselected item hitem
    exact ⟨(hvalid w hw).1.key_recipe, (hvalid w hw).1.id_recipe⟩
  · intro item hitem
    obtain ⟨w, hw, rfl⟩ := hselected item hitem
    exact ⟨List.cons_ne_nil _ _, fun id hid => hid⟩
  · unfold conflictGroups at hconflicts
    unfold silentConflicts
    rw [hplan, List.flatMap_singleton, hconflicts]
    rfl
  · have hentity := (hkind item hitem).symm.trans hmemory
    cases hentity
  · unfold budgetBreaches
    rw [hplan, List.filterMap_cons_none, List.filterMap_nil]
    dsimp only
    rw [services_bound, List.length_map]
    have hmax : servicesRequirement.maxItems.any (taken.length > ·) = false :=
      decide_eq_false (Nat.not_lt.mpr hcount)
    unfold requirementBreach
    rw [hmax]
    rfl
  · rw [services_selected, List.length_map]
    exact hcount.trans (by decide)
  · rw [services_selected]
    have hbudget : servicesPlan.globalBudget.maxTotalBytes = 524288 := rfl
    omega
  · unfold coverageBreaches
    rw [hplan, List.filterMap_cons_none, List.filterMap_nil]
    have hids : boundIds (servicesContext taken unknowns) servicesRequirement
        = taken.map ContextItem.itemId := services_boundIds
    unfold boundIds at hids
    rw [← hids] at hcoverage
    exact hcoverage
  · intro u hu
    obtain ⟨hstable, hbound⟩ := hunknowns u hu
    refine ⟨hstable, fun ref href hne => ?_, fun r hr href hoptional => ?_⟩
    · rw [Option.some.inj (href.symm.trans hbound)]
      exact List.mem_singleton_self _
    · obtain rfl := List.mem_singleton.mp hr
      rfl

end Context

/-- The catalog as closure receives it. -/
def servicesResolution : SnapshotResolution := { candidates := services }

theorem service_valid {name : String} (h : isBlank ("service:" ++ name) = false) :
    (service name).Valid :=
  ContextItem.create_valid (by decide) h (by decide) trivial (fun h => by cases h)
    (fun h => by cases h)

theorem services_valid : ∀ item ∈ services, item.Valid := by
  simp only [services, List.mem_cons, List.not_mem_nil, or_false]
  rintro item (rfl | rfl | rfl) <;> exact service_valid (by decide)

theorem services_informative {item : ContextItem} (h : item ∈ services) :
    item.contextKind = .relevantEntity ∧ item.authorityLevel = .informative := by
  simp only [services, List.mem_cons, List.not_mem_nil, or_false] at h
  rcases h with rfl | rfl | rfl <;> exact ⟨rfl, rfl⟩

theorem services_keys : services.map ContextItem.semanticKey
    = ["service:auth", "service:billing", "service:search"] := rfl

theorem services_key_inj : ∀ a ∈ services, ∀ b ∈ services, groupKey a = groupKey b → a = b := by
  intro a ha b hb h
  have hnodup : (services.map ContextItem.semanticKey).Nodup := by
    rw [services_keys]
    decide
  exact List.inj_on_of_nodup_map hnodup ha hb (congrArg Prod.snd h)

theorem services_view : requirementView servicesResolution servicesRequirement
    = resolveCandidates services := rfl

theorem mem_services_eligible {item : ContextItem} :
    item ∈ eligibleItems (resolveCandidates services) ↔ item ∈ services := by
  rw [mem_eligible_of_distinct_keys services_key_inj]
  refine ⟨mem_of_mem_leftOver, fun h => mem_leftOver_of_kind h ?_⟩
  rw [(services_informative h).1]
  rfl

theorem services_sorted : services.Pairwise fun a b => candidateSortKey a < candidateSortKey b := by
  have hkeys : (service "auth").semanticKey = "service:auth"
      ∧ (service "billing").semanticKey = "service:billing"
      ∧ (service "search").semanticKey = "service:search" := ⟨rfl, rfl, rfl⟩
  have hplace : ∀ name name', (service name).scopeMode = (service name').scopeMode
      ∧ (service name).authorityRank = (service name').authorityRank := by
    intro name name'
    have hglobal : ∀ name, (service name).scopeMode = .global := fun _ => rfl
    have hrank : ∀ name, (service name).authorityRank = 2 := fun _ => rfl
    exact ⟨(hglobal name).trans (hglobal name').symm, (hrank name).trans (hrank name').symm⟩
  have hauth : candidateSortKey (service "auth") < candidateSortKey (service "billing") := by
    refine sortKey_lt_of_key (hplace "auth" "billing").1 (hplace "auth" "billing").2 ?_
    rw [hkeys.1, hkeys.2.1]
    decide
  have hbilling : candidateSortKey (service "billing") < candidateSortKey (service "search") := by
    refine sortKey_lt_of_key (hplace "billing" "search").1 (hplace "billing" "search").2 ?_
    rw [hkeys.2.1, hkeys.2.2]
    decide
  simp only [services, List.pairwise_cons, List.mem_cons, List.not_mem_nil, or_false,
    forall_eq_or_imp, forall_eq, IsEmpty.forall_iff, implies_true, List.Pairwise.nil, and_true]
  exact ⟨⟨hauth, hauth.trans hbilling⟩, hbilling⟩

theorem services_frontier :
    eligibleFrontier servicesRequirement (requirementView servicesResolution servicesRequirement)
      = services := by
  have hsorted : sortedBy candidateSortKey services = services :=
    (services_sorted.imp le_of_lt).insertionSort_eq
  have hkeys : (services.map candidateSortKey).Nodup :=
    List.pairwise_map.mpr (services_sorted.imp ne_of_lt)
  have hmem : ∀ item, item ∈ settledItems (resolveCandidates services) ↔ item ∈ services :=
    fun _ => mem_settledItems.trans mem_services_eligible
  unfold eligibleFrontier
  rw [frontierFrom_allEligible rfl, services_view, ← hsorted]
  refine sortedBy_congr _ ((perm_settledItems _).nodup_iff.mpr (nodup_eligibleItems _))
    hkeys.of_map hmem fun a ha b hb h => ?_
  exact List.inj_on_of_nodup_map hkeys ((hmem a).mp ha) ((hmem b).mp hb) h

variable {x y z : ContextItem}

theorem services_id_inj : ∀ a ∈ services, ∀ b ∈ services, a.itemId = b.itemId → a = b := by
  intro a ha b hb h
  exact services_key_inj a ha b hb (Prod.ext
    (sameItem_of_id Sha256.transparent_injective (services_valid a ha).id_recipe
      (services_valid b hb).id_recipe h).contextKind
    (sameItem_of_id Sha256.transparent_injective (services_valid a ha).id_recipe
      (services_valid b hb).id_recipe h).semanticKey)

theorem services_witness :
    budgetWitness? (servicesContext [x, y] [servicesUnknown [x, y] z]) servicesRequirement
      = some (servicesUnknown [x, y] z) :=
  List.find?_cons_of_pos (decide_eq_true ⟨rfl, rfl⟩)

/-- Of three services the two that are taken leave the third. -/
theorem services_left (hperm : [x, y, z].Perm services) :
    services.find? (fun item => item.itemId ∉ [x.itemId, y.itemId]) = some z
      ∧ (services.filter fun item => item.itemId ∈ [x.itemId, y.itemId]).length = 2 := by
  have hnodup : [x, y, z].Nodup := hperm.nodup_iff.mpr
    (List.Nodup.of_map _ (List.pairwise_map.mpr (services_sorted.imp ne_of_lt)))
  have hz : z.itemId ∉ [x.itemId, y.itemId] := by
    intro hmem
    have hin : ∀ w ∈ [x, y, z], w ∈ services := fun w hw => hperm.mem_iff.mp hw
    simp only [List.mem_cons, List.not_mem_nil, or_false] at hmem
    rcases hmem with h | h <;> have hsame := services_id_inj z (hin z (by simp)) _ (hin _ (by simp)) h
      <;> simp [hsame] at hnodup
  constructor
  · cases hfind : services.find? (fun item => item.itemId ∉ [x.itemId, y.itemId]) with
    | none =>
        have hnone := List.find?_eq_none.mp hfind z (hperm.mem_iff.mp (by simp))
        exact absurd (decide_eq_true hz) hnone
    | some w =>
        have hw := List.find?_some hfind
        rw [decide_eq_true_eq] at hw
        have hmem := hperm.mem_iff.mpr (List.mem_of_find?_eq_some hfind)
        simp only [List.mem_cons, List.not_mem_nil, or_false] at hmem hw
        rcases hmem with rfl | rfl | rfl
        · simp at hw
        · simp at hw
        · rfl
  · rw [← (hperm.filter _).length_eq]
    rw [List.filter_cons_of_pos (by simp), List.filter_cons_of_pos (by simp),
      List.filter_cons_of_neg (by simpa using hz)]
    rfl

/-- The stop of any two services is proven again: the third is the first
that was not taken. -/
theorem services_stop_proven (hperm : [x, y, z].Perm services) :
    budgetStopProven (servicesContext [x, y] [servicesUnknown [x, y] z]) servicesPlan
      servicesResolution servicesRequirement = true := by
  obtain ⟨hblocked, hcount⟩ := services_left hperm
  have hids : boundIds (servicesContext [x, y] [servicesUnknown [x, y] z]) servicesRequirement
      = [x.itemId, y.itemId] := services_boundIds
  rw [← hids, ← services_frontier] at hblocked hcount
  have hdetails : (servicesUnknown [x, y] z).details = (servicesStop [x, y] z).details := rfl
  exact budgetStopProven_of_maxItems services_witness hdetails rfl hblocked rfl rfl rfl hcount.symm
    (Nat.lt_succ_self 2)

theorem service_cost {item : ContextItem} (h : item ∈ services) : item.canonicalCost ≤ 131072 := by
  have hsize : item.canonicalCost = item.transparentSize := by
    have hunselected : item.candidateDict = item.toJson := by
      simp only [services, List.mem_cons, List.not_mem_nil, or_false] at h
      rcases h with rfl | rfl | rfl <;> rfl
    unfold ContextItem.canonicalCost
    rw [hunselected, Json.size_normalize]
    exact ContextItem.size_transparent (services_valid item h).id_recipe
  rw [hsize]
  simp only [services, List.mem_cons, List.not_mem_nil, or_false] at h
  rcases h with rfl | rfl | rfl <;> decide +kernel

/-- The context closes whichever two services it takes. -/
theorem services_closed (hperm : [x, y, z].Perm services) :
    Closed (servicesContext [x, y] [servicesUnknown [x, y] z]) servicesPlan servicesResolution
      [] := by
  have hmem : ∀ w ∈ [x, y], w ∈ services := fun w hw =>
    hperm.mem_iff.mp (List.mem_append_left [z] hw)
  refine services_closed_of
    (fun w hw => ⟨services_valid w (hmem w hw), (services_informative (hmem w hw)).1⟩)
    (services_view ▸ conflictGroups_of_distinct_keys services_key_inj) (le_refl 2)
    (fun w hw => service_cost (hmem w hw)) ?_ (fun u hu => ?_)
  · rw [services_stop_proven hperm, services_view]
    refine coverageBreach_truncated rfl fun id hid => ?_
    obtain ⟨w, hw, rfl⟩ := List.mem_map.mp hid
    exact mem_eligibleIds.mpr ⟨w, mem_services_eligible.mpr (hmem w hw), rfl⟩
  · obtain rfl := List.mem_singleton.mp hu
    exact ⟨ContextUnknown.create_valid .., rfl⟩

theorem services_under (hperm : [x, y, z].Perm services) :
    UnderCovered (servicesContext [x, y] [servicesUnknown [x, y] z]) servicesResolution
      servicesRequirement := by
  obtain ⟨hblocked, -⟩ := services_left hperm
  have hz : z.itemId ∉ [x.itemId, y.itemId] := by
    have hfound := List.find?_some hblocked
    rwa [decide_eq_true_eq] at hfound
  have heligible : z.itemId ∈ (eligibleKeys (resolveCandidates services)).map Prod.fst :=
    mem_eligibleIds.mpr ⟨z, mem_services_eligible.mpr (hperm.mem_iff.mp (by simp)), rfl⟩
  unfold UnderCovered
  rw [services_boundIds, services_view]
  exact coverageBreach_missed rfl heligible hz

theorem services_ids : ∀ c ∈ servicesResolution.candidates, c.itemId = c.expectedItemId :=
  fun c hc => (services_valid c hc).id_recipe

/-- The first two services are taken and the third is blocked. -/
theorem services_stop_sound :
    StoppedByBudget
      (servicesContext [service "auth", service "billing"]
        [servicesUnknown [service "auth", service "billing"] (service "search")])
      servicesPlan servicesResolution servicesRequirement := by
  refine (budget_proof_sound_iff Sha256.transparent_injective _ servicesPlan servicesResolution []
    _ services_ids (validateClosure_ok_iff.mpr ⟨services_closed (List.Perm.refl _), rfl⟩) _
    (List.mem_singleton_self _) (services_under (List.Perm.refl _))).mpr ?_
  intro item hitem hbound f hf hlt
  have hsorted := services_sorted
  simp only [services, List.pairwise_cons, List.mem_cons, List.not_mem_nil, or_false,
    forall_eq_or_imp, forall_eq] at hsorted
  obtain ⟨⟨-, hauth⟩, hbilling, -⟩ := hsorted
  rw [services_view, mem_services_eligible] at hitem
  rw [services_frontier] at hf
  rw [services_boundIds] at hbound ⊢
  simp only [services, List.mem_cons, List.not_mem_nil, or_false] at hf hitem
  rcases hf with rfl | rfl | rfl
  · exact List.mem_cons_self ..
  · exact List.mem_cons_of_mem _ (List.mem_singleton_self _)
  · -- nothing comes after the last service
    rcases hitem with rfl | rfl | rfl
    · exact absurd hlt hauth.not_gt
    · exact absurd hlt hbilling.not_gt
    · exact absurd hlt (lt_irrefl _)

/-- The second service is passed over, and closure excuses it all the
same: it counts two services taken before a bound of two. -/
theorem passed_over_service_excused :
    ∃ context report,
      validateClosure context servicesPlan servicesResolution [] = .ok report
      ∧ servicesRequirement ∈ servicesPlan.requirements
      ∧ UnderCovered context servicesResolution servicesRequirement
      ∧ ¬StoppedByBudget context servicesPlan servicesResolution servicesRequirement := by
  have hperm : [service "auth", service "search", service "billing"].Perm services :=
    (List.Perm.swap _ _ _).cons _
  have hclosed := services_closed hperm
  have hunder := services_under hperm
  refine ⟨_, _, validateClosure_ok_iff.mpr ⟨hclosed, rfl⟩, List.mem_singleton_self _, hunder,
    fun hstop => ?_⟩
  have hpassed := (stoppedByBudget_iff Sha256.transparent_injective services_ids hclosed
    (List.mem_singleton_self _) hunder).mp hstop
  have hsorted := services_sorted
  simp only [services, List.pairwise_cons, List.mem_cons, List.not_mem_nil, or_false,
    forall_eq_or_imp, forall_eq] at hsorted
  have hsearch : service "search"
      ∈ eligibleItems (requirementView servicesResolution servicesRequirement) := by
    rw [services_view]
    exact mem_services_eligible.mpr (by simp [services])
  have hbilling : service "billing" ∈ eligibleFrontier servicesRequirement
      (requirementView servicesResolution servicesRequirement) := by
    rw [services_frontier]
    simp [services]
  have htaken : (service "search").itemId ∈ boundIds
      (servicesContext [service "auth", service "search"]
        [servicesUnknown [service "auth", service "search"] (service "billing")])
      servicesRequirement := by
    rw [services_boundIds]
    simp
  have hbound := hpassed _ hsearch htaken _ hbilling hsorted.2.1
  have hfound := List.find?_some (services_left hperm).1
  rw [services_boundIds] at hbound
  rw [decide_eq_true_eq] at hfound
  exact hfound hbound

end Services

end CognitiveRuntime
