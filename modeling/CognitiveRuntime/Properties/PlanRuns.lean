import CognitiveRuntime.Properties.Authenticity
import CognitiveRuntime.Properties.Conflicts
import CognitiveRuntime.Properties.SelectionRuns
import CognitiveRuntime.Properties.Unknowns

/-!
# What a finished run bound to a requirement

The finished context keeps, of every requirement, the prefix of its
frontier that it took: an item bound to a requirement is one the
requirement admitted, whichever requirement admitted it first.

Requirements resolve their own views, and a candidate id does not
determine an authority level; but the strongest of the candidates under
one id is the one every view settles on, so an id costs the same in
every view.
-/

namespace CognitiveRuntime

open Ordered Fallible

section PlanRuns

variable [Sha256]

/-! ## One id in several views -/

omit [Sha256] in
theorem SameItem.place {a b : ContextItem} (h : SameItem a b) :
    a.scopeMode = b.scopeMode ∧ a.scopeRefs = b.scopeRefs := by
  have hplace := h.applicability
  simp only [ContextItem.applicabilityPayload, Json.obj.injEq, List.cons.injEq, Prod.mk.injEq,
    true_and, and_true, Json.str.injEq, Json.ofStrings_inj] at hplace
  exact ⟨ContextScopeMode.value_inj.mp hplace.1, hplace.2⟩

omit [Sha256] in
theorem SameItem.revision {a b : ContextItem} (h : SameItem a b) : a.revision? = b.revision? := by
  by_cases hkind : a.contextKind = .repositoryState
  · exact h.claim.revision hkind (h.contextKind.symm.trans hkind)
  · have hnone : ∀ {item : ContextItem}, item.contextKind ≠ .repositoryState →
        item.revision? = none := by
      intro item hne
      unfold ContextItem.contextKind at hne
      unfold ContextItem.revision?
      cases hclaim : item.claim with
      | repositoryState _ =>
          rw [hclaim] at hne
          exact absurd rfl hne
      | _ => rfl
    rw [hnone hkind, hnone (h.contextKind ▸ hkind)]

omit [Sha256] in
theorem SameClaim.status {a b : ContextItem} (h : SameClaim a b)
    (hkind : a.contextKind = b.contextKind) (status : DecisionStatus) :
    a.hasStatus status = b.hasStatus status := by
  have hfield := h.field "status"
  unfold ContextItem.contextKind at hkind
  unfold ContextItem.hasStatus
  cases hca : a.claim <;> cases hcb : b.claim <;> rw [hca, hcb] at hkind <;> try cases hkind
  rw [hca, hcb] at hfield
  simp [Claim.payload, Json.field, DecisionStatus.value_inj] at hfield
  dsimp only
  rw [hfield]

omit [Sha256] in
/-- What is matched is matched by everything stronger under its id. -/
theorem SameItem.matches {a b : ContextItem} {r : ContextRequirement} (h : SameItem a b)
    (hle : b.authorityRank ≤ a.authorityRank) (ha : matchesRequirement r a = true) :
    matchesRequirement r b = true := by
  have hgoverned : a.isGoverned = true → b.isGoverned = true := fun hgoverned =>
    isGoverned_iff_rank.mpr (hle.trans (isGoverned_iff_rank.mp hgoverned))
  unfold matchesRequirement at ha ⊢
  simp only [Bool.and_eq_true, decide_eq_true_eq, Bool.not_eq_true', Bool.and_eq_false_iff,
    Bool.not_eq_false'] at ha ⊢
  obtain ⟨⟨⟨⟨hkind, hfloor⟩, honly⟩, hscope⟩, hfresh⟩ := ha
  refine ⟨⟨⟨⟨h.contextKind.symm.trans hkind, hle.trans hfloor⟩, ?_⟩, ?_⟩, ?_⟩
  · rw [← h.contextKind]
    exact honly.imp_right hgoverned
  · unfold scopeMatches at hscope ⊢
    rw [← h.place.1, ← h.place.2]
    exact hscope
  · unfold freshnessMatches at hfresh ⊢
    rw [← h.sourceRef, ← h.revision]
    exact hfresh

/-- A view settles on the strongest candidate under an id. -/
theorem eligible_strongest (hsha : Sha256.Injective) {resolution : SnapshotResolution}
    (hids : ∀ c ∈ resolution.candidates, c.itemId = c.expectedItemId) {r : ContextRequirement}
    {a c : ContextItem} (ha : a ∈ eligibleItems (requirementView resolution r))
    (hc : c ∈ resolution.candidates) (hid : a.itemId = c.itemId) :
    a.authorityRank ≤ c.authorityRank := by
  by_contra hlt
  obtain ⟨hcandidate, hmatch⟩ := eligible_matches ha
  have hsame := sameItem_of_id hsha (hids a hcandidate) (hids c hc) hid
  have hle : c.authorityRank ≤ a.authorityRank := (not_le.mp hlt).le
  have hadmitted : c ∈ resolution.candidates.filter (matchesRequirement r) :=
    List.mem_filter.mpr ⟨hc, hsame.matches hle hmatch⟩
  obtain ⟨group, -, -, -, hrep⟩ := eligible_representative ha
  obtain ⟨hleft, -⟩ := mem_groupMembers.mp (mem_of_mem_representatives hrep)
  -- supersession reads ids and statuses, so it keeps one as it keeps the other
  have hkept : c ∈ leftOver (resolution.candidates.filter (matchesRequirement r)) := by
    obtain ⟨-, hsurvives⟩ := mem_leftOver.mp hleft
    refine mem_leftOver.mpr ⟨hadmitted, fun hkind => ?_⟩
    rw [← hsame.contextKind] at hkind ⊢
    obtain ⟨-, hcycle, hstatus, hnone⟩ := survivors_iff.mp (hsurvives hkind)
    rw [hid] at hcycle hnone
    rw [hsame.claim.status hsame.contextKind] at hstatus
    exact survivors_iff.mpr ⟨List.mem_filter.mpr ⟨hadmitted, decide_eq_true hsame.contextKind.symm⟩,
      hcycle, hstatus, hnone⟩
  have hkey : groupKey c = groupKey a := Prod.ext hsame.contextKind.symm hsame.semanticKey.symm
  exact hlt (rank_le_of_representativeKey_le (representative_le hrep
    (mem_groupMembers.mpr ⟨hkept, hkey⟩)
    (claimDigest_eq_of_id hsha (hids c hc) (hids a hcandidate) hid.symm)))

/-- An id costs the same in every view. -/
theorem eligible_cost (hsha : Sha256.Injective) {resolution : SnapshotResolution}
    (hids : ∀ c ∈ resolution.candidates, c.itemId = c.expectedItemId)
    {r r' : ContextRequirement} {a b : ContextItem}
    (ha : a ∈ eligibleItems (requirementView resolution r))
    (hb : b ∈ eligibleItems (requirementView resolution r')) (hid : a.itemId = b.itemId) :
    a.canonicalCost = b.canonicalCost := by
  obtain ⟨hca, -⟩ := eligible_matches ha
  obtain ⟨hcb, -⟩ := eligible_matches hb
  have hlevel : a.authorityLevel = b.authorityLevel := AuthorityLevel.rank_inj.mp
    (le_antisymm (eligible_strongest hsha hids ha hcb hid)
      (eligible_strongest hsha hids hb hca hid.symm))
  have hsame := sameItem_of_id hsha (hids a hca) (hids b hcb) hid
  unfold ContextItem.canonicalCost
  rw [candidateDict_congr hid hsame hlevel]

/-- The ids of what a view leaves to select from are distinct. -/
theorem nodup_eligible_ids (hsha : Sha256.Injective) {resolution : SnapshotResolution}
    (hids : ∀ c ∈ resolution.candidates, c.itemId = c.expectedItemId) (r : ContextRequirement) :
    ((eligibleItems (requirementView resolution r)).map ContextItem.itemId).Nodup := by
  refine List.Nodup.map_on (fun a ha b hb => ?_) (nodup_eligibleItems _)
  exact eligible_eq_of_id hsha (fun c hc => hids c (List.mem_filter.mp hc).1) ha hb

/-- Closure recomputes the frontier in the order the selector walks. -/
theorem eligibleFrontier_eq (hsha : Sha256.Injective) {resolution : SnapshotResolution}
    (hids : ∀ c ∈ resolution.candidates, c.itemId = c.expectedItemId) (r : ContextRequirement) :
    eligibleFrontier r (requirementView resolution r)
      = frontierFrom r 0 (eligibleItems (requirementView resolution r)) := by
  have hperm := perm_settledItems (requirementView resolution r)
  have hsorted : sortedBy candidateSortKey (settledItems (requirementView resolution r))
      = sortedBy candidateSortKey (eligibleItems (requirementView resolution r)) := by
    refine sortedBy_congr _ (hperm.nodup_iff.mpr (nodup_eligibleItems _)) (nodup_eligibleItems _)
      (fun _ => hperm.mem_iff) fun a ha b hb hkey => ?_
    exact eligible_eq_of_id hsha (fun c hc => hids c (List.mem_filter.mp hc).1)
      (hperm.mem_iff.mp ha) (hperm.mem_iff.mp hb) (itemId_eq_of_sortKey hkey)
  have hself : sortedBy candidateSortKey (eligibleItems (requirementView resolution r))
      = eligibleItems (requirementView resolution r) :=
    (pairwise_sortedBy candidateSortKey _).insertionSort_eq
  unfold eligibleFrontier
  rw [hsorted, hself]

/-! ## A run at one of its requirements -/

/-- The requirements a plan decides before the given one. -/
def earlierIds (requirements : List ContextRequirement) (r : ContextRequirement) : List String :=
  (requirements.map ContextRequirement.requirementId).takeWhile (· ≠ r.requirementId)

/-- A finished run, seen from one requirement: what was selected before
it, what it took, and what the finished selection keeps of both. -/
structure RunAt (budget : ContextBudget) (resolution : SnapshotResolution)
    (requirements : List ContextRequirement) (r : ContextRequirement) (selection : Selection)
    (unknowns : List ContextUnknown) (before : Selection) (taken rest : List ContextItem)
    (stop : Option BudgetStop) (short : List ContextUnknown) : Prop where
  sound : before.Sound budget
  loop : LoopRun r budget (eligibleItems (requirementView resolution r)) (.start before) taken rest
    ((LoopState.start before).admitAll taken r.requirementId) stop
  within : ((LoopState.start before).admitAll taken r.requirementId).Within r
  sound_after : ((LoopState.start before).admitAll taken r.requirementId).selection.Sound budget
  short_eq : shortfall r ((LoopState.start before).admitAll taken r.requirementId) stop
    ((conflictGroups (requirementView resolution r)).map fun entry => entry.1.2) = .ok short
  kept : ((LoopState.start before).admitAll taken r.requirementId).selection.byItem
    <+: selection.byItem
  conflicts : ∀ entry ∈ conflictGroups (requirementView resolution r),
    requirementConflict r entry ∈ unknowns
  shorts : ∀ u, u ∈ short ↔ u ∈ unknowns ∧ u.requirementRef = some r.requirementId
    ∧ u.reasonCode.isShortfall = true
  taken_iff : ∀ id, (id, r.requirementId) ∈ selection.reasons ↔ id ∈ taken.map ContextItem.itemId
  earlier_iff : ∀ id, (∃ q ∈ earlierIds requirements r, (id, q) ∈ selection.reasons)
    ↔ id ∈ before.byItem.map ContextItem.itemId

/-- A shortfall names the requirement that left it. -/
theorem SelectionUnknown.of_shortfall {resolution : SnapshotResolution} {r : ContextRequirement}
    {u : ContextUnknown} (h : SelectionUnknown resolution r u) {ref : String}
    (href : u.requirementRef = some ref) (hreason : u.reasonCode.isShortfall = true) :
    r.requirementId = ref := by
  cases h with
  | supersession _ h =>
      obtain ⟨kind, -, hu⟩ := mem_view_unknowns.mp h
      rw [(mem_supersessionUnknowns hu).1] at href
      cases href
  | conflict => cases hreason
  | shortfall => exact Option.some.inj href

theorem mem_short {r : ContextRequirement} {state : LoopState} {stop : Option BudgetStop}
    {disposedKeys : List String} {short : List ContextUnknown}
    (h : shortfall r state stop disposedKeys = .ok short) {u : ContextUnknown} (hu : u ∈ short) :
    u.requirementRef = some r.requirementId ∧ u.reasonCode.isShortfall = true := by
  obtain ⟨reason, details, hreason, rfl⟩ := mem_shortfall h hu
  refine ⟨rfl, ?_⟩
  rcases hreason with rfl | rfl <;> rfl

theorem exists_runAt {budget : ContextBudget} {resolution : SnapshotResolution}
    {requirements : List ContextRequirement} {selection : Selection}
    {unknowns : List ContextUnknown}
    (h : selectAll budget resolution requirements .empty = .ok (selection, unknowns))
    (hids : (requirements.map ContextRequirement.requirementId).Nodup) {r : ContextRequirement}
    (hr : r ∈ requirements) :
    ∃ before taken rest stop short,
      RunAt budget resolution requirements r selection unknowns before taken rest stop short := by
  obtain ⟨pre, post, rfl⟩ := List.append_of_mem hr
  obtain ⟨before, first, others, hpre, hlater, rfl⟩ := selectAll_append h
  simp only [selectAll, bind_eq_ok, Prod.exists] at hlater
  obtain ⟨after, us, hfor, final, last, hpost, hlater⟩ := hlater
  cases hlater
  obtain ⟨hbefore, hpreGrown⟩ := selectAll_grows hpre (.empty budget)
  obtain ⟨hafter, taken, rest, stop, short, hrun⟩ := selectFor_run hfor hbefore
  obtain ⟨-, hpostGrown⟩ := selectAll_grows hpost hafter
  obtain ⟨pres, hpres, hpreIds⟩ := hpreGrown.reasons
  obtain ⟨posts, hposts, hpostIds⟩ := hpostGrown.reasons
  have hempty : Selection.empty.reasons = [] := rfl
  rw [hempty, List.nil_append] at hpres
  have hreasons : selection.reasons = before.reasons
      ++ (taken.map fun item => (item.itemId, r.requirementId)) ++ posts := by
    rw [hposts, hrun.after_eq]
    exact congrArg (· ++ posts) LoopState.reasons_admitAll
  -- the ids before, of, and after the requirement are apart
  rw [List.map_append, List.map_cons] at hids
  have hapart := List.nodup_append.mp hids
  have hnotPre : r.requirementId ∉ pre.map ContextRequirement.requirementId := fun hmem =>
    hapart.2.2 _ hmem _ (List.mem_cons_self ..) rfl
  have hnotPost : r.requirementId ∉ post.map ContextRequirement.requirementId :=
    (List.nodup_cons.mp hapart.2.1).1
  have hprePost : ∀ q ∈ pre.map ContextRequirement.requirementId,
      q ∉ post.map ContextRequirement.requirementId := fun q hq hmem =>
    hapart.2.2 _ hq _ (List.mem_cons_of_mem _ hmem) rfl
  have hearlier : earlierIds (pre ++ r :: post) r = pre.map ContextRequirement.requirementId := by
    unfold earlierIds
    rw [List.map_append, List.map_cons, List.takeWhile_append_of_pos,
      List.takeWhile_cons_of_neg (by simp), List.append_nil]
    intro q hq
    exact decide_eq_true fun heq => hnotPre (heq ▸ hq)
  refine ⟨before, taken, rest, stop, short, hbefore, hrun.loop, hrun.within,
    hrun.after_eq ▸ hafter, hrun.short_eq, ?_, fun entry hentry => ?_, fun u => ?_, fun id => ?_, fun id => ?_⟩
  · rw [← hrun.after_eq]
    exact hpostGrown.items
  · refine List.mem_append_right _ (List.mem_append_left _ ?_)
    rw [hrun.unknowns_eq]
    exact List.mem_append_left _ (List.mem_append_right _ (List.mem_map_of_mem hentry))
  · have hus : ∀ {v}, v ∈ short → v ∈ us := fun hv => by
      rw [hrun.unknowns_eq]
      exact List.mem_append_right _ hv
    constructor
    · intro hu
      exact ⟨List.mem_append_right _ (List.mem_append_left _ (hus hu)),
        mem_short hrun.short_eq hu⟩
    · rintro ⟨hu, href, hreason⟩
      rcases List.mem_append.mp hu with hu | hu
      · obtain ⟨q, hq, _, _, _, hqfor, hqu⟩ := mem_selectAll_unknowns hpre hu
        have hid := (selectFor_unknown hqfor hqu).of_shortfall href hreason
        exact absurd (hid ▸ List.mem_map_of_mem hq) hnotPre
      · rcases List.mem_append.mp hu with hu | hu
        · rw [hrun.unknowns_eq] at hu
          rcases List.mem_append.mp hu with hu | hu
          · rcases List.mem_append.mp hu with hu | hu
            · obtain ⟨kind, -, hview⟩ := mem_view_unknowns.mp hu
              rw [(mem_supersessionUnknowns hview).1] at href
              cases href
            · obtain ⟨entry, -, rfl⟩ := List.mem_map.mp hu
              cases hreason
          · exact hu
        · obtain ⟨q, hq, _, _, _, hqfor, hqu⟩ := mem_selectAll_unknowns hpost hu
          have hid := (selectFor_unknown hqfor hqu).of_shortfall href hreason
          exact absurd (hid ▸ List.mem_map_of_mem hq) hnotPost
  · rw [hreasons, List.append_assoc, List.mem_append, List.mem_append]
    constructor
    · rintro (hmem | hmem | hmem)
      · exact absurd (hpreIds _ (hpres ▸ hmem)) hnotPre
      · obtain ⟨item, hitem, heq⟩ := List.mem_map.mp hmem
        exact (Prod.mk.inj heq).1 ▸ List.mem_map_of_mem hitem
      · exact absurd (hpostIds _ hmem) hnotPost
    · intro hmem
      obtain ⟨item, hitem, rfl⟩ := List.mem_map.mp hmem
      exact .inr (.inl (List.mem_map_of_mem hitem))
  · rw [hearlier, hreasons, ← hbefore.recorded]
    constructor
    · rintro ⟨q, hq, hmem⟩
      rw [List.append_assoc, List.mem_append, List.mem_append] at hmem
      rcases hmem with hmem | hmem | hmem
      · exact List.mem_map_of_mem hmem
      · obtain ⟨item, -, heq⟩ := List.mem_map.mp hmem
        exact absurd ((Prod.mk.inj heq).2 ▸ hq) hnotPre
      · exact absurd (hpostIds _ hmem) (hprePost q hq)
    · intro hmem
      obtain ⟨⟨id', q⟩, he, rfl⟩ := List.mem_map.mp hmem
      exact ⟨q, hpreIds _ (hpres ▸ he),
        List.mem_append_left _ (List.mem_append_left _ he)⟩

/-! ## The items of the finished context -/

omit [Sha256] in
theorem count_filter_eq {p : ContextItem → Bool} {items : List ContextItem} {item : ContextItem} :
    (items.filter p).count item = if p item = true then items.count item else 0 := by
  split
  · next hp => exact List.count_filter hp
  · next hp => exact List.count_eq_zero.mpr fun hmem => hp (List.mem_filter.mp hmem).2

/-- The buckets hold the selection between them, each item once. -/
theorem perm_assembled_items {inputs : CompileInputs} {selectionUnknowns : List ContextUnknown}
    {selected : List ContextItem} :
    (assembleContext inputs selectionUnknowns selected).selectedItems.Perm selected := by
  rw [List.perm_iff_count]
  intro item
  unfold CompiledTaskContext.selectedItems
  rw [assembleContext_capabilities, assembleContext_authority]
  simp only [assembleContext, compileCapabilities, compileAuthority, ofKind,
    capabilityFactsIn, authorityFactsIn, List.count_append, count_filter_eq, decide_eq_true_eq]
  obtain ⟨id, key, level, source, mode, refs, because, claim⟩ := item
  simp only [ContextItem.contextKind, ContextItem.capabilityFact?, ContextItem.authorityFact?]
  cases claim with
  | capabilityFact c => obtain ⟨_, state, _⟩ := c; cases state <;> simp [Claim.kind]
  | authorityFact c => obtain ⟨_, state, _, _, _⟩ := c; cases state <;> simp [Claim.kind]
  | _ => simp [Claim.kind]

omit [Sha256] in
theorem perm_selected (selection : Selection) :
    selection.selected.Perm (selection.byItem.map fun item =>
      item.withSelection (selection.reasonsOf item.itemId)) :=
  (perm_sortedBy _ _).trans ((perm_sortedBy _ _).map _)

omit [Sha256] in
theorem mem_reasonsOf {selection : Selection} {id q : String} :
    q ∈ selection.reasonsOf id ↔ (id, q) ∈ selection.reasons := by
  unfold Selection.reasonsOf
  rw [mem_sortedUnique]
  simp only [List.mem_map, List.mem_filter, decide_eq_true_eq, Prod.exists]
  constructor
  · rintro ⟨_, _, ⟨hmem, rfl⟩, rfl⟩
    exact hmem
  · exact fun hmem => ⟨id, q, ⟨hmem, rfl⟩, rfl⟩

/-- What the finished context holds of the selected items with some
reason: the admitted items that have it. -/
theorem perm_bound {inputs : CompileInputs} {selectionUnknowns : List ContextUnknown}
    {selection : Selection} (p : List String → Bool) :
    ((assembleContext inputs selectionUnknowns selection.selected).selectedItems.filter
        fun item => p item.selectedBecause).Perm
      ((selection.byItem.filter fun item => p (selection.reasonsOf item.itemId)).map fun item =>
        item.withSelection (selection.reasonsOf item.itemId)) := by
  refine ((perm_assembled_items.trans (perm_selected selection)).filter _).trans ?_
  rw [List.filter_map]
  exact List.Perm.refl _

omit [Sha256] in
theorem totalCost_perm {items items' : List ContextItem} (h : items.Perm items') :
    totalCost items = totalCost items' := (h.map _).sum_eq

omit [Sha256] in
/-- The cost of an item leaves its lineage out. -/
theorem totalCost_withSelection (items : List ContextItem) (f : ContextItem → List String) :
    totalCost (items.map fun item => item.withSelection (f item)) = totalCost items := by
  unfold totalCost
  rw [List.map_map]
  rfl

/-! ## Bound is taken -/

/-- An item that some view leaves to select from, with any lineage. -/
def FromView (resolution : SnapshotResolution) (item : ContextItem) : Prop :=
  ∃ r, ∃ e ∈ eligibleItems (requirementView resolution r), ∃ reasons, item = e.withSelection reasons

theorem fromView_of_eligible {resolution : SnapshotResolution} {r : ContextRequirement}
    {item : ContextItem} (h : item ∈ eligibleItems (requirementView resolution r)) :
    FromView resolution item :=
  ⟨r, item, h, item.selectedBecause, rfl⟩

theorem FromView.cost (hsha : Sha256.Injective) {resolution : SnapshotResolution}
    (hids : ∀ c ∈ resolution.candidates, c.itemId = c.expectedItemId) {a b : ContextItem}
    (ha : FromView resolution a) (hb : FromView resolution b) (hid : a.itemId = b.itemId) :
    a.canonicalCost = b.canonicalCost := by
  obtain ⟨r, e, he, _, rfl⟩ := ha
  obtain ⟨r', e', he', _, rfl⟩ := hb
  show e.canonicalCost = e'.canonicalCost
  exact eligible_cost hsha hids he he' hid

theorem FromView.key (hsha : Sha256.Injective) {resolution : SnapshotResolution}
    (hids : ∀ c ∈ resolution.candidates, c.itemId = c.expectedItemId) {a b : ContextItem}
    (ha : FromView resolution a) (hb : FromView resolution b) (hid : a.itemId = b.itemId) :
    a.semanticKey = b.semanticKey := by
  obtain ⟨r, e, he, _, rfl⟩ := ha
  obtain ⟨r', e', he', _, rfl⟩ := hb
  exact (sameItem_of_id hsha (hids e (eligible_matches he).1) (hids e' (eligible_matches he').1)
    hid).semanticKey

omit [Sha256] in
/-- The ids selected after some admissions. -/
theorem mem_ids_admitAll {id requirementId : String} :
    ∀ {items : List ContextItem} {state : LoopState},
      id ∈ (state.admitAll items requirementId).selection.byItem.map ContextItem.itemId
        ↔ id ∈ state.selection.byItem.map ContextItem.itemId
          ∨ id ∈ items.map ContextItem.itemId
  | [], state => by
      rw [List.map_nil]
      exact (or_iff_left List.not_mem_nil).symm
  | item :: rest, state => by
      rw [LoopState.admitAll_cons, mem_ids_admitAll, List.map_cons, List.mem_cons, ← or_assoc]
      refine or_congr_left ?_
      unfold LoopState.admitItem Selection.admitItem
      dsimp only
      split
      · next hhas =>
          have hmem : item.itemId ∈ state.selection.byItem.map ContextItem.itemId :=
            of_decide_eq_true hhas
          exact ⟨.inl, fun h => h.elim (fun h => h) fun h => h ▸ hmem⟩
      · rw [List.map_append, List.mem_append, List.map_singleton, List.mem_singleton]

section Bound

variable {inputs : CompileInputs} {selection : Selection} {unknowns : List ContextUnknown}
  {r : ContextRequirement} {before : Selection} {taken rest : List ContextItem}
  {stop : Option BudgetStop} {short : List ContextUnknown}

theorem fromView_byItem
    (hselect : selectAll inputs.requirementPlan.globalBudget inputs.resolution
      inputs.requirementPlan.requirements .empty = .ok (selection, unknowns)) {item : ContextItem}
    (h : item ∈ selection.byItem) : FromView inputs.resolution item := by
  rcases mem_byItem_selectAll hselect h with hempty | ⟨r, -, he⟩
  · cases hempty
  · exact fromView_of_eligible he

theorem fromView_selected
    (hselect : selectAll inputs.requirementPlan.globalBudget inputs.resolution
      inputs.requirementPlan.requirements .empty = .ok (selection, unknowns)) {item : ContextItem}
    (h : item ∈ (assembleContext inputs unknowns selection.selected).selectedItems) :
    FromView inputs.resolution item := by
  obtain ⟨other, hother, rfl⟩ := mem_selected (mem_assembled_items.mp h)
  obtain ⟨r, e, he, _, rfl⟩ := fromView_byItem hselect hother
  exact ⟨r, e, he, _, rfl⟩

theorem RunAt.taken_eligible
    (h : RunAt inputs.requirementPlan.globalBudget inputs.resolution
      inputs.requirementPlan.requirements r selection unknowns before taken rest stop short)
    {item : ContextItem} (hitem : item ∈ taken) :
    item ∈ eligibleItems (requirementView inputs.resolution r) := by
  have hon : item ∈ taken ++ rest := List.mem_append_left _ hitem
  rw [← h.loop.frontier] at hon
  exact frontierFrom_sublist.subset hon

theorem RunAt.frontier (hsha : Sha256.Injective)
    (hids : ∀ c ∈ inputs.resolution.candidates, c.itemId = c.expectedItemId)
    (h : RunAt inputs.requirementPlan.globalBudget inputs.resolution
      inputs.requirementPlan.requirements r selection unknowns before taken rest stop short) :
    eligibleFrontier r (requirementView inputs.resolution r) = taken ++ rest
      ∧ ((taken ++ rest).map ContextItem.itemId).Nodup := by
  have hfrontier : frontierFrom r 0 (eligibleItems (requirementView inputs.resolution r))
      = taken ++ rest := h.loop.frontier
  refine ⟨(eligibleFrontier_eq hsha hids r).trans hfrontier, ?_⟩
  rw [← hfrontier]
  exact (nodup_eligible_ids hsha hids r).sublist (frontierFrom_sublist.map _)

/-- An id is held with some reason where it was selected for one. -/
theorem mem_reasoned
    (hselect : selectAll inputs.requirementPlan.globalBudget inputs.resolution
      inputs.requirementPlan.requirements .empty = .ok (selection, unknowns))
    {p : String → Bool} {id : String} :
    id ∈ ((assembleContext inputs unknowns selection.selected).selectedItems.filter fun item =>
        item.selectedBecause.any p).map ContextItem.itemId
      ↔ ∃ q, p q = true ∧ (id, q) ∈ selection.reasons := by
  obtain ⟨hsound, -⟩ := selectAll_grows hselect (.empty _)
  rw [((perm_bound fun reasons => reasons.any p).map _).mem_iff]
  simp only [List.mem_map, List.mem_filter, List.any_eq_true, mem_reasonsOf]
  constructor
  · rintro ⟨_, ⟨item, ⟨-, q, hmem, hq⟩, rfl⟩, rfl⟩
    exact ⟨q, hq, hmem⟩
  · rintro ⟨q, hq, hmem⟩
    obtain ⟨item, hitem, hid⟩ := List.mem_map.mp
      ((hsound.recorded id).mp (List.mem_map_of_mem hmem))
    exact ⟨_, ⟨item, ⟨hitem, q, hid ▸ hmem, hq⟩, rfl⟩, hid⟩

/-- The ids bound to a requirement are those it took. -/
theorem RunAt.mem_boundIds
    (hselect : selectAll inputs.requirementPlan.globalBudget inputs.resolution
      inputs.requirementPlan.requirements .empty = .ok (selection, unknowns))
    (h : RunAt inputs.requirementPlan.globalBudget inputs.resolution
      inputs.requirementPlan.requirements r selection unknowns before taken rest stop short)
    {id : String} :
    id ∈ boundIds (assembleContext inputs unknowns selection.selected) r
      ↔ id ∈ taken.map ContextItem.itemId := by
  have hbound : boundItems (assembleContext inputs unknowns selection.selected) r
      = (assembleContext inputs unknowns selection.selected).selectedItems.filter fun item =>
        item.selectedBecause.any fun q => decide (q = r.requirementId) := by
    unfold boundItems
    refine List.filter_congr fun item _ => ?_
    rw [Bool.eq_iff_iff, decide_eq_true_iff, List.any_eq_true]
    simp only [decide_eq_true_iff, exists_eq_right]
  unfold boundIds
  rw [hbound, mem_reasoned hselect, ← h.taken_iff]
  simp only [decide_eq_true_iff, exists_eq_left]

/-- The items bound to a requirement are those it took, up to lineage and
whatever an id leaves open. -/
theorem RunAt.perm_bound_taken {β : Type} {f : ContextItem → β} (hsha : Sha256.Injective)
    (hids : ∀ c ∈ inputs.resolution.candidates, c.itemId = c.expectedItemId)
    (hf : ∀ {a b}, FromView inputs.resolution a → FromView inputs.resolution b →
      a.itemId = b.itemId → f a = f b)
    (hselect : selectAll inputs.requirementPlan.globalBudget inputs.resolution
      inputs.requirementPlan.requirements .empty = .ok (selection, unknowns))
    (h : RunAt inputs.requirementPlan.globalBudget inputs.resolution
      inputs.requirementPlan.requirements r selection unknowns before taken rest stop short) :
    ((boundItems (assembleContext inputs unknowns selection.selected) r).map f).Perm
      (taken.map f) := by
  obtain ⟨hsound, -⟩ := selectAll_grows hselect (.empty _)
  obtain ⟨-, hnodup⟩ := h.frontier hsha hids
  rw [List.map_append] at hnodup
  refine perm_map_of_keys ContextItem.itemId f ?_ hnodup.of_append_left
    (fun id => h.mem_boundIds hselect) fun a ha b hb hid => ?_
  · unfold boundItems
    refine ((perm_bound fun reasons => decide (r.requirementId ∈ reasons)).map
      ContextItem.itemId).nodup_iff.mpr ?_
    rw [List.map_map]
    exact hsound.ids_nodup.sublist (List.filter_sublist.map _)
  · exact hf (fromView_selected hselect (mem_boundItems.mp ha).1)
      (fromView_of_eligible (h.taken_eligible hb)) hid

end Bound

end PlanRuns

end CognitiveRuntime
