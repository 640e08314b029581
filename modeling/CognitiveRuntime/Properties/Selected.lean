import CognitiveRuntime.Compiler.TaskContext
import CognitiveRuntime.Properties.Identity

/-!
# What is selected, and why

Every selected item was eligible for some requirement of the plan: it is
a candidate that the requirement matches and that its view settled on.
The selection only grows, one admission at a time, so facts about it go
through the loop by what one admission adds.
-/

namespace CognitiveRuntime

open Ordered Fallible

section Selected

variable [Sha256]

/-! ## Eligible items -/

omit [Sha256] in
theorem mem_eligibleItems {view : ResolvedCandidates} {item : ContextItem} :
    item ∈ eligibleItems view ↔
      ∃ entry ∈ view.groups, entry.2.conflict = false ∧ item ∈ entry.2.items := by
  unfold eligibleItems
  simp only [mem_sortedBy, List.mem_flatMap, List.mem_filter, mem_sortedGroups,
    Bool.not_eq_true', and_assoc]

/-- An eligible item stands for its claim in its group. -/
theorem eligible_representative {items : List ContextItem} {item : ContextItem}
    (h : item ∈ eligibleItems (resolveCandidates items)) :
    ∃ group, (groupKey item, group) ∈ (resolveCandidates items).groups
      ∧ group.conflict = false ∧ item ∈ group.items
      ∧ item ∈ representatives (groupMembers items (groupKey item)) := by
  obtain ⟨⟨key, group⟩, hgroup, hconflict, hitem⟩ := mem_eligibleItems.mp h
  obtain ⟨-, rfl⟩ := mem_groups.mp hgroup
  have hrep := mem_of_mem_resolveGroup hitem
  obtain rfl : groupKey item = key := (mem_groupMembers.mp (mem_of_mem_representatives hrep)).2
  exact ⟨_, hgroup, hconflict, hitem, hrep⟩

/-- What a view settles on is what the rule of its group keeps. -/
theorem mem_eligible_iff {item : ContextItem} :
    item ∈ eligibleItems (resolveCandidates items) ↔
      item ∈ (resolveGroup item.contextKind
        (representatives (groupMembers items (groupKey item)))).items := by
  constructor
  · intro h
    obtain ⟨group, hgroup, -, hitem, -⟩ := eligible_representative h
    obtain ⟨-, rfl⟩ := mem_groups.mp hgroup
    exact hitem
  · intro h
    have hmember := mem_of_mem_representatives (mem_of_mem_resolveGroup h)
    exact mem_eligibleItems.mpr ⟨(groupKey item, _),
      mem_groups.mpr ⟨List.ne_nil_of_mem hmember, rfl⟩, settled_of_mem h, h⟩

/-- The items of a settled group are distinct. -/
theorem nodup_group_items {items : List ContextItem} {key : ContextKind × String}
    {group : GroupResolution} (h : (key, group) ∈ (resolveCandidates items).groups) :
    group.items.Nodup := by
  obtain ⟨-, rfl⟩ := mem_groups.mp h
  have houtcome := resolveGroup_outcome key.1 (representatives (groupMembers items key))
  cases hres : resolveGroup key.1 (representatives (groupMembers items key)) with
  | mk found conflict details sources =>
      rw [hres] at houtcome
      cases houtcome with
      | one _ _ => exact List.nodup_singleton _
      | all => exact nodup_sortedBy _ (nodup_representatives _)
      | conflict => exact List.nodup_nil

theorem nodup_eligibleItems (items : List ContextItem) :
    (eligibleItems (resolveCandidates items)).Nodup := by
  have hkeys : ((resolveCandidates items).groups.map Prod.fst).Nodup := by
    have hfirst : (resolveCandidates items).groups.map Prod.fst
        = firstSeen ((leftOver items).map groupKey) := by
      unfold resolveCandidates groupBy
      rw [List.map_map, List.map_map]
      exact List.map_id _
    rw [hfirst]
    exact nodup_firstSeen _
  have hsorted : ((resolveCandidates items).sortedGroups.map Prod.fst).Nodup :=
    ((perm_sortedBy _ _).map Prod.fst).nodup_iff.mpr hkeys
  have hdistinct : ((resolveCandidates items).sortedGroups.filter fun entry =>
      !entry.2.conflict).Pairwise fun entry entry' => entry.1 ≠ entry'.1 :=
    (List.pairwise_map.mp hsorted).sublist List.filter_sublist
  have hentry : ∀ {entry}, entry ∈ (resolveCandidates items).sortedGroups.filter (fun entry =>
      !entry.2.conflict) → (entry.1, entry.2) ∈ (resolveCandidates items).groups :=
    fun h => mem_sortedGroups.mp (List.mem_filter.mp h).1
  refine nodup_sortedBy _ (List.nodup_flatMap.mpr
    ⟨fun entry h => nodup_group_items (hentry h), hdistinct.imp_of_mem ?_⟩)
  -- an item of two groups would have two keys
  intro entry entry' h h' hne item hitem hitem'
  have hkey := (mem_groupMembers.mp (mem_view_items (hentry h) hitem)).2
  exact hne (hkey.symm.trans (mem_groupMembers.mp (mem_view_items (hentry h') hitem')).2)

/-- Two eligible items of one view with one id are one item. -/
theorem eligible_eq_of_id (hsha : Sha256.Injective) {items : List ContextItem}
    (hids : ∀ item ∈ items, item.itemId = item.expectedItemId) {a b : ContextItem}
    (ha : a ∈ eligibleItems (resolveCandidates items))
    (hb : b ∈ eligibleItems (resolveCandidates items)) (h : a.itemId = b.itemId) : a = b := by
  obtain ⟨group, hgroup, -, -, hrep⟩ := eligible_representative ha
  obtain ⟨group', hgroup', -, -, hrep'⟩ := eligible_representative hb
  have hin : ∀ {item key}, item ∈ representatives (groupMembers items key) → item ∈ items :=
    fun hrep => mem_of_mem_leftOver (mem_groupMembers.mp (mem_of_mem_representatives hrep)).1
  have hida := hids a (hin hrep)
  have hidb := hids b (hin hrep')
  have hsame := sameItem_of_id hsha hida hidb h
  have hkey : groupKey a = groupKey b := Prod.ext hsame.contextKind hsame.semanticKey
  rw [hkey] at hrep
  exact representative_unique hrep hrep' (claimDigest_eq_of_id hsha hida hidb h)

/-- Where no two candidates share a key, every group settles on its one
candidate. -/
theorem group_of_distinct_keys {items : List ContextItem}
    (hkeys : ∀ a ∈ items, ∀ b ∈ items, groupKey a = groupKey b → a = b)
    {key : ContextKind × String} {group : GroupResolution}
    (h : (key, group) ∈ (resolveCandidates items).groups) :
    ∃ item ∈ leftOver items, groupKey item = key ∧ group = .settled [item] := by
  obtain ⟨hne, rfl⟩ := mem_groups.mp h
  obtain ⟨item, hitem⟩ := List.exists_mem_of_ne_nil _ hne
  obtain ⟨hleft, hkey⟩ := mem_groupMembers.mp hitem
  have honly : ∀ rep ∈ representatives (groupMembers items key), rep = item := by
    intro rep hrep
    obtain ⟨hrepLeft, hrepKey⟩ := mem_groupMembers.mp (mem_of_mem_representatives hrep)
    exact hkeys rep (mem_of_mem_leftOver hrepLeft) item (mem_of_mem_leftOver hleft)
      (hrepKey.trans hkey.symm)
  have hone : representatives (groupMembers items key) = [item] :=
    eq_singleton_of_all_eq (nodup_representatives _) (representatives_ne_nil hne) honly
  refine ⟨item, hleft, hkey, ?_⟩
  rw [hone]
  rfl

theorem conflictGroups_of_distinct_keys {items : List ContextItem}
    (hkeys : ∀ a ∈ items, ∀ b ∈ items, groupKey a = groupKey b → a = b) :
    conflictGroups (resolveCandidates items) = [] := by
  refine List.filter_eq_nil_iff.mpr ?_
  rintro ⟨key, group⟩ hentry
  obtain ⟨item, -, -, rfl⟩ := group_of_distinct_keys hkeys (mem_sortedGroups.mp hentry)
  exact Bool.false_ne_true

theorem mem_eligible_of_distinct_keys {items : List ContextItem}
    (hkeys : ∀ a ∈ items, ∀ b ∈ items, groupKey a = groupKey b → a = b) {item : ContextItem} :
    item ∈ eligibleItems (resolveCandidates items) ↔ item ∈ leftOver items := by
  constructor
  · intro h
    obtain ⟨group, -, -, -, hrep⟩ := eligible_representative h
    exact (mem_groupMembers.mp (mem_of_mem_representatives hrep)).1
  · intro h
    have hgroup := mem_groups.mpr
      ⟨List.ne_nil_of_mem (mem_groupMembers.mpr ⟨h, rfl⟩), rfl⟩
    obtain ⟨other, hother, hkey, hsettled⟩ := group_of_distinct_keys hkeys hgroup
    obtain rfl : other = item :=
      hkeys other (mem_of_mem_leftOver hother) item (mem_of_mem_leftOver h) hkey
    rw [hsettled] at hgroup
    exact mem_eligibleItems.mpr ⟨_, hgroup, rfl, List.mem_singleton_self _⟩

/-- A sole candidate is what a requirement that matches it may select. -/
theorem sole_eligible {resolution : SnapshotResolution} {item : ContextItem}
    (hone : resolution.candidates = [item]) {requirement : ContextRequirement}
    (hmatch : matchesRequirement requirement item = true)
    (hkind : isSupersessionKind item.contextKind = false) :
    item ∈ eligibleItems (requirementView resolution requirement) := by
  unfold requirementView SnapshotResolution.resolve
  rw [hone, List.filter_singleton, hmatch, cond_true]
  refine (mem_eligible_of_distinct_keys fun a ha b hb _ => ?_).mpr
    (mem_leftOver_of_kind (List.mem_singleton_self _) hkind)
  exact (List.mem_singleton.mp ha).trans (List.mem_singleton.mp hb).symm

/-- What a requirement may select is a candidate it matches. -/
theorem eligible_matches {resolution : SnapshotResolution} {requirement : ContextRequirement}
    {item : ContextItem} (h : item ∈ eligibleItems (requirementView resolution requirement)) :
    item ∈ resolution.candidates ∧ matchesRequirement requirement item = true := by
  obtain ⟨⟨key, group⟩, hgroup, -, hitem⟩ := mem_eligibleItems.mp h
  have hmember := mem_view_items hgroup hitem
  exact List.mem_filter.mp (mem_of_mem_leftOver (mem_groupMembers.mp hmember).1)

omit [Sha256] in
theorem matches_kind {requirement : ContextRequirement} {item : ContextItem}
    (h : matchesRequirement requirement item = true) :
    item.contextKind = requirement.contextKind := by
  unfold matchesRequirement at h
  simp only [Bool.and_eq_true, decide_eq_true_eq] at h
  exact h.1.1.1.1

omit [Sha256] in
/-- A matched item of a kind that only governed facts may fill is
governed. -/
theorem matches_governed {requirement : ContextRequirement} {item : ContextItem}
    (h : matchesRequirement requirement item = true)
    (hkind : item.contextKind.isGovernedOnly = true) : item.isGoverned = true := by
  unfold matchesRequirement at h
  simp only [Bool.and_eq_true, Bool.not_eq_true', Bool.and_eq_false_iff, hkind,
    Bool.true_eq_false, Bool.not_eq_false', false_or] at h
  exact h.1.1.2

/-! ## The loop -/

omit [Sha256] in
theorem mem_byItem_admitItem {selection : Selection} {item other : ContextItem} {cost : Nat}
    {requirementId : String}
    (h : other ∈ (selection.admitItem item cost requirementId).byItem) :
    other ∈ selection.byItem ∨ other = item := by
  unfold Selection.admitItem at h
  dsimp only at h
  split at h
  · exact .inl h
  · rcases List.mem_append.mp h with h | h
    · exact .inl h
    · exact .inr (List.mem_singleton.mp h)

omit [Sha256] in
/-- The loop selects from the candidates it walks. -/
theorem mem_byItem_selectLoop {requirement : ContextRequirement} {budget : ContextBudget}
    {other : ContextItem} :
    ∀ {items : List ContextItem} {state : LoopState},
      other ∈ (selectLoop requirement budget items state).1.selection.byItem →
      other ∈ state.selection.byItem ∨ other ∈ items
  | [], _, h => .inl h
  | item :: rest, state, h => by
      rw [selectLoop] at h
      split at h
      · exact .inl h
      · split at h
        · exact (mem_byItem_selectLoop h).imp_right (List.mem_cons_of_mem _)
        · split at h
          · exact .inl h
          · rcases mem_byItem_selectLoop h with h | h
            · rcases mem_byItem_admitItem h with h | rfl
              · exact .inl h
              · exact .inr (List.mem_cons_self ..)
            · exact .inr (List.mem_cons_of_mem _ h)

omit [Sha256] in
/-- An admission keeps what was admitted. -/
theorem mem_admitItem_of_mem {selection : Selection} {item other : ContextItem} {cost : Nat}
    {requirementId : String} (h : other ∈ selection.byItem) :
    other ∈ (selection.admitItem item cost requirementId).byItem := by
  unfold Selection.admitItem
  dsimp only
  split
  · exact h
  · exact List.mem_append_left _ h

omit [Sha256] in
/-- The loop keeps what was admitted. -/
theorem mem_selectLoop_of_mem {requirement : ContextRequirement} {budget : ContextBudget}
    {other : ContextItem} :
    ∀ {items : List ContextItem} {state state' : LoopState} {stop : Option BudgetStop},
      selectLoop requirement budget items state = (state', stop) →
      other ∈ state.selection.byItem → other ∈ state'.selection.byItem
  | [], _, _, _, h, hmem => by
      cases h
      exact hmem
  | item :: rest, state, _, _, h, hmem => by
      rw [selectLoop] at h
      split at h
      · cases h
        exact hmem
      · split at h
        · exact mem_selectLoop_of_mem h hmem
        · split at h
          · cases h
            exact hmem
          · exact mem_selectLoop_of_mem h (mem_admitItem_of_mem hmem)

omit [Sha256] in
/-- Where everything eligible is asked for and nothing stops the loop,
it admits every candidate whose id is new. -/
theorem selectLoop_allEligible {requirement : ContextRequirement} {budget : ContextBudget}
    (hmode : requirement.coverageMode = .allEligible) :
    ∀ {items : List ContextItem} {state state' : LoopState},
      selectLoop requirement budget items state = (state', none) →
      (items.map ContextItem.itemId).Nodup →
      (∀ item ∈ items, item.itemId ∉ state.selection.byItem.map ContextItem.itemId) →
      state'.selectedCount = state.selectedCount + items.length
        ∧ ∀ item ∈ items, item ∈ state'.selection.byItem
  | [], _, _, h, _, _ => by
      cases h
      exact ⟨rfl, fun _ hitem => absurd hitem List.not_mem_nil⟩
  | item :: rest, state, state', h, hnodup, hfresh => by
      rw [selectLoop, hmode] at h
      simp only [reduceCtorEq, false_and, if_false] at h
      cases hstop : budgetStop requirement budget state item with
      | some stop =>
          rw [hstop] at h
          cases h
      | none =>
          rw [hstop] at h
          obtain ⟨hitem, hrest⟩ := List.nodup_cons.mp hnodup
          have hnew : state.selection.has item.itemId = false :=
            decide_eq_false (hfresh item (List.mem_cons_self ..))
          have hbyItem : (state.admitItem item requirement.requirementId).selection.byItem
              = state.selection.byItem ++ [item] := by
            unfold LoopState.admitItem Selection.admitItem
            rw [hnew]
            rfl
          obtain ⟨hcount, hall⟩ := selectLoop_allEligible hmode h hrest (by
            intro other hother hmem
            rw [hbyItem, List.map_append, List.mem_append] at hmem
            rcases hmem with hmem | hmem
            · exact hfresh other (List.mem_cons_of_mem _ hother) hmem
            · rw [List.map_singleton, List.mem_singleton] at hmem
              exact hitem (hmem ▸ List.mem_map_of_mem hother))
          refine ⟨?_, fun other hother => ?_⟩
          · rw [hcount, List.length_cons]
            show state.selectedCount + 1 + rest.length = state.selectedCount + (rest.length + 1)
            omega
          · rcases List.mem_cons.mp hother with rfl | hother
            · refine mem_selectLoop_of_mem h ?_
              rw [hbyItem]
              exact List.mem_append_right _ (List.mem_singleton_self _)
            · exact hall other hother

/-- A finished requirement: its loop, and what it leaves to record. -/
theorem selectFor_ok {budget : ContextBudget} {resolution : SnapshotResolution}
    {requirement : ContextRequirement} {selection selection' : Selection}
    {unknowns : List ContextUnknown}
    (h : selectFor budget resolution requirement selection = .ok (selection', unknowns)) :
    ∃ state stop short,
      selectLoop requirement budget (eligibleItems (requirementView resolution requirement))
        (.start selection) = (state, stop)
      ∧ shortfall requirement state stop
          ((conflictGroups (requirementView resolution requirement)).map fun entry => entry.1.2)
        = .ok short
      ∧ selection' = state.selection
      ∧ unknowns = (requirementView resolution requirement).supersessionUnknowns
          ++ (conflictGroups (requirementView resolution requirement)).map
            (requirementConflict requirement) ++ short := by
  unfold selectFor at h
  simp only [bind_eq_ok] at h
  obtain ⟨short, hshort, h⟩ := h
  obtain ⟨hselection, hunknowns⟩ := Prod.mk.inj (Except.ok.inj h)
  exact ⟨_, _, short, Prod.mk.eta.symm, hshort, hselection.symm, hunknowns.symm⟩

/-- Every selected item was eligible for a requirement of the plan. -/
theorem mem_byItem_selectAll {budget : ContextBudget} {resolution : SnapshotResolution}
    {other : ContextItem} :
    ∀ {requirements : List ContextRequirement} {selection selection' : Selection}
      {unknowns : List ContextUnknown},
      selectAll budget resolution requirements selection = .ok (selection', unknowns) →
      other ∈ selection'.byItem → other ∈ selection.byItem
        ∨ ∃ r ∈ requirements, other ∈ eligibleItems (requirementView resolution r)
  | [], _, _, _, h, hmem => by
      cases h
      exact .inl hmem
  | requirement :: rest, selection, selection', unknowns, h, hmem => by
      simp only [selectAll, bind_eq_ok, Prod.exists] at h
      obtain ⟨middle, first, hfirst, last, others, hothers, h⟩ := h
      cases h
      rcases mem_byItem_selectAll hothers hmem with hmem | ⟨r, hr, hin⟩
      · obtain ⟨state, stop, short, hloop, -, rfl, -⟩ := selectFor_ok hfirst
        have hstate : state = (selectLoop requirement budget
            (eligibleItems (requirementView resolution requirement)) (.start selection)).1 := by
          rw [hloop]
        rw [hstate] at hmem
        rcases mem_byItem_selectLoop hmem with hmem | hmem
        · exact .inl hmem
        · exact .inr ⟨requirement, List.mem_cons_self .., hmem⟩
      · exact .inr ⟨r, List.mem_cons_of_mem _ hr, hin⟩

/-- Later requirements keep what was admitted. -/
theorem mem_selectAll_of_mem {budget : ContextBudget} {resolution : SnapshotResolution}
    {other : ContextItem} :
    ∀ {requirements : List ContextRequirement} {selection selection' : Selection}
      {unknowns : List ContextUnknown},
      selectAll budget resolution requirements selection = .ok (selection', unknowns) →
      other ∈ selection.byItem → other ∈ selection'.byItem
  | [], _, _, _, h, hmem => by
      cases h
      exact hmem
  | requirement :: rest, selection, selection', unknowns, h, hmem => by
      simp only [selectAll, bind_eq_ok, Prod.exists] at h
      obtain ⟨middle, first, hfirst, last, others, hothers, h⟩ := h
      cases h
      obtain ⟨state, stop, short, hloop, -, rfl, -⟩ := selectFor_ok hfirst
      exact mem_selectAll_of_mem hothers (mem_selectLoop_of_mem hloop hmem)

/-- Every requirement of a finished selection was finished itself, and
its unknowns and admissions are kept. -/
theorem selectAll_step {budget : ContextBudget} {resolution : SnapshotResolution}
    {r : ContextRequirement} :
    ∀ {requirements : List ContextRequirement} {selection selection' : Selection}
      {unknowns : List ContextUnknown},
      selectAll budget resolution requirements selection = .ok (selection', unknowns) →
      r ∈ requirements → ∃ before after first,
        selectFor budget resolution r before = .ok (after, first)
          ∧ first ⊆ unknowns ∧ after.byItem ⊆ selection'.byItem
  | requirement :: rest, selection, selection', unknowns, h, hr => by
      simp only [selectAll, bind_eq_ok, Prod.exists] at h
      obtain ⟨middle, first, hfirst, last, others, hothers, h⟩ := h
      cases h
      rcases List.mem_cons.mp hr with rfl | hr
      · exact ⟨selection, middle, first, hfirst, List.subset_append_left _ _,
          fun other hother => mem_selectAll_of_mem hothers hother⟩
      · obtain ⟨before, after, us, hfor, hus, hkept⟩ := selectAll_step hothers hr
        exact ⟨before, after, us, hfor, List.Subset.trans hus (List.subset_append_right _ _), hkept⟩

/-- Every unknown of a finished selection was left by a requirement. -/
theorem mem_selectAll_unknowns {budget : ContextBudget} {resolution : SnapshotResolution}
    {u : ContextUnknown} :
    ∀ {requirements : List ContextRequirement} {selection selection' : Selection}
      {unknowns : List ContextUnknown},
      selectAll budget resolution requirements selection = .ok (selection', unknowns) →
      u ∈ unknowns → ∃ r ∈ requirements, ∃ before after first,
        selectFor budget resolution r before = .ok (after, first) ∧ u ∈ first
  | [], _, _, _, h, hu => by
      cases h
      cases hu
  | requirement :: rest, selection, selection', unknowns, h, hu => by
      simp only [selectAll, bind_eq_ok, Prod.exists] at h
      obtain ⟨middle, first, hfirst, last, others, hothers, h⟩ := h
      cases h
      rcases List.mem_append.mp hu with hu | hu
      · exact ⟨requirement, List.mem_cons_self .., selection, middle, first, hfirst, hu⟩
      · obtain ⟨r, hr, hleft⟩ := mem_selectAll_unknowns hothers hu
        exact ⟨r, List.mem_cons_of_mem _ hr, hleft⟩

/-- Only a requirement that blocks on missing context can fail. -/
theorem shortfall_ok {requirement : ContextRequirement} (h : requirement.missingPolicy ≠ .block)
    (state : LoopState) (stop : Option BudgetStop) (disposedKeys : List String) :
    ∃ short, shortfall requirement state stop disposedKeys = .ok short := by
  unfold shortfall
  split
  · exact ⟨[], rfl⟩
  · unfold disposeUnsatisfied
    cases hpolicy : requirement.missingPolicy with
    | block => exact absurd hpolicy h
    | preserveUnknown => exact ⟨_, rfl⟩
    | optional =>
        cases stop with
        | none => exact ⟨[], rfl⟩
        | some stop => exact ⟨_, rfl⟩

theorem selectFor_finishes {budget : ContextBudget} {resolution : SnapshotResolution}
    {requirement : ContextRequirement} (h : requirement.missingPolicy ≠ .block)
    (selection : Selection) :
    ∃ after unknowns,
      selectFor budget resolution requirement selection = .ok (after, unknowns) := by
  obtain ⟨short, hshort⟩ := shortfall_ok h
    (selectLoop requirement budget (eligibleItems (requirementView resolution requirement))
      (.start selection)).1
    (selectLoop requirement budget (eligibleItems (requirementView resolution requirement))
      (.start selection)).2
    ((conflictGroups (requirementView resolution requirement)).map fun entry => entry.1.2)
  unfold selectFor
  simp only [hshort, ok_bind]
  exact ⟨_, _, rfl⟩

theorem selectAll_finishes {budget : ContextBudget} {resolution : SnapshotResolution} :
    ∀ {requirements : List ContextRequirement} (selection : Selection),
      (∀ r ∈ requirements, r.missingPolicy ≠ .block) →
      ∃ finished unknowns,
        selectAll budget resolution requirements selection = .ok (finished, unknowns)
  | [], selection, _ => ⟨selection, [], rfl⟩
  | requirement :: rest, selection, h => by
      obtain ⟨after, first, hfor⟩ := selectFor_finishes (h requirement (List.mem_cons_self ..))
        selection
      obtain ⟨finished, others, hrest⟩ := selectAll_finishes after fun r hr =>
        h r (List.mem_cons_of_mem _ hr)
      refine ⟨finished, first ++ others, ?_⟩
      rw [selectAll, hfor, ok_bind, hrest]
      rfl

/-- Compilation fails only on a requirement that blocks. -/
theorem compileContext_finishes {inputs : CompileInputs}
    (hpolicies : ∀ r ∈ inputs.requirementPlan.requirements, r.missingPolicy ≠ .block)
    (hversion : isBlank inputs.packageVersion = false) :
    ∃ context, compileContext inputs = .ok context := by
  obtain ⟨selection, unknowns, hselect⟩ := selectAll_finishes .empty hpolicies
  unfold compileContext
  rw [hselect, ok_bind]
  simp only [hversion]
  exact ⟨_, rfl⟩

/-! ## The artifact -/

omit [Sha256] in
theorem mem_selected {selection : Selection} {item : ContextItem}
    (h : item ∈ selection.selected) :
    ∃ other ∈ selection.byItem, item = other.withSelection (selection.reasonsOf other.itemId) := by
  unfold Selection.selected at h
  obtain ⟨other, hother, rfl⟩ := List.mem_map.mp ((mem_sortedBy _).mp h)
  exact ⟨other, (mem_sortedBy _).mp hother, rfl⟩

omit [Sha256] in
theorem exists_mem_selected {selection : Selection} {other : ContextItem}
    (h : other ∈ selection.byItem) :
    other.withSelection (selection.reasonsOf other.itemId) ∈ selection.selected :=
  (mem_sortedBy _).mpr (List.mem_map_of_mem ((mem_sortedBy _).mpr h))

/-- A finished compile is the artifact over a finished selection. -/
theorem compileContext_ok {inputs : CompileInputs} {context : CompiledTaskContext}
    (h : compileContext inputs = .ok context) :
    ∃ selection unknowns,
      selectAll inputs.requirementPlan.globalBudget inputs.resolution
        inputs.requirementPlan.requirements .empty = .ok (selection, unknowns)
      ∧ context = assembleContext inputs unknowns selection.selected := by
  unfold compileContext at h
  simp only [bind_eq_ok, Prod.exists] at h
  obtain ⟨selection, unknowns, hselect, _, -, h⟩ := h
  exact ⟨selection, unknowns, hselect, (Except.ok.inj h).symm⟩

/-- Selected items are candidates that a requirement of the plan matches,
but for the lineage they carry. -/
theorem selected_matches {inputs : CompileInputs} {selection : Selection}
    {unknowns : List ContextUnknown}
    (h : selectAll inputs.requirementPlan.globalBudget inputs.resolution
      inputs.requirementPlan.requirements .empty = .ok (selection, unknowns))
    {item : ContextItem} (hitem : item ∈ selection.selected) :
    ∃ other ∈ inputs.resolution.candidates, ∃ r ∈ inputs.requirementPlan.requirements,
      matchesRequirement r other = true
        ∧ item = other.withSelection (selection.reasonsOf other.itemId) := by
  obtain ⟨other, hother, rfl⟩ := mem_selected hitem
  rcases mem_byItem_selectAll h hother with hempty | ⟨r, hr, hin⟩
  · cases hempty
  · obtain ⟨hcandidate, hmatch⟩ := eligible_matches hin
    exact ⟨other, hcandidate, r, hr, hmatch, rfl⟩

end Selected

end CognitiveRuntime
