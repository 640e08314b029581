import CognitiveRuntime.Properties.BudgetProof

/-!
# Runs of the selector

A requirement admits the candidates of its frontier in order and stops
at the first one that a bound refuses. What a run leaves in the shared
selection is told by the prefix of the frontier that each requirement
admitted: the reasons are these prefixes, the items are what they hold,
each id once, and the bounds hold of both.
-/

namespace CognitiveRuntime

open Ordered Fallible

/-! ## Admissions -/

/-- The loop after it admitted the given candidates. -/
def LoopState.admitAll (state : LoopState) (items : List ContextItem) (requirementId : String) :
    LoopState :=
  items.foldl (fun state item => state.admitItem item requirementId) state

namespace LoopState

variable {state : LoopState} {items : List ContextItem} {requirementId : String}

theorem admitAll_cons (item : ContextItem) :
    state.admitAll (item :: items) requirementId
      = (state.admitItem item requirementId).admitAll items requirementId := rfl

theorem selectedCount_admitAll :
    (state.admitAll items requirementId).selectedCount = state.selectedCount + items.length := by
  induction items generalizing state with
  | nil => rfl
  | cons item rest ih =>
      rw [admitAll_cons, ih, List.length_cons]
      show state.selectedCount + 1 + rest.length = _
      omega

theorem selectedKeys_admitAll :
    (state.admitAll items requirementId).selectedKeys
      = state.selectedKeys ++ items.map ContextItem.semanticKey := by
  induction items generalizing state with
  | nil => exact (List.append_nil _).symm
  | cons item rest ih =>
      rw [admitAll_cons, ih]
      show state.selectedKeys ++ [item.semanticKey] ++ _ = _
      rw [List.append_assoc]
      rfl

theorem requirementBytes_admitAll :
    (state.admitAll items requirementId).requirementBytes
      = state.requirementBytes + totalCost items := by
  induction items generalizing state with
  | nil => rfl
  | cons item rest ih =>
      rw [admitAll_cons, ih]
      show state.requirementBytes + item.canonicalCost + (rest.map ContextItem.canonicalCost).sum
        = state.requirementBytes + ((item :: rest).map ContextItem.canonicalCost).sum
      rw [List.map_cons, List.sum_cons]
      omega

theorem reasons_admitAll :
    (state.admitAll items requirementId).selection.reasons
      = state.selection.reasons ++ items.map fun item => (item.itemId, requirementId) := by
  induction items generalizing state with
  | nil => exact (List.append_nil _).symm
  | cons item rest ih =>
      rw [admitAll_cons, ih]
      show state.selection.reasons ++ [(item.itemId, requirementId)] ++ _ = _
      rw [List.append_assoc]
      rfl

end LoopState

/-! ## What a selection keeps to -/

/-- A selection within its bounds: each id once, the bytes counted, and a
reason behind every item. -/
structure Selection.Sound (selection : Selection) (budget : ContextBudget) : Prop where
  ids_nodup : (selection.byItem.map ContextItem.itemId).Nodup
  bytes : selection.totalBytes = totalCost selection.byItem
  items_le : selection.byItem.length ≤ budget.maxTotalItems
  bytes_le : selection.totalBytes ≤ budget.maxTotalBytes
  recorded : ∀ id, id ∈ selection.reasons.map Prod.fst ↔ id ∈ selection.byItem.map ContextItem.itemId

/-- What one requirement took is within its own bounds. -/
structure LoopState.Within (state : LoopState) (requirement : ContextRequirement) : Prop where
  items_le : ∀ limit, requirement.maxItems = some limit → state.selectedCount ≤ limit
  bytes_le : ∀ limit, requirement.maxBytes = some limit → state.requirementBytes ≤ limit

theorem totalCost_append (items items' : List ContextItem) :
    totalCost (items ++ items') = totalCost items + totalCost items' := by
  unfold totalCost
  rw [List.map_append, List.sum_append]

theorem Selection.Sound.empty (budget : ContextBudget) : Selection.empty.Sound budget where
  ids_nodup := List.nodup_nil
  bytes := rfl
  items_le := Nat.zero_le _
  bytes_le := Nat.zero_le _
  recorded _ := Iff.rfl

theorem LoopState.Within.start (selection : Selection) (requirement : ContextRequirement) :
    (LoopState.start selection).Within requirement :=
  ⟨fun _ _ => Nat.zero_le _, fun _ _ => Nat.zero_le _⟩

/-- An admission that no bound refuses keeps every bound. -/
theorem admitItem_within {requirement : ContextRequirement} {budget : ContextBudget}
    {state : LoopState} {item : ContextItem} (hsound : state.selection.Sound budget)
    (hfits : budgetStop requirement budget state item = none) :
    (state.admitItem item requirement.requirementId).selection.Sound budget
      ∧ (state.admitItem item requirement.requirementId).Within requirement := by
  unfold budgetStop at hfits
  split at hfits
  · cases hfits
  next hitems =>
  split at hfits
  · cases hfits
  next hbytes =>
  split at hfits
  · cases hfits
  next hglobal =>
  rw [Option.any_eq_true] at hitems hbytes
  refine ⟨?_, ⟨fun limit hlimit => ?_, fun limit hlimit => ?_⟩⟩
  · unfold LoopState.admitItem Selection.admitItem
    unfold Selection.wouldExceedGlobal at hglobal
    cases hhas : state.selection.has item.itemId with
    | true =>
        have hmem : item.itemId ∈ state.selection.byItem.map ContextItem.itemId :=
          of_decide_eq_true hhas
        refine ⟨hsound.ids_nodup, hsound.bytes, hsound.items_le, hsound.bytes_le, fun id => ?_⟩
        simp only [if_true, List.map_append, List.map_cons, List.map_nil, List.mem_append,
          List.mem_singleton]
        rw [hsound.recorded]
        constructor
        · rintro (h | rfl)
          · exact h
          · exact hmem
        · exact .inl
    | false =>
        have hnew : item.itemId ∉ state.selection.byItem.map ContextItem.itemId :=
          of_decide_eq_false hhas
        rw [hhas] at hglobal
        simp only [Bool.not_false, Bool.true_and, Bool.or_eq_true, decide_eq_true_eq,
          not_or, not_lt] at hglobal
        refine ⟨?_, ?_, ?_, ?_, fun id => ?_⟩
        · simp only [Bool.false_eq_true, if_false, List.map_append, List.map_cons, List.map_nil]
          refine List.nodup_append.mpr ⟨hsound.ids_nodup, List.nodup_singleton _, ?_⟩
          rintro a ha b hb rfl
          exact hnew (List.mem_singleton.mp hb ▸ ha)
        · simp only [Bool.false_eq_true, if_false]
          rw [totalCost_append, hsound.bytes]
          simp [totalCost]
        · simp only [Bool.false_eq_true, if_false, List.length_append, List.length_singleton]
          exact hglobal.1
        · simp only [Bool.false_eq_true, if_false]
          exact hglobal.2
        · simp only [Bool.false_eq_true, if_false, List.map_append, List.map_cons, List.map_nil,
            List.mem_append, List.mem_singleton]
          rw [hsound.recorded]
  · show state.selectedCount + 1 ≤ limit
    by_contra hnot
    exact hitems ⟨limit, hlimit, decide_eq_true (by omega)⟩
  · show state.requirementBytes + item.canonicalCost ≤ limit
    by_contra hnot
    exact hbytes ⟨limit, hlimit, decide_eq_true (by omega)⟩

/-! ## The loop of one requirement -/

/-- Where the loop of a requirement ended: it took a prefix of its
frontier, and stopped at the first candidate that did not fit or at the
end. -/
structure LoopRun (requirement : ContextRequirement) (budget : ContextBudget)
    (items : List ContextItem) (state : LoopState) (taken rest : List ContextItem)
    (state' : LoopState) (stop : Option BudgetStop) : Prop where
  frontier : frontierFrom requirement state.selectedCount items = taken ++ rest
  admitted : state' = state.admitAll taken requirement.requirementId
  finished : stop = none → rest = []
  stopped : ∀ s, stop = some s → ∃ blocked after, rest = blocked :: after
    ∧ budgetStop requirement budget state' blocked = some s

theorem selectLoop_run {requirement : ContextRequirement} {budget : ContextBudget} :
    ∀ {items : List ContextItem} {state state' : LoopState} {stop : Option BudgetStop},
      selectLoop requirement budget items state = (state', stop) →
      ∃ taken rest, LoopRun requirement budget items state taken rest state' stop
  | [], state, state', stop, h => by
      cases h
      exact ⟨[], [], rfl, rfl, fun _ => rfl, fun _ h => by cases h⟩
  | item :: rest, state, state', stop, h => by
      rw [selectLoop] at h
      by_cases hfull : requirement.coverageMode = .minimum
          ∧ requirement.minItems ≤ state.selectedCount
      · rw [if_pos hfull] at h
        cases h
        refine ⟨[], [], ?_, rfl, fun _ => rfl, fun _ h => by cases h⟩
        rw [frontierFrom, if_pos hfull]
        rfl
      · rw [if_neg hfull] at h
        by_cases hskip : requirement.coverageMode = .semanticKeys
            ∧ item.semanticKey ∉ requirement.requiredSemanticKeys
        · rw [if_pos hskip] at h
          obtain ⟨taken, left, hrun⟩ := selectLoop_run h
          refine ⟨taken, left, ?_, hrun.admitted, hrun.finished, hrun.stopped⟩
          rw [frontierFrom, if_neg hfull, if_pos hskip, hrun.frontier]
        · rw [if_neg hskip] at h
          have hon : frontierFrom requirement state.selectedCount (item :: rest)
              = item :: frontierFrom requirement (state.selectedCount + 1) rest := by
            rw [frontierFrom, if_neg hfull, if_neg hskip]
          cases hstop : budgetStop requirement budget state item with
          | some s =>
              rw [hstop] at h
              cases h
              refine ⟨[], _, hon, rfl, (fun h => by cases h), fun s' hs' => ⟨item, _, rfl, ?_⟩⟩
              rw [← hs']
              exact hstop
          | none =>
              rw [hstop] at h
              obtain ⟨taken, left, hrun⟩ := selectLoop_run h
              refine ⟨item :: taken, left, ?_, hrun.admitted, hrun.finished, hrun.stopped⟩
              rw [hon]
              exact congrArg (item :: ·) hrun.frontier

/-- The loop keeps every bound. -/
theorem selectLoop_within {requirement : ContextRequirement} {budget : ContextBudget} :
    ∀ {items : List ContextItem} {state state' : LoopState} {stop : Option BudgetStop},
      selectLoop requirement budget items state = (state', stop) →
      state.selection.Sound budget → state.Within requirement →
      state'.selection.Sound budget ∧ state'.Within requirement
  | [], state, _, _, h, hsound, hwithin => by
      cases h
      exact ⟨hsound, hwithin⟩
  | item :: rest, state, _, _, h, hsound, hwithin => by
      rw [selectLoop] at h
      split at h
      · cases h
        exact ⟨hsound, hwithin⟩
      · split at h
        · exact selectLoop_within h hsound hwithin
        · split at h
          · cases h
            exact ⟨hsound, hwithin⟩
          · next hfits =>
            obtain ⟨hsound', hwithin'⟩ := admitItem_within hsound hfits
            exact selectLoop_within h hsound' hwithin'

/-! ## The run of a plan -/

section Runs

variable [Sha256]

/-- One requirement of a run: what was selected before it, what it took
of its frontier, and what it left to record. -/
structure RequirementRun (budget : ContextBudget) (resolution : SnapshotResolution)
    (r : ContextRequirement) (before after : Selection) (unknowns : List ContextUnknown)
    (taken rest : List ContextItem) (stop : Option BudgetStop) (short : List ContextUnknown) :
    Prop where
  loop : LoopRun r budget (eligibleItems (requirementView resolution r)) (.start before) taken rest
    ((LoopState.start before).admitAll taken r.requirementId) stop
  within : ((LoopState.start before).admitAll taken r.requirementId).Within r
  short_eq : shortfall r ((LoopState.start before).admitAll taken r.requirementId) stop
    ((conflictGroups (requirementView resolution r)).map fun entry => entry.1.2) = .ok short
  after_eq : after = ((LoopState.start before).admitAll taken r.requirementId).selection
  unknowns_eq : unknowns = (requirementView resolution r).supersessionUnknowns
    ++ (conflictGroups (requirementView resolution r)).map (requirementConflict r) ++ short

theorem selectFor_run {budget : ContextBudget} {resolution : SnapshotResolution}
    {r : ContextRequirement} {before after : Selection} {unknowns : List ContextUnknown}
    (h : selectFor budget resolution r before = .ok (after, unknowns))
    (hsound : before.Sound budget) :
    after.Sound budget ∧ ∃ taken rest stop short,
      RequirementRun budget resolution r before after unknowns taken rest stop short := by
  obtain ⟨state, stop, short, hloop, hshort, rfl, rfl⟩ := selectFor_ok h
  obtain ⟨taken, rest, hrun⟩ := selectLoop_run hloop
  obtain ⟨hsound', hwithin⟩ := selectLoop_within hloop hsound (.start before r)
  obtain rfl := hrun.admitted
  exact ⟨hsound', taken, rest, stop, short, hrun, hwithin, hshort, rfl, rfl⟩

/-- A run over two lists of requirements is a run over the one and then
over the other. -/
theorem selectAll_append {budget : ContextBudget} {resolution : SnapshotResolution}
    {later : List ContextRequirement} :
    ∀ {earlier : List ContextRequirement} {selection selection' : Selection}
      {unknowns : List ContextUnknown},
      selectAll budget resolution (earlier ++ later) selection = .ok (selection', unknowns) →
      ∃ middle first last, selectAll budget resolution earlier selection = .ok (middle, first)
        ∧ selectAll budget resolution later middle = .ok (selection', last)
        ∧ unknowns = first ++ last
  | [], selection, selection', unknowns, h => ⟨selection, [], unknowns, rfl, h, rfl⟩
  | r :: earlier, selection, selection', unknowns, h => by
      rw [List.cons_append] at h
      simp only [selectAll, bind_eq_ok, Prod.exists] at h
      obtain ⟨after, us, hfor, final, others, hrest, h⟩ := h
      cases h
      obtain ⟨middle, first, last, hearlier, hlater, rfl⟩ := selectAll_append hrest
      refine ⟨middle, us ++ first, last, ?_, hlater, (List.append_assoc ..).symm⟩
      rw [selectAll, hfor, ok_bind, hearlier]
      rfl

/-- What a run over some requirements adds to a selection. -/
structure Grown (selection selection' : Selection) (requirements : List ContextRequirement) :
    Prop where
  items : selection.byItem <+: selection'.byItem
  reasons : ∃ added, selection'.reasons = selection.reasons ++ added
    ∧ ∀ e ∈ added, e.2 ∈ requirements.map ContextRequirement.requirementId

omit [Sha256] in
theorem byItem_admitAll {requirementId : String} :
    ∀ {items : List ContextItem} {state : LoopState},
      state.selection.byItem <+: (state.admitAll items requirementId).selection.byItem
  | [], _ => List.prefix_refl _
  | item :: rest, state => by
      rw [LoopState.admitAll_cons]
      refine List.IsPrefix.trans ?_ byItem_admitAll
      unfold LoopState.admitItem Selection.admitItem
      dsimp only
      split
      · exact List.prefix_refl _
      · exact List.prefix_append _ _

theorem selectAll_grows {budget : ContextBudget} {resolution : SnapshotResolution} :
    ∀ {requirements : List ContextRequirement} {selection selection' : Selection}
      {unknowns : List ContextUnknown},
      selectAll budget resolution requirements selection = .ok (selection', unknowns) →
      selection.Sound budget →
      selection'.Sound budget ∧ Grown selection selection' requirements
  | [], _, _, _, h, hsound => by
      cases h
      exact ⟨hsound, List.prefix_refl _, [], (List.append_nil _).symm, fun _ h => by cases h⟩
  | r :: rest, selection, selection', _, h, hsound => by
      simp only [selectAll, bind_eq_ok, Prod.exists] at h
      obtain ⟨after, us, hfor, final, others, hrest, h⟩ := h
      cases h
      obtain ⟨hafter, taken, _, _, _, hrun⟩ := selectFor_run hfor hsound
      obtain ⟨hfinal, hgrown⟩ := selectAll_grows hrest hafter
      obtain ⟨added, hadded, hids⟩ := hgrown.reasons
      have hreasons : after.reasons
          = selection.reasons ++ taken.map fun item => (item.itemId, r.requirementId) := by
        rw [hrun.after_eq]
        exact LoopState.reasons_admitAll
      refine ⟨hfinal, ?_, taken.map (fun item => (item.itemId, r.requirementId)) ++ added, ?_, ?_⟩
      · refine List.IsPrefix.trans ?_ hgrown.items
        rw [hrun.after_eq]
        show (LoopState.start selection).selection.byItem <+: _
        exact byItem_admitAll
      · rw [hadded, hreasons, List.append_assoc]
      · intro e he
        rcases List.mem_append.mp he with he | he
        · obtain ⟨item, -, rfl⟩ := List.mem_map.mp he
          exact List.mem_cons_self ..
        · exact List.mem_cons_of_mem _ (hids e he)

end Runs

end CognitiveRuntime
