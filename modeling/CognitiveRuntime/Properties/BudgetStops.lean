import CognitiveRuntime.Data.Greedy
import CognitiveRuntime.Properties.SelectionRuns
import CognitiveRuntime.Properties.Unknowns

/-!
# Where a budget stops

A requirement takes the longest prefix of its frontier that its own
bounds and the global ones admit. Where something is left, a bound
stopped it, and what the requirement leaves on record is decided later,
by whether it counts as satisfied.
-/

namespace CognitiveRuntime

open Ordered Fallible Greedy

/-! ## What fits -/

/-- A candidate that no bound refuses: of the requirement, or of the
selection it shares, where a reused item costs nothing. -/
structure Fits (r : ContextRequirement) (budget : ContextBudget) (state : LoopState)
    (item : ContextItem) : Prop where
  maxItems : ∀ limit, r.maxItems = some limit → state.selectedCount + 1 ≤ limit
  maxBytes : ∀ limit, r.maxBytes = some limit →
    state.requirementBytes + item.canonicalCost ≤ limit
  shared : item.itemId ∈ state.selection.byItem.map ContextItem.itemId
    ∨ state.selection.byItem.length + 1 ≤ budget.maxTotalItems
      ∧ state.selection.totalBytes + item.canonicalCost ≤ budget.maxTotalBytes

/-- The record of a bound that admitting the candidate would violate, true
of the state it is made in. -/
inductive BudgetStop.TrueOf (r : ContextRequirement) (budget : ContextBudget)
    (state : LoopState) (item : ContextItem) : BudgetStop → Prop
  | maxItems (limit : Nat) (hlimit : r.maxItems = some limit)
      (hover : limit < state.selectedCount + 1) :
      TrueOf r budget state item
        { bound := "requirement_max_items", blockedItemId := item.itemId
          observedCount := state.selectedCount, observedBytes := state.requirementBytes
          candidateCost := item.canonicalCost, limit := limit }
  | maxBytes (limit : Nat) (hlimit : r.maxBytes = some limit)
      (hover : limit < state.requirementBytes + item.canonicalCost) :
      TrueOf r budget state item
        { bound := "requirement_max_bytes", blockedItemId := item.itemId
          observedCount := state.selectedCount, observedBytes := state.requirementBytes
          candidateCost := item.canonicalCost, limit := limit }
  | totalItems (hnew : item.itemId ∉ state.selection.byItem.map ContextItem.itemId)
      (hover : budget.maxTotalItems < state.selection.byItem.length + 1) :
      TrueOf r budget state item
        { bound := "global_max_items", blockedItemId := item.itemId
          observedCount := state.selection.byItem.length
          observedBytes := state.selection.totalBytes
          candidateCost := item.canonicalCost, limit := budget.maxTotalItems }
  | totalBytes (hnew : item.itemId ∉ state.selection.byItem.map ContextItem.itemId)
      (hover : budget.maxTotalBytes < state.selection.totalBytes + item.canonicalCost) :
      TrueOf r budget state item
        { bound := "global_max_bytes", blockedItemId := item.itemId
          observedCount := state.selection.byItem.length
          observedBytes := state.selection.totalBytes
          candidateCost := item.canonicalCost, limit := budget.maxTotalBytes }

section Bounds

variable {r : ContextRequirement} {budget : ContextBudget} {state : LoopState}
  {item : ContextItem}

theorem not_any_lt {limit : Option Nat} {n : Nat} :
    ¬(limit.any (n > ·)) = true ↔ ∀ m, limit = some m → n ≤ m := by
  cases limit with
  | none => simp
  | some m => simp

theorem wouldExceedGlobal_eq_false :
    state.selection.wouldExceedGlobal budget item item.canonicalCost = false
      ↔ item.itemId ∈ state.selection.byItem.map ContextItem.itemId
        ∨ state.selection.byItem.length + 1 ≤ budget.maxTotalItems
          ∧ state.selection.totalBytes + item.canonicalCost ≤ budget.maxTotalBytes := by
  unfold Selection.wouldExceedGlobal Selection.has
  rw [Bool.and_eq_false_iff, Bool.not_eq_false', decide_eq_true_iff, Bool.or_eq_false_iff,
    decide_eq_false_iff_not, decide_eq_false_iff_not, not_lt, not_lt]

theorem budgetStop_eq_none : budgetStop r budget state item = none ↔ Fits r budget state item := by
  unfold budgetStop
  constructor
  · intro h
    split at h
    · cases h
    next hitems =>
    split at h
    · cases h
    next hbytes =>
    split at h
    · cases h
    next hglobal =>
    exact ⟨not_any_lt.mp hitems, not_any_lt.mp hbytes,
      wouldExceedGlobal_eq_false.mp (Bool.eq_false_of_not_eq_true hglobal)⟩
  · rintro ⟨hitems, hbytes, hshared⟩
    rw [if_neg (not_any_lt.mpr hitems), if_neg (not_any_lt.mpr hbytes),
      wouldExceedGlobal_eq_false.mpr hshared]
    rfl

/-- The record is true of the state it is made in. -/
theorem budgetStop_trueOf {stop : BudgetStop} (h : budgetStop r budget state item = some stop) :
    stop.TrueOf r budget state item := by
  unfold budgetStop at h
  split at h
  next hitems =>
    obtain ⟨limit, hlimit, hover⟩ := (Option.any_eq_true _ _).mp hitems
    obtain rfl := Option.some.inj h
    rw [hlimit]
    exact .maxItems limit hlimit (of_decide_eq_true hover)
  next =>
  split at h
  next hbytes =>
    obtain ⟨limit, hlimit, hover⟩ := (Option.any_eq_true _ _).mp hbytes
    obtain rfl := Option.some.inj h
    rw [hlimit]
    exact .maxBytes limit hlimit (of_decide_eq_true hover)
  next =>
  split at h
  next hglobal =>
    obtain rfl := Option.some.inj h
    have hnot : ¬(state.selection.wouldExceedGlobal budget item item.canonicalCost = false) := by
      rw [hglobal]
      exact Bool.noConfusion
    rw [wouldExceedGlobal_eq_false, not_or, not_and_or, not_le, not_le] at hnot
    obtain ⟨hnew, hover⟩ := hnot
    unfold globalStop
    by_cases hitems : state.selection.byItem.length + 1 > budget.maxTotalItems
    · simp only [if_pos hitems]
      exact .totalItems hnew hitems
    · simp only [if_neg hitems]
      exact .totalBytes hnew (hover.resolve_left hitems)
  next => cases h

end Bounds

/-! ## Where the loop ends -/

/-- What the loop takes is the longest prefix of the frontier that fits,
and it records a stop just where something is left. -/
structure GreedyRun (r : ContextRequirement) (budget : ContextBudget)
    (items : List ContextItem) (state : LoopState) (taken : List ContextItem)
    (state' : LoopState) (stop : Option BudgetStop) : Prop where
  longest : LongestFit (fun first => Fits r budget (state.admitAll first r.requirementId))
    (frontierFrom r state.selectedCount items) taken
  admitted : state' = state.admitAll taken r.requirementId
  complete : frontierFrom r state.selectedCount items = taken → stop = none
  blocked : ∀ blocked after,
    frontierFrom r state.selectedCount items = taken ++ blocked :: after →
    ∃ s, stop = some s ∧ s.TrueOf r budget state' blocked

theorem selectLoop_greedy {r : ContextRequirement} {budget : ContextBudget} :
    ∀ {items : List ContextItem} {state state' : LoopState} {stop : Option BudgetStop},
      selectLoop r budget items state = (state', stop) →
      ∃ taken, GreedyRun r budget items state taken state' stop
  | [], state, state', stop, h => by
      cases h
      exact ⟨[], .nil, rfl, fun _ => rfl, fun _ _ h => by cases h⟩
  | item :: rest, state, state', stop, h => by
      rw [selectLoop] at h
      by_cases hfull : r.coverageMode = .minimum ∧ r.minItems ≤ state.selectedCount
      · have hnone : frontierFrom r state.selectedCount (item :: rest) = [] := by
          rw [frontierFrom, if_pos hfull]
        rw [if_pos hfull] at h
        cases h
        refine ⟨[], ?_, rfl, fun _ => rfl, fun _ _ h => ?_⟩
        · rw [hnone]
          exact .nil
        · rw [hnone] at h
          cases h
      · rw [if_neg hfull] at h
        by_cases hskip : r.coverageMode = .semanticKeys
            ∧ item.semanticKey ∉ r.requiredSemanticKeys
        · have hon : frontierFrom r state.selectedCount (item :: rest)
              = frontierFrom r state.selectedCount rest := by
            rw [frontierFrom, if_neg hfull, if_pos hskip]
          rw [if_pos hskip] at h
          obtain ⟨taken, hrun⟩ := selectLoop_greedy h
          exact ⟨taken, hon ▸ hrun.longest, hrun.admitted, hon ▸ hrun.complete,
            hon ▸ hrun.blocked⟩
        · have hon : frontierFrom r state.selectedCount (item :: rest)
              = item :: frontierFrom r (state.selectedCount + 1) rest := by
            rw [frontierFrom, if_neg hfull, if_neg hskip]
          rw [if_neg hskip] at h
          cases hstop : budgetStop r budget state item with
          | some s =>
              rw [hstop] at h
              cases h
              have hnot : ¬Fits r budget state item := fun hfits => by
                rw [budgetStop_eq_none.mpr hfits] at hstop
                cases hstop
              refine ⟨[], hon ▸ .blocked hnot, rfl, fun h => ?_, fun blocked after h => ?_⟩
              · rw [hon] at h
                cases h
              · rw [hon] at h
                obtain ⟨rfl, -⟩ := List.cons.inj h
                exact ⟨s, rfl, budgetStop_trueOf hstop⟩
          | none =>
              rw [hstop] at h
              obtain ⟨taken, hrun⟩ := selectLoop_greedy h
              refine ⟨item :: taken, ?_, hrun.admitted, fun h => ?_, fun blocked after h => ?_⟩
              · rw [hon]
                exact .cons (budgetStop_eq_none.mp hstop) hrun.longest
              · rw [hon] at h
                exact hrun.complete (List.cons.inj h).2
              · rw [hon] at h
                exact hrun.blocked blocked after (List.cons.inj h).2

section Stops

variable [Sha256]

/-- The candidates a requirement would take, in order, if no bound refused
any. -/
def selectionFrontier (resolution : SnapshotResolution) (r : ContextRequirement) :
    List ContextItem :=
  frontierFrom r 0 (eligibleItems (requirementView resolution r))

/-- The keys of a requirement's view whose claims conflict. -/
def conflictKeys (resolution : SnapshotResolution) (r : ContextRequirement) : List String :=
  (conflictGroups (requirementView resolution r)).map fun entry => entry.1.2

/-- The loop of a requirement once it took the given candidates. -/
def stateAfter (before : Selection) (r : ContextRequirement) (taken : List ContextItem) :
    LoopState :=
  (LoopState.start before).admitAll taken r.requirementId

/-- A bound stops a requirement at `blocked`, an eligible candidate that it
would otherwise have admitted. -/
structure StopsAt (budget : ContextBudget) (resolution : SnapshotResolution)
    (r : ContextRequirement) (before : Selection) (taken : List ContextItem)
    (blocked : ContextItem) : Prop where
  longest : LongestFit (fun first => Fits r budget (stateAfter before r first))
    (selectionFrontier resolution r) taken
  left : taken ++ [blocked] <+: selectionFrontier resolution r

/-- The stop is on record: the call raises under a blocking policy, or it
returns an unknown bound to the requirement with a witness true of the
state at the stop. -/
def StopWitnessed (budget : ContextBudget) (resolution : SnapshotResolution)
    (r : ContextRequirement) (before : Selection) (taken : List ContextItem)
    (blocked : ContextItem) : Prop :=
  (r.missingPolicy = .block ∧ ∃ e, selectFor budget resolution r before = .error e)
  ∨ ∃ after unknowns, selectFor budget resolution r before = .ok (after, unknowns)
      ∧ ∃ u ∈ unknowns, u.reasonCode = .budgetInsufficient
        ∧ u.requirementRef = some r.requirementId
        ∧ ∃ stop : BudgetStop, stop.TrueOf r budget (stateAfter before r taken) blocked
          ∧ ∀ field ∈ stop.details, Json.field field.1 u.details = some field.2

/-- What was taken leaves the requirement open: too few items, or a
required key that is neither taken nor in conflict. -/
def LeavesOpen (resolution : SnapshotResolution) (r : ContextRequirement)
    (taken : List ContextItem) : Prop :=
  r.coverageMode = .semanticKeys → r.minItems ≤ taken.length →
    ∃ key ∈ r.requiredSemanticKeys,
      key ∉ taken.map ContextItem.semanticKey ∧ key ∉ conflictKeys resolution r

/-! ## When a stop is witnessed -/

variable {budget : ContextBudget} {resolution : SnapshotResolution} {r : ContextRequirement}
  {before : Selection} {taken : List ContextItem} {blocked : ContextItem}

omit [Sha256] in
/-- Under minimum coverage the frontier ends with the last item asked
for. -/
theorem length_frontierFrom_minimum (hmode : r.coverageMode = .minimum) :
    ∀ {n : Nat} {items : List ContextItem}, n ≤ r.minItems →
      n + (frontierFrom r n items).length ≤ r.minItems
  | n, [], hn => hn
  | n, item :: rest, hn => by
      rw [frontierFrom]
      by_cases hfull : r.minItems ≤ n
      · rw [if_pos ⟨hmode, hfull⟩]
        exact hn
      · rw [if_neg fun h => hfull h.2, if_neg (by rw [hmode]; exact fun h => by cases h.1)]
        have hrest : n + 1 + (frontierFrom r (n + 1) rest).length ≤ r.minItems :=
          length_frontierFrom_minimum hmode (by omega)
        rw [List.length_cons]
        omega

omit [Sha256] in
theorem selectedCount_stateAfter : (stateAfter before r taken).selectedCount = taken.length :=
  LoopState.selectedCount_admitAll.trans (Nat.zero_add _)

omit [Sha256] in
theorem selectedKeys_stateAfter :
    (stateAfter before r taken).selectedKeys = taken.map ContextItem.semanticKey :=
  LoopState.selectedKeys_admitAll

/-- At a stop the requirement counts as satisfied only where semantic keys
are asked for, and nothing is left open. -/
theorem satisfied_at_stop (hstop : StopsAt budget resolution r before taken blocked) :
    satisfied r (stateAfter before r taken).selectedCount (stateAfter before r taken).selectedKeys
        (conflictKeys resolution r) true = false
      ↔ LeavesOpen resolution r taken := by
  rw [selectedCount_stateAfter, selectedKeys_stateAfter]
  unfold satisfied LeavesOpen
  by_cases hfew : taken.length < r.minItems
  · rw [if_pos hfew]
    exact ⟨fun _ _ henough => absurd henough (by omega), fun _ => rfl⟩
  · rw [if_neg hfew]
    cases hmode : r.coverageMode with
    | semanticKeys =>
        dsimp only
        rw [List.all_eq_false]
        simp only [Bool.or_eq_true, decide_eq_true_eq, not_or, forall_const]
        exact ⟨fun h _ => h, fun h => h (by omega)⟩
    | allEligible => exact ⟨fun _ h => (nomatch h), fun _ => rfl⟩
    | minimum =>
        -- a full requirement stops by itself, before any bound
        have hlength : 0 + (selectionFrontier resolution r).length ≤ r.minItems :=
          length_frontierFrom_minimum hmode (Nat.zero_le _)
        have hleft := hstop.left.length_le
        rw [List.length_append, List.length_singleton] at hleft
        omega

theorem selectFor_at_stop (hstop : StopsAt budget resolution r before taken blocked) :
    ∃ stop : BudgetStop, stop.TrueOf r budget (stateAfter before r taken) blocked
      ∧ selectFor budget resolution r before
        = (shortfall r (stateAfter before r taken) (some stop) (conflictKeys resolution r)).map
          fun short => ((stateAfter before r taken).selection,
            (requirementView resolution r).supersessionUnknowns
              ++ (conflictGroups (requirementView resolution r)).map (requirementConflict r)
              ++ short) := by
  cases hloop : selectLoop r budget (eligibleItems (requirementView resolution r)) (.start before)
    with
  | mk state stop? =>
      obtain ⟨taken', hrun⟩ := selectLoop_greedy hloop
      obtain rfl : taken' = taken := hrun.longest.unique hstop.longest
      obtain ⟨after, hafter⟩ := hstop.left
      rw [List.append_assoc, List.singleton_append] at hafter
      obtain ⟨stop, rfl, htrue⟩ := hrun.blocked blocked after hafter.symm
      obtain rfl := hrun.admitted
      refine ⟨stop, htrue, ?_⟩
      have hmap : ∀ (result : Except RuntimeError (List ContextUnknown)) (selection : Selection)
          (us : List ContextUnknown), (result >>= fun short => Except.ok (selection, us ++ short))
            = result.map fun short => (selection, us ++ short) := by
        intro result selection us
        cases result <;> rfl
      unfold selectFor
      dsimp only
      rw [hloop]
      exact hmap _ _ _

omit [Sha256] in
/-- The witness of a stop is read back from the details it is written
into. -/
theorem field_shortfallDetails {stop : BudgetStop} {keys disposed : List String} :
    ∀ field ∈ stop.details,
      Json.field field.1 (shortfallDetails r (some stop) keys disposed) = some field.2 := by
  intro field hfield
  unfold BudgetStop.details at hfield
  simp only [List.mem_cons, List.not_mem_nil, or_false] at hfield
  rcases hfield with rfl | rfl | rfl | rfl | rfl | rfl <;> rfl

theorem shortfall_unwitnessed {state : LoopState} {disposed : List String} (stop : BudgetStop)
    (hnot : satisfied r state.selectedCount state.selectedKeys disposed true = false) :
    (r.missingPolicy = .block ∧ ∃ e, shortfall r state (some stop) disposed = .error e)
      ∨ ∃ u, shortfall r state (some stop) disposed = .ok [u]
        ∧ u.reasonCode = .budgetInsufficient ∧ u.requirementRef = some r.requirementId
        ∧ ∀ field ∈ stop.details, Json.field field.1 u.details = some field.2 := by
  have hopen : shortfall r state (some stop) disposed
      = disposeUnsatisfied r (some stop) state.selectedKeys disposed := by
    unfold shortfall
    exact if_neg (by rw [Option.isSome_some, hnot]; exact Bool.noConfusion)
  rw [hopen]
  unfold disposeUnsatisfied
  cases hpolicy : r.missingPolicy with
  | block => exact .inl ⟨rfl, _, rfl⟩
  | optional => exact .inr ⟨_, rfl, rfl, rfl, field_shortfallDetails⟩
  | preserveUnknown => exact .inr ⟨_, rfl, rfl, rfl, field_shortfallDetails⟩

/-- A stop is witnessed exactly where it leaves the requirement open. -/
theorem stopWitnessed_iff (hstop : StopsAt budget resolution r before taken blocked) :
    StopWitnessed budget resolution r before taken blocked ↔ LeavesOpen resolution r taken := by
  obtain ⟨stop, htrue, hselect⟩ := selectFor_at_stop hstop
  rw [← satisfied_at_stop hstop]
  constructor
  · intro hwitnessed
    by_contra hsatisfied
    -- a satisfied requirement leaves only what its view leaves
    have hnone : shortfall r (stateAfter before r taken) (some stop) (conflictKeys resolution r)
        = .ok [] := by
      unfold shortfall
      exact if_pos (Bool.eq_true_of_not_eq_false hsatisfied)
    rw [hnone] at hselect
    obtain ⟨-, e, he⟩ | ⟨after, unknowns, hok, u, hu, hreason, href, -⟩ := hwitnessed
    · rw [hselect] at he
      cases he
    · obtain ⟨-, rfl⟩ := Prod.mk.inj (Except.ok.inj (hselect.symm.trans hok))
      rw [List.append_nil] at hu
      rcases List.mem_append.mp hu with hu | hu
      · obtain ⟨kind, -, hview⟩ := mem_view_unknowns.mp hu
        rw [(mem_supersessionUnknowns hview).1] at href
        cases href
      · obtain ⟨entry, -, rfl⟩ := List.mem_map.mp hu
        cases hreason
  · intro hnot
    obtain ⟨hpolicy, e, he⟩ | ⟨u, hu, hreason, href, hdetails⟩ :=
      shortfall_unwitnessed stop hnot
    · refine .inl ⟨hpolicy, e, ?_⟩
      rw [hselect, he]
      rfl
    · rw [hu] at hselect
      exact .inr ⟨_, _, hselect, u, List.mem_append_right _ (List.mem_singleton_self _), hreason,
        href, stop, htrue, hdetails⟩

/-- Every budget stop of a requirement is witnessed exactly when each
leaves the requirement open: semantic keys can all be covered while more
candidates of a covered key are cut off. -/
theorem budget_stops_witnessed_iff (budget : ContextBudget) (resolution : SnapshotResolution)
    (r : ContextRequirement) (before : Selection) :
    (∀ taken blocked, StopsAt budget resolution r before taken blocked →
      StopWitnessed budget resolution r before taken blocked)
    ↔ ∀ taken blocked, StopsAt budget resolution r before taken blocked →
      LeavesOpen resolution r taken :=
  forall_congr' fun _ => forall_congr' fun _ => forall_congr' fun hstop => stopWitnessed_iff hstop

end Stops

/-! ## Two reports, one of them wanted -/

section Reports

attribute [local instance] Sha256.transparent

/-- A coverage report of one of two runs of the test suite. -/
def coverageReport (digest : String) : ContextItem :=
  .create .governedVerified
    { sourceId := "ci", sourceKind := "ci_run", locator := "coverage.xml"
      immutableCoordinate := some "9c41", contentDigest := none }
    .global []
    (.evidenceRef { evidenceId := "coverage", evidenceType := "test_report"
                    supportsSemanticKeys := [], digest := some digest })

/-- Both runs reported under one evidence id. -/
def coverageReports : SnapshotResolution :=
  { candidates := [coverageReport "sha256:61", coverageReport "sha256:7d"] }

def coverageDraft : ContextRequirement :=
  { requirementId := "", contextKind := .evidenceRef, reason := "the coverage of the change"
    required := true, scopeMode := .global, scopeRefs := []
    freshnessRequirement := .any, coordinateConstraint := none
    minimumAuthority := .governedVerified, priority := 70, coverageMode := .semanticKeys
    minItems := 1, requiredSemanticKeys := ["coverage"], maxItems := some 1, maxBytes := none
    missingPolicy := .preserveUnknown, kernelNeedRefs := [] }

/-- The coverage evidence, of which at most one record is taken. -/
def coverageRequirement : ContextRequirement :=
  { coverageDraft with requirementId := deriveId "ctxreq" (.obj coverageDraft.identityPayload) }

/-- A budget with room for both reports. -/
def coverageBudget : ContextBudget :=
  { maxTotalItems := 2, maxTotalBytes := totalCost coverageReports.candidates }

theorem coverageReport_mem {item : ContextItem}
    (h : item ∈ eligibleItems (requirementView coverageReports coverageRequirement)) :
    item ∈ coverageReports.candidates :=
  (eligible_matches h).1

theorem coverage_digest_ne :
    claimDigest (coverageReport "sha256:61") ≠ claimDigest (coverageReport "sha256:7d") := by
  intro h
  have hsame := ((claimDigest_eq_iff Sha256.transparent_injective).mp h).1.field "digest"
  simp [coverageReport, ContextItem.create, Claim.payload, Json.field, Json.ofOption] at hsame

theorem resolveGroup_evidence {reps : List ContextItem} {item : ContextItem} (h : item ∈ reps) :
    (resolveGroup .evidenceRef reps).conflict = false
      ∧ item ∈ (resolveGroup .evidenceRef reps).items := by
  unfold resolveGroup
  split
  · exact ⟨rfl, h⟩
  · exact ⟨rfl, (mem_sortedBy _).mpr h⟩

/-- Both reports survive under their one key. -/
theorem coverageReport_eligible {item : ContextItem} (h : item ∈ coverageReports.candidates) :
    item ∈ eligibleItems (requirementView coverageReports coverageRequirement) := by
  have hview : requirementView coverageReports coverageRequirement
      = resolveCandidates coverageReports.candidates := rfl
  have hmembers : groupMembers coverageReports.candidates (.evidenceRef, "coverage")
      = coverageReports.candidates := by
    rw [groupMembers_of_kind rfl]
    rfl
  obtain ⟨rep, hrep, hsame⟩ := exists_representative h
  obtain rfl : rep = item := by
    have hrep' := mem_of_mem_representatives hrep
    simp only [coverageReports, List.mem_cons, List.not_mem_nil, or_false] at h hrep'
    rcases h with rfl | rfl <;> rcases hrep' with rfl | rfl
    · rfl
    · exact absurd hsame.symm coverage_digest_ne
    · exact absurd hsame coverage_digest_ne
    · rfl
  rw [hview]
  obtain ⟨hsettled, hitem⟩ := resolveGroup_evidence hrep
  refine mem_eligibleItems.mpr ⟨(( .evidenceRef, "coverage"), _), mem_groups.mpr
    ⟨?_, rfl⟩, ?_, ?_⟩
  · rw [hmembers]
    exact List.cons_ne_nil _ _
  · rw [hmembers]
    exact hsettled
  · rw [hmembers]
    exact hitem

theorem exists_two {α : Type} {a b : α} (hne : a ≠ b) :
    ∀ {xs : List α}, a ∈ xs → b ∈ xs → ∃ x y rest, xs = x :: y :: rest
  | [_], ha, hb => absurd ((List.mem_singleton.mp ha).trans (List.mem_singleton.mp hb).symm) hne
  | x :: y :: rest, _, _ => ⟨x, y, rest, rfl⟩

/-- Everything eligible is asked for. -/
theorem coverage_frontier : selectionFrontier coverageReports coverageRequirement
    = eligibleItems (requirementView coverageReports coverageRequirement) := by
  refine frontierFrom_of_asked (fun h => by cases h) fun item hitem _ => ?_
  have hmem := coverageReport_mem hitem
  simp only [coverageReports, List.mem_cons, List.not_mem_nil, or_false] at hmem
  rcases hmem with rfl | rfl <;> exact List.mem_singleton_self _

/-- Asked for one record of a key that has two, the requirement is
satisfied by the first, and the bound that cut off the second leaves no
record. -/
theorem second_report_unwitnessed :
    ∃ taken blocked,
      StopsAt coverageBudget coverageReports coverageRequirement .empty taken blocked
      ∧ ¬StopWitnessed coverageBudget coverageReports coverageRequirement .empty taken
          blocked := by
  have hne : coverageReport "sha256:61" ≠ coverageReport "sha256:7d" := fun h =>
    coverage_digest_ne (congrArg claimDigest h)
  obtain ⟨x, y, rest, hfrontier⟩ := exists_two hne
    (coverageReport_eligible (List.mem_cons_self ..))
    (coverageReport_eligible (List.mem_cons_of_mem _ (List.mem_singleton_self _)))
  have hx : x ∈ coverageReports.candidates :=
    coverageReport_mem (hfrontier ▸ List.mem_cons_self ..)
  rw [← coverage_frontier] at hfrontier
  have hstop : StopsAt coverageBudget coverageReports coverageRequirement .empty [x] y := by
    refine ⟨?_, ⟨rest, hfrontier.symm⟩⟩
    rw [hfrontier]
    refine .cons ⟨fun limit hlimit => ?_, (fun limit hlimit => by cases hlimit), .inr ⟨?_, ?_⟩⟩
      (.blocked fun hfits => ?_)
    · cases hlimit
      exact le_refl 1
    · show 0 + 1 ≤ 2
      omega
    · show 0 + x.canonicalCost ≤ totalCost coverageReports.candidates
      rw [Nat.zero_add]
      exact List.single_le_sum (fun _ _ => Nat.zero_le _) _ (List.mem_map_of_mem hx)
    · have hmax : 1 + 1 ≤ 1 := hfits.maxItems 1 rfl
      omega
  refine ⟨[x], y, hstop, fun hwitnessed => ?_⟩
  obtain ⟨key, hkey, hopen, -⟩ := (stopWitnessed_iff hstop).mp hwitnessed rfl (le_refl 1)
  obtain rfl := List.mem_singleton.mp hkey
  refine hopen ?_
  simp only [coverageReports, List.mem_cons, List.not_mem_nil, or_false] at hx
  rcases hx with rfl | rfl <;> exact List.mem_singleton_self _

end Reports

end CognitiveRuntime
