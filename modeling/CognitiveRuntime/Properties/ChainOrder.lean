import CognitiveRuntime.Compiler.Contracts

/-!
# The graph of a chain

The steps of a contract form a chain, and the graph compiler sorts them
topologically before it compares the order with the steps. A chain of
distinct ids has one topological order, which is the chain: the loop
holds one ready node at a time and the edges from that node on.
-/

namespace CognitiveRuntime

open Ordered Fallible

/-! ## The edges of a chain -/

/-- Consecutive ids as pairs. -/
def chainPairs (ids : List String) : List (String × String) := ids.zip ids.tail

@[simp] theorem chainPairs_cons_cons (a b : String) (rest : List String) :
    chainPairs (a :: b :: rest) = (a, b) :: chainPairs (b :: rest) := rfl

@[simp] theorem chainPairs_singleton (a : String) : chainPairs [a] = [] := rfl

theorem chainEdges_pairs (ids : List String) :
    (chainEdges ids).map (fun e => (e.fromNode, e.toNode)) = chainPairs ids := by
  unfold chainEdges chainPairs
  rw [List.map_map]
  exact List.map_id _

theorem map_snd_chainPairs : ∀ ids : List String, (chainPairs ids).map Prod.snd = ids.tail
  | [] => rfl
  | [_] => rfl
  | a :: b :: rest => by
      rw [chainPairs_cons_cons, List.map_cons, map_snd_chainPairs (b :: rest)]
      rfl

theorem mem_chainPairs {ids : List String} {e : String × String} (h : e ∈ chainPairs ids) :
    e.1 ∈ ids ∧ e.2 ∈ ids.tail := by
  obtain ⟨a, b⟩ := e
  exact List.of_mem_zip h

/-- The edges that leave a node of a chain: the one to the next node. -/
theorem filter_chainPairs {before : List String} {node : String} {rest : List String}
    (hnodup : (before ++ node :: rest).Nodup) :
    (chainPairs (before ++ node :: rest)).filter (fun e => e.1 = node)
      = rest.head?.toList.map fun next => (node, next) := by
  induction before with
  | nil =>
      obtain ⟨hfresh, -⟩ := List.nodup_cons.mp hnodup
      cases rest with
      | nil => rfl
      | cons next rest =>
          have hlater : (chainPairs (next :: rest)).filter (fun e => e.1 = node) = [] := by
            rw [List.filter_eq_nil_iff]
            intro e he heq
            exact hfresh (of_decide_eq_true heq ▸ (mem_chainPairs he).1)
          rw [List.nil_append, chainPairs_cons_cons, List.filter_cons_of_pos (by simp), hlater]
          rfl
  | cons a before ih =>
      obtain ⟨hfresh, hnodup⟩ := List.nodup_cons.mp hnodup
      have hne : a ≠ node := by
        rintro rfl
        exact hfresh (List.mem_append_right _ (List.mem_cons_self ..))
      have hstep : chainPairs (a :: before ++ node :: rest)
          = (a, ((before ++ node :: rest).head?.getD "")) :: chainPairs (before ++ node :: rest) := by
        cases before <;> rfl
      rw [hstep, List.filter_cons_of_neg (by simpa using hne), ih hnodup]

/-! ## The loop -/

/-- One round of the loop on a chain leaves the edges after the node. -/
theorem filter_chainPairs_head {node next : String} {rest : List String}
    (hfresh : node ∉ next :: rest) :
    (chainPairs (node :: next :: rest)).filter (fun e => ¬(e.1 = node ∧ e.2 = next))
      = chainPairs (next :: rest) := by
  rw [chainPairs_cons_cons, List.filter_cons_of_neg (by simp), List.filter_eq_self]
  intro e he
  rw [decide_eq_true_eq]
  rintro ⟨rfl, -⟩
  exact hfresh (mem_chainPairs he).1

/-- The loop walks a chain from any of its nodes to its end. -/
theorem topologicalLoop_chain {rest : List String} :
    ∀ {before : List String} {node : String} {fuel : Nat} {ordered : List String},
      (before ++ node :: rest).Nodup → rest.length < fuel →
      topologicalLoop (chainPairs (before ++ node :: rest)) fuel [node]
        (chainPairs (node :: rest)) ordered = ordered ++ node :: rest := by
  induction rest with
  | nil =>
      intro before node fuel ordered hnodup hfuel
      obtain ⟨fuel, rfl⟩ := Nat.exists_eq_succ_of_ne_zero (Nat.ne_zero_of_lt hfuel)
      simp only [topologicalLoop, freeSuccessors, filter_chainPairs hnodup, List.head?_nil, Option.toList_none,
        List.map_nil, sortedUnique_nil, List.foldl_nil, List.append_nil]
      cases fuel <;> rfl
  | cons next rest ih =>
      intro before node fuel ordered hnodup hfuel
      obtain ⟨fuel, rfl⟩ := Nat.exists_eq_succ_of_ne_zero (Nat.ne_zero_of_lt hfuel)
      have hsuffix : (node :: next :: rest).Nodup :=
        hnodup.sublist (List.sublist_append_right _ _)
      obtain ⟨hfresh, htail⟩ := List.nodup_cons.mp hsuffix
      have hsole : sortedUnique [next] = [next] := rfl
      have hfree : (chainPairs (next :: rest)).any (fun e => e.2 = next) = false := by
        rw [List.any_eq_false]
        intro e he heq
        exact (List.nodup_cons.mp htail).1 (of_decide_eq_true heq ▸ (mem_chainPairs he).2)
      have hshift : before ++ node :: next :: rest = (before ++ [node]) ++ next :: rest := by
        simp
      simp only [topologicalLoop, freeSuccessors, filter_chainPairs hnodup, List.head?_cons, Option.toList_some,
        List.map_cons, List.map_nil, hsole, List.foldl_cons, List.foldl_nil,
        filter_chainPairs_head hfresh, hfree, List.nil_append, Bool.false_eq_true, if_false]
      rw [hshift, ih (hshift ▸ hnodup) (Nat.lt_of_succ_lt_succ hfuel), List.append_assoc]
      rfl

/-- A chain of distinct ids is its own topological order. -/
theorem topologicalOrder_chain {ids : List String} (hnodup : ids.Nodup) :
    topologicalOrder ids (chainEdges ids) = .ok ids := by
  have hends : checkEach (fun e => ensure (decide (e.fromNode ∈ ids) && decide (e.toNode ∈ ids))
      (RuntimeError.invalidValue "edge references missing node" (some "edges")
        (ExecutionGraphEdge.toJson e))) (chainEdges ids) = .ok () := by
    refine checkEach_eq_ok.mpr fun e he => ?_
    obtain ⟨p, hp, rfl⟩ := List.mem_map.mp he
    have hboth := mem_chainPairs hp
    simp [ensure, hboth.1, List.mem_of_mem_tail hboth.2]
  unfold topologicalOrder
  rw [hends, ok_bind]
  dsimp only
  rw [chainEdges_pairs]
  cases ids with
  | nil => rfl
  | cons first rest =>
      obtain ⟨hfresh, -⟩ := List.nodup_cons.mp hnodup
      have htarget : ∀ id, (chainPairs (first :: rest)).any (fun e => e.2 = id) = true
          ↔ id ∈ rest := by
        intro id
        have hmap : (chainPairs (first :: rest)).map Prod.snd = rest := map_snd_chainPairs _
        rw [List.any_eq_true]
        constructor
        · rintro ⟨e, he, heq⟩
          exact of_decide_eq_true heq ▸ (mem_chainPairs he).2
        · intro hid
          rw [← hmap] at hid
          obtain ⟨e, he, heq⟩ := List.mem_map.mp hid
          exact ⟨e, he, decide_eq_true heq⟩
      have hready : (first :: rest).filter (fun id => !(chainPairs (first :: rest)).any
          fun e => e.2 = id) = [first] := by
        have hfirst := Bool.eq_false_of_not_eq_true ((htarget first).not.mpr hfresh)
        have hlater : rest.filter (fun id => !(chainPairs (first :: rest)).any
            fun e => e.2 = id) = [] := by
          rw [List.filter_eq_nil_iff]
          intro id hid
          rw [(htarget id).mpr hid]
          exact Bool.false_ne_true
        rw [List.filter_cons_of_pos (by rw [hfirst]; rfl), hlater]
      have hfuel : rest.length
          < (first :: rest).length * ((chainEdges (first :: rest)).length + 1)
            ^ (first :: rest).length := by
        have hpos : 0 < ((chainEdges (first :: rest)).length + 1) ^ (first :: rest).length :=
          Nat.pow_pos (Nat.succ_pos _)
        have hle := Nat.le_mul_of_pos_right (first :: rest).length hpos
        rw [List.length_cons] at hle ⊢
        omega
      have hloop : topologicalLoop (chainPairs (first :: rest))
          ((first :: rest).length * ((chainEdges (first :: rest)).length + 1)
            ^ (first :: rest).length) [first] (chainPairs (first :: rest)) []
          = first :: rest := by
        have hwalk : ([] ++ first :: rest).Nodup := hnodup
        exact topologicalLoop_chain hwalk hfuel
      have hsole : sortedBy id [first] = [first] := rfl
      rw [hready, hsole, hloop]
      simp only [ensure, decide_true, if_true, ok_bind]

/-! ## The graph of a contract -/

theorem checkStepIds_of_nodup {ids : List String} :
    ∀ {seen : List String}, ids.Nodup → (∀ id ∈ ids, id ∉ seen) → checkStepIds seen ids = .ok () := by
  induction ids with
  | nil => intros; rfl
  | cons id rest ih =>
      intro seen hnodup hseen
      obtain ⟨hfresh, hnodup⟩ := List.nodup_cons.mp hnodup
      have hrest : ∀ id' ∈ rest, id' ∉ id :: seen := by
        intro id' hid' hmem
        rcases List.mem_cons.mp hmem with rfl | hmem
        · exact hfresh hid'
        · exact hseen id' (List.mem_cons_of_mem _ hid') hmem
      simp only [checkStepIds, ensure, hseen id (List.mem_cons_self ..), not_false_eq_true,
        decide_true, if_true, ok_bind]
      exact ih hnodup hrest

/-- A contract whose steps have distinct ids has a graph: the chain of
its steps, which ends in the last one. -/
theorem deriveExecutionGraph_chain {execution : ExecutionContract}
    (hsteps : execution.executionSteps ≠ [])
    (hnodup : (execution.executionSteps.map ExecutionStep.stepId).Nodup) :
    ∃ graph, deriveExecutionGraph execution = .ok graph
      ∧ graph.nodes = execution.executionSteps.map graphNode
      ∧ graph.edges = chainEdges (execution.executionSteps.map ExecutionStep.stepId)
      ∧ (execution.executionSteps.map ExecutionStep.stepId).getLast? = some graph.terminalNode
      ∧ graph.obligationRefs = (execution.obligations.filter fun o =>
        o.required && decide (o.disposition = .pending)).map Obligation.obligationId := by
  obtain ⟨terminalNode, hlast⟩ : ∃ id,
      (execution.executionSteps.map ExecutionStep.stepId).getLast? = some id := by
    refine ⟨_, List.getLast?_eq_some_getLast fun h => hsteps (List.map_eq_nil_iff.mp h)⟩
  unfold deriveExecutionGraph
  simp only [hlast, require, ok_bind, checkStepIds_of_nodup hnodup fun _ _ => List.not_mem_nil,
    topologicalOrder_chain hnodup, ensure, decide_true, if_true]
  exact ⟨_, rfl, rfl, rfl, rfl, rfl⟩

/-- Every node of a chain but the last has an edge that leaves it. -/
theorem exists_edge_of_chain : ∀ {ids : List String} {id : String}, id ∈ ids →
    ids.getLast? ≠ some id → ∃ e ∈ chainEdges ids, e.fromNode = id
  | [a], id, hid, hlast => by
      obtain rfl := List.mem_singleton.mp hid
      exact absurd rfl hlast
  | a :: b :: rest, id, hid, hlast => by
      rcases List.mem_cons.mp hid with rfl | hid
      · exact ⟨_, List.mem_cons_self .., rfl⟩
      · rw [List.getLast?_cons_cons] at hlast
        obtain ⟨e, he, hfrom⟩ := exists_edge_of_chain hid hlast
        exact ⟨e, List.mem_cons_of_mem _ he, hfrom⟩

end CognitiveRuntime
