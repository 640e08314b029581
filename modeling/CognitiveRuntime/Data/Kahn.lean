import CognitiveRuntime.Data.Reach

/-!
# Kahn's worklist

A worklist that places the nodes of a finite graph one by one, each
after its predecessors. The state is the list of placed nodes and the
queue of ready ones. `Frontier` is the invariant: the queue holds
exactly the nodes that are not placed and whose predecessors all are.

Whatever order the queue is seeded and extended in, a run that empties
it has placed every node of an acyclic graph (`Frontier.covers`), and
has left a node behind in any other (`Frontier.offCycle_of_covers`).
-/

namespace Kahn

open Relation

variable {α : Type*} (E : α → α → Prop)

/-! ## Lists in which every edge goes forward -/

/-- Each node of the list comes after all of its predecessors. -/
def Forward (order : List α) : Prop :=
  ∀ before node after, order = before ++ node :: after → ∀ u, E u node → u ∈ before

variable {E}

theorem forward_nil : Forward E [] := by
  intro before node after h
  cases before <;> cases h

/-- A node may be added once its predecessors are there. -/
theorem Forward.snoc {order : List α} {node : α} (h : Forward E order)
    (hpreds : ∀ u, E u node → u ∈ order) : Forward E (order ++ [node]) := by
  intro before last after heq u hu
  rcases List.eq_nil_or_concat after with rfl | ⟨middle, last', rfl⟩
  · obtain ⟨rfl, hlast⟩ := List.append_inj' heq rfl
    obtain rfl : node = last := List.cons.inj hlast |>.1
    exact hpreds u hu
  · rw [List.concat_eq_append, ← List.cons_append, ← List.append_assoc] at heq
    obtain ⟨rfl, -⟩ := List.append_inj' heq rfl
    exact h before last middle rfl u hu

/-- A path into a listed node starts before it. -/
theorem Forward.path_before {order : List α} (h : Forward E order) {u v : α}
    (huv : TransGen E u v) :
    ∀ before after, order = before ++ v :: after → u ∈ before := by
  induction huv with
  | single huv => exact fun before after heq => h before _ after heq u huv
  | @tail w v _ hwv ih =>
      intro before after heq
      obtain ⟨front, back, rfl⟩ := List.append_of_mem (h before v after heq w hwv)
      have hw : order = front ++ w :: (back ++ v :: after) := by
        rw [heq, List.append_assoc, List.cons_append]
      exact List.mem_append_left _ (ih front _ hw)

/-- No listed node is on a cycle. -/
theorem Forward.offCycle {order : List α} (h : Forward E order) (hnodup : order.Nodup) {v : α}
    (hv : v ∈ order) : Reach.OffCycle E v := by
  intro hloop
  obtain ⟨before, after, rfl⟩ := List.append_of_mem hv
  have hbefore := h.path_before hloop before after rfl
  exact (List.nodup_append.mp hnodup).2.2 v hbefore v (List.mem_cons_self ..) rfl

/-- Every edge of the list goes from an earlier place to a later one. -/
theorem Forward.idxOf_lt [DecidableEq α] {order : List α} (h : Forward E order) {u v : α}
    (hv : v ∈ order) (huv : E u v) : order.idxOf u < order.idxOf v := by
  obtain ⟨before, after, rfl, hfirst⟩ : ∃ before after, order = before ++ v :: after
      ∧ v ∉ before := List.eq_append_cons_of_mem hv
  have hu : u ∈ before := h before v after rfl u huv
  rw [List.idxOf_append_of_mem hu, List.idxOf_append_of_notMem hfirst, List.idxOf_cons_self]
  exact Nat.lt_add_right _ (List.idxOf_lt_length_of_mem hu)

/-! ## The worklist -/

variable (E)

/-- The invariant of the worklist over the nodes of a graph. -/
structure Frontier (nodes ready placed : List α) : Prop where
  nodup : (placed ++ ready).Nodup
  mem : ∀ v, v ∈ placed ++ ready ↔ v ∈ nodes ∧ ∀ u, E u v → u ∈ placed
  forward : Forward E placed

variable {E}

/-- The queue is seeded with the nodes that have no predecessor. -/
theorem Frontier.seed {nodes ready : List α} (hnodup : ready.Nodup)
    (hmem : ∀ v, v ∈ ready ↔ v ∈ nodes ∧ ∀ u, ¬E u v) : Frontier E nodes ready [] := by
  refine ⟨hnodup, fun v => ?_, forward_nil⟩
  rw [List.nil_append, hmem]
  simp only [List.not_mem_nil]

/-- One round: place the first ready node, and queue the successors that
it was the last to hold back. -/
theorem Frontier.pop {nodes ready placed freed : List α} {node : α}
    (h : Frontier E nodes (node :: ready) placed) (hfreed : freed.Nodup)
    (hmem : ∀ v, v ∈ freed ↔ v ∈ nodes ∧ E node v ∧ ∀ u, E u v → u ∈ placed ∨ u = node) :
    Frontier E nodes (ready ++ freed) (placed ++ [node]) := by
  have hlist : placed ++ [node] ++ (ready ++ freed) = (placed ++ node :: ready) ++ freed := by
    simp
  have hplaced : ∀ u, u ∈ placed ++ [node] ↔ u ∈ placed ∨ u = node := by
    intro u
    rw [List.mem_append, List.mem_singleton]
  have hpreds : ∀ u, E u node → u ∈ placed :=
    ((h.mem node).mp (List.mem_append_right _ (List.mem_cons_self ..))).2
  have hfresh : node ∉ placed := fun hmem =>
    (List.nodup_append.mp h.nodup).2.2 node hmem node (List.mem_cons_self ..) rfl
  refine ⟨?_, fun v => ?_, h.forward.snoc hpreds⟩
  · rw [hlist, List.nodup_append]
    refine ⟨h.nodup, hfreed, ?_⟩
    -- what was there already did not wait for the node
    rintro v hv w hw rfl
    exact hfresh (((h.mem v).mp hv).2 node ((hmem v).mp hw).2.1)
  · simp only [hplaced]
    rw [hlist, List.mem_append, h.mem v, hmem v]
    constructor
    · rintro (⟨hv, hall⟩ | ⟨hv, -, hall⟩)
      · exact ⟨hv, fun u hu => Or.inl (hall u hu)⟩
      · exact ⟨hv, hall⟩
    · rintro ⟨hv, hall⟩
      by_cases hnode : E node v
      · exact Or.inr ⟨hv, hnode, hall⟩
      · refine Or.inl ⟨hv, fun u hu => (hall u hu).resolve_right ?_⟩
        rintro rfl
        exact hnode hu

/-- With the queue empty, all nodes are placed if none is on a cycle. -/
theorem Frontier.covers {nodes placed : List α} (h : Frontier E nodes [] placed)
    (hsource : ∀ u v, E u v → u ∈ nodes) (hacyclic : ∀ v, Reach.OffCycle E v) :
    ∀ v ∈ nodes, v ∈ placed := by
  have hfinite : {v | v ∈ nodes}.Finite := nodes.finite_toSet
  have hall : ∀ v, Reach.OffCycle E v → v ∈ nodes → v ∈ placed := by
    refine Reach.offCycle_induction hfinite hsource fun t _ ih ht => ?_
    have hmem := (h.mem t).mpr ⟨ht, fun s hs => ih s (hacyclic s) hs (hsource s t hs)⟩
    rwa [List.append_nil] at hmem
  exact fun v hv => hall v (hacyclic v) hv

/-- A graph whose nodes were all placed has no cycle. -/
theorem Frontier.offCycle_of_covers {nodes ready placed : List α}
    (h : Frontier E nodes ready placed) (htarget : ∀ u v, E u v → v ∈ nodes)
    (hcovers : ∀ v ∈ nodes, v ∈ placed) (v : α) : Reach.OffCycle E v := by
  intro hloop
  obtain ⟨w, -, hwv⟩ := TransGen.tail'_iff.mp hloop
  have hnodup : placed.Nodup := (List.nodup_append.mp h.nodup).1
  exact h.forward.offCycle hnodup (hcovers v (htarget w v hwv)) hloop

/-- Nodes are placed at most once, and nothing else is placed. -/
theorem Frontier.length_le {nodes ready placed : List α} (h : Frontier E nodes ready placed) :
    placed.length + ready.length ≤ nodes.length := by
  rw [← List.length_append]
  exact (List.subperm_of_subset h.nodup fun v hv => ((h.mem v).mp hv).1).length_le

/-- As many nodes are placed as are listed only if each is, once. -/
theorem Frontier.perm_of_length_eq {nodes placed : List α} (h : Frontier E nodes [] placed)
    (hlen : placed.length = nodes.length) : placed.Perm nodes := by
  have hplaced : placed.Nodup := (List.nodup_append.mp h.nodup).1
  have hsub : placed ⊆ nodes := fun v hv => ((h.mem v).mp (List.mem_append_left _ hv)).1
  exact (List.subperm_of_subset hplaced hsub).perm_of_length_le hlen.ge

/-- As many nodes are placed as there are, exactly when there is no
cycle. -/
theorem Frontier.length_eq_iff {nodes placed : List α} (h : Frontier E nodes [] placed)
    (hnodup : nodes.Nodup) (hends : ∀ u v, E u v → u ∈ nodes ∧ v ∈ nodes) :
    placed.length = nodes.length ↔ ∀ v, Reach.OffCycle E v := by
  have hplaced : placed.Nodup := (List.nodup_append.mp h.nodup).1
  constructor
  · intro hlen
    have hperm := h.perm_of_length_eq hlen
    exact h.offCycle_of_covers (fun u v huv => (hends u v huv).2) fun v hv => hperm.mem_iff.mpr hv
  · intro hacyclic
    have hcovers := h.covers (fun u v huv => (hends u v huv).1) hacyclic
    exact ((List.perm_ext_iff_of_nodup hplaced hnodup).mpr fun v =>
      ⟨fun hv => ((h.mem v).mp (List.mem_append_left _ hv)).1, hcovers v⟩).length_eq

end Kahn
