import Mathlib.Data.List.Count
import CognitiveRuntime.Data.Kahn

/-!
# Runs that place a node more than once

A worklist seeded with a node twice places it twice, and each time it is
placed it queues every successor whose predecessors have all been placed
by then. `Run` is such a run to an empty queue. The set of nodes it
places does not depend on the seed's order (`SeededRun.mem_iff`); how often it
places one does, for a node with two predecessors is queued once for
each placing of a predecessor from the last first one on (`Run.count`).

Two seeds that hold the same nodes place every node equally often if no
placed node is `Tangled`: each has one predecessor, or nothing repeated
above it, or what is above it is listed alike (`SeededRun.perm`).
-/

namespace Kahn

open Relation

variable {α : Type*}

/-! ## Placings of predecessors -/

open Classical in
/-- How many of the listed nodes are of the kind and come when all of
the kind have been seen. -/
noncomputable def copies (P : α → Prop) : List α → List α → Nat
  | _, [] => 0
  | seen, node :: rest =>
    (if P node ∧ ∀ u, P u → u ∈ seen ∨ u = node then 1 else 0) + copies P (seen ++ [node]) rest

section Copies

variable {P : α → Prop}

theorem copies_none (h : ∀ u, ¬P u) : ∀ {seen l : List α}, copies P seen l = 0
  | _, [] => rfl
  | seen, node :: rest => by
      rw [copies, if_neg fun hnode => h node hnode.1, copies_none h]

/-- Of a kind with one node, every placing counts. -/
theorem copies_one [DecidableEq α] {u : α} (h : ∀ w, P w ↔ w = u) :
    ∀ {seen l : List α}, copies P seen l = l.count u
  | _, [] => rfl
  | seen, node :: rest => by
      rw [copies, copies_one h, List.count_cons]
      by_cases hnode : node = u
      · subst hnode
        have hall : P node ∧ ∀ w, P w → w ∈ seen ∨ w = node :=
          ⟨(h node).mpr rfl, fun w hw => Or.inr ((h w).mp hw)⟩
        rw [if_pos hall, if_pos (beq_self_eq_true node), Nat.add_comm]
      · rw [if_neg fun hall => hnode ((h node).mp hall.1), if_neg (by simpa using hnode),
          Nat.zero_add, Nat.add_zero]

/-- Some placing counts exactly when all of the kind are seen and one is
still listed: the last of them counts. -/
theorem copies_pos :
    ∀ {seen l : List α}, 0 < copies P seen l ↔
      (∀ u, P u → u ∈ seen ∨ u ∈ l) ∧ ∃ u ∈ l, P u
  | seen, [] => by
      simp [copies]
  | seen, node :: rest => by
      rw [copies, Nat.add_pos_iff_pos_or_pos, copies_pos]
      simp only [List.mem_append, List.mem_cons, List.not_mem_nil, or_false]
      constructor
      · rintro (hnow | ⟨hall, u, hu, hP⟩)
        · obtain ⟨hP, hall⟩ : P node ∧ ∀ u, P u → u ∈ seen ∨ u = node := by
            by_contra hnot
            rw [if_neg hnot] at hnow
            exact absurd hnow (Nat.lt_irrefl 0)
          exact ⟨fun u hu => (hall u hu).imp_right Or.inl, node, Or.inl rfl, hP⟩
        · exact ⟨fun w hw => or_assoc.mp (hall w hw), u, Or.inr hu, hP⟩
      · rintro ⟨hall, u, hu, hP⟩
        by_cases hlater : ∃ w ∈ rest, P w
        · exact Or.inr ⟨fun w hw => or_assoc.mpr (hall w hw), hlater⟩
        · -- none is listed later, so the node is the last of them
          have hnode : ∀ w, P w → w ∈ seen ∨ w = node := fun w hw =>
            (hall w hw).imp_right fun hmem => hmem.resolve_right fun hrest =>
              hlater ⟨w, hrest, hw⟩
          obtain rfl | hrest := hu
          · exact Or.inl (by rw [if_pos ⟨hP, hnode⟩]; exact Nat.one_pos)
          · exact absurd ⟨u, hrest, hP⟩ hlater

/-- Of a kind whose nodes are placed once each, the last placing counts. -/
theorem copies_eq_one [DecidableEq α] :
    ∀ {seen l : List α}, (∀ u, P u → (seen ++ l).count u = 1) → (∃ u ∈ l, P u) →
      copies P seen l = 1
  | _, [], _, hsome => by
      obtain ⟨u, hu, -⟩ := hsome
      cases hu
  | seen, node :: rest, hone, hsome => by
      have hshift : seen ++ node :: rest = (seen ++ [node]) ++ rest := by simp
      have hone' : ∀ u, P u → ((seen ++ [node]) ++ rest).count u = 1 := by rwa [hshift] at hone
      have hseen : ∀ u, P u → u ∈ seen ∨ u = node ∨ u ∈ rest := by
        intro u hu
        have hmem : u ∈ seen ++ node :: rest :=
          List.count_pos_iff.mp (by rw [hone u hu]; exact Nat.one_pos)
        rwa [List.mem_append, List.mem_cons] at hmem
      rw [copies]
      by_cases hlater : ∃ u ∈ rest, P u
      · obtain ⟨u, hu, hP⟩ := hlater
        -- the later one is neither seen nor the node, being placed once
        have hnot : ¬(P node ∧ ∀ w, P w → w ∈ seen ∨ w = node) := by
          rintro ⟨-, hall⟩
          have htwice := hone' u hP
          have hearly : u ∈ seen ++ [node] := by
            rw [List.mem_append, List.mem_singleton]
            exact hall u hP
          have hfirst : 0 < (seen ++ [node]).count u := List.count_pos_iff.mpr hearly
          have hsecond : 0 < rest.count u := List.count_pos_iff.mpr hu
          rw [List.count_append] at htwice
          omega
        rw [if_neg hnot, copies_eq_one hone' ⟨u, hu, hP⟩]
      · have hnone : copies P (seen ++ [node]) rest = 0 :=
          Nat.eq_zero_of_not_pos fun hpos => hlater (copies_pos.mp hpos).2
        obtain ⟨u, hu, hP⟩ := hsome
        obtain rfl | hu := List.mem_cons.mp hu
        · rw [hnone, if_pos]
          refine ⟨hP, fun w hw => (hseen w hw).imp_right fun h => h.resolve_right fun hrest => ?_⟩
          exact hlater ⟨w, hrest, hw⟩
        · exact absurd ⟨u, hu, hP⟩ hlater

open Classical in
/-- Nodes outside a class that holds the kind make no difference. -/
theorem copies_filter {A : α → Prop} (hA : ∀ u, P u → A u) :
    ∀ {seen l : List α},
      copies P seen l = copies P (seen.filter fun u => A u) (l.filter fun u => A u)
  | _, [] => rfl
  | seen, node :: rest => by
      rw [copies, copies_filter hA, List.filter_append]
      by_cases hnode : A node
      · have hseen : (∀ u, P u → u ∈ seen ∨ u = node)
            ↔ ∀ u, P u → u ∈ seen.filter (fun u => A u) ∨ u = node := by
          refine forall_congr' fun u => imp_congr_right fun hu => or_congr ?_ Iff.rfl
          simp [hA u hu]
        rw [List.filter_cons_of_pos (by simpa using hnode), List.filter_cons_of_pos
          (by simpa using hnode), List.filter_nil, copies]
        simp only [hseen]
      · rw [if_neg fun h => hnode (hA node h.1), List.filter_cons_of_neg (by simpa using hnode),
          List.filter_cons_of_neg (by simpa using hnode), List.filter_nil, List.append_nil,
          Nat.zero_add]

end Copies

/-! ## Runs -/

open Classical in
/-- The successors a node queues when it is placed. -/
noncomputable def released (E : α → α → Prop) (succ : α → List α) (placed : List α) (node : α) :
    List α :=
  (succ node).filter fun v => ∀ u, E u v → u ∈ placed ∨ u = node

theorem mem_released {E : α → α → Prop} {succ : α → List α} {placed : List α} {node v : α} :
    v ∈ released E succ placed node ↔ v ∈ succ node ∧ ∀ u, E u v → u ∈ placed ∨ u = node := by
  classical
  unfold released
  rw [List.mem_filter, decide_eq_true_eq]

/-- From a queue and what is placed already, a run until the queue is
empty, and what it places. -/
inductive Run (E : α → α → Prop) (succ : α → List α) : List α → List α → List α → Prop where
  | done (placed : List α) : Run E succ [] placed []
  | pop {node : α} {ready placed rest : List α} :
      Run E succ (ready ++ released E succ placed node) (placed ++ [node]) rest →
      Run E succ (node :: ready) placed (node :: rest)

section Runs

variable {E : α → α → Prop} {succ : α → List α} {ready placed rest seed nodes order : List α}

/-- The queue decides the run. -/
theorem Run.det {rest' : List α} (h : Run E succ ready placed rest)
    (h' : Run E succ ready placed rest') : rest = rest' := by
  induction h generalizing rest' with
  | done placed =>
      cases h'
      rfl
  | pop _ ih =>
      cases h' with
      | pop h' => rw [ih h']

/-- Nodes outside a class that is closed under predecessors do not
disturb the nodes in it. -/
theorem Run.restrict {A : α → Prop} [DecidablePred A] (hA : ∀ u v, E u v → A v → A u)
    (hsucc : ∀ u v, v ∈ succ u → E u v) (h : Run E succ ready placed rest) :
    Run E (fun u => (succ u).filter fun v => A v) (ready.filter fun v => A v)
      (placed.filter fun v => A v) (rest.filter fun v => A v) := by
  induction h with
  | done placed => exact Run.done _
  | @pop node ready placed rest _ ih =>
      rw [List.filter_append, List.filter_append] at ih
      by_cases hnode : A node
      · have hfreed : (released E succ placed node).filter (fun v => A v)
            = released E (fun u => (succ u).filter fun v => A v)
                (placed.filter fun v => A v) node := by
          unfold released
          rw [List.filter_filter, List.filter_filter]
          refine List.filter_congr fun v _ => ?_
          by_cases hv : A v
          · simp only [hv, decide_true, Bool.true_and, Bool.and_true, decide_eq_decide]
            refine forall_congr' fun u => imp_congr_right fun hu => or_congr ?_ Iff.rfl
            simp [hA u v hu hv]
          · simp [hv]
        rw [List.filter_cons_of_pos (by simpa using hnode), List.filter_nil, hfreed] at ih
        rw [List.filter_cons_of_pos (by simpa using hnode),
          List.filter_cons_of_pos (by simpa using hnode)]
        exact ih.pop
      · have hfreed : (released E succ placed node).filter (fun v => A v) = [] := by
          refine List.filter_eq_nil_iff.mpr fun v hv hAv => hnode ?_
          exact hA node v (hsucc node v (mem_released.mp hv).1) (of_decide_eq_true hAv)
        rw [List.filter_cons_of_neg (by simpa using hnode), List.filter_nil, List.append_nil,
          hfreed, List.append_nil] at ih
        rwa [List.filter_cons_of_neg (by simpa using hnode),
          List.filter_cons_of_neg (by simpa using hnode)]

open Classical in
/-- A node is placed as often as it is queued: as it was to begin with,
and for each placing of a predecessor once all have been placed. -/
theorem Run.count [DecidableEq α] (hsucc : ∀ u v, v ∈ succ u ↔ E u v)
    (hnodup : ∀ u, (succ u).Nodup) (h : Run E succ ready placed rest) (v : α) :
    rest.count v = ready.count v + copies (fun u => E u v) placed rest := by
  induction h with
  | done placed => rfl
  | @pop node ready placed rest _ ih =>
      have hfreed : (released E succ placed node).count v
          = if E node v ∧ ∀ u, E u v → u ∈ placed ∨ u = node then 1 else 0 := by
        have hdistinct : (released E succ placed node).Nodup := (hnodup node).filter _
        rw [hdistinct.count]
        simp only [mem_released, hsucc]
      rw [List.count_cons, ih, List.count_append, hfreed, List.count_cons, copies]
      omega

/-- A run from nodes without open predecessors places each node after
its predecessors. -/
theorem Run.forward (h : Run E succ ready placed rest)
    (hready : ∀ v ∈ ready, ∀ u, E u v → u ∈ placed) (hplaced : Forward E placed) :
    Forward E (placed ++ rest) := by
  induction h with
  | done placed => rwa [List.append_nil]
  | @pop node ready placed rest _ ih =>
      have hshift : placed ++ node :: rest = (placed ++ [node]) ++ rest := by simp
      rw [hshift]
      refine ih ?_ (hplaced.snoc (hready node (List.mem_cons_self ..)))
      intro v hv u hu
      rw [List.mem_append, List.mem_singleton]
      rcases List.mem_append.mp hv with hv | hv
      · exact Or.inl (hready v (List.mem_cons_of_mem _ hv) u hu)
      · exact (mem_released.mp hv).2 u hu

end Runs

/-! ## Acyclic nodes -/

/-- No chain of predecessors of a listed node goes on for ever. -/
theorem Forward.acc {E : α → α → Prop} {order : List α} (h : Forward E order) {v : α}
    (hv : v ∈ order) : Acc E v := by
  have hplace : ∀ n before v after, order = before ++ v :: after → before.length = n → Acc E v := by
    intro n
    induction n using Nat.strong_induction_on with
    | _ n ih =>
        rintro before v after heq rfl
        refine ⟨v, fun u hu => ?_⟩
        obtain ⟨front, back, rfl⟩ := List.append_of_mem (h before v after heq u hu)
        refine ih front.length ?_ front u (back ++ v :: after) ?_ rfl
        · rw [List.length_append, List.length_cons]
          omega
        · rw [heq, List.append_assoc, List.cons_append]
  obtain ⟨before, after, heq⟩ := List.append_of_mem hv
  exact hplace _ before v after heq rfl

/-- A run over a graph from a seed of the nodes without predecessors,
each queued at least once. -/
structure SeededRun (E : α → α → Prop) (succ : α → List α) (nodes seed order : List α) :
    Prop where
  run : Run E succ seed [] order
  mem_seed : ∀ v, v ∈ seed ↔ v ∈ nodes ∧ ∀ u, ¬E u v
  mem_succ : ∀ u v, v ∈ succ u ↔ E u v
  nodup_succ : ∀ u, (succ u).Nodup
  ends : ∀ u v, E u v → u ∈ nodes ∧ v ∈ nodes

namespace SeededRun

variable {E : α → α → Prop} {succ : α → List α} {nodes seed seed' order order' : List α}

theorem forward (h : SeededRun E succ nodes seed order) : Forward E order :=
  h.run.forward (fun v hv u hu => absurd hu (((h.mem_seed v).mp hv).2 u)) forward_nil

theorem count [DecidableEq α] (h : SeededRun E succ nodes seed order) (v : α) :
    order.count v = seed.count v + copies (fun u => E u v) [] order :=
  h.run.count h.mem_succ h.nodup_succ v

theorem not_mem_seed (h : SeededRun E succ nodes seed order) {u v : α} (hu : E u v) :
    v ∉ seed :=
  fun hv => ((h.mem_seed v).mp hv).2 u hu

/-- A node is placed once its predecessors are. -/
theorem mem_of_preds (h : SeededRun E succ nodes seed order) {v : α} (hv : v ∈ nodes)
    (hpreds : ∀ u, E u v → u ∈ order) : v ∈ order := by
  classical
  have hcount := h.count v
  by_cases hroot : ∃ u, E u v
  · obtain ⟨u, hu⟩ := hroot
    have hpos : 0 < copies (fun u => E u v) [] order :=
      copies_pos.mpr ⟨fun w hw => Or.inr (hpreds w hw), u, hpreds u hu, hu⟩
    exact List.count_pos_iff.mp (by omega)
  · have hseed : v ∈ seed := (h.mem_seed v).mpr ⟨hv, fun u hu => hroot ⟨u, hu⟩⟩
    have hpos : 0 < seed.count v := List.count_pos_iff.mpr hseed
    exact List.count_pos_iff.mp (by omega)

theorem mem_nodes (h : SeededRun E succ nodes seed order) {v : α} (hv : v ∈ order) :
    v ∈ nodes := by
  classical
  have hcount := h.count v
  have hpos : 0 < order.count v := List.count_pos_iff.mpr hv
  by_cases hseed : v ∈ seed
  · exact ((h.mem_seed v).mp hseed).1
  · rw [List.count_eq_zero_of_not_mem hseed, Nat.zero_add] at hcount
    obtain ⟨-, u, -, hu⟩ := copies_pos.mp (hcount ▸ hpos)
    exact (h.ends u v hu).2

/-- The nodes placed are those without an endless chain of predecessors. -/
theorem mem_iff (h : SeededRun E succ nodes seed order) (v : α) :
    v ∈ order ↔ v ∈ nodes ∧ Acc E v := by
  constructor
  · exact fun hv => ⟨h.mem_nodes hv, h.forward.acc hv⟩
  · rintro ⟨hv, hacc⟩
    induction hacc with
    | intro v _ ih => exact h.mem_of_preds hv fun u hu => ih u hu (h.ends u v hu).1

/-- A node with nothing repeated at or above it is placed once. -/
theorem count_eq_one [DecidableEq α] (h : SeededRun E succ nodes seed order) {v : α}
    (hv : v ∈ nodes) (hacc : Acc E v)
    (hseed : ∀ r, ReflTransGen E r v → seed.count r ≤ 1) : order.count v = 1 := by
  induction hacc with
  | intro v hpreds ih =>
      rw [h.count]
      by_cases hroot : ∃ u, E u v
      · obtain ⟨u, hu⟩ := hroot
        have hone : ∀ w, E w v → ([] ++ order).count w = 1 := fun w hw =>
          ih w hw (h.ends w v hw).1 fun r hr => hseed r (hr.tail hw)
        have hmem : u ∈ order := (h.mem_iff u).mpr ⟨(h.ends u v hu).1, hpreds u hu⟩
        rw [List.count_eq_zero_of_not_mem (h.not_mem_seed hu), Nat.zero_add,
          copies_eq_one hone ⟨u, hmem, hu⟩]
      · have hnone : ∀ u, ¬E u v := fun u hu => hroot ⟨u, hu⟩
        have hpos : 0 < seed.count v := List.count_pos_iff.mpr ((h.mem_seed v).mpr ⟨hv, hnone⟩)
        have hle := hseed v ReflTransGen.refl
        rw [copies_none hnone]
        omega

/-- From distinct seeds nodes are placed once each. -/
theorem nodup (h : SeededRun E succ nodes seed order) (hseed : seed.Nodup) : order.Nodup := by
  classical
  refine List.nodup_iff_count_le_one.mpr fun v => ?_
  by_cases hv : v ∈ order
  · obtain ⟨hmem, hacc⟩ := (h.mem_iff v).mp hv
    exact (h.count_eq_one hmem hacc fun r _ => List.nodup_iff_count_le_one.mp hseed r).le
  · rw [List.count_eq_zero_of_not_mem hv]
    exact Nat.zero_le 1

/-- From distinct seeds as many nodes are placed as are listed exactly
when each is listed once and can be placed. -/
theorem length_eq_iff (h : SeededRun E succ nodes seed order) (hseed : seed.Nodup) :
    order.length = nodes.length ↔ nodes.Nodup ∧ ∀ v ∈ nodes, Acc E v := by
  constructor
  · intro hlen
    have hperm := (List.subperm_of_subset (h.nodup hseed) fun v => h.mem_nodes).perm_of_length_le
      hlen.ge
    exact ⟨hperm.nodup_iff.mp (h.nodup hseed), fun v hv => h.forward.acc (hperm.mem_iff.mpr hv)⟩
  · rintro ⟨hnodup, hacc⟩
    refine ((List.perm_ext_iff_of_nodup (h.nodup hseed) hnodup).mpr fun v => ?_).length_eq
    exact ⟨h.mem_nodes, fun hv => (h.mem_iff v).mpr ⟨hv, hacc v hv⟩⟩

end SeededRun

/-! ## Two seeds -/

open Classical in
/-- Neither has the node one predecessor, nor is everything above it
queued once, nor is what is above it queued alike from both seeds. -/
def Tangled [DecidableEq α] (E : α → α → Prop) (seed seed' : List α) (v : α) : Prop :=
  (∃ u w, E u v ∧ E w v ∧ u ≠ w)
    ∧ (∃ r, TransGen E r v ∧ 1 < seed.count r)
    ∧ seed.filter (fun r => TransGen E r v) ≠ seed'.filter (fun r => TransGen E r v)

namespace SeededRun

variable {E : α → α → Prop} {succ : α → List α} {nodes seed seed' order order' : List α}

open Classical in
/-- Seeds that queue what is above a node alike place it alike. -/
theorem filter_eq (h : SeededRun E succ nodes seed order)
    (h' : SeededRun E succ nodes seed' order') {v : α}
    (hseed : seed.filter (fun r => TransGen E r v) = seed'.filter fun r => TransGen E r v) :
    order.filter (fun r => TransGen E r v) = order'.filter fun r => TransGen E r v := by
  have hclosed : ∀ u w, E u w → TransGen E w v → TransGen E u v := fun u w hu hw => hw.head hu
  have hrun := h.run.restrict hclosed fun u v => (h.mem_succ u v).mp
  have hrun' := h'.run.restrict hclosed fun u v => (h'.mem_succ u v).mp
  rw [hseed] at hrun
  exact hrun.det hrun'

open Classical in
/-- Where no placed node is tangled, the two seeds place every node
equally often. -/
theorem perm [DecidableEq α] (h : SeededRun E succ nodes seed order)
    (h' : SeededRun E succ nodes seed' order') (hseeds : seed.Perm seed')
    (hsettled : ∀ v ∈ nodes, Acc E v → ¬Tangled E seed seed' v) : order.Perm order' := by
  refine List.perm_iff_count.mpr fun v => ?_
  by_cases hplaced : v ∈ nodes ∧ Acc E v
  swap
  · rw [List.count_eq_zero_of_not_mem fun hv => hplaced ((h.mem_iff v).mp hv),
      List.count_eq_zero_of_not_mem fun hv => hplaced ((h'.mem_iff v).mp hv)]
  obtain ⟨hv, hacc⟩ := hplaced
  induction hacc with
  | intro v hpreds ih =>
      have hcopies : copies (fun u => E u v) [] order = copies (fun u => E u v) [] order' := by
        by_cases hroot : ∃ u, E u v
        swap
        · have hnone : ∀ u, ¬E u v := fun u hu => hroot ⟨u, hu⟩
          rw [copies_none hnone, copies_none hnone]
        obtain ⟨u, hu⟩ := hroot
        by_cases hjoin : ∃ u w, E u v ∧ E w v ∧ u ≠ w
        swap
        · -- one predecessor, which is placed equally often
          have hsole : ∀ w, E w v ↔ w = u := by
            refine fun w => ⟨fun hw => ?_, fun hw => hw ▸ hu⟩
            by_contra hne
            exact hjoin ⟨w, u, hw, hu, hne⟩
          rw [copies_one hsole, copies_one hsole]
          exact ih u hu (h.ends u v hu).1
        by_cases hrepeat : ∃ r, TransGen E r v ∧ 1 < seed.count r
        swap
        · -- every predecessor is placed once
          have honce : ∀ r, TransGen E r v → seed.count r ≤ 1 := fun r hr =>
            Nat.le_of_not_lt fun hlt => hrepeat ⟨r, hr, hlt⟩
          have hone : ∀ w, E w v → ([] ++ order).count w = 1 := fun w hw =>
            h.count_eq_one (h.ends w v hw).1 (hpreds w hw) fun r hr =>
              honce r (TransGen.tail' hr hw)
          have hone' : ∀ w, E w v → ([] ++ order').count w = 1 := fun w hw =>
            h'.count_eq_one (h'.ends w v hw).1 (hpreds w hw) fun r hr => by
              rw [← hseeds.count_eq]
              exact honce r (TransGen.tail' hr hw)
          have hmem : u ∈ order := (h.mem_iff u).mpr ⟨(h.ends u v hu).1, hpreds u hu⟩
          have hmem' : u ∈ order' := (h'.mem_iff u).mpr ⟨(h'.ends u v hu).1, hpreds u hu⟩
          rw [copies_eq_one hone ⟨u, hmem, hu⟩,
            copies_eq_one hone' ⟨u, hmem', hu⟩]
        · -- what is above it is placed alike
          have hseed : seed.filter (fun r => TransGen E r v)
              = seed'.filter fun r => TransGen E r v := by
            by_contra hne
            exact hsettled v hv ⟨v, hpreds⟩ ⟨hjoin, hrepeat, hne⟩
          have habove : ∀ w, E w v → TransGen E w v := fun w hw => TransGen.single hw
          calc copies (fun u => E u v) [] order
              = copies (fun u => E u v) [] (order.filter fun r => TransGen E r v) :=
                copies_filter habove
            _ = copies (fun u => E u v) [] (order'.filter fun r => TransGen E r v) := by
                rw [h.filter_eq h' hseed]
            _ = copies (fun u => E u v) [] order' :=
                Eq.symm (@copies_filter α _ _ habove [] order')
      rw [h.count, h'.count, hseeds.count_eq, hcopies]

end SeededRun

end Kahn
