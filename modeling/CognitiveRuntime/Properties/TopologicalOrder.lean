import Mathlib.Algebra.Group.Action.Defs
import Mathlib.Algebra.Order.BigOperators.Group.List
import CognitiveRuntime.Compiler.Contracts
import CognitiveRuntime.Data.KahnCopies

/-!
# The topological sort

`topological_order` keeps a set of incoming edges for each node and
discards an edge when its source is placed. One round of the loop is one
round of Kahn's worklist (`Kahn.Frontier.pop`), and the fuel of the loop
covers the nodes, so a run that was seeded with the nodes nothing points
to ends with an empty queue (`topologicalLoop_frontier`).

The seed is a parameter here: the canonical sort puts it in order. It
may hold a node twice. The fuel covers the copies too, for the nodes a
copy sets off lie on paths, which are no longer than there are nodes
(`topologicalLoop_run`).
-/

namespace CognitiveRuntime

open Ordered Fallible Relation

section Loop

variable {κ : Type} [LinearOrder κ]

/-- One node points to another. -/
def Precedes (pairs : List (κ × κ)) (a b : κ) : Prop := (a, b) ∈ pairs

/-- The nodes nothing points to. -/
def rootIds (ids : List κ) (pairs : List (κ × κ)) : List κ :=
  ids.filter fun id => !pairs.any fun e => e.2 = id

theorem mem_rootIds {ids : List κ} {pairs : List (κ × κ)} {v : κ} :
    v ∈ rootIds ids pairs ↔ v ∈ ids ∧ ∀ u, ¬Precedes pairs u v := by
  unfold rootIds
  rw [List.mem_filter, Bool.not_eq_true', List.any_eq_false]
  constructor
  · rintro ⟨hv, hnone⟩
    exact ⟨hv, fun u hu => hnone (u, v) hu (decide_eq_true rfl)⟩
  · rintro ⟨hv, hnone⟩
    refine ⟨hv, fun e he heq => ?_⟩
    obtain rfl := of_decide_eq_true heq
    exact hnone e.1 he

/-! ## One round -/

/-- What a round leaves of the incoming edges. -/
def discarded (node : κ) (successors : List κ) (waiting : Incoming κ) : Incoming κ :=
  waiting.filter fun e => ¬(e.1 = node ∧ e.2 ∈ successors)

/-- The successors a round queues: those no other node holds back. -/
def freedBy (node : κ) (successors : List κ) (waiting : Incoming κ) : List κ :=
  successors.filter fun next => !waiting.any fun e => decide (e.2 = next) && decide (e.1 ≠ node)

theorem discarded_cons {node next : κ} {rest : List κ} {waiting : Incoming κ} :
    discarded node rest (waiting.filter fun e => ¬(e.1 = node ∧ e.2 = next))
      = discarded node (next :: rest) waiting := by
  unfold discarded
  rw [List.filter_filter]
  refine List.filter_congr fun e _ => ?_
  by_cases hnode : e.1 = node
  · by_cases hnext : e.2 = next <;> simp [hnode, hnext]
  · simp [hnode]

theorem any_after_discard {node next target : κ} {waiting : Incoming κ} :
    (waiting.filter fun e => ¬(e.1 = node ∧ e.2 = next)).any
        (fun e => decide (e.2 = target) && decide (e.1 ≠ node))
      = waiting.any fun e => decide (e.2 = target) && decide (e.1 ≠ node) := by
  rw [List.any_filter]
  congr 1
  funext e
  by_cases hnode : e.1 = node <;> simp [hnode]

theorem any_left {node next : κ} {waiting : Incoming κ} :
    (waiting.filter fun e => ¬(e.1 = node ∧ e.2 = next)).any (fun e => decide (e.2 = next))
      = waiting.any fun e => decide (e.2 = next) && decide (e.1 ≠ node) := by
  rw [List.any_filter]
  congr 1
  funext e
  by_cases hnode : e.1 = node <;> by_cases hnext : e.2 = next <;> simp [hnode, hnext]

theorem foldl_round {node : κ} :
    ∀ {successors : List κ} {waiting : Incoming κ} {freed : List κ},
      successors.foldl (fun state next =>
          let left := state.1.filter fun e => ¬(e.1 = node ∧ e.2 = next)
          (left, if left.any fun e => e.2 = next then state.2 else state.2 ++ [next]))
        (waiting, freed)
        = (discarded node successors waiting, freed ++ freedBy node successors waiting)
  | [], waiting, freed => by
      simp [discarded, freedBy]
  | next :: rest, waiting, freed => by
      have htail : freedBy node rest (waiting.filter fun e => ¬(e.1 = node ∧ e.2 = next))
          = freedBy node rest waiting := by
        unfold freedBy
        simp only [any_after_discard]
      rw [List.foldl_cons]
      dsimp only
      rw [foldl_round, discarded_cons, htail, any_left]
      unfold freedBy
      by_cases hheld : (waiting.any fun e => decide (e.2 = next) && decide (e.1 ≠ node)) = true
      · rw [if_pos hheld, List.filter_cons_of_neg (by rw [hheld]; exact Bool.false_ne_true)]
      · have hopen := Bool.eq_false_of_not_eq_true hheld
        rw [if_neg hheld, List.filter_cons_of_pos (by rw [hopen]; rfl), List.append_assoc]
        rfl

/-- The inner loop discards the edges of the node, and frees in turn the
successors that have no other. -/
theorem freeSuccessors_eq {node : κ} {successors : List κ} {waiting : Incoming κ} :
    freeSuccessors node successors waiting
      = (discarded node successors waiting, freedBy node successors waiting) :=
  foldl_round

/-- The successors of a node, once each and in order. -/
def successorsOf (pairs : List (κ × κ)) (node : κ) : List κ :=
  sortedUnique ((pairs.filter fun e => e.1 = node).map Prod.snd)

theorem mem_successorsOf {pairs : List (κ × κ)} {node v : κ} :
    v ∈ successorsOf pairs node ↔ Precedes pairs node v := by
  unfold successorsOf Precedes
  rw [mem_sortedUnique, List.mem_map]
  constructor
  · rintro ⟨⟨a, b⟩, he, rfl⟩
    obtain ⟨hmem, hnode⟩ := List.mem_filter.mp he
    obtain rfl : a = node := of_decide_eq_true hnode
    exact hmem
  · intro h
    exact ⟨(node, v), List.mem_filter.mpr ⟨h, decide_eq_true rfl⟩, rfl⟩

theorem topologicalLoop_cons {pairs : List (κ × κ)} {fuel : Nat} {node : κ}
    {ready ordered : List κ} {waiting : Incoming κ} :
    topologicalLoop pairs (fuel + 1) (node :: ready) waiting ordered
      = topologicalLoop pairs fuel
          (ready ++ freedBy node (successorsOf pairs node) waiting)
          (discarded node (successorsOf pairs node) waiting) (ordered ++ [node]) := by
  rw [topologicalLoop]
  dsimp only
  rw [freeSuccessors_eq]
  rfl

/-! ## A run -/

/-- The incoming edges are those whose source is not placed. -/
def WaitsFor (pairs : List (κ × κ)) (placed : List κ) (waiting : Incoming κ) :
    Prop :=
  ∀ e, e ∈ waiting ↔ e ∈ pairs ∧ e.1 ∉ placed

section Run

variable {pairs : List (κ × κ)}

theorem WaitsFor.discard {placed : List κ} {waiting : Incoming κ} {node : κ}
    (h : WaitsFor pairs placed waiting) :
    WaitsFor pairs (placed ++ [node]) (discarded node (successorsOf pairs node) waiting) := by
  intro e
  unfold discarded
  rw [List.mem_filter, h e, decide_eq_true_eq, mem_successorsOf, List.mem_append,
    List.mem_singleton]
  constructor
  · rintro ⟨⟨he, hplaced⟩, hkept⟩
    refine ⟨he, ?_⟩
    rintro (hmem | rfl)
    · exact hplaced hmem
    · exact hkept ⟨rfl, he⟩
  · rintro ⟨he, hplaced⟩
    exact ⟨⟨he, fun hmem => hplaced (Or.inl hmem)⟩, fun hnode => hplaced (Or.inr hnode.1)⟩

open Classical in
theorem freedBy_eq_released {placed : List κ} {waiting : Incoming κ} {node : κ}
    (h : WaitsFor pairs placed waiting) :
    freedBy node (successorsOf pairs node) waiting
      = Kahn.released (Precedes pairs) (successorsOf pairs) placed node := by
  unfold freedBy Kahn.released
  refine List.filter_congr fun v _ => ?_
  rw [Bool.eq_iff_iff, Bool.not_eq_true', List.any_eq_false, decide_eq_true_eq]
  simp only [Bool.and_eq_true, decide_eq_true_eq, not_and, not_not]
  constructor
  · intro hnone u hu
    by_cases hplaced : u ∈ placed
    · exact Or.inl hplaced
    · exact Or.inr (hnone (u, v) ((h (u, v)).mpr ⟨hu, hplaced⟩) rfl)
  · intro hall e he heq
    obtain ⟨hpair, hplaced⟩ := (h e).mp he
    subst heq
    exact (hall e.1 hpair).resolve_left hplaced

theorem mem_freedBy {placed : List κ} {waiting : Incoming κ} {node v : κ}
    (h : WaitsFor pairs placed waiting) :
    v ∈ freedBy node (successorsOf pairs node) waiting ↔
      Precedes pairs node v ∧ ∀ u, Precedes pairs u v → u ∈ placed ∨ u = node := by
  rw [freedBy_eq_released h, Kahn.mem_released, mem_successorsOf]

/-- A run of the loop with enough fuel keeps the invariant and empties
its queue. -/
theorem topologicalLoop_frontier {ids : List κ} (htargets : ∀ e ∈ pairs, e.2 ∈ ids) :
    ∀ {fuel : Nat} {ready placed : List κ} {waiting : Incoming κ},
      Kahn.Frontier (Precedes pairs) ids ready placed → WaitsFor pairs placed waiting →
      ids.length ≤ fuel + placed.length →
      Kahn.Frontier (Precedes pairs) ids []
        (topologicalLoop pairs fuel ready waiting placed)
  | 0, ready, placed, waiting, h, _, hfuel => by
      have hle := h.length_le
      obtain rfl : ready = [] := List.length_eq_zero_iff.mp (by omega)
      exact h
  | fuel + 1, [], placed, waiting, h, _, _ => h
  | fuel + 1, node :: ready, placed, waiting, h, hwaiting, hfuel => by
      have hfreed : (freedBy node (successorsOf pairs node) waiting).Nodup :=
        (nodup_sortedUnique _).filter _
      have hround := h.pop hfreed fun v => by
        rw [mem_freedBy hwaiting]
        exact ⟨fun hv => ⟨htargets (node, v) hv.1, hv⟩, And.right⟩
      rw [topologicalLoop_cons]
      refine topologicalLoop_frontier htargets hround hwaiting.discard ?_
      rw [List.length_append, List.length_singleton]
      omega

/-- What is placed stays in its place. -/
theorem topologicalLoop_placed :
    ∀ {fuel : Nat} {ready placed : List κ} {waiting : Incoming κ}, ∃ rest,
      topologicalLoop pairs fuel ready waiting placed = placed ++ rest
  | 0, ready, placed, waiting => ⟨[], by simp [topologicalLoop]⟩
  | fuel + 1, [], placed, waiting => ⟨[], by simp [topologicalLoop]⟩
  | fuel + 1, node :: ready, placed, waiting => by
      rw [topologicalLoop_cons]
      obtain ⟨rest, hrest⟩ := topologicalLoop_placed
      rw [hrest]
      exact ⟨node :: rest, by simp⟩

theorem topologicalLoop_head {fuel : Nat} {node : κ} {ready placed : List κ}
    {waiting : Incoming κ} : ∃ rest,
      topologicalLoop pairs (fuel + 1) (node :: ready) waiting placed = placed ++ node :: rest := by
  obtain ⟨rest, hrest⟩ := @topologicalLoop_placed κ _ pairs fuel
    (ready ++ freedBy node (successorsOf pairs node) waiting) (placed ++ [node])
    (discarded node (successorsOf pairs node) waiting)
  refine ⟨rest, ?_⟩
  rw [topologicalLoop_cons, hrest, List.append_assoc]
  rfl

/-- What the queue holds is placed next, in its order. -/
theorem topologicalLoop_queue :
    ∀ {queued : List κ} {fuel : Nat} {ready placed : List κ} {waiting : Incoming κ},
      queued.length ≤ fuel → ∃ rest,
        topologicalLoop pairs fuel (queued ++ ready) waiting placed = placed ++ queued ++ rest
  | [], fuel, ready, placed, waiting, _ => by
      rw [List.nil_append, List.append_nil]
      exact topologicalLoop_placed
  | node :: queued, fuel + 1, ready, placed, waiting, hfuel => by
      rw [List.cons_append, topologicalLoop_cons, List.append_assoc]
      obtain ⟨rest, hrest⟩ := topologicalLoop_queue (Nat.le_of_succ_le_succ hfuel)
      rw [hrest]
      exact ⟨rest, by simp⟩

theorem length_successorsOf_le (node : κ) : (successorsOf pairs node).length ≤ pairs.length := by
  unfold successorsOf sortedUnique
  rw [(perm_sortedBy id _).length_eq]
  refine (firstSeen_sublist _).length_le.trans ?_
  rw [List.length_map]
  exact List.length_filter_le _ _

/-- The fuel that covers a queued node and all it sets off, from its
place in a list of what can be reached. -/
def weight (pairs : List (κ × κ)) (reached : List κ) (v : κ) : Nat :=
  (pairs.length + 1) ^ (reached.length - reached.idxOf v)

section Weight

variable {ids reached : List κ} (hreached : Kahn.Frontier (Precedes pairs) ids [] reached)
include hreached

/-- A node outweighs what it queues. -/
theorem weight_released {placed : List κ} {node : κ} (hnode : node ∈ reached)
    (hfreed : ∀ v ∈ Kahn.released (Precedes pairs) (successorsOf pairs) placed node, v ∈ reached) :
    ((Kahn.released (Precedes pairs) (successorsOf pairs) placed node).map
      (weight pairs reached)).sum < weight pairs reached node := by
  have hplace : reached.idxOf node < reached.length := List.idxOf_lt_length_of_mem hnode
  obtain ⟨height, hheight⟩ : ∃ height, reached.length - reached.idxOf node = height + 1 :=
    ⟨reached.length - reached.idxOf node - 1, by omega⟩
  have heach : ∀ w ∈ (Kahn.released (Precedes pairs) (successorsOf pairs) placed node).map
      (weight pairs reached), w ≤ (pairs.length + 1) ^ height := by
    intro w hw
    obtain ⟨v, hv, rfl⟩ := List.mem_map.mp hw
    have hedge : Precedes pairs node v := mem_successorsOf.mp (Kahn.mem_released.mp hv).1
    have hlater := hreached.forward.idxOf_lt (hfreed v hv) hedge
    exact Nat.pow_le_pow_right (Nat.succ_pos _) (by omega)
  have hfew : (Kahn.released (Precedes pairs) (successorsOf pairs) placed node).length
      ≤ pairs.length :=
    (List.length_filter_le _ _).trans (length_successorsOf_le node)
  have hsum := List.sum_le_card_nsmul _ _ heach
  rw [List.length_map, smul_eq_mul] at hsum
  have hpos : 0 < (pairs.length + 1) ^ height := Nat.pow_pos (Nat.succ_pos _)
  unfold weight
  rw [hheight, Nat.pow_succ]
  calc _ ≤ _ := hsum
    _ ≤ pairs.length * (pairs.length + 1) ^ height := Nat.mul_le_mul_right _ hfew
    _ < (pairs.length + 1) ^ height * (pairs.length + 1) := by
        rw [Nat.mul_succ, Nat.mul_comm]
        omega

/-- With fuel for the weight of its queue the loop runs until the queue
is empty, whatever it holds twice. -/
theorem topologicalLoop_run (htargets : ∀ e ∈ pairs, e.2 ∈ ids) :
    ∀ {fuel : Nat} {ready placed : List κ} {waiting : Incoming κ},
      WaitsFor pairs placed waiting → (∀ v ∈ placed, v ∈ reached) → (∀ v ∈ ready, v ∈ reached) →
      (ready.map (weight pairs reached)).sum ≤ fuel →
      ∃ rest, Kahn.Run (Precedes pairs) (successorsOf pairs) ready placed rest
        ∧ topologicalLoop pairs fuel ready waiting placed = placed ++ rest
  | fuel, [], placed, waiting, _, _, _, _ => by
      refine ⟨[], Kahn.Run.done placed, ?_⟩
      cases fuel <;> simp [topologicalLoop]
  | 0, node :: ready, placed, waiting, _, _, hready, hfuel => by
      have hpos : 0 < weight pairs reached node := Nat.pow_pos (Nat.succ_pos _)
      rw [List.map_cons, List.sum_cons] at hfuel
      omega
  | fuel + 1, node :: ready, placed, waiting, hwaiting, hplaced, hready, hfuel => by
      have hnode : node ∈ reached := hready node (List.mem_cons_self ..)
      have hplaced' : ∀ v ∈ placed ++ [node], v ∈ reached := by
        intro v hv
        rcases List.mem_append.mp hv with hv | hv
        · exact hplaced v hv
        · exact List.mem_singleton.mp hv ▸ hnode
      have hfreed : ∀ v ∈ Kahn.released (Precedes pairs) (successorsOf pairs) placed node,
          v ∈ reached := by
        intro v hv
        obtain ⟨hsucc, hall⟩ := Kahn.mem_released.mp hv
        have hmem := (hreached.mem v).mpr ⟨htargets (node, v) (mem_successorsOf.mp hsucc),
          fun u hu => (hall u hu).elim (hplaced u) fun heq => heq ▸ hnode⟩
        rwa [List.append_nil] at hmem
      have hspent := weight_released hreached hnode hfreed
      rw [List.map_cons, List.sum_cons] at hfuel
      have hready' : ∀ v ∈ ready ++ Kahn.released (Precedes pairs) (successorsOf pairs) placed node,
          v ∈ reached := fun v hv => (List.mem_append.mp hv).elim
        (fun hv => hready v (List.mem_cons_of_mem _ hv)) (hfreed v)
      obtain ⟨rest, hrun, hloop⟩ := topologicalLoop_run htargets hwaiting.discard hplaced' hready'
        (show _ ≤ fuel by rw [List.map_append, List.sum_append]; omega)
      refine ⟨node :: rest, hrun.pop, ?_⟩
      rw [topologicalLoop_cons, freedBy_eq_released hwaiting, hloop]
      simp

end Weight

end Run

/-! ## The sort, by its seed -/

/-- Every edge has both its ends among the nodes. -/
def EndsAmong (ids : List κ) (pairs : List (κ × κ)) : Prop :=
  ∀ e ∈ pairs, e.1 ∈ ids ∧ e.2 ∈ ids

/-- What the loop places from a given seed. -/
def sortFrom (seed ids : List κ) (pairs : List (κ × κ)) : List κ :=
  topologicalLoop pairs (ids.length * (pairs.length + 1) ^ ids.length) seed pairs []

section SortFrom

variable {ids seed : List κ} {pairs : List (κ × κ)}

omit [LinearOrder κ] in
theorem waitsFor_start : WaitsFor pairs [] pairs := by
  intro e
  simp

omit [LinearOrder κ] in
theorem length_le_fuel : ids.length ≤ ids.length * (pairs.length + 1) ^ ids.length :=
  Nat.le_mul_of_pos_right _ (Nat.pow_pos (Nat.succ_pos _))

/-- Seeded with the roots, once each and in any order, the loop ends
with an empty queue. -/
theorem topologicalLoop_seeded (hends : EndsAmong ids pairs) (hnodup : seed.Nodup)
    (hseed : ∀ v, v ∈ seed ↔ v ∈ rootIds ids pairs) {fuel : Nat} (hfuel : ids.length ≤ fuel) :
    Kahn.Frontier (Precedes pairs) ids [] (topologicalLoop pairs fuel seed pairs []) := by
  refine topologicalLoop_frontier (fun e he => (hends e he).2) ?_ waitsFor_start hfuel
  exact Kahn.Frontier.seed hnodup fun v => by rw [hseed, mem_rootIds]

theorem sortFrom_frontier (hends : EndsAmong ids pairs) (hseed : seed.Perm (rootIds ids pairs))
    (hroots : (rootIds ids pairs).Nodup) :
    Kahn.Frontier (Precedes pairs) ids [] (sortFrom seed ids pairs) :=
  topologicalLoop_seeded hends (hseed.nodup_iff.mpr hroots) (fun _ => hseed.mem_iff) length_le_fuel

/-- Seeded with the roots as often as they are listed, the loop runs
until its queue is empty. -/
theorem sortFrom_run (hends : EndsAmong ids pairs) (hseed : seed.Perm (rootIds ids pairs)) :
    Kahn.SeededRun (Precedes pairs) (successorsOf pairs) ids seed (sortFrom seed ids pairs) := by
  have hmem : ∀ v, v ∈ seed ↔ v ∈ ids ∧ ∀ u, ¬Precedes pairs u v := fun v => by
    rw [hseed.mem_iff, mem_rootIds]
  -- a run from the roots, once each, lists what can be reached
  have hreached := topologicalLoop_seeded hends (nodup_firstSeen seed)
    (fun v => by rw [mem_firstSeen, hseed.mem_iff]) (le_refl ids.length)
  have hready : ∀ v ∈ seed, v ∈ topologicalLoop pairs ids.length (firstSeen seed) pairs [] := by
    intro v hv
    have hroot := (hmem v).mp hv
    have hplaced := (hreached.mem v).mpr ⟨hroot.1, fun u hu => absurd hu (hroot.2 u)⟩
    rwa [List.append_nil] at hplaced
  have hfuel : (seed.map (weight pairs (topologicalLoop pairs ids.length (firstSeen seed)
      pairs []))).sum ≤ ids.length * (pairs.length + 1) ^ ids.length := by
    have hshort := hreached.length_le
    rw [List.length_nil, Nat.add_zero] at hshort
    have hsum := List.sum_le_card_nsmul (seed.map (weight pairs (topologicalLoop pairs ids.length
        (firstSeen seed) pairs []))) ((pairs.length + 1) ^ ids.length) (by
      intro w hw
      obtain ⟨v, -, rfl⟩ := List.mem_map.mp hw
      exact Nat.pow_le_pow_right (Nat.succ_pos _) ((Nat.sub_le _ _).trans hshort))
    rw [List.length_map, smul_eq_mul, hseed.length_eq] at hsum
    exact hsum.trans (Nat.mul_le_mul_right _ (List.length_filter_le _ _))
  obtain ⟨rest, hrun, hloop⟩ := topologicalLoop_run hreached (fun e he => (hends e he).2)
    waitsFor_start (fun v hv => absurd hv List.not_mem_nil) hready hfuel
  rw [List.nil_append] at hloop
  refine ⟨?_, hmem, fun u v => mem_successorsOf, fun u => nodup_sortedUnique _,
    fun u v huv => hends (u, v) huv⟩
  unfold sortFrom
  rwa [hloop]

/-- The seed comes out first. -/
theorem sortFrom_seed (hseed : seed.Perm (rootIds ids pairs)) :
    ∃ rest, sortFrom seed ids pairs = seed ++ rest := by
  have hlen : seed.length ≤ ids.length := by
    rw [hseed.length_eq]
    exact List.length_filter_le _ _
  have hqueue := @topologicalLoop_queue κ _ pairs seed
    (ids.length * (pairs.length + 1) ^ ids.length) [] [] pairs (hlen.trans length_le_fuel)
  rwa [List.append_nil] at hqueue

end SortFrom

/-! ## Renamed nodes -/

section Renamed

variable {κ' : Type} [LinearOrder κ'] {f : κ → κ'} (hf : StrictMono f)
include hf

theorem successorsOf_map (pairs : List (κ × κ)) (node : κ) :
    successorsOf (pairs.map (Prod.map f f)) (f node) = (successorsOf pairs node).map f := by
  unfold successorsOf
  rw [← sortedUnique_map hf, List.filter_map, List.map_map, List.map_map]
  congr 2
  refine List.filter_congr fun e _ => ?_
  simp [hf.injective.eq_iff]

theorem freedBy_map (node : κ) (successors : List κ) (waiting : Incoming κ) :
    freedBy (f node) (successors.map f) (waiting.map (Prod.map f f))
      = (freedBy node successors waiting).map f := by
  unfold freedBy
  rw [List.filter_map]
  congr 1
  refine List.filter_congr fun v _ => ?_
  simp [List.any_map, Function.comp_def, hf.injective.eq_iff]

theorem discarded_map (node : κ) (successors : List κ) (waiting : Incoming κ) :
    discarded (f node) (successors.map f) (waiting.map (Prod.map f f))
      = (discarded node successors waiting).map (Prod.map f f) := by
  unfold discarded
  rw [List.filter_map]
  congr 1
  refine List.filter_congr fun e _ => ?_
  simp only [Function.comp_apply, Prod.map_fst, Prod.map_snd, hf.injective.eq_iff,
    List.mem_map_of_injective hf.injective]

/-- Under names in the same order the loop places the same nodes. -/
theorem topologicalLoop_map {pairs : List (κ × κ)} :
    ∀ {fuel : Nat} {ready placed : List κ} {waiting : Incoming κ},
      topologicalLoop (pairs.map (Prod.map f f)) fuel (ready.map f)
          (waiting.map (Prod.map f f)) (placed.map f)
        = (topologicalLoop pairs fuel ready waiting placed).map f
  | 0, _, _, _ => rfl
  | _ + 1, [], _, _ => rfl
  | fuel + 1, node :: ready, placed, waiting => by
      rw [List.map_cons, topologicalLoop_cons, topologicalLoop_cons, successorsOf_map hf,
        freedBy_map hf, discarded_map hf, ← topologicalLoop_map, List.map_append, List.map_append,
        List.map_singleton]

theorem rootIds_map (ids : List κ) (pairs : List (κ × κ)) :
    rootIds (ids.map f) (pairs.map (Prod.map f f)) = (rootIds ids pairs).map f := by
  unfold rootIds
  rw [List.filter_map]
  congr 1
  refine List.filter_congr fun v _ => ?_
  simp [List.any_map, Function.comp_def, hf.injective.eq_iff]

theorem sortFrom_map (seed ids : List κ) (pairs : List (κ × κ)) :
    sortFrom (seed.map f) (ids.map f) (pairs.map (Prod.map f f))
      = (sortFrom seed ids pairs).map f := by
  unfold sortFrom
  rw [List.length_map, List.length_map, ← topologicalLoop_map hf, List.map_nil]

end Renamed

end Loop

/-! ## The canonical sort -/

/-- The edges as pairs. -/
def edgePairs (edges : List ExecutionGraphEdge) : List (String × String) :=
  edges.map fun e => (e.fromNode, e.toNode)

/-- Every edge has both its ends among the nodes. -/
def EndsIn (ids : List String) (edges : List ExecutionGraphEdge) : Prop :=
  ∀ e ∈ edges, e.fromNode ∈ ids ∧ e.toNode ∈ ids

/-- Some edge goes from one node to the other. -/
def PointsTo (edges : List ExecutionGraphEdge) (a b : String) : Prop :=
  ∃ e ∈ edges, e.fromNode = a ∧ e.toNode = b

theorem precedes_edgePairs (edges : List ExecutionGraphEdge) :
    Precedes (edgePairs edges) = PointsTo edges := by
  funext a b
  unfold Precedes edgePairs PointsTo
  simp only [List.mem_map, Prod.mk.injEq]

theorem length_edgePairs (edges : List ExecutionGraphEdge) :
    (edgePairs edges).length = edges.length := List.length_map ..

section Canonical

variable {ids : List String} {edges : List ExecutionGraphEdge}

theorem EndsIn.ends (h : EndsIn ids edges) : ∀ a b, PointsTo edges a b → a ∈ ids ∧ b ∈ ids := by
  rintro a b ⟨e, he, rfl, rfl⟩
  exact h e he

theorem EndsIn.among (h : EndsIn ids edges) : EndsAmong ids (edgePairs edges) := by
  intro p hp
  obtain ⟨e, he, rfl⟩ := List.mem_map.mp hp
  exact h e he

/-- From distinct roots the canonical sort ends with an empty queue. -/
theorem sorted_frontier (hends : EndsIn ids edges) (hnodup : ids.Nodup) :
    Kahn.Frontier (PointsTo edges) ids []
      (sortFrom (sortedBy id (rootIds ids (edgePairs edges))) ids (edgePairs edges)) := by
  rw [← precedes_edgePairs]
  exact sortFrom_frontier hends.among (perm_sortedBy id _) (hnodup.filter _)

/-- A missing end stops the canonical sort. -/
theorem topologicalOrder_missing (h : ¬EndsIn ids edges) :
    ∀ order, topologicalOrder ids edges ≠ .ok order := by
  intro order hok
  simp only [topologicalOrder, bind_eq_ok, checkEach_eq_ok, ensure_eq_ok, Bool.and_eq_true,
    decide_eq_true_eq] at hok
  obtain ⟨_, hends, -⟩ := hok
  exact h hends

/-- With no end missing the canonical sort is the loop from the sorted
roots, unless a node is left behind. -/
theorem topologicalOrder_eq (hends : EndsIn ids edges) {order : List String} :
    topologicalOrder ids edges = .ok order ↔
      sortFrom (sortedBy id (rootIds ids (edgePairs edges))) ids (edgePairs edges) = order
        ∧ order.length = ids.length := by
  unfold sortFrom
  rw [length_edgePairs]
  simp only [topologicalOrder, bind_eq_ok, checkEach_eq_ok, ensure_eq_ok, Bool.and_eq_true,
    decide_eq_true_eq]
  constructor
  · rintro ⟨_, -, _, hlen, hok⟩
    obtain rfl := Except.ok.inj hok
    exact ⟨rfl, hlen⟩
  · rintro ⟨rfl, hlen⟩
    exact ⟨(), hends, (), hlen, rfl⟩

/-- On distinct ids the canonical sort returns the ids in an order in
which every edge goes forward. -/
theorem topologicalOrder_sound (hnodup : ids.Nodup) {order : List String}
    (h : topologicalOrder ids edges = .ok order) :
    order.Perm ids ∧ Kahn.Forward (PointsTo edges) order := by
  by_cases hends : EndsIn ids edges
  · obtain ⟨rfl, hlen⟩ := (topologicalOrder_eq hends).mp h
    have hrun := sorted_frontier hends hnodup
    exact ⟨hrun.perm_of_length_eq hlen, hrun.forward⟩
  · exact absurd h (topologicalOrder_missing hends order)

/-- On distinct ids the canonical sort succeeds exactly on the acyclic
graphs whose edges end in nodes. -/
theorem topologicalOrder_ok_iff (hnodup : ids.Nodup) :
    (∃ order, topologicalOrder ids edges = .ok order) ↔
      EndsIn ids edges ∧ ∀ v, Reach.OffCycle (PointsTo edges) v := by
  by_cases hends : EndsIn ids edges
  · have hrun := sorted_frontier hends hnodup
    rw [← hrun.length_eq_iff hnodup hends.ends]
    constructor
    · rintro ⟨order, h⟩
      obtain ⟨rfl, hlen⟩ := (topologicalOrder_eq hends).mp h
      exact ⟨hends, hlen⟩
    · rintro ⟨-, hlen⟩
      exact ⟨_, (topologicalOrder_eq hends).mpr ⟨rfl, hlen⟩⟩
  · constructor
    · rintro ⟨order, h⟩
      exact absurd h (topologicalOrder_missing hends order)
    · rintro ⟨h, -⟩
      exact absurd h hends

end Canonical

end CognitiveRuntime
