import CognitiveRuntime.Compiler.Supersession

/-!
# Supersession cycles are found exactly

A set may be listed in any order, so what `_reachable_set` does is said
of every run of its loop: none goes on for ever, and one that ends has
seen the nodes one or more edges away. The components are then the
classes of mutual reach, and an edge that passed the authority gate never
leads to a stronger claim, so a cycle stays at one rank.
-/

namespace CognitiveRuntime

open Relation

/-- One or more edges of the map lead from the first node to the second. -/
abbrev Reachable (adjacency : Adjacency) (a b : String) : Prop :=
  TransGen (Reach.Edge (successors adjacency)) a b

/-! ## The search from a node -/

/-- The search from a node, in whatever order the successors of a node are
listed. -/
structure ExactSearch (adjacency : Adjacency) (node : String) : Prop where
  stops : ∀ listing : List String, listing.Perm (successors adjacency node) →
    Acc (fun w' w => Reach.Pass (successors adjacency) w w') ⟨listing, []⟩
  ends : ∀ w, ∃ w', Reach.Runs (successors adjacency) w w' ∧ w'.stack = []
  exact : ∀ (listing : List String) w, listing.Perm (successors adjacency node) →
    Reach.Runs (successors adjacency) ⟨listing, []⟩ w → w.stack = [] →
    ∀ other, other ∈ w.seen ↔ Reachable adjacency node other
  returned : Reach.Runs (successors adjacency) ⟨successors adjacency node, []⟩
    ⟨[], reachableSet node adjacency⟩

theorem reachableSet_exact (adjacency : Adjacency) (node : String) :
    ExactSearch adjacency node := by
  have hnodes : ∀ x, successors adjacency x ≠ [] → x ∈ adjacency.map Prod.fst := fun _ h =>
    successors_ne_nil h
  exact
    { stops := fun listing _ => (Reach.pass_wellFounded hnodes).apply _
      ends := fun w => ⟨_, Reach.runs_loop hnodes (le_refl _), rfl⟩
      exact := fun listing w hlisting hrun hdry other =>
        ((Reach.explored_start hlisting).run hrun).mem_seen hdry
      returned := Reach.runs_reach hnodes node }

/-! ## The components -/

/-- Every node on a cycle is in one component and no other node in any;
two nodes are together exactly where each is reached from the other. -/
structure ExactComponents (adjacency : Adjacency) (components : List (List String)) : Prop where
  once : components.flatten.Nodup
  on_cycle : ∀ a, a ∈ components.flatten ↔ Reachable adjacency a a
  together : ∀ a b, (∃ component ∈ components, a ∈ component ∧ b ∈ component)
    ↔ Reachable adjacency a b ∧ Reachable adjacency b a
  inhabited : ∀ component ∈ components, component ≠ []

theorem cycleComponents_exact (adjacency : Adjacency) :
    ExactComponents adjacency (cycleComponents adjacency) := by
  have hclasses := mutualReach_equivalence adjacency
  refine ⟨?_, fun a => mem_flatten_cycleComponents, fun a b => ?_, fun component h => ?_⟩
  · rw [cycleComponents_eq]
    exact Classes.nodup_flatten_classes hclasses (nodup_nodesOnCycle adjacency)
  · rw [cycleComponents_eq, Classes.share_class_iff hclasses, mem_nodesOnCycle, mem_nodesOnCycle,
      mutualReach_iff]
    exact ⟨fun h => h.2.2, fun h => ⟨h.1.trans h.2, h.2.trans h.1, h⟩⟩
  · rw [cycleComponents_eq] at h
    exact Classes.ne_nil_of_mem_classes hclasses h

/-! ## The order of the map -/

/-- The same sets of successors under the same nodes. -/
def SameMap (adjacency adjacency' : Adjacency) : Prop :=
  ∀ a b, b ∈ successors adjacency a ↔ b ∈ successors adjacency' a

/-! ## The authority gate -/

/-- Every edge of the map passed the gate of the members. -/
def PassedGate (members : List ContextItem) (adjacency : Adjacency) : Prop :=
  ∀ s t, t ∈ successors adjacency s → Supersedes members s t

theorem rank_le_of_reachable {members : List ContextItem} {adjacency : Adjacency}
    (hgate : PassedGate members adjacency) {a b : String} (h : Reachable adjacency a b) :
    rankOf members a ≤ rankOf members b :=
  Reach.label_le_of_path (rankOf members) (fun s t hst => (supersedes_iff.mp (hgate s t hst)).2) h

/-- What is reached from is an item of the members. -/
theorem exists_byItem_of_reachable {members : List ContextItem} {adjacency : Adjacency}
    (hgate : PassedGate members adjacency) {a b : String} (h : Reachable adjacency a b) :
    ∃ item, byItem members a = some item := by
  obtain ⟨next, hedge, -⟩ := TransGen.head'_iff.mp h
  exact exists_byItem (supersedes_endpoints (hgate a next hedge)).1

/-- All of a component stands at one rank. -/
theorem component_rank {members : List ContextItem} {adjacency : Adjacency}
    (hgate : PassedGate members adjacency) {component : List String}
    (hcomponent : component ∈ cycleComponents adjacency) :
    ∃ rank, ∀ id ∈ component, ∃ item, byItem members id = some item
      ∧ item.authorityRank = rank := by
  have htogether := (cycleComponents_exact adjacency).together
  obtain ⟨first, hfirst⟩ := List.exists_mem_of_ne_nil _
    ((cycleComponents_exact adjacency).inhabited component hcomponent)
  refine ⟨rankOf members first, fun id hid => ?_⟩
  obtain ⟨hto, hback⟩ := (htogether first id).mp ⟨component, hcomponent, hfirst, hid⟩
  obtain ⟨item, hitem⟩ := exists_byItem_of_reachable hgate hback
  have hrank : rankOf members id = item.authorityRank := by
    rw [rankOf, hitem]
    rfl
  exact ⟨item, hitem, hrank ▸ le_antisymm (rank_le_of_reachable hgate hback)
    (rank_le_of_reachable hgate hto)⟩

/-- Cycle detection is exact. The search from a node stops on every run
with the nodes that can be reached; the components partition the nodes on
a cycle by mutual reach, whatever the order of the map; and over edges
that passed the authority gate all of a component has one rank. -/
theorem cycle_detection_exact (adjacency : Adjacency) :
    (∀ node, ExactSearch adjacency node)
      ∧ ExactComponents adjacency (cycleComponents adjacency)
      ∧ (∀ adjacency', SameMap adjacency adjacency' →
        cycleComponents adjacency' = cycleComponents adjacency)
      ∧ ∀ members, PassedGate members adjacency → ∀ component ∈ cycleComponents adjacency,
        ∃ rank, ∀ id ∈ component, ∃ item, byItem members id = some item
          ∧ item.authorityRank = rank :=
  ⟨reachableSet_exact adjacency, cycleComponents_exact adjacency,
    fun _ hsame => (cycleComponents_congr hsame).symm,
    fun _ hgate _ hcomponent => component_rank hgate hcomponent⟩

/-- Two rings that share a node are one component, a third ring another. -/
example : cycleComponents [("a", ["b"]), ("b", ["c", "d"]), ("c", ["a"]), ("d", ["b"]),
    ("e", ["f"]), ("f", ["e"])] = [["a", "b", "c", "d"], ["e", "f"]] := by decide +kernel

end CognitiveRuntime
