import CognitiveRuntime.Properties.GraphValidation
import CognitiveRuntime.Properties.RawSort

/-!
# Validated in one order, scheduled in another

The dependency resolver runs the loop of the canonical sort from an
unsorted queue, over the raw mapping. Both place the roots first, in the
order they were queued in, so the two agree on an accepted graph exactly
when its roots are listed in order and its edges are spelled the way the
resolver reads them (`schedule_order_iff`).

On raw lists the canonical sort raises where its roots do not compare,
and the resolver, which compares no roots, goes on. Where they do
compare, both place the same ids, but a root that is listed twice among
others may send a different number of copies through the two runs
(`Kahn.Tangled`), and both sorts raise by counting what they placed.
-/

namespace CognitiveRuntime

open Ordered Fallible Relation

/-! ## Raising together -/

/-- One of the sorts raises on the lists if and only if the other does. -/
def RaiseTogether [FloatValue] (nodes edges : List Json) : Prop :=
  (∃ order, rawTopologicalOrder nodes edges = .ok order)
    ↔ ∃ order, DependencyResolver.topologicalOrder nodes edges = .ok order

/-- The ids nothing points to are listed in order. -/
def RootsInOrder {κ : Type} [LinearOrder κ] (ids : List κ) (pairs : List (κ × κ)) : Prop :=
  (rootIds ids pairs).Pairwise (· ≤ ·)

section Conditions

variable (ids : List DictKey) (pairs : List (DictKey × DictKey))

/-- Some id that can be placed has successors that do not compare. -/
def Unsortable : Prop :=
  ∃ u ∈ ids, Acc (Precedes pairs) u ∧ ¬Sortable (successorsOf pairs u)

/-- Some id is listed twice, or not every id can be placed. -/
def Incomplete : Prop := ¬ids.Nodup ∨ ∃ v ∈ ids, ¬Acc (Precedes pairs) v

/-- Every id that can be placed has one predecessor, or no root above it
is listed twice, or the roots above it are listed in order. -/
def CopiesSettled : Prop :=
  ∀ v ∈ ids, Acc (Precedes pairs) v →
    (∀ u w, Precedes pairs u v → Precedes pairs w v → u = w)
      ∨ (∀ r, TransGen (Precedes pairs) r v → (rootIds ids pairs).count r ≤ 1)
      ∨ (rootIds ids pairs).Pairwise fun r r' =>
          TransGen (Precedes pairs) r v → TransGen (Precedes pairs) r' v → r ≤ r'

end Conditions

/-- What both sorts decide alike: successors that do not compare stop
both. Otherwise the roots compare and the copies of no root come out
otherwise from a sorted queue, or no root is listed twice and the lists
are rejected for a repeated id or a cycle. -/
def RaisingSettled [FloatValue] (nodes edges : List Json) : Prop :=
  ∀ ids pairs, ReadAs nodes edges ids pairs →
    Unsortable ids pairs
      ∨ (Sortable (rootIds ids pairs) ∧ CopiesSettled ids pairs)
      ∨ ((rootIds ids pairs).Nodup ∧ Incomplete ids pairs)

section Settled

variable {ids order order' : List DictKey} {pairs : List (DictKey × DictKey)}

/-- Roots above an id that are listed in order are queued alike by both
sorts. -/
theorem not_tangled_of_settled (h : CopiesSettled ids pairs) :
    ∀ v ∈ ids, Acc (Precedes pairs) v → ¬Kahn.Tangled (Precedes pairs)
      (sortedBy id (rootIds ids pairs)) (rootIds ids pairs) v := by
  classical
  rintro v hv hacc ⟨⟨u, w, hu, hw, hne⟩, ⟨r, hr, htwice⟩, hdiffer⟩
  rw [(perm_sortedBy id (rootIds ids pairs)).count_eq] at htwice
  rcases h v hv hacc with hsole | honce | hlisted
  · exact hne (hsole u w hu hw)
  · exact absurd htwice (honce r hr).not_gt
  · refine hdiffer ?_
    rw [filter_sortedBy]
    refine List.Pairwise.insertionSort_eq ?_
    rw [List.pairwise_filter]
    exact hlisted.imp fun hle hr hr' =>
      hle (of_decide_eq_true hr) (of_decide_eq_true hr')

theorem copiesSettled_of_nodup (h : (rootIds ids pairs).Nodup) : CopiesSettled ids pairs :=
  fun _ _ _ => Or.inr (Or.inl fun r _ => List.nodup_iff_count_le_one.mp h r)

variable (hends : EndsAmong ids pairs)
include hends

/-- Both sorts place an id that can be placed, and stop if it has
successors that do not compare. -/
theorem not_returns_of_unsortable {seed : List DictKey} (hseed : seed.Perm (rootIds ids pairs))
    (h : Unsortable ids pairs) : ¬Returns seed ids pairs order := by
  rintro ⟨rfl, hsucc, -⟩
  obtain ⟨u, hu, hacc, hnot⟩ := h
  exact hnot (hsucc u (((sortFrom_run hends hseed).mem_iff u).mpr ⟨hu, hacc⟩))

/-- Settled copies are placed alike, so both sorts count the same. -/
theorem returns_iff_of_settled (h : CopiesSettled ids pairs) :
    (∃ order, Returns (sortedBy id (rootIds ids pairs)) ids pairs order)
      ↔ ∃ order, Returns (rootIds ids pairs) ids pairs order := by
  have hperm := (sortFrom_run hends (perm_sortedBy id _)).perm
    (sortFrom_run hends (List.Perm.refl _)) (perm_sortedBy id _) (not_tangled_of_settled h)
  constructor
  · rintro ⟨_, rfl, hsucc, hlen⟩
    exact ⟨_, rfl, fun u hu => hsucc u (hperm.mem_iff.mpr hu), hperm.length_eq ▸ hlen⟩
  · rintro ⟨_, rfl, hsucc, hlen⟩
    exact ⟨_, rfl, fun u hu => hsucc u (hperm.mem_iff.mp hu), hperm.length_eq.symm ▸ hlen⟩

/-- With no root listed twice, a run counts as many ids as are listed
exactly when the lists are complete. -/
theorem length_eq_iff_of_nodup {seed : List DictKey} (hseed : seed.Perm (rootIds ids pairs))
    (hroots : (rootIds ids pairs).Nodup) :
    (sortFrom seed ids pairs).length = ids.length ↔ ¬Incomplete ids pairs := by
  rw [(sortFrom_run hends hseed).length_eq_iff (hseed.nodup_iff.mpr hroots)]
  unfold Incomplete
  push Not
  rfl

end Settled

section Raising

variable [FloatValue] {nodes edges : List Json}

/-- On lists that read, the two runs decide. -/
theorem ReadAs.raiseTogether_iff {ids : List DictKey} {pairs : List (DictKey × DictKey)}
    (h : ReadAs nodes edges ids pairs) :
    RaiseTogether nodes edges ↔
      ((Sortable (rootIds ids pairs)
          ∧ ∃ order, Returns (sortedBy id (rootIds ids pairs)) ids pairs order)
        ↔ ∃ order, Returns (rootIds ids pairs) ids pairs order) := by
  unfold RaiseTogether
  simp only [h.canonical, h.resolver, exists_and_left]

theorem raiseTogether_of_settled (h : RaisingSettled nodes edges) :
    RaiseTogether nodes edges := by
  by_cases hok : ∃ ids pairs, ReadAs nodes edges ids pairs
  · obtain ⟨ids, pairs, hread⟩ := hok
    have hends := hread.ends
    have hperm := perm_sortedBy id (rootIds ids pairs)
    have hlisted := List.Perm.refl (rootIds ids pairs)
    rw [hread.raiseTogether_iff]
    rcases h ids pairs hread with hstop | ⟨hroots, hsettled⟩ | ⟨hnodup, hincomplete⟩
    · exact iff_of_false
        (fun ⟨_, _, hreturns⟩ => not_returns_of_unsortable hends hperm hstop hreturns)
        (fun ⟨_, hreturns⟩ => not_returns_of_unsortable hends hlisted hstop hreturns)
    · rw [and_iff_right hroots]
      exact returns_iff_of_settled hends hsettled
    · have hshort : ∀ {seed order}, seed.Perm (rootIds ids pairs) →
          ¬Returns seed ids pairs order := by
        rintro seed _ hseed ⟨rfl, -, hlen⟩
        exact (length_eq_iff_of_nodup hends hseed hnodup).mp hlen hincomplete
      exact iff_of_false (fun ⟨_, _, hreturns⟩ => hshort hperm hreturns)
        (fun ⟨_, hreturns⟩ => hshort hlisted hreturns)
  · exact iff_of_false (fun hcanonical => hok (readAs_of_ok (Or.inl hcanonical)))
      (fun hresolver => hok (readAs_of_ok (Or.inr hresolver)))

/-- With no root listed twice the condition is necessary: the resolver
returns where the roots do not compare and nothing else is wrong. -/
theorem settled_of_raiseTogether
    (hroots : ∀ ids pairs, ReadAs nodes edges ids pairs → (rootIds ids pairs).Nodup)
    (h : RaiseTogether nodes edges) : RaisingSettled nodes edges := by
  intro ids pairs hread
  have hnodup := hroots ids pairs hread
  by_contra hnot
  obtain ⟨hnone, hrest⟩ := not_or.mp hnot
  obtain ⟨hunsettled, hwhole⟩ := not_or.mp hrest
  have hcomplete : ¬Incomplete ids pairs := fun hincomplete => hwhole ⟨hnodup, hincomplete⟩
  have hlisted := List.Perm.refl (rootIds ids pairs)
  have hreturns : Returns (rootIds ids pairs) ids pairs
      (sortFrom (rootIds ids pairs) ids pairs) := by
    refine ⟨rfl, fun u hu => ?_, (length_eq_iff_of_nodup hread.ends hlisted hnodup).mpr hcomplete⟩
    by_contra hsucc
    obtain ⟨hids, hacc⟩ := ((sortFrom_run hread.ends hlisted).mem_iff u).mp hu
    exact hnone ⟨u, hids, hacc, hsucc⟩
  have hcompare := (hread.raiseTogether_iff.mp h).mpr ⟨_, hreturns⟩
  exact hunsettled ⟨hcompare.1, copiesSettled_of_nodup hnodup⟩

end Raising

/-! ## Accepted graphs -/

/-- Every edge of the mapping names its ends under `from` and `to`, and
not under the names of the model's fields. -/
def SpelledOut (doc : Json) : Prop :=
  ∀ edges, doc.get? "edges" = some (.arr edges) →
    ∀ e ∈ edges, (e.get? "from").isSome ∧ (e.get? "to").isSome

/-- If validation accepts the mapping, the resolver returns the order
validation sorted its nodes in, and the scheduler puts them in it. -/
def OrdersAgree [FloatValue] (doc : Json) (g : ExecutionGraph) : Prop :=
  validateExecutionGraphMapping doc = [] →
    ∃ order, topologicalOrder g.nodeIds g.edges = .ok order
      ∧ DependencyResolver.scheduledOrder doc = .ok (order.map DictKey.str)
      ∧ ∃ scheduled, DependencyResolver.schedule doc = .ok scheduled
        ∧ nodeKeys scheduled = .ok (order.map DictKey.str)

section Agreement

variable {κ : Type} [LinearOrder κ] {ids : List κ} {pairs : List (κ × κ)}

theorem RootsInOrder.sorted (h : RootsInOrder ids pairs) :
    sortedBy id (rootIds ids pairs) = rootIds ids pairs :=
  List.Pairwise.insertionSort_eq h

/-- The two runs come out the same exactly when the roots are listed in
order. -/
theorem sortFrom_eq_iff :
    sortFrom (sortedBy id (rootIds ids pairs)) ids pairs = sortFrom (rootIds ids pairs) ids pairs
      ↔ RootsInOrder ids pairs := by
  constructor
  · intro h
    obtain ⟨rest, hrest⟩ := sortFrom_seed (perm_sortedBy id (rootIds ids pairs))
    obtain ⟨rest', hrest'⟩ := sortFrom_seed (List.Perm.refl (rootIds ids pairs))
    rw [hrest, hrest'] at h
    obtain ⟨hseed, -⟩ := List.append_inj h (perm_sortedBy id _).length_eq
    have hsorted := pairwise_sortedBy id (rootIds ids pairs)
    rw [hseed] at hsorted
    exact hsorted
  · intro h
    rw [h.sorted]

end Agreement

/-- Over strings the resolver returns what the loop places, unless it
leaves a node behind. -/
theorem returns_str {ids : List String} {pairs : List (String × String)} {order : List DictKey} :
    Returns (rootIds (ids.map DictKey.str) (pairs.map (Prod.map DictKey.str DictKey.str)))
        (ids.map DictKey.str) (pairs.map (Prod.map DictKey.str DictKey.str)) order
      ↔ (sortFrom (rootIds ids pairs) ids pairs).map DictKey.str = order
        ∧ order.length = ids.length := by
  unfold Returns
  rw [rootIds_map strictMono_str, sortFrom_map strictMono_str, List.length_map]
  refine and_congr_right fun horder => and_iff_right ?_
  subst horder
  intro u hu
  obtain ⟨text, -, rfl⟩ := List.mem_map.mp hu
  rw [successorsOf_map strictMono_str]
  exact sortable_str _

section Accepted

variable [FloatValue] {doc : Json} {g : ExecutionGraph}

/-- A parsed mapping with spelled-out edges reads as its graph. -/
theorem readAs_of_spelledOut {nodes edges : List Json}
    (hnodes : List.Forall₂ (fun j n => ExecutionGraphNode.read j = .ok n) nodes g.nodes)
    (hedges : List.Forall₂ (fun j e => ExecutionGraphEdge.read j = .ok e) edges g.edges)
    (hspelled : ∀ e ∈ edges, (e.get? "from").isSome ∧ (e.get? "to").isSome)
    (hends : EndsIn g.nodeIds g.edges) :
    ReadAs nodes edges (g.nodeIds.map DictKey.str)
      ((edgePairs g.edges).map (Prod.map DictKey.str DictKey.str)) := by
  constructor
  · rw [nodeKeys_eq_ok]
    unfold ExecutionGraph.nodeIds
    rw [List.map_map, List.forall₂_map_right_iff]
    exact hnodes.imp fun j n h =>
      bind_eq_ok.mpr ⟨.str n.id, itemAt_eq_ok.mpr (ExecutionGraphNode.read_id h), rfl⟩
  · rw [mapM_eq_ok]
    unfold edgePairs
    rw [List.map_map, List.forall₂_map_right_iff, List.forall₂_iff_zip]
    refine ⟨hedges.length_eq, fun {j e} hzip => ?_⟩
    obtain ⟨hj, he⟩ := List.of_mem_zip hzip
    obtain ⟨hsource, htarget⟩ := ExecutionGraphEdge.read_ends (List.forall₂_zip hedges hzip)
    obtain ⟨v, hv⟩ := Option.isSome_iff_exists.mp (hspelled j hj).1
    obtain ⟨w, hw⟩ := Option.isSome_iff_exists.mp (hspelled j hj).2
    obtain rfl := hsource v hv
    obtain rfl := htarget w hw
    obtain ⟨hfrom, hto⟩ := hends e he
    exact canonicalEdge_eq_ok.mpr ⟨_, _, hv, hw, rfl, rfl, List.mem_map_of_mem hfrom,
      List.mem_map_of_mem hto⟩

/-- Edges that read are spelled out. -/
theorem ReadAs.spelled {nodes edges : List Json} {ids : List DictKey}
    {pairs : List (DictKey × DictKey)} (h : ReadAs nodes edges ids pairs) :
    ∀ e ∈ edges, (e.get? "from").isSome ∧ (e.get? "to").isSome := by
  have hpairs := mapM_eq_ok.mp h.edgesRead
  intro e he
  obtain ⟨p, hp⟩ : ∃ p, canonicalEdge ids e = .ok p := by
    obtain ⟨i, hi, rfl⟩ := List.mem_iff_getElem.mp he
    exact ⟨_, hpairs.get hi (hpairs.length_eq ▸ hi)⟩
  obtain ⟨_, _, hsource, htarget, -⟩ := canonicalEdge_eq_ok.mp hp
  rw [hsource, htarget]
  exact ⟨rfl, rfl⟩

/-- On a mapping that parses, the two orders agree exactly when the
edges are spelled out and the roots are listed in order. -/
theorem ordersAgree_iff (hdoc : ExecutionGraph.fromMapping doc = .ok g) :
    OrdersAgree doc g ↔ (validateExecutionGraphMapping doc = [] →
      SpelledOut doc ∧ RootsInOrder g.nodeIds (edgePairs g.edges)) := by
  obtain ⟨nodes, edges, hnodesAt, hedgesAt, hnodes, hedges⟩ := fromMapping_lists hdoc
  have hscheduled : DependencyResolver.scheduledOrder doc
      = DependencyResolver.topologicalOrder nodes edges := by
    unfold DependencyResolver.scheduledOrder
    rw [itemsAt_eq_ok.mpr hnodesAt, ok_bind, itemsAt_eq_ok.mpr hedgesAt, ok_bind]
  unfold OrdersAgree
  refine forall_congr' fun haccepted => ?_
  rw [validation_accepts_iff hdoc] at haccepted
  constructor
  · rintro ⟨order, hcanonical, hresolver, -⟩
    rw [hscheduled] at hresolver
    obtain ⟨ids, pairs, hread⟩ := readAs_of_ok (Or.inr ⟨_, hresolver⟩)
    have hspelled := hread.spelled
    have hgraph := readAs_of_spelledOut hnodes hedges hspelled haccepted.ends
    obtain ⟨hsorted, -⟩ := (topologicalOrder_eq haccepted.ends).mp hcanonical
    obtain ⟨hlisted, -⟩ := returns_str.mp (hgraph.resolver.mp hresolver)
    have hsame := strictMono_str.injective.list_map hlisted
    refine ⟨fun edges' hedges' => ?_, sortFrom_eq_iff.mp (hsorted.trans hsame.symm)⟩
    rw [hedgesAt] at hedges'
    cases hedges'
    exact hspelled
  · rintro ⟨hspelled, hroots⟩
    have hgraph := readAs_of_spelledOut hnodes hedges (hspelled edges hedgesAt) haccepted.ends
    obtain ⟨order, hcanonical⟩ := (topologicalOrder_ok_iff haccepted.distinct).mpr
      ⟨haccepted.ends, haccepted.acyclic⟩
    obtain ⟨hsorted, hlen⟩ := (topologicalOrder_eq haccepted.ends).mp hcanonical
    have hresolver : DependencyResolver.scheduledOrder doc = .ok (order.map DictKey.str) := by
      rw [hscheduled]
      refine hgraph.resolver.mpr (returns_str.mpr ⟨?_, by rwa [List.length_map]⟩)
      rw [← sortFrom_eq_iff.mpr hroots, hsorted]
    exact ⟨order, hcanonical, hresolver, schedule_of_order hresolver⟩

end Accepted

/-- On an accepted mapping the two orders agree exactly when its edges
are spelled out and its roots are listed in order. On raw lists one sort
raises exactly when the other does where the condition holds, and, if no
root is listed twice, nowhere else. -/
theorem schedule_order_iff [FloatValue] (doc : Json) (g : ExecutionGraph)
    (hdoc : ExecutionGraph.fromMapping doc = .ok g) (nodes edges : List Json) :
    (OrdersAgree doc g ↔ (validateExecutionGraphMapping doc = [] →
        SpelledOut doc ∧ RootsInOrder g.nodeIds (edgePairs g.edges)))
      ∧ (RaisingSettled nodes edges → RaiseTogether nodes edges)
      ∧ ((∀ ids pairs, ReadAs nodes edges ids pairs → (rootIds ids pairs).Nodup) →
          RaiseTogether nodes edges → RaisingSettled nodes edges) :=
  ⟨ordersAgree_iff hdoc, raiseTogether_of_settled, settled_of_raiseTogether⟩

section Examples

/-- The lists below hold no floating-point literal. -/
local instance noFloats : FloatValue := ⟨fun _ => 0⟩

/-- Raw nodes that hold nothing but their ids. -/
def bareNodes (ids : List Json) : List Json := ids.map fun id => .obj [("id", id)]

/-- A repeated root out of order, with nothing below it. -/
def isolatedNodes : List Json := bareNodes [.str "b", .str "a", .str "a"]

theorem isolated_settled : RaisingSettled isolatedNodes [] := by
  rintro ids pairs ⟨hnodes, hedges⟩
  have hread : nodeKeys isolatedNodes = .ok [.str "b", .str "a", .str "a"] := rfl
  obtain rfl := Except.ok.inj (hread.symm.trans hnodes)
  obtain rfl := (Except.ok.inj hedges).symm
  refine Or.inr (Or.inl ⟨by decide, fun v _ _ => Or.inl fun u _ hu => ?_⟩)
  exact absurd hu List.not_mem_nil

/-- The diamond has one root, and is scheduled as it was validated; and
isolated nodes are sorted by both. -/
theorem diamond_scheduled : OrdersAgree diamondGraph.toJson diamondGraph
    ∧ RaiseTogether isolatedNodes [] := by
  obtain ⟨horder, hraise, -⟩ := schedule_order_iff diamondGraph.toJson diamondGraph
    (fromMapping_toJson _) isolatedNodes []
  refine ⟨horder.mpr fun _ => ⟨fun edges hedges => ?_, ?_⟩, hraise isolated_settled⟩
  · obtain rfl : edges = diamondGraph.edges.map ExecutionGraphEdge.toJson :=
      (Json.arr.inj (Option.some.inj hedges)).symm
    decide
  · unfold RootsInOrder
    decide

/-- Two nodes without edges, listed against the order of their ids. -/
def twoRoots : ExecutionGraph :=
  { diamondGraph with
    nodes := [{ diamondGraph.nodes.head (by decide) with id := "b" },
      { diamondGraph.nodes.head (by decide) with id := "a" }]
    edges := [], terminalNode := "b" }

/-- A node list that names one id twice, and two edges into another. -/
def repeatedNodes : List Json := bareNodes [.str "b", .str "a", .str "a", .str "c"]

def repeatedEdges : List Json :=
  [.obj [("from", .str "a"), ("to", .str "c")], .obj [("from", .str "b"), ("to", .str "c")]]

/-- A number and a string as ids. -/
def mixedNodes : List Json := bareNodes [.int 1, .str "a"]

/-- Unsorted roots are scheduled in another order than they were
validated in. Where one is repeated only the resolver raises, and where
they do not compare only the canonical sort does. -/
theorem unsorted_roots_disagree :
    ¬OrdersAgree twoRoots.toJson twoRoots ∧ ¬RaiseTogether repeatedNodes repeatedEdges
      ∧ ¬RaiseTogether mixedNodes [] := by
  refine ⟨fun h => ?_, fun h => ?_, fun h => ?_⟩
  · obtain ⟨order, hcanonical, hresolver, -⟩ := h
      (by rw [validate_of_fromMapping (fromMapping_toJson _)]; decide)
    have hvalidated : topologicalOrder twoRoots.nodeIds twoRoots.edges = .ok ["a", "b"] := rfl
    have hscheduled : DependencyResolver.scheduledOrder twoRoots.toJson
        = .ok [.str "b", .str "a"] := rfl
    obtain rfl := Except.ok.inj (hvalidated.symm.trans hcanonical)
    exact absurd (Except.ok.inj (hscheduled.symm.trans hresolver)) (by decide)
  · have hcanonical : rawTopologicalOrder repeatedNodes repeatedEdges
        = .ok [.str "a", .str "a", .str "b", .str "c"] := rfl
    have hresolver : DependencyResolver.topologicalOrder repeatedNodes repeatedEdges
        = .error (.value "cycle detected in execution graph") := rfl
    obtain ⟨order, horder⟩ := h.mp ⟨_, hcanonical⟩
    rw [hresolver] at horder
    cases horder
  · have hcanonical : rawTopologicalOrder mixedNodes []
        = .error (.type "'<' not supported between these instances") := rfl
    have hresolver : DependencyResolver.topologicalOrder mixedNodes []
        = .ok [.num 1, .str "a"] := rfl
    obtain ⟨order, horder⟩ := h.mpr ⟨_, hresolver⟩
    rw [hcanonical] at horder
    cases horder

end Examples

end CognitiveRuntime
