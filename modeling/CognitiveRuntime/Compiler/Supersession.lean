import CognitiveRuntime.Models.Plan
import CognitiveRuntime.Data.Classes
import CognitiveRuntime.Data.Reach

/-!
# Kind-wide explicit supersession

`_resolve_supersession` over the laws or the prior decisions of one
candidate list. References are expanded to item ids, the proposed edges
pass an authority gate, the cycles of what remains are found by
reachability, and the items superseded from off a cycle are dropped.

The indexes are dictionaries keyed by item id, so what the gate reads
under an id is the *last* member with that id. The item id does not
cover the authority level; two members may share an id and differ there.

`survivors_iff` says what is kept in terms of the accepted edges alone.
-/

namespace CognitiveRuntime

open Ordered Relation

/-! ## Indexes and references -/

/-- `SUPERSESSION_KINDS`: the kinds that declare explicit supersession. -/
def isSupersessionKind : ContextKind → Bool
  | .applicableLaw | .priorDecision => true
  | _ => false

/-- `_domain_id`: the identifier supersession references name. -/
def domainId (item : ContextItem) : String :=
  match item.claim with
  | .applicableLaw c => c.lawId
  | .priorDecision c => c.decisionId
  | _ => ""

/-- `by_item`: later members replace earlier ones under the same id. -/
def byItem (members : List ContextItem) (id : String) : Option ContextItem :=
  lastBy ContextItem.itemId id members

/-- `by_domain`: the ids of the members under a domain identifier. -/
def byDomain (members : List ContextItem) (domain : String) : List String :=
  (members.filter fun item => domainId item = domain).map ContextItem.itemId

/-- `domain_of`. -/
def domainOf (members : List ContextItem) (id : String) : String :=
  ((byItem members id).map domainId).getD ""

/-- The authority rank the gate reads under an id. -/
def rankOf (members : List ContextItem) (id : String) : Nat :=
  ((byItem members id).map ContextItem.authorityRank).getD 0

/-- `_expand_supersession_ref`: the items a reference names, or nothing
when it dangles. -/
def expandSupersessionRef (members : List ContextItem) (ref : String)
    (referrer : ContextItem) : Option (List String) :=
  if (byItem members ref).isSome then
    some (if ref ≠ referrer.itemId then [ref] else [])
  else if byDomain members ref ≠ [] then
    -- a claim may not supersede itself by naming its own domain
    if ref = domainOf members referrer.itemId then some []
    else some ((byDomain members ref).filter (· ≠ referrer.itemId))
  else none

/-! ## Edges -/

/-- `proposed`: superseder and superseded, forward and inverse
references of every member. -/
def proposedEdges (members : List ContextItem) : List (String × String) :=
  members.flatMap fun item =>
    (item.supersedesRefs.flatMap fun ref =>
      ((expandSupersessionRef members ref item).getD []).map fun target => (item.itemId, target))
    ++ item.supersededByRefs.flatMap fun ref =>
      ((expandSupersessionRef members ref item).getD []).map fun target => (target, item.itemId)

/-- The authority gate: a weaker claim may not retire a stronger one. -/
def gateAccepts (members : List ContextItem) (edge : String × String) : Bool :=
  rankOf members edge.1 ≤ rankOf members edge.2

/-- `edges`. -/
def acceptedEdges (members : List ContextItem) : List (String × String) :=
  (proposedEdges members).filter (gateAccepts members)

/-- `sorted(refused)`. -/
def refusedEdges (members : List ContextItem) : List (String × String) :=
  sortedBy toLex (firstSeen ((proposedEdges members).filter fun e => !gateAccepts members e))

/-- `dangling`: each unresolved reference under its domain, with the
members that made it. -/
def danglingRefs (members : List ContextItem) : List ((String × String) × List String) :=
  sortedBy (fun entry => toLex entry.1)
    ((groupBy Prod.fst (members.flatMap fun item =>
        ((item.supersedesRefs ++ item.supersededByRefs).filter fun ref =>
            (expandSupersessionRef members ref item).isNone).map
          fun ref => ((domainOf members item.itemId, ref), item.itemId))).map
      fun entry => (entry.1, entry.2.map Prod.snd))

/-! ## Cycles -/

/-- `adjacency`: a node and the set of its successors. -/
abbrev Adjacency := List (String × List String)

/-- `adjacency.get(node, ())`. -/
def successors (adjacency : Adjacency) (node : String) : List String :=
  (adjacency.lookup node).getD []

/-- The adjacency of a list of edges. -/
def adjacencyOf (edges : List (String × String)) : Adjacency :=
  (firstSeen (edges.map Prod.fst)).map fun node =>
    (node, (edges.filter fun e => e.1 = node).map Prod.snd)

/-- `_reachable_set`: every node one or more edges away. -/
def reachableSet (node : String) (adjacency : Adjacency) : List String :=
  Reach.reach (successors adjacency) (adjacency.map Prod.fst) node

/-- The loop of `_cycle_components` over the nodes on a cycle. -/
def cycleComponentsFrom (adjacency : Adjacency) (onCycle : List String) :
    List String → List String → List (List String)
  | [], _ => []
  | node :: rest, assigned =>
    if node ∈ assigned then cycleComponentsFrom adjacency onCycle rest assigned
    else
      let component := onCycle.filter fun other =>
        other ∈ reachableSet node adjacency ∧ node ∈ reachableSet other adjacency
      component :: cycleComponentsFrom adjacency onCycle rest (component ++ assigned)

/-- The nodes of `adjacency` that reach themselves, sorted. -/
def nodesOnCycle (adjacency : Adjacency) : List String :=
  sortedBy id ((firstSeen (adjacency.map Prod.fst)).filter fun node =>
    node ∈ reachableSet node adjacency)

/-- `_cycle_components`: one entry per distinct supersession cycle. -/
def cycleComponents (adjacency : Adjacency) : List (List String) :=
  cycleComponentsFrom adjacency (nodesOnCycle adjacency) (nodesOnCycle adjacency) []

/-- The components of a member list. -/
def supersessionCycles (members : List ContextItem) : List (List String) :=
  cycleComponents (adjacencyOf (acceptedEdges members))

/-- `on_cycle`. -/
def onCycle (members : List ContextItem) : List String := (supersessionCycles members).flatten

/-- `superseded_items`: cycle members supersede nothing. -/
def supersededItems (members : List ContextItem) : List String :=
  ((acceptedEdges members).filter fun e => e.1 ∉ onCycle members).map Prod.snd

/-! ## Unknowns -/

/-- `_source_sort_key`. -/
def sourceSortKey (ref : ContextSourceRef) :
    String ×ₗ String ×ₗ String ×ₗ String ×ₗ String :=
  toLex (ref.sourceId, toLex (ref.sourceKind, toLex (ref.locator,
    toLex (orEmpty ref.immutableCoordinate, orEmpty ref.contentDigest))))

/-- `_causal_source_refs`: deduplicated provenance in source order. -/
def causalSourceRefs (items : List ContextItem) : List ContextSourceRef :=
  dedupeLast sourceSortKey (items.map ContextItem.sourceRef)

/-- `_truth_tier_materiality`: blocking only when governed truth is what
has been put in doubt. -/
def truthTierMateriality (items : List ContextItem) : UnknownMateriality :=
  if items.any ContextItem.isGoverned then .blocking else .nonBlocking

section Unknowns

variable [Sha256] (kind : ContextKind) (members : List ContextItem)

/-- One contradiction, reported once per identifier it touches. -/
def cycleUnknowns (component : List String) : List ContextUnknown :=
  let claims := component.filterMap (byItem members)
  let domains := sortedUnique (component.map (domainOf members))
  domains.map fun domain =>
    .create none (some domain) .unknownSupersession
      [("context_kind", .str kind.value), ("reason", .str "supersession cycle"),
        ("cycle_members", .ofStrings domains),
        ("cycle_item_ids", .ofStrings (sortedBy id component))]
      (truthTierMateriality claims) (causalSourceRefs claims)

/-- The unknown that records a refused edge. -/
def refusedUnknown (edge : String × String) : ContextUnknown :=
  let level := fun id => ((byItem members id).map fun item => item.authorityLevel.value).getD ""
  .create none (some (domainOf members edge.1)) .unknownSupersession
    [("context_kind", .str kind.value),
      ("reason", .str "weaker authority may not supersede a stronger claim"),
      ("superseder_authority", .str (level edge.1)),
      ("superseded", .str (domainOf members edge.2)),
      ("superseded_authority", .str (level edge.2))]
    .nonBlocking
    (causalSourceRefs ((byItem members edge.1).toList ++ (byItem members edge.2).toList))

/-- The unknown that records a dangling reference. -/
def danglingUnknown (entry : (String × String) × List String) : ContextUnknown :=
  .create none (some entry.1.1) .danglingSupersession
    [("context_kind", .str kind.value), ("unresolved_ref", .str entry.1.2)]
    .nonBlocking (causalSourceRefs (entry.2.filterMap (byItem members)))

def supersessionUnknowns : List ContextUnknown :=
  (supersessionCycles members).flatMap (cycleUnknowns kind members)
    ++ (refusedEdges members).map (refusedUnknown kind members)
    ++ (danglingRefs members).map (danglingUnknown kind members)

/-- What supersession keeps: off every cycle, not superseded by status,
not superseded by an item off every cycle. -/
def supersessionSurvivors : List ContextItem :=
  members.filter fun item =>
    item.itemId ∉ onCycle members ∧ item.hasStatus .superseded = false
      ∧ item.itemId ∉ supersededItems members

/-- `_resolve_supersession`. -/
def resolveSupersession : List ContextItem × List ContextUnknown :=
  (supersessionSurvivors members, supersessionUnknowns kind members)

/-- `apply_supersession`: each kind in order of appearance. -/
def applySupersession (items : List ContextItem) : List ContextItem × List ContextUnknown :=
  let byKind := groupBy ContextItem.contextKind items
  (byKind.flatMap fun entry =>
      if isSupersessionKind entry.1 then (resolveSupersession entry.1 entry.2).1 else entry.2,
    byKind.flatMap fun entry =>
      if isSupersessionKind entry.1 then (resolveSupersession entry.1 entry.2).2 else [])

end Unknowns

/-! ## Reachability over the accepted edges -/

/-- An accepted supersession edge of the member list. -/
def Supersedes (members : List ContextItem) (s t : String) : Prop :=
  (s, t) ∈ acceptedEdges members

theorem lookup_map_pair {β : Type} (f : String → β) {a : String} :
    ∀ {l : List String},
      (l.map fun k => (k, f k)).lookup a = if a ∈ l then some (f a) else none
  | [] => rfl
  | k :: l => by
      by_cases h : a = k
      · subst h
        simp
      · rw [List.map_cons, List.lookup_cons, beq_eq_false_iff_ne.mpr h, lookup_map_pair f]
        simp [h]

theorem mem_successors_adjacencyOf {edges : List (String × String)} {a b : String} :
    b ∈ successors (adjacencyOf edges) a ↔ (a, b) ∈ edges := by
  unfold successors adjacencyOf
  rw [lookup_map_pair]
  by_cases h : a ∈ firstSeen (edges.map Prod.fst)
  · rw [if_pos h, Option.getD_some, List.mem_map]
    constructor
    · rintro ⟨⟨x, y⟩, he, rfl⟩
      obtain ⟨hmem, hx⟩ := List.mem_filter.mp he
      rw [← of_decide_eq_true hx]
      exact hmem
    · intro he
      exact ⟨(a, b), List.mem_filter.mpr ⟨he, by simp⟩, rfl⟩
  · rw [if_neg h]
    constructor
    · intro hb
      cases hb
    · intro he
      exact absurd (mem_firstSeen.mpr (List.mem_map.mpr ⟨(a, b), he, rfl⟩)) h

theorem edge_successors_iff {edges : List (String × String)} (a b : String) :
    Reach.Edge (successors (adjacencyOf edges)) a b ↔ (a, b) ∈ edges :=
  mem_successors_adjacencyOf

theorem successors_ne_nil {adjacency : Adjacency} {a : String}
    (h : successors adjacency a ≠ []) : a ∈ adjacency.map Prod.fst := by
  unfold successors at h
  cases hl : adjacency.lookup a with
  | none => rw [hl] at h; exact absurd rfl h
  | some bs =>
      obtain ⟨l₁, l₂, rfl, -⟩ := List.lookup_eq_some_iff.mp hl
      simp

theorem mem_reachableSet {adjacency : Adjacency} {a b : String} :
    b ∈ reachableSet a adjacency ↔ TransGen (Reach.Edge (successors adjacency)) a b :=
  Reach.mem_reach fun _ h => successors_ne_nil h

theorem mem_nodesOnCycle {adjacency : Adjacency} {a : String} :
    a ∈ nodesOnCycle adjacency ↔ TransGen (Reach.Edge (successors adjacency)) a a := by
  unfold nodesOnCycle
  rw [mem_sortedBy, List.mem_filter, mem_firstSeen, decide_eq_true_eq, mem_reachableSet]
  constructor
  · exact And.right
  · intro h
    obtain ⟨b, hab, -⟩ := TransGen.head'_iff.mp h
    exact ⟨successors_ne_nil (List.ne_nil_of_mem hab), h⟩

/-- Each of the nodes is reached from the other. -/
def MutualReach (adjacency : Adjacency) (node other : String) : Prop :=
  other ∈ reachableSet node adjacency ∧ node ∈ reachableSet other adjacency

instance (adjacency : Adjacency) : DecidableRel (MutualReach adjacency) := fun _ _ =>
  inferInstanceAs (Decidable (_ ∧ _))

theorem mutualReach_iff {adjacency : Adjacency} {a b : String} : MutualReach adjacency a b ↔
    TransGen (Reach.Edge (successors adjacency)) a b
      ∧ TransGen (Reach.Edge (successors adjacency)) b a := by
  rw [MutualReach, mem_reachableSet, mem_reachableSet]

/-- Mutual reach is an equivalence of the nodes on a cycle. -/
theorem mutualReach_equivalence (adjacency : Adjacency) :
    Classes.EquivalenceOn (MutualReach adjacency) (nodesOnCycle adjacency) where
  refl a ha := mutualReach_iff.mpr ⟨mem_nodesOnCycle.mp ha, mem_nodesOnCycle.mp ha⟩
  symm h := ⟨h.2, h.1⟩
  trans h h' := by
    obtain ⟨hab, hba⟩ := mutualReach_iff.mp h
    obtain ⟨hbc, hcb⟩ := mutualReach_iff.mp h'
    exact mutualReach_iff.mpr ⟨hab.trans hbc, hcb.trans hba⟩

/-- The components are the classes of mutual reach. -/
theorem cycleComponents_eq (adjacency : Adjacency) : cycleComponents adjacency
    = Classes.classes (MutualReach adjacency) (nodesOnCycle adjacency) := by
  have hfrom : ∀ nodes work assigned, cycleComponentsFrom adjacency nodes work assigned
      = Classes.classesFrom (MutualReach adjacency) nodes work assigned := by
    intro nodes work
    induction work with
    | nil => exact fun _ => rfl
    | cons node rest ih =>
        intro assigned
        rw [cycleComponentsFrom, Classes.classesFrom, ← ih, ← ih]
        rfl
  exact hfrom _ _ _

/-- The components hold exactly the nodes on a cycle. -/
theorem mem_flatten_cycleComponents {adjacency : Adjacency} {a : String} :
    a ∈ (cycleComponents adjacency).flatten ↔
      TransGen (Reach.Edge (successors adjacency)) a a := by
  rw [cycleComponents_eq, Classes.mem_flatten_classes (mutualReach_equivalence adjacency),
    mem_nodesOnCycle]

theorem nodup_nodesOnCycle (adjacency : Adjacency) : (nodesOnCycle adjacency).Nodup :=
  nodup_sortedBy id ((nodup_firstSeen _).filter _)

/-- The components depend on the sets of successors alone, not on the
order of the map or of a set. -/
theorem cycleComponents_congr {adjacency adjacency' : Adjacency}
    (h : ∀ a b, b ∈ successors adjacency a ↔ b ∈ successors adjacency' a) :
    cycleComponents adjacency = cycleComponents adjacency' := by
  have hreach : ∀ a b, TransGen (Reach.Edge (successors adjacency)) a b
      ↔ TransGen (Reach.Edge (successors adjacency')) a b := fun _ _ => Reach.transGen_congr h
  have hnodes : nodesOnCycle adjacency = nodesOnCycle adjacency' := by
    refine sortedBy_congr id ((nodup_firstSeen _).filter _) ((nodup_firstSeen _).filter _)
      (fun a => ?_) (fun _ _ _ _ hab => hab)
    have hiff := hreach a a
    rw [← mem_nodesOnCycle, ← mem_nodesOnCycle] at hiff
    simpa only [nodesOnCycle, mem_sortedBy] using hiff
  rw [cycleComponents_eq, cycleComponents_eq, hnodes]
  refine Classes.classes_congr fun a b => ?_
  rw [mutualReach_iff, mutualReach_iff, hreach, hreach]

theorem mem_onCycle {members : List ContextItem} {a : String} :
    a ∈ onCycle members ↔ TransGen (Supersedes members) a a := by
  unfold onCycle supersessionCycles
  rw [mem_flatten_cycleComponents]
  exact Reach.transGen_congr edge_successors_iff

theorem notMem_onCycle {members : List ContextItem} {a : String} :
    a ∉ onCycle members ↔ Reach.OffCycle (Supersedes members) a :=
  not_congr mem_onCycle

theorem mem_supersededItems {members : List ContextItem} {t : String} :
    t ∈ supersededItems members ↔
      ∃ s, Supersedes members s t ∧ Reach.OffCycle (Supersedes members) s := by
  unfold supersededItems
  simp only [List.mem_map, List.mem_filter, decide_eq_true_eq, notMem_onCycle]
  constructor
  · rintro ⟨⟨s, t'⟩, ⟨he, hs⟩, rfl⟩
    exact ⟨s, he, hs⟩
  · rintro ⟨s, he, hs⟩
    exact ⟨(s, t), ⟨he, hs⟩, rfl⟩

/-- A component is the claims in mutual reach of any of its own. -/
theorem mem_component_iff {members : List ContextItem} {component : List String} {node : String}
    (h : component ∈ supersessionCycles members) (hnode : node ∈ component) (other : String) :
    other ∈ component ↔
      TransGen (Supersedes members) node other ∧ TransGen (Supersedes members) other node := by
  rw [supersessionCycles, cycleComponents_eq] at h
  have hreach : ∀ {a b}, TransGen (Reach.Edge (successors (adjacencyOf (acceptedEdges members)))) a b
      ↔ TransGen (Supersedes members) a b := Reach.transGen_congr edge_successors_iff
  rw [Classes.mem_class_iff (mutualReach_equivalence _) h hnode, mem_nodesOnCycle,
    mutualReach_iff, hreach, hreach, hreach]
  exact ⟨And.right, fun h => ⟨h.2.trans h.1, h⟩⟩

/-- A component is the claims in mutual reach of one on a cycle. -/
theorem supersessionCycles_component {members : List ContextItem} {component : List String}
    (h : component ∈ supersessionCycles members) :
    ∃ node, TransGen (Supersedes members) node node ∧ ∀ other, other ∈ component ↔
      TransGen (Supersedes members) node other ∧ TransGen (Supersedes members) other node := by
  have hne : component ≠ [] := by
    rw [supersessionCycles, cycleComponents_eq] at h
    exact Classes.ne_nil_of_mem_classes (mutualReach_equivalence _) h
  obtain ⟨node, hnode⟩ := List.exists_mem_of_ne_nil _ hne
  have hmutual := mem_component_iff h hnode
  exact ⟨node, ((hmutual node).mp hnode).1, hmutual⟩

/-- The components depend on the accepted edges alone, and not on their
order. -/
theorem supersessionCycles_congr {members members' : List ContextItem}
    (h : ∀ s t, Supersedes members s t ↔ Supersedes members' s t) :
    supersessionCycles members = supersessionCycles members' :=
  cycleComponents_congr fun a b => by
    rw [mem_successors_adjacencyOf, mem_successors_adjacencyOf]
    exact h a b

/-- What `_resolve_supersession` keeps, in terms of the accepted edges. -/
theorem survivors_iff {members : List ContextItem} {item : ContextItem} :
    item ∈ supersessionSurvivors members ↔
      item ∈ members ∧ Reach.OffCycle (Supersedes members) item.itemId
        ∧ item.hasStatus .superseded = false
        ∧ ∀ s, Supersedes members s item.itemId → ¬Reach.OffCycle (Supersedes members) s := by
  unfold supersessionSurvivors
  simp only [List.mem_filter, decide_eq_true_eq, notMem_onCycle, mem_supersededItems,
    not_exists, not_and]

/-! ## Where edges come from -/

theorem mem_expandSupersessionRef {members : List ContextItem} {ref target : String}
    {referrer : ContextItem}
    (h : target ∈ (expandSupersessionRef members ref referrer).getD []) :
    target ∈ members.map ContextItem.itemId := by
  unfold expandSupersessionRef at h
  split at h
  · rename_i hsome
    split at h
    · simp only [Option.getD_some, List.mem_singleton] at h
      subst h
      exact (lastBy_isSome _).mp hsome
    · cases h
  · split at h
    · split at h
      · cases h
      · simp only [Option.getD_some] at h
        obtain ⟨x, hx, rfl⟩ := List.mem_map.mp (List.mem_filter.mp h).1
        exact List.mem_map_of_mem (List.mem_filter.mp hx).1
    · cases h

/-- No reference names its own referrer. -/
theorem ne_of_mem_expandSupersessionRef {members : List ContextItem} {ref target : String}
    {referrer : ContextItem}
    (h : target ∈ (expandSupersessionRef members ref referrer).getD []) :
    target ≠ referrer.itemId := by
  unfold expandSupersessionRef at h
  split at h
  · split at h
    · next hne =>
        rw [List.mem_singleton.mp h]
        exact hne
    · cases h
  · split at h
    · split at h
      · cases h
      · exact of_decide_eq_true (List.mem_filter.mp h).2
    · cases h

theorem proposed_irrefl {members : List ContextItem} {s t : String}
    (h : (s, t) ∈ proposedEdges members) : s ≠ t := by
  unfold proposedEdges at h
  obtain ⟨item, -, h⟩ := List.mem_flatMap.mp h
  rcases List.mem_append.mp h with h | h
  · obtain ⟨ref, -, h⟩ := List.mem_flatMap.mp h
    obtain ⟨target, htarget, he⟩ := List.mem_map.mp h
    cases he
    exact (ne_of_mem_expandSupersessionRef htarget).symm
  · obtain ⟨ref, -, h⟩ := List.mem_flatMap.mp h
    obtain ⟨target, htarget, he⟩ := List.mem_map.mp h
    cases he
    exact ne_of_mem_expandSupersessionRef htarget

theorem proposed_endpoints {members : List ContextItem} {s t : String}
    (h : (s, t) ∈ proposedEdges members) :
    s ∈ members.map ContextItem.itemId ∧ t ∈ members.map ContextItem.itemId := by
  unfold proposedEdges at h
  obtain ⟨item, hitem, h⟩ := List.mem_flatMap.mp h
  rcases List.mem_append.mp h with h | h
  · obtain ⟨ref, -, h⟩ := List.mem_flatMap.mp h
    obtain ⟨target, htarget, he⟩ := List.mem_map.mp h
    cases he
    exact ⟨List.mem_map_of_mem hitem, mem_expandSupersessionRef htarget⟩
  · obtain ⟨ref, -, h⟩ := List.mem_flatMap.mp h
    obtain ⟨target, htarget, he⟩ := List.mem_map.mp h
    cases he
    exact ⟨mem_expandSupersessionRef htarget, List.mem_map_of_mem hitem⟩

theorem byItem_eq_some {members : List ContextItem} {id : String} {item : ContextItem}
    (h : byItem members id = some item) : item ∈ members ∧ item.itemId = id :=
  lastBy_eq_some _ h

theorem exists_byItem {members : List ContextItem} {id : String}
    (h : id ∈ members.map ContextItem.itemId) : ∃ item, byItem members id = some item :=
  exists_lastBy _ h

/-- An item alone under its id is what the index holds there. -/
theorem byItem_of_mem {members : List ContextItem} {item : ContextItem} (h : item ∈ members)
    (hone : ∀ other ∈ members, other.itemId = item.itemId → other = item) :
    byItem members item.itemId = some item := by
  obtain ⟨other, hother⟩ := exists_byItem (List.mem_map_of_mem h)
  obtain ⟨hmem, hid⟩ := byItem_eq_some hother
  rw [hother, hone other hmem hid]

/-- A reference to a domain proposes to retire each item of it. -/
theorem proposed_by_domain {members : List ContextItem} {s t : ContextItem} {ref : String}
    (hs : s ∈ members) (ht : t ∈ members) (href : ref ∈ s.supersedesRefs)
    (hitem : byItem members ref = none) (hdomain : domainId t = ref)
    (hself : domainOf members s.itemId ≠ ref) (hne : t.itemId ≠ s.itemId) :
    (s.itemId, t.itemId) ∈ proposedEdges members := by
  have htarget : t.itemId ∈ byDomain members ref :=
    List.mem_map_of_mem (List.mem_filter.mpr ⟨ht, decide_eq_true hdomain⟩)
  have hexpand : t.itemId ∈ (expandSupersessionRef members ref s).getD [] := by
    unfold expandSupersessionRef
    rw [hitem, if_neg (by simp), if_pos (List.ne_nil_of_mem htarget), if_neg (Ne.symm hself)]
    exact List.mem_filter.mpr ⟨htarget, decide_eq_true hne⟩
  unfold proposedEdges
  refine List.mem_flatMap.mpr ⟨s, hs, List.mem_append_left _ ?_⟩
  exact List.mem_flatMap.mpr ⟨ref, href, List.mem_map_of_mem hexpand⟩

theorem supersedes_iff {members : List ContextItem} {s t : String} :
    Supersedes members s t ↔
      (s, t) ∈ proposedEdges members ∧ rankOf members s ≤ rankOf members t := by
  unfold Supersedes acceptedEdges gateAccepts
  rw [List.mem_filter, decide_eq_true_eq]

theorem supersedes_endpoints {members : List ContextItem} {s t : String}
    (h : Supersedes members s t) :
    s ∈ members.map ContextItem.itemId ∧ t ∈ members.map ContextItem.itemId :=
  proposed_endpoints (supersedes_iff.mp h).1

end CognitiveRuntime
