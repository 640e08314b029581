import CognitiveRuntime.Graph.Validation
import CognitiveRuntime.Properties.TopologicalOrder

/-!
# The sorts of raw lists

Both sorts read the raw lists alike (`ReadAs`), and both run the loop of
`topological_order` over keys, which raises where the successors of a
node it places do not compare. Where they all do, what it places is what
the loop places over any linear order of the keys (`rawLoop_eq_ok`).
The canonical sort raises as well where its roots do not compare.
-/

namespace CognitiveRuntime

open Ordered Fallible Relation

/-! ## Sorting keys -/

theorem DictKey.comparable_comm (a b : DictKey) : a.comparable b = b.comparable a := by
  cases a <;> cases b <;> rfl

theorem sortable_perm {keys keys' : List DictKey} (h : keys.Perm keys') :
    Sortable keys ↔ Sortable keys' :=
  h.pairwise_iff fun {a b} hab => (DictKey.comparable_comm b a).trans hab

theorem sortedKeys_eq_ok {keys sorted : List DictKey} :
    sortedKeys keys = .ok sorted ↔ Sortable keys ∧ sortedBy id keys = sorted := by
  unfold sortedKeys
  rw [bind_eq_ok]
  simp only [ensure_eq_ok, decide_eq_true_eq, Except.ok.injEq, exists_and_left, exists_const]

/-- Strings compare, and keep their order as keys. -/
theorem sortable_str (texts : List String) : Sortable (texts.map DictKey.str) := by
  unfold Sortable
  rw [List.pairwise_map]
  exact List.pairwise_of_forall fun _ _ => rfl

theorem strictMono_str : StrictMono DictKey.str := by
  intro a b hab
  show DictKey.place (.str a) < DictKey.place (.str b)
  exact WithBot.coe_lt_coe.mpr (Sum.Lex.inr_lt_inr_iff.mpr hab)

/-! ## The loop -/

section Loop

variable {pairs : List (DictKey × DictKey)}

/-- The raw loop places what the loop places, as long as what it places
has successors that compare. -/
theorem rawLoop_eq_ok :
    ∀ {fuel : Nat} {ready placed order : List DictKey} {waiting : Incoming DictKey},
      rawLoop pairs fuel ready waiting placed = .ok order ↔
        ∃ rest, order = placed ++ rest ∧ topologicalLoop pairs fuel ready waiting placed = order
          ∧ ∀ u ∈ rest, Sortable (successorsOf pairs u)
  | 0, ready, placed, order, waiting => by
      rw [rawLoop, topologicalLoop, Except.ok.injEq]
      constructor
      · rintro rfl
        exact ⟨[], by simp⟩
      · rintro ⟨_, -, h, -⟩
        exact h
  | fuel + 1, [], placed, order, waiting => by
      rw [rawLoop, topologicalLoop, Except.ok.injEq]
      constructor
      · rintro rfl
        exact ⟨[], by simp⟩
      · rintro ⟨_, -, h, -⟩
        exact h
  | fuel + 1, node :: ready, placed, order, waiting => by
      have hsucc : Sortable (firstSeen ((pairs.filter fun e => e.1 = node).map Prod.snd))
          ↔ Sortable (successorsOf pairs node) := sortable_perm (perm_sortedBy id _).symm
      obtain ⟨rest', hhead⟩ := @topologicalLoop_head DictKey _ pairs fuel node ready placed waiting
      rw [topologicalLoop] at hhead
      rw [rawLoop, topologicalLoop, bind_eq_ok]
      simp only [sortedKeys_eq_ok]
      constructor
      · rintro ⟨_, ⟨hnode, rfl⟩, hloop⟩
        obtain ⟨rest, rfl, hplaced, hrest⟩ := rawLoop_eq_ok.mp hloop
        refine ⟨node :: rest, by simp, hplaced, ?_⟩
        exact List.forall_mem_cons.mpr ⟨hsucc.mp hnode, hrest⟩
      · rintro ⟨rest, rfl, hplaced, hrest⟩
        obtain rfl : rest = node :: rest' := by simpa using hplaced.symm.trans hhead
        obtain ⟨hnode, hrest⟩ := List.forall_mem_cons.mp hrest
        exact ⟨_, ⟨hsucc.mpr hnode, rfl⟩, rawLoop_eq_ok.mpr ⟨rest', by simp, hplaced, hrest⟩⟩

/-- A sort from a seed that returns places as many nodes as are listed,
and only nodes with successors that compare. -/
def Returns (seed ids : List DictKey) (pairs : List (DictKey × DictKey)) (order : List DictKey) :
    Prop :=
  sortFrom seed ids pairs = order ∧ (∀ u ∈ order, Sortable (successorsOf pairs u))
    ∧ order.length = ids.length

theorem rawLoop_returns {seed ids order : List DictKey} :
    (rawLoop pairs (ids.length * (pairs.length + 1) ^ ids.length) seed pairs [] = .ok order
      ∧ order.length = ids.length) ↔ Returns seed ids pairs order := by
  unfold Returns sortFrom
  rw [rawLoop_eq_ok]
  simp only [List.nil_append]
  constructor
  · rintro ⟨⟨_, rfl, hplaced, hsucc⟩, hlen⟩
    exact ⟨hplaced, hsucc, hlen⟩
  · rintro ⟨hplaced, hsucc, hlen⟩
    exact ⟨⟨order, rfl, hplaced, hsucc⟩, hlen⟩

end Loop

/-! ## Raw lists -/

theorem itemAt_eq_ok {key : String} {value item : Json} :
    itemAt key value = .ok item ↔ value.get? key = some item := require_eq_ok

theorem itemsAt_eq_ok {key : String} {mapping : Json} {items : List Json} :
    itemsAt key mapping = .ok items ↔ mapping.get? key = some (.arr items) := by
  unfold itemsAt
  split
  · next items' h => simp [h]
  · next value hnot h =>
      rw [h]
      constructor
      · intro h'
        cases h'
      · intro h'
        exact absurd (Option.some.inj h') (hnot items)
  · next h => simp [h]

variable [FloatValue]

/-- An edge as the keys it joins. -/
def EdgeKeys (ids : List DictKey) (edge : Json) (p : DictKey × DictKey) : Prop :=
  ∃ fromValue toValue, edge.get? "from" = some fromValue ∧ edge.get? "to" = some toValue
    ∧ dictKey fromValue = .ok p.1 ∧ dictKey toValue = .ok p.2 ∧ p.1 ∈ ids ∧ p.2 ∈ ids

theorem canonicalEdge_eq_ok {ids : List DictKey} {edge : Json} {p : DictKey × DictKey} :
    canonicalEdge ids edge = .ok p ↔ EdgeKeys ids edge p := by
  unfold EdgeKeys
  simp only [canonicalEdge, bind_eq_ok, ensure_eq_ok, decide_eq_true_eq, itemAt_eq_ok]
  constructor
  · rintro ⟨fromValue, hfrom, toValue, hto, source, hsource, _, hin, target, htarget, _, hin', hp⟩
    obtain rfl := Except.ok.inj hp
    exact ⟨fromValue, toValue, hfrom, hto, hsource, htarget, hin, hin'⟩
  · rintro ⟨fromValue, toValue, hfrom, hto, hsource, htarget, hin, hin'⟩
    exact ⟨fromValue, hfrom, toValue, hto, p.1, hsource, (), hin, p.2, htarget, (), hin', rfl⟩

/-- The two readings of an edge accept the same edges. -/
theorem rawEdge_eq_ok {ids : List DictKey} {edge : Json} {p : DictKey × DictKey} :
    DependencyResolver.rawEdge ids edge = .ok p ↔ EdgeKeys ids edge p := by
  unfold EdgeKeys
  simp only [DependencyResolver.rawEdge, bind_eq_ok, ensure_eq_ok, decide_eq_true_eq,
    itemAt_eq_ok]
  constructor
  · rintro ⟨fromValue, hfrom, source, hsource, _, hin, toValue, hto, target, htarget, _, hin', hp⟩
    obtain rfl := Except.ok.inj hp
    exact ⟨fromValue, toValue, hfrom, hto, hsource, htarget, hin, hin'⟩
  · rintro ⟨fromValue, toValue, hfrom, hto, hsource, htarget, hin, hin'⟩
    exact ⟨fromValue, hfrom, p.1, hsource, (), hin, toValue, hto, p.2, htarget, (), hin', rfl⟩

theorem canonicalEdges_eq {ids : List DictKey} {edges : List Json}
    {pairs : List (DictKey × DictKey)} :
    edges.mapM (canonicalEdge ids) = .ok pairs
      ↔ edges.mapM (DependencyResolver.rawEdge ids) = .ok pairs := by
  simp only [mapM_eq_ok, canonicalEdge_eq_ok, rawEdge_eq_ok]

/-- What both sorts read off the raw lists before they run. -/
structure ReadAs (nodes edges : List Json) (ids : List DictKey)
    (pairs : List (DictKey × DictKey)) : Prop where
  nodesRead : nodeKeys nodes = .ok ids
  edgesRead : edges.mapM (canonicalEdge ids) = .ok pairs

section Lists

variable {nodes edges : List Json} {ids order : List DictKey} {pairs : List (DictKey × DictKey)}

theorem ReadAs.ends (h : ReadAs nodes edges ids pairs) : EndsAmong ids pairs := by
  refine mapM_forall (P := fun p : DictKey × DictKey => p.1 ∈ ids ∧ p.2 ∈ ids) ?_ h.edgesRead
  intro edge p hp
  obtain ⟨_, _, -, -, -, -, hends⟩ := canonicalEdge_eq_ok.mp hp
  exact hends

/-- The canonical sort of raw lists runs from the sorted roots, which
must compare. -/
theorem ReadAs.canonical (h : ReadAs nodes edges ids pairs) :
    rawTopologicalOrder nodes edges = .ok order ↔
      Sortable (rootIds ids pairs) ∧ Returns (sortedBy id (rootIds ids pairs)) ids pairs order := by
  rw [← rawLoop_returns]
  unfold rawTopologicalOrder
  rw [h.nodesRead, ok_bind, h.edgesRead, ok_bind]
  simp only [bind_eq_ok, ensure_eq_ok, decide_eq_true_eq, sortedKeys_eq_ok]
  constructor
  · rintro ⟨_, ⟨hroots, rfl⟩, _, hloop, _, hlen, hok⟩
    obtain rfl := Except.ok.inj hok
    exact ⟨hroots, hloop, hlen⟩
  · rintro ⟨hroots, hloop, hlen⟩
    exact ⟨_, ⟨hroots, rfl⟩, order, hloop, (), hlen, rfl⟩

/-- The resolver runs from the roots as they are listed. -/
theorem ReadAs.resolver (h : ReadAs nodes edges ids pairs) :
    DependencyResolver.topologicalOrder nodes edges = .ok order ↔
      Returns (rootIds ids pairs) ids pairs order := by
  rw [← rawLoop_returns]
  unfold DependencyResolver.topologicalOrder
  rw [h.nodesRead, ok_bind, canonicalEdges_eq.mp h.edgesRead, ok_bind]
  simp only [bind_eq_ok, ensure_eq_ok, decide_eq_true_eq]
  constructor
  · rintro ⟨_, hloop, _, hlen, hok⟩
    obtain rfl := Except.ok.inj hok
    exact ⟨hloop, hlen⟩
  · rintro ⟨hloop, hlen⟩
    exact ⟨order, hloop, (), hlen, rfl⟩

/-- Both sorts raise before they run on lists that do not read. -/
theorem readAs_of_ok (h : (∃ order, rawTopologicalOrder nodes edges = .ok order)
      ∨ ∃ order, DependencyResolver.topologicalOrder nodes edges = .ok order) :
    ∃ ids pairs, ReadAs nodes edges ids pairs := by
  rcases h with ⟨order, h⟩ | ⟨order, h⟩
  · simp only [rawTopologicalOrder, bind_eq_ok] at h
    obtain ⟨ids, hids, pairs, hpairs, -⟩ := h
    exact ⟨ids, pairs, hids, hpairs⟩
  · simp only [DependencyResolver.topologicalOrder, bind_eq_ok] at h
    obtain ⟨ids, hids, pairs, hpairs, -⟩ := h
    exact ⟨ids, pairs, hids, canonicalEdges_eq.mpr hpairs⟩

end Lists

/-! ## The schedule -/

open DependencyResolver

theorem nodeKeys_eq_ok {nodes : List Json} {ids : List DictKey} :
    nodeKeys nodes = .ok ids ↔
      List.Forall₂ (fun node key => itemAt "id" node >>= dictKey = .ok key) nodes ids := by
  unfold nodeKeys
  simp only [bind_eq_ok, mapM_eq_ok]
  constructor
  · rintro ⟨values, hvalues, hkeys⟩
    induction hvalues generalizing ids with
    | nil =>
        cases hkeys
        exact List.Forall₂.nil
    | cons hvalue _ ih =>
        cases hkeys with
        | cons hkey hkeys => exact List.Forall₂.cons ⟨_, hvalue, hkey⟩ (ih hkeys)
  · intro h
    induction h with
    | nil => exact ⟨[], List.Forall₂.nil, List.Forall₂.nil⟩
    | cons hnode _ ih =>
        obtain ⟨value, hvalue, hkey⟩ := hnode
        obtain ⟨values, hvalues, hkeys⟩ := ih
        exact ⟨value :: values, hvalues.cons hvalue, hkeys.cons hkey⟩

theorem keyedNode_eq_ok {node : Json} {p : DictKey × Json} :
    keyedNode node = .ok p ↔ (itemAt "id" node >>= dictKey = .ok p.1) ∧ p.2 = node := by
  simp only [keyedNode, bind_eq_ok]
  constructor
  · rintro ⟨id, hid, key, hkey, hp⟩
    obtain rfl := Except.ok.inj hp
    exact ⟨⟨id, hid, hkey⟩, rfl⟩
  · rintro ⟨⟨id, hid, hkey⟩, rfl⟩
    exact ⟨id, hid, p.1, hkey, rfl⟩

/-- Nodes with keys are entered under them, in turn. -/
theorem keyedNodes_of_nodeKeys {nodes : List Json} {ids : List DictKey}
    (h : nodeKeys nodes = .ok ids) : nodes.mapM keyedNode = .ok (ids.zip nodes) := by
  rw [mapM_eq_ok]
  have hids := nodeKeys_eq_ok.mp h
  clear h
  induction hids with
  | nil => exact List.Forall₂.nil
  | cons hid _ ih => exact ih.cons (keyedNode_eq_ok.mpr ⟨hid, rfl⟩)

/-- The scheduler puts a node in each place of the resolver's order,
under the id the order has there. -/
theorem schedule_of_order {graph : Json} {order : List DictKey}
    (h : scheduledOrder graph = .ok order) :
    ∃ scheduled, schedule graph = .ok scheduled ∧ nodeKeys scheduled = .ok order := by
  have hsplit := h
  simp only [scheduledOrder, bind_eq_ok] at hsplit
  obtain ⟨nodes, hnodes, edges, -, hsort⟩ := hsplit
  obtain ⟨ids, pairs, hread⟩ := readAs_of_ok (Or.inr ⟨order, hsort⟩)
  obtain ⟨rfl, -⟩ := hread.resolver.mp hsort
  have hkeyed := keyedNodes_of_nodeKeys hread.nodesRead
  have hids := nodeKeys_eq_ok.mp hread.nodesRead
  have hentry : ∀ key ∈ sortFrom (rootIds ids pairs) ids pairs, ∃ node,
      require ((lastBy Prod.fst key (ids.zip nodes)).map Prod.snd) (RawError.key key)
        = .ok node := by
    intro key hkey
    have hlisted : key ∈ ids :=
      (sortFrom_run hread.ends (List.Perm.refl _)).mem_nodes hkey
    rw [← List.map_fst_zip hids.length_eq.ge] at hlisted
    obtain ⟨p, hp⟩ := exists_lastBy Prod.fst hlisted
    exact ⟨p.2, by rw [hp]; rfl⟩
  obtain ⟨scheduled, hscheduled⟩ := mapM_ok_of_forall hentry
  refine ⟨scheduled, ?_, ?_⟩
  · simp only [schedule, bind_eq_ok]
    exact ⟨_, h, nodes, hnodes, _, hkeyed, hscheduled⟩
  · rw [nodeKeys_eq_ok]
    refine (List.Forall₂.flip (mapM_eq_ok.mp hscheduled)).imp fun node key hnode => ?_
    obtain ⟨⟨key', node'⟩, hp, rfl⟩ := Option.map_eq_some_iff.mp (require_eq_ok.mp hnode)
    obtain ⟨hmem, rfl⟩ := lastBy_eq_some _ hp
    obtain ⟨node, -, hkeyedNode⟩ := exists_of_mapM hkeyed hmem
    obtain ⟨hkey, rfl⟩ := keyedNode_eq_ok.mp hkeyedNode
    exact hkey

end CognitiveRuntime
