import CognitiveRuntime.Properties.Authenticity
import CognitiveRuntime.Properties.Blockers
import CognitiveRuntime.Properties.Noninterference
import CognitiveRuntime.Properties.OwnDomain

/-!
# Input order

A view sorts its candidates, keeps one representative of a claim and
writes what it finds in the order of keys, so it forgets in which order
and how often the candidates came. One index does not: the authority
gate reads a member list by item id, an id leaves the authority level
out, and of two members that share an id the later one is read.

`resolve_reordered` is the two-run statement for one view: where the
gate reads both lists alike, the views are equal.
`order_invariant` carries it through discovery and compilation.
-/

namespace CognitiveRuntime

open Ordered Relation

/-! ## The same candidates in another order -/

/-- Valid items of one kind with the same claim payload make the same
claim. -/
theorem SameClaim.claim_eq {a b : ContextItem} (h : SameClaim a b) (ha : a.claim.Valid)
    (hb : b.claim.Valid) (hkind : a.contextKind = b.contextKind) : a.claim = b.claim := by
  have hvalues := Json.values_eq_of_normalize_eq h (Claim.payload_keys hkind)
    a.claim.nodup_payload_keys
  have hcapability : ∀ {s t : CapabilityState}, s.value = t.value → s = t := by
    rintro ⟨⟩ ⟨⟩ h <;> first | rfl | exact absurd h (by decide)
  have hauthority : ∀ {s t : AuthorityState}, s.value = t.value → s = t := by
    rintro ⟨⟩ ⟨⟩ h <;> first | rfl | exact absurd h (by decide)
  unfold ContextItem.contextKind at hkind
  generalize a.claim = c at *
  generalize b.claim = d at *
  cases c <;> cases d <;> cases hkind
  all_goals
    rename_i c d
    cases c
    cases d
    simp [Claim.payload, Json.ofStrings_inj, Json.ofOption_inj, Claim.ofPrecedence_inj,
      DecisionStatus.value_inj] at hvalues
  case repositoryState =>
    obtain ⟨-, -, -, hc⟩ := ha
    obtain ⟨-, -, -, hd⟩ := hb
    unfold Json.Canonical at hc hd
    simp only [hc, hd] at hvalues
    simp [hvalues]
  case memoryContext =>
    unfold Claim.Valid Json.Canonical at ha hb
    simp only [ha, hb] at hvalues
    simp [hvalues]
  case capabilityFact => simp [hvalues, hcapability hvalues.2.1]
  case authorityFact => simp [hvalues, hauthority hvalues.2.1]
  all_goals simp [hvalues]

section Reordered

variable [Sha256]

/-- The same valid candidates twice, each time in canonical order, in any
multiplicity. -/
structure Reordered (items items' : List ContextItem) : Prop where
  valid : ∀ item ∈ items, item.Valid
  unselected : ∀ item ∈ items, item.selectedBecause = []
  same : SameMembers items items'
  sorted : items.Pairwise fun a b => a.sortKey ≤ b.sortKey
  sorted' : items'.Pairwise fun a b => a.sortKey ≤ b.sortKey

variable {items items' members members' : List ContextItem}

namespace Reordered

theorem filter (h : Reordered items items') (p : ContextItem → Bool) :
    Reordered (items.filter p) (items'.filter p) where
  valid item hitem := h.valid item (List.mem_filter.mp hitem).1
  unselected item hitem := h.unselected item (List.mem_filter.mp hitem).1
  same := h.same.filter p
  sorted := h.sorted.filter _
  sorted' := h.sorted'.filter _

theorem sameItem (h : Reordered items items') (hsha : Sha256.Injective) {a b : ContextItem}
    (ha : a ∈ items) (hb : b ∈ items) (hid : a.itemId = b.itemId) : SameItem a b :=
  sameItem_of_id hsha (h.valid a ha).id_recipe (h.valid b hb).id_recipe hid

/-- Candidates that share an id differ in authority or not at all. -/
theorem eq_of_rank (h : Reordered items items') (hsha : Sha256.Injective) {a b : ContextItem}
    (ha : a ∈ items) (hb : b ∈ items) (hid : a.itemId = b.itemId)
    (hrank : a.authorityRank = b.authorityRank) : a = b := by
  have hsame := h.sameItem hsha ha hb hid
  have hclaim := hsame.claim.claim_eq (h.valid a ha).claim_valid (h.valid b hb).claim_valid
    hsame.contextKind
  have hlevel := AuthorityLevel.rank_inj.mp hrank
  have hreasons := (h.unselected a ha).trans (h.unselected b hb).symm
  have hplace := hsame.applicability
  simp only [ContextItem.applicabilityPayload, Json.obj.injEq, List.cons.injEq, Prod.mk.injEq,
    true_and, and_true, Json.str.injEq, Json.ofStrings_inj, ContextScopeMode.value_inj] at hplace
  have hkey := hsame.semanticKey
  have hsource := hsame.sourceRef
  cases a
  cases b
  simp only at hid hclaim hlevel hreasons hplace hkey hsource
  obtain ⟨hmode, hrefs⟩ := hplace
  subst hid hclaim hlevel hreasons hmode hrefs hkey hsource
  rfl

theorem settled (h : Reordered items items') (hsha : Sha256.Injective) : SettledDomains items :=
  settledDomains_of_recipe hsha fun c hc => (h.valid c hc).id_recipe

theorem symm (h : Reordered items items') : Reordered items' items where
  valid item hitem := h.valid item ((h.same item).mpr hitem)
  unselected item hitem := h.unselected item ((h.same item).mpr hitem)
  same := h.same.symm
  sorted := h.sorted'
  sorted' := h.sorted

/-- What an id covers is read alike under it. -/
theorem byItem_map (h : Reordered members members') {β : Type} (f : ContextItem → β)
    (hf : ∀ a ∈ members, ∀ b ∈ members, a.itemId = b.itemId → f a = f b) (id : String) :
    (byItem members id).map f = (byItem members' id).map f := by
  cases hheld : byItem members id with
  | none =>
      rw [byItem_eq_none.mpr fun c hc => byItem_eq_none.mp hheld c ((h.same c).mpr hc)]
  | some held =>
      obtain ⟨hmem, hid⟩ := byItem_eq_some hheld
      obtain ⟨held', hheld'⟩ := exists_byItem (List.mem_map_of_mem ((h.same held).mp hmem))
      obtain ⟨hmem', hid'⟩ := byItem_eq_some hheld'
      rw [hid] at hheld'
      rw [hheld', Option.map_some, Option.map_some,
        hf held hmem held' ((h.same held').mpr hmem') hid'.symm]

theorem byItem_source (h : Reordered members members') (hsha : Sha256.Injective) (id : String) :
    (byItem members id).map ContextItem.sourceRef = (byItem members' id).map ContextItem.sourceRef :=
  h.byItem_map ContextItem.sourceRef (fun _ ha _ hb hid => (h.sameItem hsha ha hb hid).sourceRef) id

theorem domainOf_eq (h : Reordered members members') (hsha : Sha256.Injective) (id : String) :
    domainOf members id = domainOf members' id := by
  unfold domainOf
  rw [h.byItem_map domainId (fun a ha b hb hid => h.settled hsha a ha b hb hid) id]

/-- The same edges are proposed. -/
theorem mem_proposed (h : Reordered members members') (hsha : Sha256.Injective) {s t : String} :
    (s, t) ∈ proposedEdges members ↔ (s, t) ∈ proposedEdges members' := by
  rw [mem_proposedEdges (h.settled hsha), mem_proposedEdges (h.symm.settled hsha)]
  unfold NamesDomain
  simp only [h.same _]

end Reordered

/-! ## What the authority gate reads -/

/-- The authority level that is read under an id. -/
def levelRead (members : List ContextItem) (id : String) : Option AuthorityLevel :=
  (byItem members id).map ContextItem.authorityLevel

/-- The gate decides every proposed edge alike, refused edges are between
the same levels, and the same cycles put governed truth in doubt. -/
structure ReadAlike (members members' : List ContextItem) : Prop where
  verdict : ∀ edge ∈ proposedEdges members, gateAccepts members edge = gateAccepts members' edge
  levels : ∀ edge ∈ refusedEdges members, levelRead members edge.1 = levelRead members' edge.1
    ∧ levelRead members edge.2 = levelRead members' edge.2
  doubt : ∀ component ∈ supersessionCycles members,
    truthTierMateriality (component.filterMap (byItem members))
      = truthTierMateriality (component.filterMap (byItem members'))

namespace Reordered

theorem supersedes_eq (h : Reordered members members') (hsha : Sha256.Injective)
    (hread : ReadAlike members members') : Supersedes members = Supersedes members' := by
  funext s t
  refine propext ?_
  unfold Supersedes acceptedEdges
  rw [List.mem_filter, List.mem_filter, ← h.mem_proposed hsha]
  exact and_congr_right fun hedge => by rw [hread.verdict _ hedge]

theorem cycles_eq (h : Reordered members members') (hsha : Sha256.Injective)
    (hread : ReadAlike members members') : supersessionCycles members = supersessionCycles members' :=
  supersessionCycles_congr fun s t => by rw [h.supersedes_eq hsha hread]

theorem refused_eq (h : Reordered members members') (hsha : Sha256.Injective)
    (hread : ReadAlike members members') : refusedEdges members = refusedEdges members' := by
  refine sortedBy_congr toLex (nodup_firstSeen _) (nodup_firstSeen _) ?_ fun _ _ _ _ hab => hab
  rintro ⟨s, t⟩
  rw [mem_firstSeen, mem_firstSeen, List.mem_filter, List.mem_filter, ← h.mem_proposed hsha]
  exact and_congr_right fun hedge => by rw [hread.verdict _ hedge]

theorem survivors_same (h : Reordered members members') (hsha : Sha256.Injective)
    (hread : ReadAlike members members') :
    SameMembers (supersessionSurvivors members) (supersessionSurvivors members') := by
  intro item
  rw [survivors_iff, survivors_iff, h.same item, h.supersedes_eq hsha hread]

/-! ### Unknowns -/

theorem cycleUnknowns_eq (h : Reordered members members') (hsha : Sha256.Injective)
    (hread : ReadAlike members members') (kind : ContextKind) {component : List String}
    (hcomponent : component ∈ supersessionCycles members) :
    cycleUnknowns kind members component = cycleUnknowns kind members' component := by
  have hdomains : component.map (domainOf members) = component.map (domainOf members') :=
    List.map_congr_left fun id _ => h.domainOf_eq hsha id
  have hsources : (component.filterMap (byItem members)).map ContextItem.sourceRef
      = (component.filterMap (byItem members')).map ContextItem.sourceRef := by
    rw [List.map_filterMap, List.map_filterMap]
    exact List.filterMap_congr fun id _ => h.byItem_source hsha id
  unfold cycleUnknowns causalSourceRefs
  dsimp only
  rw [hdomains, hsources, hread.doubt component hcomponent]

theorem refusedUnknown_eq (h : Reordered members members') (hsha : Sha256.Injective)
    (hread : ReadAlike members members') (kind : ContextKind) {edge : String × String}
    (hedge : edge ∈ refusedEdges members) :
    refusedUnknown kind members edge = refusedUnknown kind members' edge := by
  have hlevel : ∀ {id}, levelRead members id = levelRead members' id →
      ((byItem members id).map fun item => item.authorityLevel.value)
        = (byItem members' id).map fun item => item.authorityLevel.value := by
    intro id hid
    have hvalue := congrArg (Option.map AuthorityLevel.value) hid
    unfold levelRead at hvalue
    rwa [Option.map_map, Option.map_map] at hvalue
  have hsources : ∀ id, (byItem members id).toList.map ContextItem.sourceRef
      = (byItem members' id).toList.map ContextItem.sourceRef := by
    intro id
    rw [← Option.toList_map, ← Option.toList_map, h.byItem_source hsha]
  obtain ⟨hfirst, hsecond⟩ := hread.levels edge hedge
  unfold refusedUnknown causalSourceRefs
  dsimp only
  rw [h.domainOf_eq hsha, h.domainOf_eq hsha, hlevel hfirst, hlevel hsecond, List.map_append,
    List.map_append, hsources, hsources]

end Reordered

/-- The references of a member that name nothing, under its domain. -/
def danglingKeys (members : List ContextItem) (item : ContextItem) : List (String × String) :=
  ((item.supersedesRefs ++ item.supersededByRefs).filter fun ref =>
    (expandSupersessionRef members ref item).isNone).map fun ref =>
      (domainOf members item.itemId, ref)

/-- The members that make a dangling reference, once for each time. -/
def referrers (members : List ContextItem) (key : String × String) : List ContextItem :=
  members.flatMap fun item =>
    ((danglingKeys members item).filter fun k => k = key).map fun _ => item

omit [Sha256] in
theorem mem_referrers {key : String × String} {item : ContextItem} :
    item ∈ referrers members key ↔ item ∈ members ∧ key ∈ danglingKeys members item := by
  unfold referrers
  simp only [List.mem_flatMap, List.mem_map, List.mem_filter, decide_eq_true_eq]
  constructor
  · rintro ⟨x, hx, k, ⟨hk, rfl⟩, rfl⟩
    exact ⟨hx, hk⟩
  · rintro ⟨hmem, hkey⟩
    exact ⟨item, hmem, key, ⟨hkey, rfl⟩, rfl⟩

omit [Sha256] in
theorem danglingRefs_eq (members : List ContextItem) :
    danglingRefs members
      = (sortedBy toLex (firstSeen (members.flatMap (danglingKeys members)))).map fun key =>
          (key, (referrers members key).map ContextItem.itemId) := by
  have hflat : (members.flatMap fun item =>
        ((item.supersedesRefs ++ item.supersededByRefs).filter fun ref =>
            (expandSupersessionRef members ref item).isNone).map
          fun ref => ((domainOf members item.itemId, ref), item.itemId))
      = members.flatMap fun item => (danglingKeys members item).map fun k => (k, item.itemId) := by
    unfold danglingKeys
    simp only [List.map_map, Function.comp_def]
  have hids : ∀ key : String × String,
      ((members.flatMap fun item => (danglingKeys members item).map fun k =>
          (k, item.itemId)).filter fun entry => entry.1 = key).map Prod.snd
        = (referrers members key).map ContextItem.itemId := by
    intro key
    unfold referrers
    rw [List.filter_flatMap, List.map_flatMap, List.map_flatMap]
    simp only [List.filter_map, List.map_map, Function.comp_def]
  unfold danglingRefs groupBy
  rw [hflat, List.map_map, sortedBy_map, List.map_flatMap]
  simp only [List.map_map, Function.comp_def, List.map_id']
  exact List.map_congr_left fun key _ => by rw [hids]

omit [Sha256] in
/-- A list over a sorted list is sorted as that is. -/
theorem pairwise_referrers (h : members.Pairwise fun a b => a.sortKey ≤ b.sortKey)
    (key : String × String) :
    (referrers members key).Pairwise fun a b => a.sortKey ≤ b.sortKey := by
  unfold referrers
  refine List.pairwise_flatMap.mpr ⟨fun item _ => ?_, h.imp fun {a b} hab x hx y hy => ?_⟩
  · refine List.pairwise_of_forall_mem_list fun x hx y hy => ?_
    obtain ⟨-, -, rfl⟩ := List.mem_map.mp hx
    obtain ⟨-, -, rfl⟩ := List.mem_map.mp hy
    exact le_refl _
  · obtain ⟨-, -, rfl⟩ := List.mem_map.mp hx
    obtain ⟨-, -, rfl⟩ := List.mem_map.mp hy
    exact hab

omit [Sha256] in
/-- A reference dangles when it is no member's id and no member's domain. -/
theorem expand_isNone_iff {ref : String} {item : ContextItem} :
    (expandSupersessionRef members ref item).isNone = true ↔
      ∀ c ∈ members, c.itemId ≠ ref ∧ domainId c ≠ ref := by
  have hdomain : byDomain members ref = [] ↔ ∀ c ∈ members, domainId c ≠ ref := by
    unfold byDomain
    rw [List.map_eq_nil_iff, List.filter_eq_nil_iff]
    simp only [decide_eq_true_eq, ne_eq]
  unfold expandSupersessionRef
  cases hitem : byItem members ref with
  | some held =>
      obtain ⟨hmem, hid⟩ := byItem_eq_some hitem
      exact iff_of_false (by simp) fun h => (h held hmem).1 hid
  | none =>
      have hfree := byItem_eq_none.mp hitem
      rw [if_neg (by simp)]
      by_cases hnil : byDomain members ref = []
      · rw [if_neg (not_not.mpr hnil)]
        exact iff_of_true rfl fun c hc => ⟨hfree c hc, hdomain.mp hnil c hc⟩
      · rw [if_pos hnil]
        refine iff_of_false (fun h => ?_) fun h => hnil (hdomain.mpr fun c hc => (h c hc).2)
        split at h <;> cases h

namespace Reordered

theorem danglingKeys_eq (h : Reordered members members') (hsha : Sha256.Injective)
    (item : ContextItem) : danglingKeys members item = danglingKeys members' item := by
  have hdangles : ∀ ref, (expandSupersessionRef members ref item).isNone
      = (expandSupersessionRef members' ref item).isNone := by
    intro ref
    rw [Bool.eq_iff_iff, expand_isNone_iff, expand_isNone_iff]
    exact forall_congr' fun c => by rw [h.same c]
  unfold danglingKeys
  simp only [hdangles, h.domainOf_eq hsha]

theorem referrers_same (h : Reordered members members') (hsha : Sha256.Injective)
    (key : String × String) : SameMembers (referrers members key) (referrers members' key) := by
  intro item
  rw [mem_referrers, mem_referrers, h.same item, h.danglingKeys_eq hsha]

/-- What the ids of members name is read back from them. -/
theorem sources_of_ids (h : Reordered members members') (hsha : Sha256.Injective)
    {items : List ContextItem} (hitems : ∀ item ∈ items, item ∈ members) :
    ((items.map ContextItem.itemId).filterMap (byItem members)).map ContextItem.sourceRef
      = items.map ContextItem.sourceRef := by
  rw [List.filterMap_map, List.map_filterMap, ← List.filterMap_eq_map]
  refine List.filterMap_congr fun item hitem => ?_
  obtain ⟨held, hheld⟩ := exists_byItem (List.mem_map_of_mem (hitems item hitem))
  obtain ⟨hmem, hid⟩ := byItem_eq_some hheld
  rw [Function.comp_apply, hheld, Option.map_some, Function.comp_apply,
    (h.sameItem hsha hmem (hitems item hitem) hid).sourceRef]

theorem danglingUnknowns_eq (h : Reordered members members') (hsha : Sha256.Injective)
    (kind : ContextKind) :
    (danglingRefs members).map (danglingUnknown kind members)
      = (danglingRefs members').map (danglingUnknown kind members') := by
  have hkeys : sortedBy toLex (firstSeen (members.flatMap (danglingKeys members)))
      = sortedBy toLex (firstSeen (members'.flatMap (danglingKeys members'))) := by
    refine sortedBy_congr toLex (nodup_firstSeen _) (nodup_firstSeen _) (fun key => ?_)
      fun _ _ _ _ hab => hab
    rw [mem_firstSeen, mem_firstSeen]
    refine SameMembers.flatMap h.same (fun item _ => ?_) key
    rw [h.danglingKeys_eq hsha]
    exact SameMembers.refl _
  rw [danglingRefs_eq, danglingRefs_eq, ← hkeys, List.map_map, List.map_map]
  refine List.map_congr_left fun key _ => ?_
  have hsources : causalSourceRefs
        (((referrers members key).map ContextItem.itemId).filterMap (byItem members))
      = causalSourceRefs
        (((referrers members' key).map ContextItem.itemId).filterMap (byItem members')) := by
    unfold causalSourceRefs
    rw [h.sources_of_ids hsha fun item hitem => (mem_referrers.mp hitem).1,
      h.symm.sources_of_ids hsha fun item hitem => (mem_referrers.mp hitem).1]
    -- an id determines the source, so the later of two referrers is the same
    refine dedupeLast_map_congr ContextItem.sortKey ContextItem.sourceRef
      (pairwise_referrers h.sorted key) (pairwise_referrers h.sorted' key)
      (h.referrers_same hsha key) fun a ha b hb hab => ?_
    have hid : a.itemId = b.itemId := congrArg (fun k => (ofLex (ofLex k).2).2) hab
    exact (h.sameItem hsha (mem_referrers.mp ha).1 (mem_referrers.mp hb).1 hid).sourceRef
  unfold danglingUnknown
  simp only [Function.comp_apply, hsources]

theorem supersessionUnknowns_eq (h : Reordered members members') (hsha : Sha256.Injective)
    (hread : ReadAlike members members') (kind : ContextKind) :
    supersessionUnknowns kind members = supersessionUnknowns kind members' := by
  unfold supersessionUnknowns
  rw [h.danglingUnknowns_eq hsha, ← h.cycles_eq hsha hread, ← h.refused_eq hsha hread]
  congr 2
  · exact List.flatMap_congr fun component hcomponent =>
      h.cycleUnknowns_eq hsha hread kind hcomponent
  · exact List.map_congr_left fun edge hedge => h.refusedUnknown_eq hsha hread kind hedge

end Reordered

/-! ## One view -/

/-- The gate reads both lists alike, in every kind that has one. -/
def KindsReadAlike (items items' : List ContextItem) : Prop :=
  ∀ kind, isSupersessionKind kind = true → ReadAlike (ofKindIn kind items) (ofKindIn kind items')

namespace Reordered

theorem leftOver_same (h : Reordered items items') (hsha : Sha256.Injective)
    (hread : KindsReadAlike items items') : SameMembers (leftOver items) (leftOver items') := by
  intro item
  rw [mem_leftOver, mem_leftOver, h.same item]
  exact and_congr_right fun _ => forall_congr' fun hkind =>
    (h.filter _).survivors_same hsha (hread _ hkind) item

theorem groupMembers_same (h : Reordered items items') (hsha : Sha256.Injective)
    (hread : KindsReadAlike items items') (key : ContextKind × String) :
    SameMembers (groupMembers items key) (groupMembers items' key) :=
  (h.leftOver_same hsha hread).filter _

/-- The order of representatives tells apart what an id does not. -/
theorem eq_of_representativeKey (h : Reordered items items') (hsha : Sha256.Injective)
    {a b : ContextItem} (ha : a ∈ items) (hb : b ∈ items)
    (hkey : representativeKey a = representativeKey b) : a = b := by
  have hrank : a.authorityRank = b.authorityRank := congrArg (fun k => (ofLex k).1) hkey
  have hid : a.itemId = b.itemId :=
    congrArg (fun k => (ofLex (ofLex (ofLex (ofLex k).2).2).2).2) hkey
  exact h.eq_of_rank hsha ha hb hid hrank

/-- The representatives of candidates depend on which there are. -/
theorem representatives_eq (h : Reordered items items') (hsha : Sha256.Injective)
    (hsub : ∀ item ∈ members, item ∈ items) (hsame : SameMembers members members') :
    representatives members = representatives members' := by
  have hmem : SameMembers (representatives members) (representatives members') := by
    intro rep
    rw [mem_representatives, mem_representatives, hsame rep]
    unfold representative
    rw [minBy_congr representativeKey (hsame.filter _) fun a ha b hb hkey =>
      h.eq_of_representativeKey hsha (hsub a (List.mem_filter.mp ha).1)
        (hsub b (List.mem_filter.mp hb).1) hkey]
  have hsorted : ∀ list : List ContextItem,
      sortedBy ContextItem.sortKey (representatives list) = representatives list := fun list =>
    List.Pairwise.insertionSort_eq (pairwise_sortedBy ContextItem.sortKey _)
  rw [← hsorted members, ← hsorted members']
  refine sortedBy_congr ContextItem.sortKey (nodup_representatives _) (nodup_representatives _) hmem
    fun a ha b hb hkey => ?_
  have hid : a.itemId = b.itemId := congrArg (fun k => (ofLex (ofLex k).2).2) hkey
  have hin : ∀ {rep}, rep ∈ representatives members → rep ∈ items := fun hrep =>
    hsub _ (mem_of_mem_representatives hrep)
  exact representative_unique ha hb (claimDigest_eq_of_id hsha (h.valid a (hin ha)).id_recipe
    (h.valid b (hin hb)).id_recipe hid)

theorem sortedGroups_eq (h : Reordered items items') (hsha : Sha256.Injective)
    (hread : KindsReadAlike items items') :
    (resolveCandidates items).sortedGroups = (resolveCandidates items').sortedGroups := by
  have hnodup : ∀ list : List ContextItem, (resolveCandidates list).groups.Nodup := by
    intro list
    refine List.Nodup.of_map Prod.fst ?_
    unfold resolveCandidates groupBy
    rw [List.map_map, List.map_map]
    simp only [Function.comp_def, List.map_id']
    exact nodup_firstSeen _
  refine sortedBy_congr _ (hnodup _) (hnodup _) ?_ ?_
  · rintro ⟨key, group⟩
    have hmembers := h.groupMembers_same hsha hread key
    have hnil : groupMembers items key ≠ [] ↔ groupMembers items' key ≠ [] := by
      constructor <;> intro hne <;> obtain ⟨item, hitem⟩ := List.exists_mem_of_ne_nil _ hne
      · exact List.ne_nil_of_mem ((hmembers item).mp hitem)
      · exact List.ne_nil_of_mem ((hmembers item).mpr hitem)
    rw [mem_groups, mem_groups, hnil, h.representatives_eq hsha
      (fun item hitem => mem_of_mem_leftOver (mem_groupMembers.mp hitem).1) hmembers]
  · rintro ⟨key, group⟩ hentry ⟨key', group'⟩ hentry' hsame
    obtain ⟨hkind, hkey⟩ := Prod.mk.inj (toLex.injective hsame)
    obtain rfl : key = key' := Prod.ext (ContextKind.value_inj.mp hkind) hkey
    rw [group_eq_of_key hentry hentry']

theorem unknowns_eq (h : Reordered items items') (hsha : Sha256.Injective)
    (hread : KindsReadAlike items items') :
    (resolveCandidates items).supersessionUnknowns
      = (resolveCandidates items').supersessionUnknowns := by
  -- kinds come in the order of their values in both lists
  have hkinds : firstSeen (items.map ContextItem.contextKind)
      = firstSeen (items'.map ContextItem.contextKind) := by
    have hordered : ∀ {list : List ContextItem},
        (list.Pairwise fun a b => a.sortKey ≤ b.sortKey) →
        (list.map ContextItem.contextKind).Pairwise fun k l => k.value ≤ l.value := by
      intro list hlist
      refine List.pairwise_map.mpr (hlist.imp fun {a b} hab => ?_)
      rcases Prod.Lex.toLex_le_toLex.mp hab with hlt | ⟨heq, -⟩
      · exact hlt.le
      · exact heq.le
    exact firstSeen_congr_of_sorted ContextKind.value (fun _ _ hv => ContextKind.value_inj.mp hv)
      (hordered h.sorted) (hordered h.sorted') (h.same.map _)
  unfold resolveCandidates applySupersession groupBy
  dsimp only
  rw [List.flatMap_map, List.flatMap_map, hkinds]
  refine List.flatMap_congr fun kind _ => ?_
  by_cases hkind : isSupersessionKind kind = true
  · rw [if_pos hkind, if_pos hkind]
    exact (h.filter _).supersessionUnknowns_eq hsha (hread kind hkind) kind
  · rw [if_neg hkind, if_neg hkind]

/-- What a view holds does not depend on the order of its candidates,
where the gate reads them alike. -/
theorem resolve_reordered (h : Reordered items items') (hsha : Sha256.Injective)
    (hread : KindsReadAlike items items') :
    (resolveCandidates items').Alike (resolveCandidates items) :=
  ⟨(h.sortedGroups_eq hsha hread).symm, (h.unknowns_eq hsha hread).symm⟩

/-- Where no two candidates differ in authority alone, the gate reads
alike. -/
theorem kindsReadAlike (h : Reordered items items') (hsha : Sha256.Injective)
    (hone : ∀ a ∈ items, ∀ b ∈ items, a.itemId = b.itemId → a.authorityRank = b.authorityRank) :
    KindsReadAlike items items' := by
  intro kind _
  have hmembers : Reordered (ofKindIn kind items) (ofKindIn kind items') := h.filter _
  have hheld : byItem (ofKindIn kind items) = byItem (ofKindIn kind items') := by
    funext id
    refine lastBy_congr ContextItem.itemId hmembers.same fun a ha b hb hida hidb => ?_
    have ha := (List.mem_filter.mp ha).1
    have hb := (List.mem_filter.mp hb).1
    have hid := hida.trans hidb.symm
    exact h.eq_of_rank hsha ha hb hid (hone a ha b hb hid)
  refine ⟨fun edge _ => ?_, fun edge _ => ?_, fun component _ => ?_⟩
  · unfold gateAccepts rankOf
    rw [hheld]
  · unfold levelRead
    rw [hheld]
    exact ⟨rfl, rfl⟩
  · rw [hheld]

end Reordered

end Reordered

/-! ## Two snapshots of the same candidates -/

/-- Each bucket holds the same candidates in both snapshots, in any order
and multiplicity. -/
def SnapshotBuckets.SameCandidates (s s' : SnapshotBuckets) : Prop :=
  List.Forall₂ (fun bucket bucket' => bucket.1 = bucket'.1
    ∧ SameMembers bucket.2.2 bucket'.2.2) s.named s'.named

theorem SnapshotBuckets.SameCandidates.allItems {s s' : SnapshotBuckets}
    (h : s.SameCandidates s') : SameMembers s.allItems s'.allItems := by
  unfold SnapshotBuckets.allItems
  unfold SnapshotBuckets.SameCandidates at h
  generalize s.named = buckets at h ⊢
  generalize s'.named = buckets' at h ⊢
  induction h with
  | nil => exact SameMembers.refl _
  | cons hbucket _ ih =>
      intro item
      rw [List.flatMap_cons, List.flatMap_cons, List.mem_append, List.mem_append,
        hbucket.2 item, ih item]

section Snapshots

variable [Sha256]

theorem reordered_of_snapshots {s s' : ContextSnapshot}
    (h : s.SameCandidates s'.toSnapshotBuckets) :
    Reordered (resolveSnapshot s.toSnapshotBuckets).candidates
      (resolveSnapshot s'.toSnapshotBuckets).candidates where
  valid item hitem := s.valid item ((mem_sortedBy _).mp hitem)
  unselected item hitem := s.unselected item ((mem_sortedBy _).mp hitem)
  same item := by
    unfold resolveSnapshot
    rw [mem_sortedBy, mem_sortedBy, h.allItems item]
  sorted := pairwise_sortedBy _ _
  sorted' := pairwise_sortedBy _ _

/-- The gate reads the two snapshots alike, in the view of every
consumer. -/
def SnapshotsReadAlike (scope : TaskScope) (plan : ContextRequirementPlan)
    (s s' : ContextSnapshot) : Prop :=
  ∀ eligible ∈ consumers scope plan,
    KindsReadAlike ((resolveSnapshot s.toSnapshotBuckets).candidates.filter eligible)
      ((resolveSnapshot s'.toSnapshotBuckets).candidates.filter eligible)

/-- Two snapshots of the same candidates that the gate reads alike are
discovered and compiled alike. -/
theorem order_invariant (hsha : Sha256.Injective) (intent : IntentContract) (scope : TaskScope)
    (activation : ActivationPlan) (kernels : List KernelBinding) (plan : ContextRequirementPlan)
    (s s' : ContextSnapshot) (hsame : s.SameCandidates s'.toSnapshotBuckets)
    (hread : SnapshotsReadAlike scope plan s s') :
    discover scope (resolveSnapshot s'.toSnapshotBuckets)
        = discover scope (resolveSnapshot s.toSnapshotBuckets)
      ∧ compileContext (inputsOver intent scope activation kernels plan s')
        = compileContext (inputsOver intent scope activation kernels plan s) := by
  have hviews : ∀ eligible ∈ consumers scope plan,
      ((resolveSnapshot s'.toSnapshotBuckets).resolve eligible).Alike
        ((resolveSnapshot s.toSnapshotBuckets).resolve eligible) := fun eligible heligible =>
    ((reordered_of_snapshots hsame).filter eligible).resolve_reordered hsha
      (hread eligible heligible)
  have hdiscovery : discover scope (resolveSnapshot s'.toSnapshotBuckets)
      = discover scope (resolveSnapshot s.toSnapshotBuckets) :=
    discover_congr (hviews _ (List.mem_cons_self ..))
  refine ⟨hdiscovery, ?_⟩
  have hinputs : inputsOver intent scope activation kernels plan s'
      = { inputsOver intent scope activation kernels plan s with
          resolution := resolveSnapshot s'.toSnapshotBuckets } := by
    simp only [inputsOver, hdiscovery]
  rw [hinputs]
  exact compileContext_congr fun r hr =>
    hviews _ (List.mem_cons_of_mem _ (List.mem_map_of_mem hr))

end Snapshots

/-! ## Two laws in either order -/

section Laws

attribute [local instance] Sha256.transparent

theorem size_le_of_parts {law : ContextItem} (hid : law.itemId = law.expectedItemId)
    (hcode : ((Sha256.code law.identityPayload.normalize).map (· + 1)).sum ≤ 60000)
    (hbody : (ContextItem.toJson { law with itemId := "" }).size ≤ 5000) :
    law.toJson.size ≤ 65536 := by
  rw [ContextItem.size_transparent hid]
  unfold ContextItem.transparentSize
  omega

theorem mutualLaw_size {level : AuthorityLevel} {law : ContextItem}
    (hlevel : level = .governedAuthoritative ∨ level = .informative)
    (h : law = archiveRule level ∨ law = purgeRule level) : law.toJson.size ≤ 65536 := by
  -- the identity is the same at every level
  rcases h with rfl | rfl
  · have hcode : ((Sha256.code (archiveRule .unverified).identityPayload.normalize).map
        (· + 1)).sum ≤ 60000 := by decide +kernel
    exact size_le_of_parts rfl hcode (by rcases hlevel with rfl | rfl <;> decide +kernel)
  · have hcode : ((Sha256.code (purgeRule .unverified).identityPayload.normalize).map
        (· + 1)).sum ≤ 60000 := by decide +kernel
    exact size_le_of_parts rfl hcode (by rcases hlevel with rfl | rfl <;> decide +kernel)

theorem lawSnapshot_allItems {laws : List ContextItem} {h : ∀ law ∈ laws, law.Valid
    ∧ law.contextKind = .applicableLaw ∧ law.selectedBecause = []} :
    (lawSnapshot laws h).allItems = laws := by
  simp [lawSnapshot, SnapshotBuckets.allItems, SnapshotBuckets.named, SnapshotBuckets.empty]

theorem mutual_withinCeilings {levels : List AuthorityLevel} (h : levels.length ≤ 4)
    (hlevels : ∀ level ∈ levels, level = .governedAuthoritative ∨ level = .informative) :
    WithinCeilings (mutualSnapshot levels).toSnapshotBuckets := by
  have hlength : (mutualLaws levels).length = 2 * levels.length := by
    unfold mutualLaws
    rw [List.length_flatMap]
    simp [mul_comm]
  have hitems : (mutualSnapshot levels).allItems = mutualLaws levels := lawSnapshot_allItems
  refine withinCeilings_of_few (by rw [hitems]; omega) fun law hlaw => ?_
  rw [hitems] at hlaw
  obtain ⟨level, hlevel, hlaw⟩ := mem_mutualLaws.mp hlaw
  exact mutualLaw_size (hlevels level hlevel) hlaw

/-- The governed statements come in one order. -/
theorem reordered_routing (refs : List String) :
    (resolveSnapshot (mutualSnapshot
        [.informative, .governedAuthoritative]).toSnapshotBuckets).candidates.filter
          (discoveryEligible refs)
      = (resolveSnapshot (mutualSnapshot
        [.governedAuthoritative, .informative]).toSnapshotBuckets).candidates.filter
          (discoveryEligible refs) :=
  candidates_filter_congr rfl

theorem lawSnapshot_same {laws laws' : List ContextItem} {h : ∀ law ∈ laws, law.Valid
    ∧ law.contextKind = .applicableLaw ∧ law.selectedBecause = []} {h' : ∀ law ∈ laws', law.Valid
    ∧ law.contextKind = .applicableLaw ∧ law.selectedBecause = []}
    (hsame : SameMembers laws laws') :
    (lawSnapshot laws h).SameCandidates (lawSnapshot laws' h').toSnapshotBuckets := by
  have hnone : SameMembers ([] : List ContextItem) [] := SameMembers.refl _
  simp [SnapshotBuckets.SameCandidates, SnapshotBuckets.named, lawSnapshot, SnapshotBuckets.empty,
    hsame, hnone]

/-- The two governed laws, the other way round and one of them twice. -/
def shuffledLaws : List ContextItem :=
  [purgeRule .governedAuthoritative, archiveRule .governedAuthoritative,
    purgeRule .governedAuthoritative]

theorem shuffled_same : SameMembers (mutualLaws [.governedAuthoritative]) shuffledLaws := by
  intro law
  simp only [mem_mutualLaws, shuffledLaws, List.mem_cons, List.not_mem_nil, or_false,
    exists_eq_left]
  constructor
  · rintro (h | h)
    · exact .inr (.inl h)
    · exact .inl h
  · rintro (h | h | h)
    · exact .inr h
    · exact .inl h
    · exact .inr h

def shuffledSnapshot : ContextSnapshot :=
  lawSnapshot shuffledLaws fun law hlaw =>
    mutualLaws_valid [.governedAuthoritative] law ((shuffled_same law).mpr hlaw)

/-- Shuffling the laws changes nothing about the audit. -/
theorem shuffled_laws_inert : ∃ plan,
    planRequirements (compileScope auditIntent) (discover (compileScope auditIntent)
        (resolveSnapshot (mutualSnapshot [.governedAuthoritative]).toSnapshotBuckets))
        auditActivation [] = .ok plan
      ∧ discover (compileScope auditIntent) (resolveSnapshot shuffledSnapshot.toSnapshotBuckets)
        = discover (compileScope auditIntent)
          (resolveSnapshot (mutualSnapshot [.governedAuthoritative]).toSnapshotBuckets)
      ∧ compileContext (inputsOver auditIntent (compileScope auditIntent) auditActivation [] plan
          shuffledSnapshot)
        = compileContext (inputsOver auditIntent (compileScope auditIntent) auditActivation [] plan
          (mutualSnapshot [.governedAuthoritative])) := by
  obtain ⟨plan, -, hfrom, -⟩ := audit_planned (mutualSnapshot [.governedAuthoritative])
  have hsame : (mutualSnapshot [.governedAuthoritative]).SameCandidates
      shuffledSnapshot.toSnapshotBuckets := lawSnapshot_same shuffled_same
  have hrank : ∀ law ∈ (resolveSnapshot (mutualSnapshot
      [.governedAuthoritative]).toSnapshotBuckets).candidates, law.authorityRank = 0 := by
    intro law hlaw
    have hmem := (mem_sortedBy _).mp (lawSnapshot_candidates ▸ hlaw)
    obtain ⟨level, hlevel, rfl | rfl⟩ := mem_mutualLaws.mp hmem <;>
      · rw [List.mem_singleton.mp hlevel]
        rfl
  have hread : SnapshotsReadAlike (compileScope auditIntent) plan
      (mutualSnapshot [.governedAuthoritative]) shuffledSnapshot := fun eligible _ =>
    ((reordered_of_snapshots hsame).filter eligible).kindsReadAlike Sha256.transparent_injective
      fun a ha b hb _ => (hrank a (List.mem_filter.mp ha).1).trans
        (hrank b (List.mem_filter.mp hb).1).symm
  obtain ⟨hdiscovery, hcontext⟩ := order_invariant Sha256.transparent_injective auditIntent
    (compileScope auditIntent) auditActivation [] plan (mutualSnapshot [.governedAuthoritative])
    shuffledSnapshot hsame hread
  exact ⟨plan, hfrom.plan, hdiscovery, hcontext⟩

/-- The same laws at the same authorities, informative last or governed
last: the gate reads the later one, and what is on record differs. -/
theorem restated_laws_reordered :
    ∃ plan context context',
      planRequirements (compileScope auditIntent) (discover (compileScope auditIntent)
          (resolveSnapshot (mutualSnapshot [.governedAuthoritative, .informative]).toSnapshotBuckets))
          auditActivation [] = .ok plan
      ∧ WithinCeilings (mutualSnapshot [.governedAuthoritative, .informative]).toSnapshotBuckets
      ∧ WithinCeilings (mutualSnapshot [.informative, .governedAuthoritative]).toSnapshotBuckets
      ∧ (mutualSnapshot [.governedAuthoritative, .informative]).SameCandidates
          (mutualSnapshot [.informative, .governedAuthoritative]).toSnapshotBuckets
      ∧ compileContext (inputsOver auditIntent (compileScope auditIntent) auditActivation [] plan
          (mutualSnapshot [.governedAuthoritative, .informative])) = .ok context
      ∧ compileContext (inputsOver auditIntent (compileScope auditIntent) auditActivation [] plan
          (mutualSnapshot [.informative, .governedAuthoritative])) = .ok context'
      ∧ context ≠ context' := by
  obtain ⟨plan, context, hfrom, hcompile⟩ :=
    audit_planned (mutualSnapshot [.governedAuthoritative, .informative])
  have hversion : isBlank packageVersion = false := by decide
  have hdiscovery : discover (compileScope auditIntent) (resolveSnapshot (mutualSnapshot
        [.informative, .governedAuthoritative]).toSnapshotBuckets)
      = discover (compileScope auditIntent) (resolveSnapshot (mutualSnapshot
        [.governedAuthoritative, .informative]).toSnapshotBuckets) :=
    discover_congr (resolve_congr (reordered_routing _))
  have hfrom' : PlannedFrom (mutualSnapshot [.informative, .governedAuthoritative])
      (mutualInputs [.informative, .governedAuthoritative] plan) := by
    refine ⟨rfl, rfl, ?_⟩
    show planRequirements (compileScope auditIntent) (discover (compileScope auditIntent)
      (resolveSnapshot (mutualSnapshot [.informative, .governedAuthoritative]).toSnapshotBuckets))
      auditActivation [] = .ok plan
    rw [hdiscovery]
    exact hfrom.plan
  obtain ⟨context', hcompile'⟩ := hfrom'.finishes (fun _ h => absurd h List.not_mem_nil) hversion
  refine ⟨plan, context, context', hfrom.plan, mutual_withinCeilings (by decide) (by decide),
    mutual_withinCeilings (by decide) (by decide), lawSnapshot_same fun law => ?_, hcompile, hcompile', ?_⟩
  · have hswap : ∀ level : AuthorityLevel, level ∈ [AuthorityLevel.governedAuthoritative, .informative]
        ↔ level ∈ [AuthorityLevel.informative, .governedAuthoritative] := by
      intro level
      cases level <;> decide
    simp only [mem_mutualLaws, hswap]
  · rintro rfl
    have hrouted : ReadAt .governedAuthoritative
        (routedLaws [.governedAuthoritative, .informative] plan) :=
      routedLaws_readAt plan (by decide) (by decide)
    have hlaws : routedLaws [.informative, .governedAuthoritative] plan
        = routedLaws [.governedAuthoritative, .informative] plan :=
      congrArg (ofKindIn .applicableLaw) (reordered_routing _)
    obtain ⟨component, hcomponent, hid⟩ := hrouted.exists_cycle
    obtain ⟨last, htier, hrecord⟩ := @mutual_record [.governedAuthoritative] .informative
      [.governedAuthoritative, .informative] rfl plan context hfrom hcompile (by decide) (by decide)
      (by decide) component hcomponent hid
    rw [← hlaws] at hcomponent
    obtain ⟨last', htier', hrecord'⟩ := @mutual_record [.informative] .governedAuthoritative
      [.informative, .governedAuthoritative] rfl plan context hfrom' hcompile' (by decide)
      (by decide) (by decide) component hcomponent hid
    rw [hlaws] at hrecord'
    have hsame : last.unknown = last'.unknown :=
      (hrecord' _).mp ((hrecord _).mpr rfl)
    have hblocking : last'.unknown.materiality = .blocking := htier'.mpr rfl
    rw [← hsame] at hblocking
    cases htier.mp hblocking

end Laws

end CognitiveRuntime
