import CognitiveRuntime.Compiler.Resolution

/-!
# What a view holds

One resolved view, taken apart: which candidates supersession leaves,
which groups they form, which representatives a group has, and what the
kind's rule keeps of them. Later results read views through these facts
and never unfold the resolution.
-/

namespace CognitiveRuntime

open Ordered

section Views

variable [Sha256] {items : List ContextItem}

/-! ## Supersession -/

/-- The candidates of one kind. -/
def ofKindIn (kind : ContextKind) (items : List ContextItem) : List ContextItem :=
  items.filter fun item => item.contextKind = kind

/-- What supersession leaves of a candidate list. -/
def leftOver (items : List ContextItem) : List ContextItem := (applySupersession items).1

theorem mem_leftOver {item : ContextItem} :
    item ∈ leftOver items ↔ item ∈ items ∧ (isSupersessionKind item.contextKind = true →
      item ∈ supersessionSurvivors (ofKindIn item.contextKind items)) := by
  unfold leftOver applySupersession
  rw [List.mem_flatMap]
  constructor
  · rintro ⟨⟨kind, members⟩, hgroup, hitem⟩
    obtain ⟨hkind, rfl⟩ := (mem_groupBy _).mp hgroup
    have hmember : item ∈ ofKindIn kind items := by
      split at hitem
      · exact (survivors_iff.mp hitem).1
      · exact hitem
    obtain ⟨hmem, hsame⟩ := List.mem_filter.mp hmember
    obtain rfl := of_decide_eq_true hsame
    refine ⟨hmem, fun hsupersession => ?_⟩
    rw [if_pos hsupersession] at hitem
    exact hitem
  · rintro ⟨hmem, hsurvives⟩
    refine ⟨(item.contextKind, ofKindIn item.contextKind items),
      (mem_groupBy _).mpr ⟨List.mem_map_of_mem hmem, rfl⟩, ?_⟩
    split
    · next hsupersession => exact hsurvives hsupersession
    · exact List.mem_filter.mpr ⟨hmem, decide_eq_true rfl⟩

theorem mem_of_mem_leftOver {item : ContextItem} (h : item ∈ leftOver items) : item ∈ items :=
  (mem_leftOver.mp h).1

/-- Kinds without supersession lose nothing to it. -/
theorem mem_leftOver_of_kind {item : ContextItem} (hmem : item ∈ items)
    (hkind : isSupersessionKind item.contextKind = false) : item ∈ leftOver items :=
  mem_leftOver.mpr ⟨hmem, fun h => absurd (hkind.symm.trans h) Bool.false_ne_true⟩

/-! ## Groups -/

/-- The candidates of a group that supersession leaves. -/
def groupMembers (items : List ContextItem) (key : ContextKind × String) : List ContextItem :=
  (leftOver items).filter fun item => groupKey item = key

theorem mem_groupMembers {item : ContextItem} {key : ContextKind × String} :
    item ∈ groupMembers items key ↔ item ∈ leftOver items ∧ groupKey item = key := by
  unfold groupMembers
  rw [List.mem_filter, decide_eq_true_eq]

theorem mem_of_mem_kept {kind : ContextKind} {members : List ContextItem} {item : ContextItem}
    (h : item ∈ if isSupersessionKind kind then (resolveSupersession kind members).1
      else members) : item ∈ members := by
  split at h
  · exact (survivors_iff.mp h).1
  · exact h

/-- A group of a kind without supersession holds the candidates of its
key, in order. -/
theorem groupMembers_of_kind {key : ContextKind × String}
    (hkind : isSupersessionKind key.1 = false) :
    groupMembers items key = items.filter fun item => groupKey item = key := by
  unfold groupMembers leftOver applySupersession groupBy
  rw [List.filter_flatMap, List.flatMap_map]
  -- what another kind keeps has another key
  have hother : ∀ kind, kind ≠ key.1 → ∀ members : List ContextItem,
      (∀ item ∈ members, item.contextKind = kind) →
      (if isSupersessionKind kind then (resolveSupersession kind members).1 else members).filter
        (fun item => decide (groupKey item = key)) = [] := by
    intro kind hne members hmembers
    rw [List.filter_eq_nil_iff]
    intro item hitem hkey
    exact hne ((hmembers item (mem_of_mem_kept hitem)).symm.trans
      (congrArg Prod.fst (of_decide_eq_true hkey)))
  have hkinds : ∀ kind, ∀ item ∈ items.filter (fun item => decide (item.contextKind = kind)),
      item.contextKind = kind := fun kind item hitem =>
    of_decide_eq_true (List.mem_filter.mp hitem).2
  by_cases hmem : key.1 ∈ firstSeen (items.map ContextItem.contextKind)
  · rw [flatMap_of_only (nodup_firstSeen _) hmem fun kind _ hne =>
      hother kind hne _ (hkinds kind)]
    simp only [hkind, Bool.false_eq_true, if_false]
    rw [List.filter_filter]
    refine List.filter_congr fun item _ => ?_
    simp only [groupKey, Prod.ext_iff]
    by_cases h : item.contextKind = key.1 <;> simp [h]
  · have hleft : ∀ kind ∈ firstSeen (items.map ContextItem.contextKind), kind ≠ key.1 := by
      rintro kind hkind rfl
      exact hmem hkind
    rw [List.flatMap_eq_nil_iff.mpr fun kind hkind => hother kind (hleft kind hkind) _
      (hkinds kind), eq_comm, List.filter_eq_nil_iff]
    intro item hitem hkey
    refine hmem (mem_firstSeen.mpr ?_)
    rw [← congrArg Prod.fst (of_decide_eq_true hkey)]
    exact List.mem_map_of_mem hitem

/-- The groups of a view: one for each key the leftover candidates have. -/
theorem mem_groups {key : ContextKind × String} {group : GroupResolution} :
    (key, group) ∈ (resolveCandidates items).groups ↔
      groupMembers items key ≠ []
        ∧ group = resolveGroup key.1 (representatives (groupMembers items key)) := by
  unfold resolveCandidates
  rw [List.mem_map]
  constructor
  · rintro ⟨⟨key', members⟩, hgroup, heq⟩
    cases heq
    have hne := groupBy_ne_nil _ hgroup
    obtain ⟨-, rfl⟩ := (mem_groupBy _).mp hgroup
    exact ⟨hne, rfl⟩
  · rintro ⟨hne, rfl⟩
    obtain ⟨item, hitem⟩ := List.exists_mem_of_ne_nil _ hne
    obtain ⟨hmem, hkey⟩ := mem_groupMembers.mp hitem
    exact ⟨(key, groupMembers items key),
      (mem_groupBy _).mpr ⟨hkey ▸ List.mem_map_of_mem hmem, rfl⟩, rfl⟩

theorem group_eq_of_key {key : ContextKind × String} {group group' : GroupResolution}
    (h : (key, group) ∈ (resolveCandidates items).groups)
    (h' : (key, group') ∈ (resolveCandidates items).groups) : group = group' :=
  (mem_groups.mp h).2.trans (mem_groups.mp h').2.symm

omit [Sha256] in
theorem mem_sortedGroups {view : ResolvedCandidates}
    {entry : (ContextKind × String) × GroupResolution} :
    entry ∈ view.sortedGroups ↔ entry ∈ view.groups :=
  mem_sortedBy _

/-! ## Representatives -/

theorem mem_representatives {members : List ContextItem} {rep : ContextItem} :
    rep ∈ representatives members ↔ rep ∈ members
      ∧ representative (members.filter fun item => claimDigest item = claimDigest rep)
        = some rep := by
  unfold representatives
  rw [mem_sortedBy, List.mem_filterMap]
  constructor
  · rintro ⟨⟨digest, group⟩, hgroup, hrep⟩
    obtain ⟨-, rfl⟩ := (mem_groupBy _).mp hgroup
    obtain ⟨hmem, hdigest⟩ := List.mem_filter.mp (minBy_spec _ hrep).1
    obtain rfl := of_decide_eq_true hdigest
    exact ⟨hmem, hrep⟩
  · rintro ⟨hmem, hrep⟩
    exact ⟨(claimDigest rep, _), (mem_groupBy _).mpr ⟨List.mem_map_of_mem hmem, rfl⟩, hrep⟩

theorem mem_of_mem_representatives {members : List ContextItem} {rep : ContextItem}
    (h : rep ∈ representatives members) : rep ∈ members :=
  (mem_representatives.mp h).1

/-- A representative is the least of those that claim the same. -/
theorem representative_le {members : List ContextItem} {rep item : ContextItem}
    (hrep : rep ∈ representatives members) (hitem : item ∈ members)
    (hsame : claimDigest item = claimDigest rep) : representativeKey rep ≤ representativeKey item :=
  (minBy_spec _ (mem_representatives.mp hrep).2).2 item
    (List.mem_filter.mpr ⟨hitem, decide_eq_true hsame⟩)

/-- Every claim has its representative. -/
theorem exists_representative {members : List ContextItem} {item : ContextItem}
    (h : item ∈ members) : ∃ rep ∈ representatives members, claimDigest rep = claimDigest item := by
  have hne : (members.filter fun other => claimDigest other = claimDigest item) ≠ [] :=
    List.ne_nil_of_mem (List.mem_filter.mpr ⟨h, decide_eq_true rfl⟩)
  obtain ⟨rep, hrep⟩ := exists_minBy representativeKey hne
  obtain ⟨hmem, hdigest⟩ := List.mem_filter.mp (minBy_spec _ hrep).1
  have hsame := of_decide_eq_true hdigest
  refine ⟨rep, mem_representatives.mpr ⟨hmem, ?_⟩, hsame⟩
  rw [hsame]
  exact hrep

theorem representatives_ne_nil {members : List ContextItem} (h : members ≠ []) :
    representatives members ≠ [] := by
  obtain ⟨item, hitem⟩ := List.exists_mem_of_ne_nil _ h
  obtain ⟨rep, hrep, -⟩ := exists_representative hitem
  exact List.ne_nil_of_mem hrep

theorem representative_unique {members : List ContextItem} {rep rep' : ContextItem}
    (hrep : rep ∈ representatives members) (hrep' : rep' ∈ representatives members)
    (hsame : claimDigest rep = claimDigest rep') : rep = rep' := by
  have h := (mem_representatives.mp hrep).2
  have h' := (mem_representatives.mp hrep').2
  rw [hsame] at h
  exact Option.some.inj (h.symm.trans h')

omit [Sha256] in
/-- The rank comes first in the order of representatives. -/
theorem rank_le_of_representativeKey_le {a b : ContextItem}
    (h : representativeKey a ≤ representativeKey b) : a.authorityRank ≤ b.authorityRank := by
  unfold representativeKey at h
  rcases Prod.Lex.toLex_le_toLex.mp h with hlt | ⟨heq, -⟩
  · exact hlt.le
  · exact heq.le

theorem nodup_representatives (members : List ContextItem) : (representatives members).Nodup := by
  unfold representatives
  refine nodup_sortedBy _ ?_
  refine List.Nodup.of_map claimDigest ?_
  have hdigests : ((groupBy claimDigest members).filterMap fun entry =>
      representative entry.2).map claimDigest = firstSeen (members.map claimDigest) := by
    unfold groupBy
    rw [List.filterMap_map, List.map_filterMap]
    conv_rhs => rw [← List.filterMap_some (l := firstSeen (members.map claimDigest))]
    refine List.filterMap_congr fun digest hdigest => ?_
    obtain ⟨item, hitem, rfl⟩ := List.mem_map.mp (mem_firstSeen.mp hdigest)
    obtain ⟨rep, hrep, hsame⟩ := exists_representative hitem
    have hmin := (mem_representatives.mp hrep).2
    rw [hsame] at hmin
    show (representative _).map claimDigest = _
    rw [hmin, Option.map_some, hsame]
  rw [hdigests]
  exact nodup_firstSeen _

/-! ## The strongest -/

omit [Sha256] in
theorem mem_strongest {reps : List ContextItem} {item : ContextItem} :
    item ∈ strongest reps ↔ item ∈ reps ∧ ∀ rep ∈ reps, item.authorityRank ≤ rep.authorityRank := by
  unfold strongest bestRank
  rw [List.mem_filter, decide_eq_true_eq]
  constructor
  · rintro ⟨hmem, hrank⟩
    obtain ⟨best, hbest⟩ := exists_minBy ContextItem.authorityRank (List.ne_nil_of_mem hmem)
    rw [hbest, Option.map_some, Option.getD_some] at hrank
    refine ⟨hmem, fun rep hrep => ?_⟩
    rw [hrank]
    exact (minBy_spec _ hbest).2 rep hrep
  · rintro ⟨hmem, hle⟩
    obtain ⟨best, hbest⟩ := exists_minBy ContextItem.authorityRank (List.ne_nil_of_mem hmem)
    obtain ⟨hin, hleast⟩ := minBy_spec _ hbest
    rw [hbest, Option.map_some, Option.getD_some]
    exact ⟨hmem, le_antisymm (hle best hin) (hleast item hmem)⟩

omit [Sha256] in
theorem strongest_ne_nil {reps : List ContextItem} (h : reps ≠ []) : strongest reps ≠ [] := by
  obtain ⟨best, hbest⟩ := exists_minBy ContextItem.authorityRank h
  obtain ⟨hin, hleast⟩ := minBy_spec _ hbest
  exact List.ne_nil_of_mem (mem_strongest.mpr ⟨hin, hleast⟩)

omit [Sha256] in
theorem isGoverned_iff_rank {item : ContextItem} :
    item.isGoverned = true ↔ item.authorityRank ≤ 1 :=
  AuthorityLevel.isGoverned_iff

/-- A governed representative is one among the governed alone. -/
theorem mem_representatives_governed {members : List ContextItem} {rep : ContextItem}
    (hgoverned : rep.isGoverned = true) :
    rep ∈ representatives members ↔ rep ∈ representatives (members.filter fun item =>
      item.isGoverned) := by
  have hcomm : ((members.filter fun item => item.isGoverned).filter fun item =>
        decide (claimDigest item = claimDigest rep))
      = (members.filter fun item => decide (claimDigest item = claimDigest rep)).filter
        fun item => item.isGoverned := by
    rw [List.filter_filter, List.filter_filter]
    exact List.filter_congr fun _ _ => Bool.and_comm ..
  rw [mem_representatives, mem_representatives, hcomm]
  constructor
  · rintro ⟨hmem, hrep⟩
    exact ⟨List.mem_filter.mpr ⟨hmem, hgoverned⟩, minBy_filter _ hrep hgoverned⟩
  · rintro ⟨hmem, hrep⟩
    obtain ⟨hin, -⟩ := List.mem_filter.mp hmem
    refine ⟨hin, ?_⟩
    obtain ⟨least, hleast⟩ := exists_minBy representativeKey (List.ne_nil_of_mem
      (List.mem_filter.mp (minBy_spec _ hrep).1).1)
    have hle := rank_le_of_representativeKey_le ((minBy_spec _ hleast).2 rep
      (List.mem_filter.mp (minBy_spec _ hrep).1).1)
    have hstrong : least.isGoverned = true :=
      isGoverned_iff_rank.mpr (hle.trans (isGoverned_iff_rank.mp hgoverned))
    obtain rfl : least = rep :=
      Option.some.inj ((minBy_filter _ hleast hstrong).symm.trans hrep)
    exact hleast

/-- The one strongest representative among the governed is the one
strongest of all. -/
theorem strongest_of_governed {members : List ContextItem} {item : ContextItem}
    (h : strongest (representatives (members.filter fun other => other.isGoverned)) = [item]) :
    strongest (representatives members) = [item] := by
  have hitem : item ∈ strongest (representatives (members.filter fun other =>
      other.isGoverned)) := by
    rw [h]
    exact List.mem_singleton_self item
  obtain ⟨hrep, hleast⟩ := mem_strongest.mp hitem
  have hgoverned := (List.mem_filter.mp (mem_of_mem_representatives hrep)).2
  have hrank := isGoverned_iff_rank.mp hgoverned
  have hin := (mem_representatives_governed hgoverned).mpr hrep
  have honly : ∀ other ∈ strongest (representatives members), other = item := by
    intro other hother
    obtain ⟨hother, hle⟩ := mem_strongest.mp hother
    have hgoverned' := isGoverned_iff_rank.mpr ((hle item hin).trans hrank)
    have hamong := (mem_representatives_governed hgoverned').mp hother
    have hstrong : other ∈ strongest (representatives (members.filter fun other =>
        other.isGoverned)) :=
      mem_strongest.mpr ⟨hamong, fun rep hrep' => (hle item hin).trans (hleast rep hrep')⟩
    rw [h] at hstrong
    exact List.mem_singleton.mp hstrong
  have hnodup : (strongest (representatives members)).Nodup :=
    (nodup_representatives members).filter _
  exact eq_singleton_of_all_eq hnodup (strongest_ne_nil (List.ne_nil_of_mem hin)) honly

/-! ## The rule of a group -/

/-- A group settles on one of its representatives, or, for evidence and
recall, on all of them, or contradicts itself. -/
inductive GroupOutcome (kind : ContextKind) (reps : List ContextItem) :
    GroupResolution → Prop
  | one (item : ContextItem) (h : item ∈ reps) : GroupOutcome kind reps (.settled [item])
  | all (h : kind = .evidenceRef ∨ kind = .memoryContext) :
      GroupOutcome kind reps (.settled (sortedBy ContextItem.sortKey reps))
  | conflict (details : List (String × Json)) (sources : List ContextItem)
      (hsources : sources ⊆ reps) (hmany : ∀ item, reps ≠ [item]) :
      GroupOutcome kind reps (.conflicting details sources)

omit [Sha256] in
theorem resolveByAuthority_outcome {kind : ContextKind} {reps top : List ContextItem}
    (htop : top ⊆ reps) (hmany : ∀ item, reps ≠ [item]) :
    GroupOutcome kind reps (resolveByAuthority top) := by
  unfold resolveByAuthority
  split
  · next item hone =>
      have hmem : item ∈ strongest top := by
        rw [hone]
        exact List.mem_singleton_self item
      exact .one item (htop (mem_strongest.mp hmem).1)
  · exact .conflict _ _ htop hmany

omit [Sha256] in
theorem firstByPrecedence_subset (reps : List ContextItem) : firstByPrecedence reps ⊆ reps :=
  List.filter_subset_self _

omit [Sha256] in
theorem resolveLaw_outcome {kind : ContextKind} {reps : List ContextItem}
    (hmany : ∀ item, reps ≠ [item]) : GroupOutcome kind reps (resolveLaw reps) := by
  unfold resolveLaw
  split
  · next item => exact absurd rfl (hmany item)
  · split
    · split
      · next item hone =>
          have hmem : item ∈ firstByPrecedence reps := by
            rw [hone]
            exact List.mem_singleton_self item
          exact .one item (firstByPrecedence_subset reps hmem)
      · exact resolveByAuthority_outcome (firstByPrecedence_subset reps) hmany
    · exact resolveByAuthority_outcome (List.Subset.refl _) hmany

omit [Sha256] in
theorem resolveGroup_outcome (kind : ContextKind) (reps : List ContextItem) :
    GroupOutcome kind reps (resolveGroup kind reps) := by
  unfold resolveGroup
  split
  · exact .one _ (List.mem_singleton_self _)
  · next hmany =>
      have hmany' : ∀ item, reps ≠ [item] := fun item h => hmany item h
      have hauthority : GroupOutcome kind reps (resolveByAuthority reps) :=
        resolveByAuthority_outcome (List.Subset.refl _) hmany'
      cases kind with
      | evidenceRef => exact .all (.inl rfl)
      | memoryContext => exact .all (.inr rfl)
      | applicableLaw => exact resolveLaw_outcome hmany'
      | repositoryState =>
          dsimp only
          split
          · exact .conflict _ _ (List.Subset.refl _) hmany'
          · exact hauthority
      | dependencyContext =>
          dsimp only
          split
          · exact .conflict _ _ (List.Subset.refl _) hmany'
          · exact hauthority
      | relevantEntity => exact hauthority
      | architectureConstraint => exact hauthority
      | priorDecision => exact hauthority
      | capabilityFact => exact hauthority
      | authorityFact => exact hauthority

omit [Sha256] in
theorem mem_of_mem_resolveGroup {kind : ContextKind} {reps : List ContextItem}
    {item : ContextItem} (h : item ∈ (resolveGroup kind reps).items) : item ∈ reps := by
  have houtcome := resolveGroup_outcome kind reps
  cases hres : resolveGroup kind reps with
  | mk items conflict details sources =>
      rw [hres] at houtcome h
      cases houtcome with
      | one _ hone =>
          obtain rfl := List.mem_singleton.mp h
          exact hone
      | all => exact (mem_sortedBy _).mp h
      | conflict => cases h

omit [Sha256] in
/-- A group that settles on something is not in conflict. -/
theorem settled_of_mem {kind : ContextKind} {reps : List ContextItem} {item : ContextItem}
    (h : item ∈ (resolveGroup kind reps).items) : (resolveGroup kind reps).conflict = false := by
  have houtcome := resolveGroup_outcome kind reps
  cases hres : resolveGroup kind reps with
  | mk items conflict details sources =>
      rw [hres] at houtcome h
      cases houtcome with
      | one => rfl
      | all => rfl
      | conflict => cases h

omit [Sha256] in
theorem mem_resolveByAuthority {reps : List ContextItem} {item : ContextItem} :
    item ∈ (resolveByAuthority reps).items ↔ strongest reps = [item] := by
  unfold resolveByAuthority
  split
  · next other hone =>
      rw [hone]
      simp [GroupResolution.settled, eq_comm]
  · next hmany =>
      simp only [GroupResolution.conflicting, List.not_mem_nil, false_iff]
      exact hmany item

omit [Sha256] in
theorem strongest_singleton (item : ContextItem) : strongest [item] = [item] := by
  simp [strongest, bestRank, minBy]

/-- The kinds whose groups authority alone decides. -/
def decidedByAuthority : ContextKind → Bool
  | .relevantEntity | .architectureConstraint | .priorDecision | .authorityFact
  | .capabilityFact => true
  | _ => false

omit [Sha256] in
theorem mem_resolveGroup_authority {kind : ContextKind} (hkind : decidedByAuthority kind = true)
    {reps : List ContextItem} {item : ContextItem} :
    item ∈ (resolveGroup kind reps).items ↔ strongest reps = [item] := by
  unfold resolveGroup
  split
  · next other =>
      rw [strongest_singleton]
      simp [GroupResolution.settled, eq_comm]
  · cases kind <;> first | exact mem_resolveByAuthority | cases hkind

omit [Sha256] in
/-- Evidence and recall keep every representative. -/
theorem mem_resolveGroup_all {kind : ContextKind}
    (hkind : kind = .evidenceRef ∨ kind = .memoryContext) {reps : List ContextItem}
    {item : ContextItem} : item ∈ (resolveGroup kind reps).items ↔ item ∈ reps := by
  unfold resolveGroup
  split
  · rfl
  · rcases hkind with rfl | rfl <;> exact mem_sortedBy _

/-! ## What a consumer may select -/

/-- The items of a view's settled groups. -/
theorem mem_view_items {key : ContextKind × String} {group : GroupResolution}
    {item : ContextItem} (hgroup : (key, group) ∈ (resolveCandidates items).groups)
    (hitem : item ∈ group.items) :
    item ∈ groupMembers items key := by
  obtain ⟨-, rfl⟩ := mem_groups.mp hgroup
  exact mem_of_mem_representatives (mem_of_mem_resolveGroup hitem)

end Views

end CognitiveRuntime
