import CognitiveRuntime.Properties.Identity

/-!
# When a group contradicts itself

Representatives are kept apart by claim and applicability, and the rules
of the kinds count representatives. A claim asserted at two places is
then two representatives, and a tie between them reads as a
contradiction although nothing differs. `conflicts_differ_iff` says that
this is the only way to a conflict without differing claims.
-/

namespace CognitiveRuntime

open Ordered

/-! ## Fields of the same claim -/

theorem SameClaim.revision {a b : ContextItem} (h : SameClaim a b)
    (ha : a.contextKind = .repositoryState) (hb : b.contextKind = .repositoryState) :
    a.revision? = b.revision? := by
  have hfield := h.field "revision"
  unfold ContextItem.contextKind at ha hb
  unfold ContextItem.revision?
  cases hca : a.claim <;> rw [hca] at ha <;> cases ha
  cases hcb : b.claim <;> rw [hcb] at hb <;> cases hb
  rw [hca, hcb] at hfield
  simpa [Claim.payload, Json.field] using hfield

theorem SameClaim.version {a b : ContextItem} (h : SameClaim a b)
    (ha : a.contextKind = .dependencyContext) (hb : b.contextKind = .dependencyContext) :
    a.dependencyContext?.map DependencyContext.versionOrRevision
      = b.dependencyContext?.map DependencyContext.versionOrRevision := by
  have hfield := h.field "version_or_revision"
  unfold ContextItem.contextKind at ha hb
  unfold ContextItem.dependencyContext?
  cases hca : a.claim <;> rw [hca] at ha <;> cases ha
  cases hcb : b.claim <;> rw [hcb] at hb <;> cases hb
  rw [hca, hcb] at hfield
  simpa [Claim.payload, Json.field, Json.ofOption_inj] using hfield

theorem SameClaim.precedence {a b : ContextItem} (h : SameClaim a b)
    (ha : a.contextKind = .applicableLaw) (hb : b.contextKind = .applicableLaw) :
    lawPrecedence a = lawPrecedence b := by
  have hfield := h.field "precedence"
  unfold ContextItem.contextKind at ha hb
  unfold lawPrecedence ContextItem.applicableLaw?
  cases hca : a.claim <;> rw [hca] at ha <;> cases ha
  cases hcb : b.claim <;> rw [hcb] at hb <;> cases hb
  rw [hca, hcb] at hfield
  simpa [Claim.payload, Json.field, Claim.ofPrecedence_inj] using hfield

/-! ## Rules over one claim -/

/-- Over one claim the law's precedence decides nothing. -/
theorem resolveLaw_of_sameClaim {reps : List ContextItem}
    (hkind : ∀ a ∈ reps, a.contextKind = .applicableLaw)
    (hsame : ∀ a ∈ reps, ∀ b ∈ reps, SameClaim a b) (hmany : ∀ item, reps ≠ [item]) :
    resolveLaw reps = resolveByAuthority reps := by
  have hfirst : reps ≠ [] → firstByPrecedence reps = reps := by
    intro hne
    obtain ⟨best, hbest⟩ := exists_minBy (fun item => (lawPrecedence item).getD 0) hne
    have hmem := (minBy_spec _ hbest).1
    unfold firstByPrecedence
    rw [hbest, Option.bind_some, List.filter_eq_self]
    intro item hitem
    exact decide_eq_true ((hsame item hitem best hmem).precedence (hkind item hitem)
      (hkind best hmem))
  unfold resolveLaw
  split
  · next item => exact absurd rfl (hmany item)
  · split
    · next hall =>
        rw [hfirst hall.1]
        split
        · next item _ => exact absurd rfl (hmany item)
        · rfl
    · rfl

/-- Over one claim every kind but evidence and recall decides by
authority. -/
theorem resolveGroup_of_sameClaim {kind : ContextKind} {reps : List ContextItem}
    (hkind : ∀ a ∈ reps, a.contextKind = kind) (hsame : ∀ a ∈ reps, ∀ b ∈ reps, SameClaim a b)
    (hmany : ∀ item, reps ≠ [item]) (hevidence : kind ≠ .evidenceRef)
    (hmemory : kind ≠ .memoryContext) : resolveGroup kind reps = resolveByAuthority reps := by
  unfold resolveGroup
  split
  · next item => exact absurd rfl (hmany item)
  · cases kind with
    | evidenceRef => exact absurd rfl hevidence
    | memoryContext => exact absurd rfl hmemory
    | applicableLaw => exact resolveLaw_of_sameClaim hkind hsame hmany
    | repositoryState =>
        have hone : (sortedUnique (reps.filterMap ContextItem.revision?)).length ≤ 1 := by
          refine length_le_one_of_all_eq (nodup_sortedUnique _) ?_
          intro r hr s hs
          obtain ⟨a, ha, hra⟩ := List.mem_filterMap.mp (mem_sortedUnique.mp hr)
          obtain ⟨b, hb, hsb⟩ := List.mem_filterMap.mp (mem_sortedUnique.mp hs)
          have hrevision := (hsame a ha b hb).revision (hkind a ha) (hkind b hb)
          rw [hra, hsb] at hrevision
          exact Option.some.inj hrevision
        exact if_neg (Nat.not_lt.mpr hone)
    | dependencyContext =>
        have hone : (firstSeen ((reps.filterMap ContextItem.dependencyContext?).map
            DependencyContext.versionOrRevision)).length ≤ 1 := by
          refine length_le_one_of_all_eq (nodup_firstSeen _) ?_
          intro v hv w hw
          obtain ⟨c, hc, rfl⟩ := List.mem_map.mp (mem_firstSeen.mp hv)
          obtain ⟨d, hd, rfl⟩ := List.mem_map.mp (mem_firstSeen.mp hw)
          obtain ⟨a, ha, hca⟩ := List.mem_filterMap.mp hc
          obtain ⟨b, hb, hdb⟩ := List.mem_filterMap.mp hd
          have hversion := (hsame a ha b hb).version (hkind a ha) (hkind b hb)
          rw [hca, hdb] at hversion
          exact Option.some.inj hversion
        exact if_neg (Nat.not_lt.mpr hone)
    | relevantEntity => rfl
    | architectureConstraint => rfl
    | priorDecision => rfl
    | capabilityFact => rfl
    | authorityFact => rfl

/-- Authority fails to decide exactly where two are strongest. -/
theorem resolveByAuthority_conflict {reps : List ContextItem} (hn : reps.Nodup)
    (hne : reps ≠ []) :
    (resolveByAuthority reps).conflict = true ↔
      ∃ a ∈ strongest reps, ∃ b ∈ strongest reps, a ≠ b := by
  have hnodup : (strongest reps).Nodup := hn.filter _
  have hstrong := strongest_ne_nil hne
  unfold resolveByAuthority
  split
  · next item hone =>
      rw [hone]
      simp [GroupResolution.settled]
  · next hmany =>
      simp only [GroupResolution.conflicting, true_iff]
      by_contra hall
      push Not at hall
      obtain ⟨a, ha⟩ := List.exists_mem_of_ne_nil _ hstrong
      exact hmany a (eq_singleton_of_all_eq hnodup hstrong fun b hb => (hall a ha b hb).symm)

/-! ## Conflicts without differing claims -/

section Conflicts

variable [Sha256] {items : List ContextItem} {key : ContextKind × String}

/-- One of the strongest surviving candidates of a group. -/
def StrongestIn (items : List ContextItem) (key : ContextKind × String) (item : ContextItem) :
    Prop :=
  item ∈ groupMembers items key
    ∧ ∀ other ∈ groupMembers items key, item.authorityRank ≤ other.authorityRank

/-- A group of a kind that settles truth in which all survivors assert
one claim, and two of the strongest assert it at different places. -/
structure OneClaimApart (items : List ContextItem) (key : ContextKind × String) : Prop where
  not_evidence : key.1 ≠ .evidenceRef
  not_memory : key.1 ≠ .memoryContext
  same : ∀ a ∈ groupMembers items key, ∀ b ∈ groupMembers items key, SameClaim a b
  apart : ∃ a b, StrongestIn items key a ∧ StrongestIn items key b
    ∧ a.applicabilityPayload ≠ b.applicabilityPayload

theorem contextKind_of_mem_group {item : ContextItem} (h : item ∈ groupMembers items key) :
    item.contextKind = key.1 :=
  congrArg Prod.fst (mem_groupMembers.mp h).2

/-- Every strongest survivor has a strongest representative of its claim. -/
theorem exists_strongest_representative {item : ContextItem} (h : StrongestIn items key item) :
    ∃ rep ∈ strongest (representatives (groupMembers items key)),
      claimDigest rep = claimDigest item := by
  obtain ⟨rep, hrep, hdigest⟩ := exists_representative h.1
  refine ⟨rep, mem_strongest.mpr ⟨hrep, fun other hother => ?_⟩, hdigest⟩
  have hle := rank_le_of_representativeKey_le (representative_le hrep h.1 hdigest.symm)
  exact hle.trans (h.2 other (mem_of_mem_representatives hother))

/-- A strongest representative is a strongest survivor. -/
theorem strongestIn_of_mem_strongest {rep : ContextItem}
    (h : rep ∈ strongest (representatives (groupMembers items key))) :
    StrongestIn items key rep := by
  obtain ⟨hrep, hleast⟩ := mem_strongest.mp h
  refine ⟨mem_of_mem_representatives hrep, fun other hother => ?_⟩
  obtain ⟨rep', hrep', hdigest⟩ := exists_representative hother
  exact (hleast rep' hrep').trans
    (rank_le_of_representativeKey_le (representative_le hrep' hother hdigest.symm))

/-- Where authority decides, two strongest survivors with claims that the
digests tell apart are a conflict. -/
theorem conflict_of_rivals {a b : ContextItem}
    (hdecided : (∀ item, representatives (groupMembers items key) ≠ [item]) →
      resolveGroup key.1 (representatives (groupMembers items key))
        = resolveByAuthority (representatives (groupMembers items key)))
    (ha : StrongestIn items key a) (hb : StrongestIn items key b)
    (hdiffer : claimDigest a ≠ claimDigest b) :
    (resolveGroup key.1 (representatives (groupMembers items key))).conflict = true := by
  obtain ⟨rep, hrep, hdigest⟩ := exists_strongest_representative ha
  obtain ⟨rep', hrep', hdigest'⟩ := exists_strongest_representative hb
  have hapart : rep ≠ rep' := by
    rintro rfl
    exact hdiffer (hdigest.symm.trans hdigest')
  have hmany : ∀ item, representatives (groupMembers items key) ≠ [item] := by
    intro item hone
    have hrep := (mem_strongest.mp hrep).1
    have hrep' := (mem_strongest.mp hrep').1
    rw [hone] at hrep hrep'
    exact hapart ((List.mem_singleton.mp hrep).trans (List.mem_singleton.mp hrep').symm)
  rw [hdecided hmany]
  exact (resolveByAuthority_conflict (nodup_representatives _)
    (representatives_ne_nil (List.ne_nil_of_mem ha.1))).mpr ⟨rep, hrep, rep', hrep', hapart⟩

/-- A group whose survivors assert one claim is in conflict exactly where
two of the strongest assert it at different places. -/
theorem oneClaim_conflict_iff (hsha : Sha256.Injective) {group : GroupResolution}
    (hgroup : (key, group) ∈ (resolveCandidates items).groups)
    (hsame : ∀ a ∈ groupMembers items key, ∀ b ∈ groupMembers items key, SameClaim a b) :
    group.conflict = true ↔ OneClaimApart items key := by
  obtain ⟨hne, rfl⟩ := mem_groups.mp hgroup
  generalize hreps : representatives (groupMembers items key) = reps
  have hmember : ∀ rep ∈ reps, rep ∈ groupMembers items key := by
    rw [← hreps]
    exact fun rep hrep => mem_of_mem_representatives hrep
  have hnodup : reps.Nodup := hreps ▸ nodup_representatives _
  have hrepsne : reps ≠ [] := hreps ▸ representatives_ne_nil hne
  have hdecide : key.1 ≠ .evidenceRef → key.1 ≠ .memoryContext →
      (∀ item, reps ≠ [item]) → resolveGroup key.1 reps = resolveByAuthority reps :=
    fun hevidence hmemory hmany => resolveGroup_of_sameClaim
      (fun rep hrep => contextKind_of_mem_group (hmember rep hrep))
      (fun a ha b hb => hsame a (hmember a ha) b (hmember b hb)) hmany hevidence hmemory
  constructor
  · intro hconflict
    have hmany : ∀ item, reps ≠ [item] := by
      rintro item rfl
      cases hconflict
    have hkind : key.1 ≠ .evidenceRef ∧ key.1 ≠ .memoryContext := by
      constructor <;> intro hkey <;> rw [hkey] at hconflict <;> unfold resolveGroup at hconflict
      all_goals
        split at hconflict
        · cases hconflict
        · cases hconflict
    rw [hdecide hkind.1 hkind.2 hmany] at hconflict
    obtain ⟨a, ha, b, hb, hab⟩ := (resolveByAuthority_conflict hnodup hrepsne).mp hconflict
    rw [← hreps] at ha hb
    refine ⟨hkind.1, hkind.2, hsame, a, b, strongestIn_of_mem_strongest ha,
      strongestIn_of_mem_strongest hb, fun happly => hab ?_⟩
    have hrepa := (mem_strongest.mp ha).1
    have hrepb := (mem_strongest.mp hb).1
    exact representative_unique hrepa hrepb ((claimDigest_eq_iff hsha).mpr
      ⟨hsame a (mem_of_mem_representatives hrepa) b (mem_of_mem_representatives hrepb), happly⟩)
  · rintro ⟨hevidence, hmemory, -, a, b, ha, hb, happly⟩
    subst hreps
    exact conflict_of_rivals (hdecide hevidence hmemory) ha hb fun hdigest =>
      happly ((claimDigest_eq_iff hsha).mp hdigest).2

/-- Conflicts are between differing claims exactly where no group holds
one claim that two of its strongest survivors assert at different
places. -/
theorem conflicts_differ_iff (hsha : Sha256.Injective) (items : List ContextItem) :
    (∀ key group, (key, group) ∈ (resolveCandidates items).groups → group.conflict = true →
      ∃ a ∈ groupMembers items key, ∃ b ∈ groupMembers items key, ¬SameClaim a b)
    ↔ ¬∃ key, OneClaimApart items key := by
  constructor
  · rintro hdiffer ⟨key, hone⟩
    obtain ⟨a, -, ha, -⟩ := hone.apart
    have hgroup := mem_groups.mpr ⟨List.ne_nil_of_mem ha.1, rfl⟩
    obtain ⟨a, ha, b, hb, hnot⟩ := hdiffer key _ hgroup
      ((oneClaim_conflict_iff hsha hgroup hone.same).mpr hone)
    exact hnot (hone.same a ha b hb)
  · intro hnone key group hgroup hconflict
    by_contra hall
    push Not at hall
    exact hnone ⟨key, (oneClaim_conflict_iff hsha hgroup hall).mp hconflict⟩

end Conflicts

section Constraint

attribute [local instance] Sha256.transparent

/-- A constraint with the given statement, asserted where it applies. -/
def layeringRule (statement : String) (scopeMode : ContextScopeMode) (scopeRefs : List String) :
    ContextItem :=
  .create .governedAuthoritative
    { sourceId := "adr-7", sourceKind := "adr", locator := "docs/adr/7.md"
      immutableCoordinate := some "3f2a", contentDigest := none }
    scopeMode scopeRefs
    (.architectureConstraint
      { constraintId := "LAYERING", statement := statement, appliesBecause := []
        evidenceRefs := [] })

/-- The group of the constraint. -/
def layeringKey : ContextKind × String := (.architectureConstraint, "LAYERING")

/-- One constraint, asserted everywhere and again for one target. -/
def restatedRules : List ContextItem :=
  [layeringRule "no upward imports" .global [],
    layeringRule "no upward imports" .scoped ["src/greeting"]]

/-- One constraint with two statements. -/
def rivalRules : List ContextItem :=
  [layeringRule "no upward imports" .global [], layeringRule "no cyclic imports" .global []]

theorem mem_layering_group {items : List ContextItem} {statement : String}
    {scopeMode : ContextScopeMode} {scopeRefs : List String}
    (h : layeringRule statement scopeMode scopeRefs ∈ items) :
    layeringRule statement scopeMode scopeRefs ∈ groupMembers items layeringKey :=
  mem_groupMembers.mpr ⟨mem_leftOver_of_kind h rfl, rfl⟩

/-- The restated constraint is in conflict with itself. -/
theorem restated_rule_conflicts :
    ∃ group, (layeringKey, group) ∈ (resolveCandidates restatedRules).groups
      ∧ group.conflict = true
      ∧ ∀ a ∈ groupMembers restatedRules layeringKey,
          ∀ b ∈ groupMembers restatedRules layeringKey, SameClaim a b := by
  have hrule : ∀ item ∈ groupMembers restatedRules layeringKey, ∃ scopeMode scopeRefs,
      item = layeringRule "no upward imports" scopeMode scopeRefs := by
    intro item hitem
    rcases List.mem_cons.mp (mem_of_mem_leftOver (mem_groupMembers.mp hitem).1) with rfl | hmem
    · exact ⟨_, _, rfl⟩
    · rw [List.mem_singleton.mp hmem]
      exact ⟨_, _, rfl⟩
  have hsame : ∀ a ∈ groupMembers restatedRules layeringKey,
      ∀ b ∈ groupMembers restatedRules layeringKey, SameClaim a b := by
    intro a ha b hb
    obtain ⟨_, _, rfl⟩ := hrule a ha
    obtain ⟨_, _, rfl⟩ := hrule b hb
    exact sameClaim_of_claim_eq rfl
  have hstrongest : ∀ item ∈ groupMembers restatedRules layeringKey,
      StrongestIn restatedRules layeringKey item := by
    intro item hitem
    refine ⟨hitem, fun other hother => ?_⟩
    obtain ⟨_, _, rfl⟩ := hrule item hitem
    obtain ⟨_, _, rfl⟩ := hrule other hother
    exact le_refl 0
  have heverywhere := mem_layering_group (List.mem_cons_self .. : _ ∈ restatedRules)
  have htarget := mem_layering_group
    (List.mem_cons_of_mem _ (List.mem_singleton_self _) : _ ∈ restatedRules)
  have hgroup := mem_groups.mpr ⟨List.ne_nil_of_mem heverywhere, rfl⟩
  refine ⟨_, hgroup, ?_, hsame⟩
  refine (oneClaim_conflict_iff Sha256.transparent_injective hgroup hsame).mpr
    ⟨by decide, by decide, hsame, _, _, hstrongest _ heverywhere, hstrongest _ htarget, ?_⟩
  decide

/-- The rival statements are no one claim asserted at two places, so what
conflicts there differs. -/
theorem rival_statements_differ :
    (¬∃ key, OneClaimApart rivalRules key)
    ∧ ∀ key group, (key, group) ∈ (resolveCandidates rivalRules).groups → group.conflict = true →
        ∃ a ∈ groupMembers rivalRules key, ∃ b ∈ groupMembers rivalRules key, ¬SameClaim a b := by
  have hnone : ¬∃ key, OneClaimApart rivalRules key := by
    rintro ⟨key, hone⟩
    obtain ⟨item, -, hitem, -⟩ := hone.apart
    obtain ⟨hleft, hkey⟩ := mem_groupMembers.mp hitem.1
    have hlayering : key = layeringKey := by
      have hmem := mem_of_mem_leftOver hleft
      rcases List.mem_cons.mp hmem with rfl | hmem
      · exact hkey.symm
      · rw [List.mem_singleton.mp hmem] at hkey
        exact hkey.symm
    subst hlayering
    have hsame := hone.same _ (mem_layering_group (List.mem_cons_self .. : _ ∈ rivalRules)) _
      (mem_layering_group
        (List.mem_cons_of_mem _ (List.mem_singleton_self _) : _ ∈ rivalRules))
    have hstatement := hsame.field "statement"
    simp [layeringRule, ContextItem.create, Claim.payload, Json.field] at hstatement
  exact ⟨hnone, (conflicts_differ_iff Sha256.transparent_injective _).mpr hnone⟩

end Constraint

end CognitiveRuntime
