import CognitiveRuntime.Properties.CrossViews

/-!
# Weaker material beside governed material

Candidates of no governed authority are added to a snapshot, and the same
plan is compiled. Two lists of candidates that agree on the governed ones
agree on which of those supersession leaves, since an accepted edge into
a governed claim comes from a governed claim, and on which of them
represent a group and are strongest in it.

What can differ is where a rule of a kind reads more than authority: the
precedence that laws declare and the versions of a dependency. Where
neither speaks against a governed item, every view that settled on it
settles on it again (`law_eligible`, `dependency_eligible` and the
lemmas beside them), and where no bound cuts the requirements of its
kind short it is selected again (`governed_undisplaced`).
-/

namespace CognitiveRuntime

open Ordered Relation

section Governed

variable [Sha256] {items items' : List ContextItem}

/-! ## The same governed candidates -/

/-- Valid candidates in canonical order. An id stands for one authority
level, and is no claim's domain id. -/
structure PlainCandidates (items : List ContextItem) : Prop where
  valid : ∀ c ∈ items, c.Valid
  unselected : ∀ c ∈ items, c.selectedBecause = []
  sorted : items.Pairwise fun a b => a.sortKey ≤ b.sortKey
  oneRank : ∀ a ∈ items, ∀ b ∈ items, a.itemId = b.itemId → a.authorityRank = b.authorityRank
  apart : ∀ a ∈ items, ∀ b ∈ items, a.itemId ≠ domainId b

theorem PlainCandidates.filter (h : PlainCandidates items) (p : ContextItem → Bool) :
    PlainCandidates (items.filter p) where
  valid c hc := h.valid c (List.mem_filter.mp hc).1
  unselected c hc := h.unselected c (List.mem_filter.mp hc).1
  sorted := h.sorted.filter _
  oneRank a ha b hb := h.oneRank a (List.mem_filter.mp ha).1 b (List.mem_filter.mp hb).1
  apart a ha b hb := h.apart a (List.mem_filter.mp ha).1 b (List.mem_filter.mp hb).1

theorem PlainCandidates.settled (h : PlainCandidates items) (hsha : Sha256.Injective) :
    SettledDomains items :=
  settledDomains_of_recipe hsha fun c hc => (h.valid c hc).id_recipe

theorem PlainCandidates.rankOf_eq (h : PlainCandidates items) {x : ContextItem}
    (hx : x ∈ items) : rankOf items x.itemId = x.authorityRank := by
  obtain ⟨held, hheld⟩ := exists_byItem (List.mem_map_of_mem hx)
  obtain ⟨hmem, hid⟩ := byItem_eq_some hheld
  unfold rankOf
  rw [hheld]
  exact h.oneRank held hmem x hx hid

/-- Two candidates of one id are one candidate. -/
theorem PlainCandidates.eq_of_id (h : PlainCandidates items) (hsha : Sha256.Injective)
    {a b : ContextItem} (ha : a ∈ items) (hb : b ∈ items) (hid : a.itemId = b.itemId) :
    a = b :=
  Reordered.eq_of_rank ⟨h.valid, h.unselected, SameMembers.refl _, h.sorted, h.sorted⟩ hsha ha hb
    hid (h.oneRank a ha b hb hid)

omit [Sha256] in
/-- The governed candidates of both lists are the same. -/
def SameGoverned (items items' : List ContextItem) : Prop :=
  ∀ c : ContextItem, c.isGoverned = true → (c ∈ items ↔ c ∈ items')

omit [Sha256] in
theorem SameGoverned.symm (h : SameGoverned items items') : SameGoverned items' items :=
  fun c hc => (h c hc).symm

omit [Sha256] in
theorem SameGoverned.filter (h : SameGoverned items items') {p q : ContextItem → Bool}
    (hpq : ∀ c, c.isGoverned = true → c ∈ items → p c = q c) :
    SameGoverned (items.filter p) (items'.filter q) := by
  intro c hc
  rw [List.mem_filter, List.mem_filter]
  constructor
  · rintro ⟨hmem, hp⟩
    exact ⟨(h c hc).mp hmem, (hpq c hc hmem).symm.trans hp⟩
  · rintro ⟨hmem', hq⟩
    have hmem := (h c hc).mpr hmem'
    exact ⟨hmem, (hpq c hc hmem).trans hq⟩

/-! ## Supersession -/

omit [Sha256] in
/-- The id of a governed member. -/
def GovernedId (members : List ContextItem) (id : String) : Prop :=
  ∃ c ∈ members, c.itemId = id ∧ c.isGoverned = true

/-- An accepted edge into a governed claim comes from one, and both lists
accept it. -/
theorem supersedes_governed (hsha : Sha256.Injective) (h : PlainCandidates items)
    (h' : PlainCandidates items') (hsame : SameGoverned items items') {s t : String}
    (ht : GovernedId items t) (hedge : Supersedes items s t) :
    GovernedId items s ∧ Supersedes items' s t := by
  obtain ⟨x, hx, y, hy, rfl, rfl, hnames, hrank⟩ :=
    (supersedes_iff_retires (h.settled hsha)).mp hedge
  obtain ⟨c, hc, hid, hgoverned⟩ := ht
  rw [h.rankOf_eq hx, h.rankOf_eq hy] at hrank
  have hgoverned' : y.isGoverned = true := by
    rw [isGoverned_iff_rank, ← h.oneRank c hc y hy hid]
    exact isGoverned_iff_rank.mp hgoverned
  have hsuperseder : x.isGoverned = true :=
    isGoverned_iff_rank.mpr (hrank.trans (isGoverned_iff_rank.mp hgoverned'))
  have hx' := (hsame x hsuperseder).mp hx
  have hy' := (hsame y hgoverned').mp hy
  -- what a reference names does not depend on the weaker members
  have hdomain : ∀ {a b : ContextItem} {ref : String}, b ∈ items' →
      NamesItem a ref b ∨ NamesDomain items a ref b →
        NamesItem a ref b ∨ NamesDomain items' a ref b := by
    rintro a b ref hb (hitem | ⟨-, rfl, hother⟩)
    · exact .inl hitem
    · exact .inr ⟨fun c hc => h'.apart c hc b hb, rfl, hother⟩
  refine ⟨⟨x, hx, rfl, hsuperseder⟩, (supersedes_iff_retires (h'.settled hsha)).mpr
    ⟨x, hx', y, hy', rfl, rfl, ?_, ?_⟩⟩
  · rcases hnames with ⟨ref, href, hnames⟩ | ⟨ref, href, hnames⟩
    · exact .inl ⟨ref, href, hdomain hy' hnames⟩
    · exact .inr ⟨ref, href, hdomain hx' hnames⟩
  · rw [h'.rankOf_eq hx', h'.rankOf_eq hy']
    exact hrank

/-- A path to a governed claim runs through governed claims. -/
theorem path_governed (hsha : Sha256.Injective) (h : PlainCandidates items)
    (h' : PlainCandidates items') (hsame : SameGoverned items items') {s t : String}
    (ht : GovernedId items t) (hpath : TransGen (Supersedes items) s t) :
    GovernedId items s ∧ TransGen (Supersedes items') s t := by
  induction hpath using TransGen.head_induction_on with
  | single hedge =>
      obtain ⟨hs, hedge'⟩ := supersedes_governed hsha h h' hsame ht hedge
      exact ⟨hs, .single hedge'⟩
  | head hedge _ ih =>
      obtain ⟨hmiddle, hrest⟩ := ih
      obtain ⟨hs, hedge'⟩ := supersedes_governed hsha h h' hsame hmiddle hedge
      exact ⟨hs, .head hedge' hrest⟩

omit [Sha256] in
theorem GovernedId.congr (hsame : SameGoverned items items') {id : String}
    (h : GovernedId items id) : GovernedId items' id := by
  obtain ⟨c, hc, hid, hgoverned⟩ := h
  exact ⟨c, (hsame c hgoverned).mp hc, hid, hgoverned⟩

/-- Whether a governed claim is on a cycle is up to the governed claims. -/
theorem offCycle_governed (hsha : Sha256.Injective) (h : PlainCandidates items)
    (h' : PlainCandidates items') (hsame : SameGoverned items items') {id : String}
    (hid : GovernedId items id) (hoff : Reach.OffCycle (Supersedes items') id) :
    Reach.OffCycle (Supersedes items) id := fun hcycle =>
  hoff (path_governed hsha h h' hsame hid hcycle).2

/-- A governed claim that supersession leaves among some candidates it
leaves among others with the same governed claims. -/
theorem survivors_governed (hsha : Sha256.Injective) (h : PlainCandidates items)
    (h' : PlainCandidates items') (hsame : SameGoverned items items') {c : ContextItem}
    (hgoverned : c.isGoverned = true) (hc : c ∈ supersessionSurvivors items) :
    c ∈ supersessionSurvivors items' := by
  obtain ⟨hmem, hoff, hstatus, hretired⟩ := survivors_iff.mp hc
  have hid : GovernedId items c.itemId := ⟨c, hmem, rfl, hgoverned⟩
  refine survivors_iff.mpr ⟨(hsame c hgoverned).mp hmem,
    offCycle_governed hsha h' h hsame.symm (hid.congr hsame) hoff, hstatus,
    fun s hedge hoff' => ?_⟩
  obtain ⟨hs, hedge'⟩ := supersedes_governed hsha h' h hsame.symm (hid.congr hsame) hedge
  exact hretired s hedge' (offCycle_governed hsha h h' hsame (hs.congr hsame.symm) hoff')

theorem leftOver_governed (hsha : Sha256.Injective) (h : PlainCandidates items)
    (h' : PlainCandidates items') (hsame : SameGoverned items items') :
    SameGoverned (leftOver items) (leftOver items') := by
  have hkind : ∀ {list list' : List ContextItem} (kind : ContextKind), SameGoverned list list' →
      SameGoverned (ofKindIn kind list) (ofKindIn kind list') := fun kind hlist =>
    hlist.filter fun _ _ _ => rfl
  intro c hgoverned
  rw [mem_leftOver, mem_leftOver, hsame c hgoverned]
  refine and_congr_right fun _ => forall_congr' fun _ => ⟨?_, ?_⟩
  · exact survivors_governed hsha (h.filter _) (h'.filter _) (hkind _ hsame) hgoverned
  · exact survivors_governed hsha (h'.filter _) (h.filter _) (hkind _ hsame.symm) hgoverned

/-! ## Representatives -/

theorem groupMembers_governed (hsha : Sha256.Injective) (h : PlainCandidates items)
    (h' : PlainCandidates items') (hsame : SameGoverned items items') (key : ContextKind × String) :
    SameGoverned (groupMembers items key) (groupMembers items' key) :=
  (leftOver_governed hsha h h' hsame).filter fun _ _ _ => rfl

/-- The governed representatives of a group are those of its governed
members. -/
theorem representatives_governed (hsha : Sha256.Injective) (h : PlainCandidates items)
    (h' : PlainCandidates items') (hsame : SameGoverned items items') (key : ContextKind × String) :
    SameGoverned (representatives (groupMembers items key))
      (representatives (groupMembers items' key)) := by
  have hcandidates : Reordered (items.filter fun c => c.isGoverned)
      (items'.filter fun c => c.isGoverned) :=
    { valid := (h.filter _).valid
      unselected := (h.filter _).unselected
      same := fun c => by
        rw [List.mem_filter, List.mem_filter]
        constructor
        · exact fun ⟨hmem, hc⟩ => ⟨(hsame c hc).mp hmem, hc⟩
        · exact fun ⟨hmem, hc⟩ => ⟨(hsame c hc).mpr hmem, hc⟩
      sorted := (h.filter _).sorted
      sorted' := (h'.filter _).sorted }
  have hmembers := groupMembers_governed hsha h h' hsame key
  have heq : representatives ((groupMembers items key).filter fun c => c.isGoverned)
      = representatives ((groupMembers items' key).filter fun c => c.isGoverned) := by
    refine hcandidates.representatives_eq hsha (fun c hc => ?_) fun c => ?_
    · obtain ⟨hmember, hgoverned⟩ := List.mem_filter.mp hc
      exact List.mem_filter.mpr
        ⟨mem_of_mem_leftOver (mem_groupMembers.mp hmember).1, hgoverned⟩
    · rw [List.mem_filter, List.mem_filter]
      constructor
      · exact fun ⟨hmem, hc⟩ => ⟨(hmembers c hc).mp hmem, hc⟩
      · exact fun ⟨hmem, hc⟩ => ⟨(hmembers c hc).mpr hmem, hc⟩
  intro c hc
  rw [mem_representatives_governed hc, heq]
  exact (mem_representatives_governed hc).symm

omit [Sha256] in
/-- The one strongest of a list is governed, and of any other list with
the same governed members it is the one strongest too. -/
theorem strongest_governed {reps reps' : List ContextItem} {item : ContextItem}
    (hnodup : reps'.Nodup) (hsame : SameGoverned reps reps') (hgoverned : item.isGoverned = true)
    (h : strongest reps = [item]) : strongest reps' = [item] := by
  have hitem : item ∈ strongest reps := h ▸ List.mem_singleton_self item
  obtain ⟨hmem, hleast⟩ := mem_strongest.mp hitem
  have hmem' := (hsame item hgoverned).mp hmem
  refine eq_singleton_of_all_eq (hnodup.filter _) (strongest_ne_nil (List.ne_nil_of_mem hmem'))
    fun other hother => ?_
  obtain ⟨hother, hle⟩ := mem_strongest.mp hother
  have hgoverned' : other.isGoverned = true :=
    isGoverned_iff_rank.mpr ((hle item hmem').trans (isGoverned_iff_rank.mp hgoverned))
  have hin := (hsame other hgoverned').mpr hother
  have hstrong : other ∈ strongest reps :=
    mem_strongest.mpr ⟨hin, fun rep hrep => (hle item hmem').trans (hleast rep hrep)⟩
  rw [h] at hstrong
  exact List.mem_singleton.mp hstrong

/-! ## The rules of the kinds -/

/-- The laws that authority decides between: those that precedence puts
first where all declare one. -/
def contenders (reps : List ContextItem) : List ContextItem :=
  if reps.all fun item => (lawPrecedence item).isSome then firstByPrecedence reps else reps

omit [Sha256] in
theorem mem_firstByPrecedence {reps : List ContextItem}
    (hall : ∀ c ∈ reps, (lawPrecedence c).isSome = true) {item : ContextItem} :
    item ∈ firstByPrecedence reps ↔ item ∈ reps
      ∧ ∀ other ∈ reps, (lawPrecedence item).getD 0 ≤ (lawPrecedence other).getD 0 := by
  unfold firstByPrecedence
  dsimp only
  rw [List.mem_filter, decide_eq_true_eq]
  refine and_congr_right fun hmem => ?_
  obtain ⟨best, hbest⟩ := exists_minBy (fun item => (lawPrecedence item).getD 0)
    (List.ne_nil_of_mem hmem)
  obtain ⟨hin, hleast⟩ := minBy_spec _ hbest
  obtain ⟨p, hp⟩ := Option.isSome_iff_exists.mp (hall item hmem)
  obtain ⟨q, hq⟩ := Option.isSome_iff_exists.mp (hall best hin)
  rw [hbest, Option.bind_some, hq, hp]
  constructor
  · intro heq other hother
    have hle := hleast other hother
    rw [hq] at hle
    rw [heq]
    exact hle
  · intro hle
    have hbelow := hle best hin
    have habove := hleast item hmem
    rw [hq] at hbelow habove
    rw [hp] at habove
    exact congrArg some (le_antisymm hbelow habove)

omit [Sha256] in
theorem contenders_singleton (item : ContextItem) : contenders [item] = [item] := by
  unfold contenders
  split
  · next hall =>
      have hdeclared : ∀ c ∈ [item], (lawPrecedence c).isSome = true := List.all_eq_true.mp hall
      refine List.filter_eq_self.mpr fun c hc => ?_
      obtain rfl := List.mem_singleton.mp hc
      have hfirst : c ∈ firstByPrecedence [c] := (mem_firstByPrecedence hdeclared).mpr
        ⟨hc, fun other hother => by rw [List.mem_singleton.mp hother]⟩
      exact (List.mem_filter.mp hfirst).2
  · rfl

omit [Sha256] in
/-- A law settles where one contender is strongest. -/
theorem mem_resolveGroup_law {reps : List ContextItem} {item : ContextItem} :
    item ∈ (resolveGroup .applicableLaw reps).items ↔ strongest (contenders reps) = [item] := by
  unfold resolveGroup
  split
  · next other =>
      rw [contenders_singleton, strongest_singleton]
      simp [GroupResolution.settled, eq_comm]
  · next hmany =>
      dsimp only
      unfold resolveLaw contenders
      split
      · next other => exact absurd rfl (hmany other)
      · by_cases hall : (reps.all fun item => (lawPrecedence item).isSome) = true
        · rw [if_pos hall]
          by_cases hnil : reps = []
          · subst hnil
            rw [if_neg fun h => h.1 rfl]
            exact mem_resolveByAuthority
          · rw [if_pos ⟨hnil, hall⟩]
            split
            · next other hone =>
                rw [hone, strongest_singleton]
                simp [GroupResolution.settled, eq_comm]
            · exact mem_resolveByAuthority
        · rw [if_neg hall, if_neg fun h => hall h.2]
          exact mem_resolveByAuthority

/-- The law declares a precedence ahead of the item's. -/
def LawAhead (item n : ContextItem) : Prop :=
  ∃ p q, lawPrecedence item = some p ∧ lawPrecedence n = some q ∧ q < p

/-- The law declares no precedence where the item does, so authority
decides between all laws of their group. -/
def LawUndeclared (item n : ContextItem) : Prop :=
  (lawPrecedence item).isSome = true ∧ lawPrecedence n = none

omit [Sha256] in
/-- A governed law that is alone among weaker ones is their one strongest
contender, unless one of them is ahead of it. -/
theorem strongest_alone {reps : List ContextItem} {item : ContextItem} (hnodup : reps.Nodup)
    (hmem : item ∈ reps) (hgoverned : item.isGoverned = true)
    (halone : ∀ g ∈ reps, g.isGoverned = true → g = item)
    (hbehind : ∀ n ∈ reps, n.isGoverned = false → ¬LawAhead item n) :
    strongest (contenders reps) = [item] := by
  have hcontender : item ∈ contenders reps := by
    unfold contenders
    split
    · next hall =>
        rw [List.all_eq_true] at hall
        refine (mem_firstByPrecedence hall).mpr ⟨hmem, fun other hother => ?_⟩
        cases hstrength : other.isGoverned with
        | true => rw [halone other hother hstrength]
        | false =>
            obtain ⟨p, hp⟩ := Option.isSome_iff_exists.mp (hall item hmem)
            obtain ⟨q, hq⟩ := Option.isSome_iff_exists.mp (hall other hother)
            rw [hp, hq]
            by_contra hlt
            exact hbehind other hother hstrength ⟨p, q, hp, hq, Nat.lt_of_not_le hlt⟩
    · exact hmem
  have hsub : (contenders reps).Sublist reps := by
    unfold contenders
    split
    · exact List.filter_sublist
    · exact List.Sublist.refl reps
  refine eq_singleton_of_all_eq ((hsub.nodup hnodup).filter _)
    (strongest_ne_nil (List.ne_nil_of_mem hcontender)) fun other hother => ?_
  obtain ⟨hother, hle⟩ := mem_strongest.mp hother
  -- what is no weaker than a governed law is governed
  exact halone other (hsub.subset hother)
    (isGoverned_iff_rank.mpr ((hle item hcontender).trans (isGoverned_iff_rank.mp hgoverned)))

omit [Sha256] in
/-- Where no weaker law speaks against a governed contender, the governed
contenders are the same. -/
theorem contenders_governed {reps reps' : List ContextItem} {item : ContextItem}
    (hsame : SameGoverned reps reps') (hgoverned : item.isGoverned = true)
    (hitem : item ∈ contenders reps)
    (hbehind : ∀ n, n ∈ reps ∨ n ∈ reps' → n.isGoverned = false → ∀ p,
      lawPrecedence item = some p → ∃ q, lawPrecedence n = some q ∧ p ≤ q) :
    SameGoverned (contenders reps) (contenders reps') := by
  have hmem : item ∈ reps := by
    unfold contenders at hitem
    split at hitem
    · exact firstByPrecedence_subset reps hitem
    · exact hitem
  have hmem' := (hsame item hgoverned).mp hmem
  -- a weaker law declares a precedence where the contender does
  have hdeclared : ∀ {list list' : List ContextItem}, SameGoverned list list' → item ∈ list →
      (∀ n ∈ list', n.isGoverned = false → ∀ p, lawPrecedence item = some p →
        ∃ q, lawPrecedence n = some q ∧ p ≤ q) →
      (list.all fun c => (lawPrecedence c).isSome) = true →
      (list'.all fun c => (lawPrecedence c).isSome) = true := by
    intro list list' hlist hin hweaker hall
    rw [List.all_eq_true] at hall ⊢
    intro n hn
    cases hstrength : n.isGoverned with
    | true => exact hall n ((hlist n hstrength).mpr hn)
    | false =>
        obtain ⟨p, hp⟩ := Option.isSome_iff_exists.mp (hall item hin)
        obtain ⟨q, hq, -⟩ := hweaker n hn hstrength p hp
        exact Option.isSome_iff_exists.mpr ⟨q, hq⟩
  by_cases hall : (reps.all fun c => (lawPrecedence c).isSome) = true
  · have hall' := hdeclared hsame hmem (fun n hn => hbehind n (.inr hn)) hall
    unfold contenders at hitem ⊢
    rw [if_pos hall] at hitem ⊢
    rw [if_pos hall']
    rw [List.all_eq_true] at hall hall'
    obtain ⟨-, hfirst⟩ := (mem_firstByPrecedence hall).mp hitem
    have hfirst' : ∀ other ∈ reps', (lawPrecedence item).getD 0 ≤ (lawPrecedence other).getD 0 := by
      intro other hother
      cases hstrength : other.isGoverned with
      | true => exact hfirst other ((hsame other hstrength).mpr hother)
      | false =>
          obtain ⟨p, hp⟩ := Option.isSome_iff_exists.mp (hall item hmem)
          obtain ⟨q, hq, hle⟩ := hbehind other (.inr hother) hstrength p hp
          rw [hp, hq]
          exact hle
    -- a law is first where it declares what the contender does
    intro c hc
    rw [mem_firstByPrecedence hall, mem_firstByPrecedence hall', hsame c hc]
    refine and_congr_right fun _ => ⟨fun hle other hother => ?_, fun hle other hother => ?_⟩
    · exact (hle item hmem).trans (hfirst' other hother)
    · exact (hle item hmem').trans (hfirst other hother)
  · have hall' : ¬(reps'.all fun c => (lawPrecedence c).isSome) = true := fun hall' =>
      hall (hdeclared hsame.symm hmem' (fun n hn => hbehind n (.inl hn)) hall')
    unfold contenders
    rw [if_neg hall, if_neg hall']
    exact hsame

/-! ### Revisions and versions -/

omit [Sha256] in
/-- A list without duplicates of what some candidates show is no longer
than one where they all show the same. -/
theorem shown_once_iff {β : Type} {reps : List ContextItem} {shows : ContextItem → Option β}
    {values : List β} (hnodup : values.Nodup)
    (hvalues : ∀ v, v ∈ values ↔ ∃ c ∈ reps, shows c = some v)
    (hsome : ∀ c ∈ reps, ∃ v, shows c = some v) :
    ¬values.length > 1 ↔ ∀ a ∈ reps, ∀ b ∈ reps, shows a = shows b := by
  constructor
  · intro hone a ha b hb
    obtain ⟨v, hv⟩ := hsome a ha
    obtain ⟨w, hw⟩ := hsome b hb
    obtain ⟨i, hi, hvi⟩ := List.mem_iff_getElem.mp ((hvalues v).mpr ⟨a, ha, hv⟩)
    obtain ⟨j, hj, hwj⟩ := List.mem_iff_getElem.mp ((hvalues w).mpr ⟨b, hb, hw⟩)
    have hsame : i = j := by omega
    subst hsame
    rw [hv, hw, ← hvi, ← hwj]
  · intro hagree
    refine Nat.not_lt.mpr (length_le_one_of_all_eq hnodup fun v hv w hw => ?_)
    obtain ⟨a, ha, hav⟩ := (hvalues v).mp hv
    obtain ⟨b, hb, hbw⟩ := (hvalues w).mp hw
    exact Option.some.inj (hav.symm.trans ((hagree a ha b hb).trans hbw))

omit [Sha256] in
/-- A rule that asks for one value before it asks for authority. -/
theorem mem_resolveGroup_agreeing {β : Type} {kind : ContextKind} {reps : List ContextItem}
    {shows : ContextItem → Option β} {values : List β}
    (hnodup : values.Nodup) (hvalues : ∀ v, v ∈ values ↔ ∃ c ∈ reps, shows c = some v)
    (hsome : ∀ c ∈ reps, ∃ v, shows c = some v)
    (hrule : (∀ other, reps ≠ [other]) → ∃ details, resolveGroup kind reps
      = if values.length > 1 then .conflicting details reps else resolveByAuthority reps)
    {item : ContextItem} :
    item ∈ (resolveGroup kind reps).items ↔
      strongest reps = [item] ∧ ∀ c ∈ reps, shows c = shows item := by
  by_cases hmany : ∀ other, reps ≠ [other]
  · obtain ⟨details, hgroup⟩ := hrule hmany
    rw [hgroup]
    split
    · next hvaried =>
        refine iff_of_false List.not_mem_nil fun ⟨_, hagree⟩ => ?_
        exact (shown_once_iff hnodup hvalues hsome).mpr
          (fun a ha b hb => (hagree a ha).trans (hagree b hb).symm) hvaried
    · next hone =>
        rw [mem_resolveByAuthority]
        refine ⟨fun h => ⟨h, fun c hc => ?_⟩, And.left⟩
        have hitem : item ∈ reps := (mem_strongest.mp (h ▸ List.mem_singleton_self item)).1
        exact (shown_once_iff hnodup hvalues hsome).mp hone c hc item hitem
  · push Not at hmany
    obtain ⟨other, rfl⟩ := hmany
    rw [strongest_singleton]
    constructor
    · intro h
      obtain rfl := List.mem_singleton.mp h
      exact ⟨rfl, fun c hc => by rw [List.mem_singleton.mp hc]⟩
    · rintro ⟨h, -⟩
      rw [(List.cons.inj h).1]
      exact List.mem_singleton_self _

omit [Sha256] in
/-- Repository facts settle where they agree on the revision. -/
theorem mem_resolveGroup_state {reps : List ContextItem}
    (hkind : ∀ c ∈ reps, c.contextKind = .repositoryState) {item : ContextItem} :
    item ∈ (resolveGroup .repositoryState reps).items ↔
      strongest reps = [item] ∧ ∀ c ∈ reps, c.revision? = item.revision? := by
  refine mem_resolveGroup_agreeing (nodup_sortedUnique (reps.filterMap ContextItem.revision?))
    (fun v => by rw [mem_sortedUnique, List.mem_filterMap]) (fun c hc => ?_) (fun hmany => ?_)
  · have hc := hkind c hc
    unfold ContextItem.contextKind at hc
    unfold ContextItem.revision?
    cases hclaim : c.claim <;> rw [hclaim] at hc <;> cases hc
    exact ⟨_, rfl⟩
  · unfold resolveGroup
    split
    · next other => exact absurd rfl (hmany other)
    · exact ⟨_, rfl⟩

/-- The version that a dependency fact names. -/
def dependencyVersion (item : ContextItem) : Option (Option String) :=
  item.dependencyContext?.map DependencyContext.versionOrRevision

omit [Sha256] in
/-- Dependency facts settle where they agree on the version. -/
theorem mem_resolveGroup_dependency {reps : List ContextItem}
    (hkind : ∀ c ∈ reps, c.contextKind = .dependencyContext) {item : ContextItem} :
    item ∈ (resolveGroup .dependencyContext reps).items ↔
      strongest reps = [item] ∧ ∀ c ∈ reps, dependencyVersion c = dependencyVersion item := by
  refine mem_resolveGroup_agreeing (nodup_firstSeen
      ((reps.filterMap ContextItem.dependencyContext?).map DependencyContext.versionOrRevision))
    (fun v => ?_) (fun c hc => ?_) (fun hmany => ?_)
  · unfold dependencyVersion
    simp only [mem_firstSeen, List.mem_map, List.mem_filterMap, Option.map_eq_some_iff]
    constructor
    · rintro ⟨d, ⟨c, hc, hd⟩, rfl⟩
      exact ⟨c, hc, d, hd, rfl⟩
    · rintro ⟨c, hc, d, hd, rfl⟩
      exact ⟨d, ⟨c, hc, hd⟩, rfl⟩
  · have hc := hkind c hc
    unfold ContextItem.contextKind at hc
    unfold dependencyVersion ContextItem.dependencyContext?
    cases hclaim : c.claim <;> rw [hclaim] at hc <;> cases hc
    exact ⟨_, rfl⟩
  · unfold resolveGroup
    split
    · next other => exact absurd rfl (hmany other)
    · exact ⟨_, rfl⟩

/-! ## One view beside another -/

/-- What the representatives of the one group show, those of the other
show too, where every weaker candidate shows it or was there before. -/
theorem shown_governed {β : Type} (hsha : Sha256.Injective) (h : PlainCandidates items)
    (h' : PlainCandidates items') (hsame : SameGoverned items items') {item : ContextItem}
    (hkind : isSupersessionKind item.contextKind = false) (shows : ContextItem → β)
    (hclaim : ∀ {a b : ContextItem}, SameClaim a b → a.contextKind = item.contextKind →
      b.contextKind = item.contextKind → shows a = shows b)
    (hweaker : ∀ n ∈ items', n.isGoverned = false → groupKey n = groupKey item →
      n ∈ items ∨ shows n = shows item)
    (hagree : ∀ c ∈ representatives (groupMembers items (groupKey item)), shows c = shows item) :
    ∀ c ∈ representatives (groupMembers items' (groupKey item)), shows c = shows item := by
  intro c hc
  obtain ⟨hleft, hkey⟩ := mem_groupMembers.mp (mem_of_mem_representatives hc)
  have hmem := mem_of_mem_leftOver hleft
  have hsameKind : c.contextKind = item.contextKind := congrArg Prod.fst hkey
  cases hstrength : c.isGoverned with
  | true => exact hagree c ((representatives_governed hsha h h' hsame _ c hstrength).mpr hc)
  | false =>
      rcases hweaker c hmem hstrength hkey with hold | hshown
      · have hmember : c ∈ groupMembers items (groupKey item) :=
          mem_groupMembers.mpr ⟨mem_leftOver_of_kind hold (hsameKind ▸ hkind), hkey⟩
        obtain ⟨rep, hrep, hdigest⟩ := exists_representative hmember
        have hrepKey := (mem_groupMembers.mp (mem_of_mem_representatives hrep)).2
        rw [← hagree rep hrep]
        exact hclaim ((claimDigest_eq_iff hsha).mp hdigest.symm).1 hsameKind
          (congrArg Prod.fst hrepKey)
      · exact hshown

theorem eligible_governed (hsha : Sha256.Injective) (h : PlainCandidates items)
    (h' : PlainCandidates items') (hsame : SameGoverned items items') {item : ContextItem}
    (hgoverned : item.isGoverned = true)
    (hahead : ∀ n, n ∈ items ∨ n ∈ items' → n.isGoverned = false → groupKey n = groupKey item →
      ¬LawAhead item n)
    (hrival : ∀ n, n ∈ items ∨ n ∈ items' → n.isGoverned = false → groupKey n = groupKey item →
      LawUndeclared item n → ∀ g ∈ items', g.isGoverned = true → groupKey g = groupKey item →
        g.itemId = item.itemId)
    (hstate : ∀ n ∈ items', n.isGoverned = false → groupKey n = groupKey item →
      n.contextKind = .repositoryState → n ∈ items ∨ n.revision? = item.revision?)
    (hdependency : ∀ n ∈ items', n.isGoverned = false → groupKey n = groupKey item →
      n.contextKind = .dependencyContext →
        n ∈ items ∨ dependencyVersion n = dependencyVersion item)
    (hitem : item ∈ eligibleItems (resolveCandidates items)) :
    item ∈ eligibleItems (resolveCandidates items') := by
  rw [mem_eligible_iff] at hitem ⊢
  have hreps := representatives_governed hsha h h' hsame (groupKey item)
  have hnodup := nodup_representatives (groupMembers items' (groupKey item))
  have hkinds : ∀ {list : List ContextItem}, ∀ c ∈ representatives (groupMembers list
      (groupKey item)), c.contextKind = item.contextKind := fun c hc =>
    congrArg Prod.fst (mem_groupMembers.mp (mem_of_mem_representatives hc)).2
  have hauthority : decidedByAuthority item.contextKind = true →
      item ∈ (resolveGroup item.contextKind
        (representatives (groupMembers items' (groupKey item)))).items := by
    intro hkind
    rw [mem_resolveGroup_authority hkind] at hitem ⊢
    exact strongest_governed hnodup hreps hgoverned hitem
  cases hkind : item.contextKind with
  | evidenceRef =>
      rw [hkind, mem_resolveGroup_all (.inl rfl)] at hitem
      rw [mem_resolveGroup_all (.inl rfl)]
      exact (hreps item hgoverned).mp hitem
  | memoryContext =>
      rw [hkind, mem_resolveGroup_all (.inr rfl)] at hitem
      rw [mem_resolveGroup_all (.inr rfl)]
      exact (hreps item hgoverned).mp hitem
  | applicableLaw =>
      rw [hkind, mem_resolveGroup_law] at hitem
      rw [mem_resolveGroup_law]
      have hcontender : item ∈ contenders (representatives (groupMembers items (groupKey item))) :=
        (mem_strongest.mp (hitem ▸ List.mem_singleton_self item)).1
      have hrep : item ∈ representatives (groupMembers items (groupKey item)) := by
        unfold contenders at hcontender
        split at hcontender
        · exact firstByPrecedence_subset _ hcontender
        · exact hcontender
      have hmembers : ∀ {list : List ContextItem} {n : ContextItem},
          n ∈ representatives (groupMembers list (groupKey item)) →
            n ∈ list ∧ groupKey n = groupKey item := fun hn =>
        ⟨mem_of_mem_leftOver (mem_groupMembers.mp (mem_of_mem_representatives hn)).1,
          (mem_groupMembers.mp (mem_of_mem_representatives hn)).2⟩
      by_cases hdeclared : ∃ n, (n ∈ items ∨ n ∈ items') ∧ n.isGoverned = false
          ∧ groupKey n = groupKey item ∧ LawUndeclared item n
      · -- authority may decide, and no other governed law stands beside the item
        obtain ⟨n, hn, hweaker, hkey, hundeclared⟩ := hdeclared
        have hmem' := (hsame item hgoverned).mp (hmembers hrep).1
        refine strongest_alone hnodup ((hreps item hgoverned).mp hrep) hgoverned
          (fun g hg hstrong => ?_) fun n hn hweaker => ?_
        · exact h'.eq_of_id hsha (hmembers hg).1 hmem'
            (hrival n hn hweaker hkey hundeclared g (hmembers hg).1 hstrong (hmembers hg).2)
        · exact hahead n (.inr (hmembers hn).1) hweaker (hmembers hn).2
      · refine strongest_governed ?_ (contenders_governed hreps hgoverned hcontender ?_) hgoverned
          hitem
        · unfold contenders
          split
          · exact hnodup.filter _
          · exact hnodup
        · intro n hn hweaker p hp
          have hin : n ∈ items ∨ n ∈ items' :=
            hn.imp (fun hn => (hmembers hn).1) fun hn => (hmembers hn).1
          have hkey : groupKey n = groupKey item := by
            rcases hn with hn | hn <;> exact (hmembers hn).2
          cases hq : lawPrecedence n with
          | none => exact absurd ⟨n, hin, hweaker, hkey, by rw [hp]; rfl, hq⟩ hdeclared
          | some q =>
              refine ⟨q, rfl, Nat.le_of_not_lt fun hlt => ?_⟩
              exact hahead n hin hweaker hkey ⟨p, q, hp, hq, hlt⟩
  | repositoryState =>
      rw [hkind, mem_resolveGroup_state fun c hc => (hkinds c hc).trans hkind] at hitem
      rw [mem_resolveGroup_state fun c hc => (hkinds c hc).trans hkind]
      refine ⟨strongest_governed hnodup hreps hgoverned hitem.1,
        shown_governed hsha h h' hsame (by rw [hkind]; rfl) ContextItem.revision? ?_ ?_ hitem.2⟩
      · intro a b hclaim ha hb
        exact hclaim.revision (ha.trans hkind) (hb.trans hkind)
      · exact fun n hn hweaker hkey =>
          hstate n hn hweaker hkey ((congrArg Prod.fst hkey).trans hkind)
  | dependencyContext =>
      rw [hkind, mem_resolveGroup_dependency fun c hc => (hkinds c hc).trans hkind] at hitem
      rw [mem_resolveGroup_dependency fun c hc => (hkinds c hc).trans hkind]
      refine ⟨strongest_governed hnodup hreps hgoverned hitem.1,
        shown_governed hsha h h' hsame (by rw [hkind]; rfl) dependencyVersion ?_ ?_ hitem.2⟩
      · intro a b hclaim ha hb
        exact hclaim.version (ha.trans hkind) (hb.trans hkind)
      · exact fun n hn hweaker hkey =>
          hdependency n hn hweaker hkey ((congrArg Prod.fst hkey).trans hkind)
  | relevantEntity => exact hkind ▸ hauthority (by rw [hkind]; rfl)
  | architectureConstraint => exact hkind ▸ hauthority (by rw [hkind]; rfl)
  | priorDecision => exact hkind ▸ hauthority (by rw [hkind]; rfl)
  | capabilityFact => exact hkind ▸ hauthority (by rw [hkind]; rfl)
  | authorityFact => exact hkind ▸ hauthority (by rw [hkind]; rfl)

end Governed

/-! ## What the requirements of a plan match -/

section Planned

variable {scope : TaskScope} {discovery : DiscoveryContext} {activation : ActivationPlan}
  {kernels : List KernelBinding} {plan : ContextRequirementPlan}

/-- A requirement of the planner: bound to the snapshot, and in the
governing scope of its kind where it has one. -/
structure ContextRequirement.InGoverningScope (scope : TaskScope) (r : ContextRequirement) :
    Prop where
  freshness : r.freshnessRequirement = .snapshotBound
  mode : isScopedKind r.contextKind = true →
    r.scopeMode = if scope.eligibleRefs ≠ [] then .scoped else .global
  refs : isScopedKind r.contextKind = true →
    r.scopeRefs = sortedUnique (if scope.eligibleRefs ≠ [] then scope.eligibleRefs else [])

/-- The references a baseline kind is planned under. -/
theorem baselineSpecs_scopeRefs {scopedRefs : List String} {architectureRequired : Bool} :
    ∀ spec ∈ baselineSpecs scopedRefs architectureRequired,
      spec.scopeRefs = if scopedRefs ≠ [] ∧ isScopedKind spec.kind then scopedRefs else [] := by
  intro spec hspec
  simp only [baselineSpecs, List.mem_cons, List.not_mem_nil, or_false] at hspec
  rcases hspec with rfl | rfl | rfl | rfl | rfl | rfl | rfl | rfl | rfl | rfl <;> rfl

theorem inGoverningScope_of_mem [Sha256]
    (hplan : planRequirements scope discovery activation kernels = .ok plan)
    {r : ContextRequirement} (hr : r ∈ plan.requirements) : r.InGoverningScope scope := by
  obtain ⟨spec, hspec, rfl⟩ := exists_spec_of_mem hplan hr
  rcases List.mem_append.mp hspec with hspec | hspec
  · refine ⟨rfl, fun hkind => ?_, fun hkind => ?_⟩ <;>
      have hscoped : isScopedKind spec.kind = true := hkind
    · show spec.scopeMode = _
      rw [baselineSpecs_scope spec hspec]
      simp [hscoped]
    · show sortedUnique spec.scopeRefs = _
      rw [baselineSpecs_scopeRefs spec hspec]
      simp [hscoped]
  · obtain ⟨need, refs, -, -, rfl⟩ := mem_kernelNeedSpecs hspec
    have hmemory : isScopedKind need.contextKind = true → need.contextKind ≠ .memoryContext := by
      rintro hscoped hkind
      rw [hkind] at hscoped
      cases hscoped
    refine ⟨rfl, fun hkind => ?_, fun hkind => ?_⟩
    · show (if _ then _ else _) = _
      simp [hmemory hkind]
    · show sortedUnique (if _ then _ else _) = _
      simp [hmemory hkind]

/-- Requirements of one kind match a governed candidate alike, where both
are open to it. -/
theorem matchesRequirement_governed {r : ContextRequirement} (hr : r.InGoverningScope scope)
    (hopen : AuthorityLevel.governedVerified.rank ≤ r.minimumAuthority.rank) {c : ContextItem}
    (hc : c.isGoverned = true) :
    matchesRequirement r c
      = (decide (c.contextKind = r.contextKind) && scopeMatches r c) := by
  have hrank : decide (c.authorityRank ≤ r.minimumAuthority.rank) = true :=
    decide_eq_true ((AuthorityLevel.isGoverned_iff.mp hc).trans hopen)
  unfold matchesRequirement freshnessMatches
  rw [hr.freshness, hrank, hc]
  simp

theorem scopeMatches_kind {r b : ContextRequirement} (hr : r.InGoverningScope scope)
    (hb : b.InGoverningScope scope) (hkind : b.contextKind = r.contextKind)
    (hscoped : isScopedKind r.contextKind = true) (c : ContextItem) :
    scopeMatches r c = scopeMatches b c := by
  unfold scopeMatches
  rw [hr.mode hscoped, hr.refs hscoped, hb.mode (hkind ▸ hscoped), hb.refs (hkind ▸ hscoped), hkind]

/-- What the planner itself asks for in a kind with a governing scope:
everything eligible, down to informative authority but for repository
facts, and authorities, which are governed. -/
structure BaselineFor (plan : ContextRequirementPlan) (kind : ContextKind)
    (b : ContextRequirement) : Prop where
  planned : b ∈ plan.requirements
  kind_eq : b.contextKind = kind
  coverage : b.coverageMode = .allEligible
  floor : b.minimumAuthority
    = if kind = .repositoryState ∨ kind = .authorityFact then .governedVerified else .informative

theorem exists_baseline [Sha256]
    (hplan : planRequirements scope discovery activation kernels = .ok plan) {kind : ContextKind}
    (hkind : isScopedKind kind = true) : ∃ b, BaselineFor plan kind b := by
  have hspec : ∃ spec ∈ baselineSpecs scope.eligibleRefs (activation.architectureMateriality.required
      && !discovery.architectureSignalRefs.isEmpty), spec.kind = kind
        ∧ spec.coverageMode = .allEligible ∧ spec.minimumAuthority
          = if kind = .repositoryState ∨ kind = .authorityFact then .governedVerified
            else .informative := by
    generalize (activation.architectureMateriality.required
      && !discovery.architectureSignalRefs.isEmpty) = required
    have hlength : (baselineSpecs scope.eligibleRefs required).length = 10 := rfl
    have hnth : ∀ i (h : i < 10), (baselineSpecs scope.eligibleRefs required).get ⟨i, hlength ▸ h⟩
        ∈ baselineSpecs scope.eligibleRefs required := fun _ _ => List.get_mem ..
    cases kind with
    | architectureConstraint => exact ⟨_, hnth 0 (by decide), rfl, rfl, rfl⟩
    | applicableLaw => exact ⟨_, hnth 1 (by decide), rfl, rfl, rfl⟩
    | repositoryState => exact ⟨_, hnth 2 (by decide), rfl, rfl, rfl⟩
    | relevantEntity => exact ⟨_, hnth 3 (by decide), rfl, rfl, rfl⟩
    | dependencyContext => exact ⟨_, hnth 4 (by decide), rfl, rfl, rfl⟩
    | priorDecision => exact ⟨_, hnth 5 (by decide), rfl, rfl, rfl⟩
    | authorityFact => exact ⟨_, hnth 7 (by decide), rfl, rfl, rfl⟩
    | evidenceRef => cases hkind
    | memoryContext => cases hkind
    | capabilityFact => cases hkind
  obtain ⟨spec, hspec, rfl, hcoverage, hfloor⟩ := hspec
  exact ⟨spec.draft.canonical, ((planRequirements_eq_ok hplan).1 _).mpr
    (List.mem_map.mpr ⟨spec, List.mem_append_left _ hspec, rfl⟩), rfl, hcoverage, hfloor⟩

end Planned

/-! ## One requirement over both snapshots -/

section Frontier

variable [Sha256] {scope : TaskScope} {candidates candidates' : List ContextItem}
  {r : ContextRequirement}

/-- A requirement that only governed candidates match asks for the same
over both. -/
theorem frontier_of_governed (hsha : Sha256.Injective) (h : PlainCandidates candidates)
    (h' : PlainCandidates candidates') (hsame : SameGoverned candidates candidates')
    (hgoverned : ∀ c, matchesRequirement r c = true → c.isGoverned = true) :
    selectionFrontier ⟨candidates⟩ r = selectionFrontier ⟨candidates'⟩ r := by
  have hview : Reordered (candidates.filter (matchesRequirement r))
      (candidates'.filter (matchesRequirement r)) :=
    { valid := (h.filter _).valid
      unselected := (h.filter _).unselected
      same := fun c => by
        rw [List.mem_filter, List.mem_filter]
        exact and_congr_left fun hmatch => hsame c (hgoverned c hmatch)
      sorted := (h.filter _).sorted
      sorted' := (h'.filter _).sorted }
  obtain ⟨hgroups, -⟩ := hview.resolve_reordered hsha (hview.kindsReadAlike hsha (h.filter _).oneRank)
  unfold selectionFrontier eligibleItems requirementView SnapshotResolution.resolve
  rw [hgroups]

/-- Evidence that a requirement asks for over the one it asks for over
the other: nothing weaker goes before it. -/
theorem frontier_of_evidence (hsha : Sha256.Injective) (h : PlainCandidates candidates)
    (h' : PlainCandidates candidates') (hsame : SameGoverned candidates candidates')
    (hkind : r.contextKind = .evidenceRef) {item : ContextItem} (hgoverned : item.isGoverned = true)
    (hitem : item ∈ selectionFrontier ⟨candidates⟩ r) :
    item ∈ selectionFrontier ⟨candidates'⟩ r := by
  have hmatched : ∀ {list : List ContextItem}, ∀ c ∈ eligibleItems (requirementView ⟨list⟩ r),
      c.contextKind = .evidenceRef ∧ c.scopeMode = r.scopeMode := by
    intro list c hc
    obtain ⟨-, hmatch⟩ := eligible_matches hc
    refine ⟨(matches_kind hmatch).trans hkind, ?_⟩
    unfold matchesRequirement at hmatch
    simp only [Bool.and_eq_true] at hmatch
    have hscope := hmatch.1.2
    unfold scopeMatches at hscope
    rw [hkind] at hscope
    cases hmode : r.scopeMode <;> cases hmode' : c.scopeMode <;> rw [hmode, hmode'] at hscope <;>
      first | rfl | cases hscope
  -- no rule of evidence reads more than the governed candidates
  have hkept : ∀ {list list' : List ContextItem}, PlainCandidates list → PlainCandidates list' →
      SameGoverned list list' → ∀ c, c.isGoverned = true →
        c ∈ eligibleItems (requirementView ⟨list⟩ r) →
        c ∈ eligibleItems (requirementView ⟨list'⟩ r) := by
    intro list list' hlist hlist' hsame c hc hmem
    have hother : ∀ n : ContextItem, groupKey n = groupKey c → n.contextKind = .evidenceRef :=
      fun n hkey => (congrArg Prod.fst hkey).trans (hmatched c hmem).1
    have hnone : lawPrecedence c = none := by
      have hkind := (hmatched c hmem).1
      unfold ContextItem.contextKind at hkind
      unfold lawPrecedence ContextItem.applicableLaw?
      cases hclaim : c.claim <;> rw [hclaim] at hkind <;> cases hkind
      rfl
    refine eligible_governed hsha (hlist.filter _) (hlist'.filter _)
      (hsame.filter fun _ _ _ => rfl) hc (fun n _ _ _ => ?_) (fun n _ _ _ hundeclared => ?_)
      (fun n _ _ hkey hstate => ?_) (fun n _ _ hkey hdependency => ?_) hmem
    · rintro ⟨p, -, hp, -⟩
      rw [hnone] at hp
      cases hp
    · obtain ⟨hdeclared, -⟩ := hundeclared
      rw [hnone] at hdeclared
      cases hdeclared
    · rw [hother n hkey] at hstate
      cases hstate
    · rw [hother n hkey] at hdependency
      cases hdependency
  have helig : item ∈ eligibleItems (requirementView ⟨candidates⟩ r) :=
    frontierFrom_sublist.subset hitem
  have helig' := hkept h h' hsame item hgoverned helig
  unfold selectionFrontier at hitem ⊢
  cases hmode : r.coverageMode with
  | allEligible =>
      rw [frontierFrom_allEligible hmode]
      exact helig'
  | semanticKeys =>
      rw [frontierFrom_semanticKeys hmode] at hitem ⊢
      exact List.mem_filter.mpr ⟨helig', (List.mem_filter.mp hitem).2⟩
  | minimum =>
      rw [frontierFrom_minimum hmode] at hitem ⊢
      refine mem_take_of_below candidateSortKey (pairwise_sortedBy candidateSortKey _)
        (pairwise_sortedBy candidateSortKey _) (nodup_eligibleItems _) ?_ helig' ?_ hitem
      · intro a ha b hb hkey
        have hid : a.itemId = b.itemId := congrArg (fun k => (ofLex (ofLex (ofLex k).2).2).2) hkey
        exact h.eq_of_id hsha (eligible_matches ha).1 (eligible_matches hb).1 hid
      · intro c hc hle
        refine hkept h' h hsame.symm c ?_ hc
        unfold candidateSortKey at hle
        rw [(hmatched c hc).2, (hmatched item helig).2] at hle
        rcases Prod.Lex.toLex_le_toLex.mp hle with hlt | ⟨-, hle⟩
        · exact absurd hlt (lt_irrefl _)
        · have hrank : c.authorityRank ≤ item.authorityRank := by
            rcases Prod.Lex.toLex_le_toLex.mp hle with hlt | ⟨heq, -⟩
            · exact hlt.le
            · exact heq.le
          exact isGoverned_iff_rank.mpr (hrank.trans (isGoverned_iff_rank.mp hgoverned))

/-- What is asked for over the one list is asked for, in its kind, over
the other, where no weaker law is ahead of it and no added dependency
fact names another version. -/
theorem exists_frontier (hsha : Sha256.Injective) {discovery : DiscoveryContext}
    {activation : ActivationPlan} {kernels : List KernelBinding} {plan : ContextRequirementPlan}
    (hplan : planRequirements scope discovery activation kernels = .ok plan)
    (h : PlainCandidates candidates) (h' : PlainCandidates candidates')
    (hsame : SameGoverned candidates candidates') (hsub : ∀ c ∈ candidates, c ∈ candidates')
    (hr : r ∈ plan.requirements) {item : ContextItem} (hgoverned : item.isGoverned = true)
    (hitem : item ∈ selectionFrontier ⟨candidates⟩ r)
    (hahead : ∀ n ∈ candidates', n.isGoverned = false → groupKey n = groupKey item →
      ¬LawAhead item n)
    (hrival : ∀ n ∈ candidates', n.isGoverned = false → groupKey n = groupKey item →
      LawUndeclared item n → ∀ g ∈ candidates', g.isGoverned = true →
        groupKey g = groupKey item → g.itemId = item.itemId)
    (hversion : ∀ n ∈ candidates', n ∉ candidates → n.contextKind = .dependencyContext →
      groupKey n = groupKey item → dependencyVersion n = dependencyVersion item) :
    ∃ b ∈ plan.requirements, b.contextKind = item.contextKind
      ∧ item ∈ selectionFrontier ⟨candidates'⟩ b := by
  have helig : item ∈ eligibleItems (requirementView ⟨candidates⟩ r) :=
    frontierFrom_sublist.subset hitem
  obtain ⟨hcandidate, hmatch⟩ := eligible_matches helig
  have hkind : r.contextKind = item.contextKind := (matches_kind hmatch).symm
  by_cases hclosed : ∀ c, matchesRequirement r c = true → c.isGoverned = true
  · exact ⟨r, hr, hkind, frontier_of_governed hsha h h' hsame hclosed ▸ hitem⟩
  by_cases hevidence : r.contextKind = .evidenceRef
  · exact ⟨r, hr, hkind, frontier_of_evidence hsha h h' hsame hevidence hgoverned hitem⟩
  -- the requirement is open to weaker candidates, and so is the planner's own
  push Not at hclosed
  obtain ⟨weaker, hweaker, hweak⟩ := hclosed
  have hmatchRank : ∀ {q : ContextRequirement} {c : ContextItem}, matchesRequirement q c = true →
      c.authorityRank ≤ q.minimumAuthority.rank ∧ scopeMatches q c = true := by
    intro q c hq
    unfold matchesRequirement at hq
    simp only [Bool.and_eq_true, decide_eq_true_eq] at hq
    exact ⟨hq.1.1.1.2, hq.1.2⟩
  have hfloor : AuthorityLevel.informative.rank ≤ r.minimumAuthority.rank := by
    have hrank : ¬weaker.authorityRank ≤ 1 := fun hle => hweak (isGoverned_iff_rank.mpr hle)
    exact (Nat.lt_of_not_le hrank).trans_le (hmatchRank hweaker).1
  have hscoped : isScopedKind r.contextKind = true := by
    have hopen : r.contextKind.isGovernedOnly ≠ true := fun honly =>
      hweak (matches_governed hweaker ((matches_kind hweaker).symm ▸ honly))
    have hmemory : r.contextKind ≠ .memoryContext := by
      intro hmemory
      have hceiling := (h.valid item hcandidate).memory_ceiling (hkind.symm.trans hmemory)
      rw [hgoverned] at hceiling
      cases hceiling
    cases hcase : r.contextKind <;> rw [hcase] at hopen hmemory hevidence <;>
      first | rfl | exact absurd rfl hmemory | exact absurd rfl hevidence | exact absurd rfl hopen
  obtain ⟨b, hb⟩ := exists_baseline hplan hscoped
  have hrScope := inGoverningScope_of_mem hplan hr
  have hbScope := inGoverningScope_of_mem hplan hb.planned
  have hsameScope := scopeMatches_kind hrScope hbScope hb.kind_eq hscoped
  have hbFloor : AuthorityLevel.governedVerified.rank ≤ b.minimumAuthority.rank := by
    rw [hb.floor]
    split <;> decide
  refine ⟨b, hb.planned, hb.kind_eq.trans hkind, ?_⟩
  have hmatched : ∀ n, n ∈ candidates.filter (matchesRequirement r)
      ∨ n ∈ candidates'.filter (matchesRequirement b) → n ∈ candidates' := by
    rintro n (hn | hn)
    · exact hsub n (List.mem_filter.mp hn).1
    · exact (List.mem_filter.mp hn).1
  unfold selectionFrontier
  rw [frontierFrom_allEligible hb.coverage]
  refine eligible_governed hsha (h.filter _) (h'.filter _) (hsame.filter fun c hc _ => ?_) hgoverned
    (fun n hn hweak hkey => hahead n (hmatched n hn) hweak hkey)
    (fun n hn hweak hkey hundeclared g hg => hrival n (hmatched n hn) hweak hkey hundeclared g
      (List.mem_filter.mp hg).1)
    (fun n hn hweak _ hstate => ?_) (fun n hn _ hkey hdependency => ?_) helig
  · rw [matchesRequirement_governed hrScope ((show 1 ≤ 2 by decide).trans hfloor) hc,
      matchesRequirement_governed hbScope hbFloor hc, hb.kind_eq, hsameScope]
  · -- the planner asks for governed repository facts only
    have hmatch' := (List.mem_filter.mp hn).2
    have hrank := (hmatchRank hmatch').1
    have hkind' : r.contextKind = .repositoryState :=
      hb.kind_eq.symm.trans ((matches_kind hmatch').symm.trans hstate)
    rw [hb.floor, if_pos (.inl hkind')] at hrank
    rw [isGoverned_iff_rank.mpr hrank] at hweak
    cases hweak
  · obtain ⟨hn', hmatch'⟩ := List.mem_filter.mp hn
    by_cases hold : n ∈ candidates
    · have hnKind : n.contextKind = r.contextKind := (matches_kind hmatch').trans hb.kind_eq
      obtain ⟨hrank, hscope⟩ := hmatchRank hmatch'
      have hrank' : n.authorityRank ≤ r.minimumAuthority.rank := by
        refine hrank.trans (le_trans ?_ hfloor)
        rw [hb.floor]
        split <;> decide
      refine .inl (List.mem_filter.mpr ⟨hold, ?_⟩)
      unfold matchesRequirement freshnessMatches
      rw [hrScope.freshness, decide_eq_true hnKind, decide_eq_true hrank', hsameScope, hscope,
        hdependency]
      rfl
    · exact .inr (hversion n hn' hold hdependency hkey)

/-! ## What a bound leaves out -/

/-- Something that the requirement asks for is not selected for it. -/
def CutShort (resolution : SnapshotResolution) (context : CompiledTaskContext)
    (r : ContextRequirement) : Prop :=
  ∃ item ∈ selectionFrontier resolution r, item.itemId ∉ boundIds context r

/-- Under an ample budget no requirement is cut short. -/
theorem FinishedRun.not_cutShort {inputs : CompileInputs} {selection : Selection}
    {unknowns : List ContextUnknown} (hrun : FinishedRun inputs selection unknowns)
    (hample : AmpleBudget inputs) (hr : r ∈ inputs.requirementPlan.requirements) :
    ¬CutShort inputs.resolution (assembleContext inputs unknowns selection.selected) r := by
  rintro ⟨item, hitem, hunbound⟩
  obtain ⟨before, taken, rest, stop, short, hat⟩ := exists_runAt hrun.select hrun.ids_nodup hr
  rw [hat.unstopped hrun hample hr] at hitem
  exact hunbound ((hat.mem_boundIds hrun.select).mpr (List.mem_map_of_mem hitem))

/-! ## Two snapshots under one plan -/

/-- The second snapshot holds the candidates of the first, and beside them
none of governed authority. -/
structure WeakerAdded (s s' : SnapshotBuckets) : Prop where
  kept : ∀ c ∈ s.allItems, c ∈ s'.allItems
  weaker : ∀ c ∈ s'.allItems, c ∉ s.allItems → c.isGoverned = false

/-- An id of the snapshot stands for one authority level, and is no
claim's domain id. -/
structure ReadOneWay (s : SnapshotBuckets) : Prop where
  oneRank : ∀ a ∈ s.allItems, ∀ b ∈ s.allItems, a.itemId = b.itemId →
    a.authorityRank = b.authorityRank
  apart : ∀ a ∈ s.allItems, ∀ b ∈ s.allItems, a.itemId ≠ domainId b

theorem ReadOneWay.plain {s : ContextSnapshot} (h : ReadOneWay s.toSnapshotBuckets) :
    PlainCandidates (resolveSnapshot s.toSnapshotBuckets).candidates where
  valid c hc := s.valid c ((mem_sortedBy _).mp hc)
  unselected c hc := s.unselected c ((mem_sortedBy _).mp hc)
  sorted := pairwise_sortedBy _ _
  oneRank a ha b hb := h.oneRank a ((mem_sortedBy _).mp ha) b ((mem_sortedBy _).mp hb)
  apart a ha b hb := h.apart a ((mem_sortedBy _).mp ha) b ((mem_sortedBy _).mp hb)

omit [Sha256] in
theorem WeakerAdded.readOneWay {s s' : SnapshotBuckets} (h : WeakerAdded s s')
    (hread : ReadOneWay s') : ReadOneWay s where
  oneRank a ha b hb := hread.oneRank a (h.kept a ha) b (h.kept b hb)
  apart a ha b hb := hread.apart a (h.kept a ha) b (h.kept b hb)

/-- A governed item that is selected over a snapshot is selected under
the same plan over the snapshot with weaker candidates, unless a weaker
law of its key is ahead in precedence, an added dependency fact of its
key names another version, or a bound cuts a requirement of its kind
short. -/
theorem governed_undisplaced (hsha : Sha256.Injective) (intent : IntentContract)
    (scope : TaskScope) (discovery : DiscoveryContext) (activation : ActivationPlan)
    (kernels : List KernelBinding) (plan : ContextRequirementPlan) (s s' : ContextSnapshot)
    (context context' : CompiledTaskContext)
    (hplan : planRequirements scope discovery activation kernels = .ok plan)
    (hadded : WeakerAdded s.toSnapshotBuckets s'.toSnapshotBuckets)
    (hread : ReadOneWay s'.toSnapshotBuckets)
    (hcompile : compileContext (inputsOver intent scope activation kernels plan s) = .ok context)
    (hcompile' : compileContext (inputsOver intent scope activation kernels plan s')
      = .ok context') :
    ∀ item ∈ context.selectedItems, item.isGoverned = true →
      (∀ n ∈ s'.allItems, n.isGoverned = false → groupKey n = groupKey item →
        ¬LawAhead item n) →
      (∀ n ∈ s'.allItems, n.isGoverned = false → groupKey n = groupKey item →
        LawUndeclared item n → ∀ g ∈ s'.allItems, g.isGoverned = true →
          groupKey g = groupKey item → g.itemId = item.itemId) →
      (∀ n ∈ s'.allItems, n ∉ s.allItems → n.contextKind = .dependencyContext →
        groupKey n = groupKey item → dependencyVersion n = dependencyVersion item) →
      (∀ r ∈ plan.requirements, r.contextKind = item.contextKind →
        ¬CutShort (resolveSnapshot s'.toSnapshotBuckets) context' r) →
      ∃ item' ∈ context'.selectedItems, item'.itemId = item.itemId
        ∧ item'.authorityLevel = item.authorityLevel := by
  intro item hitem hgoverned hahead hrival hversion hbounds
  have hplain' := hread.plain
  have hplain := (hadded.readOneWay hread).plain
  have hmem : ∀ {c : ContextItem} {s : ContextSnapshot},
      c ∈ (resolveSnapshot s.toSnapshotBuckets).candidates ↔ c ∈ s.allItems := mem_sortedBy _
  have hsub : ∀ c ∈ (resolveSnapshot s.toSnapshotBuckets).candidates,
      c ∈ (resolveSnapshot s'.toSnapshotBuckets).candidates := fun c hc =>
    hmem.mpr (hadded.kept c (hmem.mp hc))
  have hsame : SameGoverned (resolveSnapshot s.toSnapshotBuckets).candidates
      (resolveSnapshot s'.toSnapshotBuckets).candidates := by
    refine fun c hc => ⟨hsub c, fun hc' => ?_⟩
    by_contra hnone
    have hweaker := hadded.weaker c (hmem.mp hc') fun hold => hnone (hmem.mpr hold)
    rw [hc] at hweaker
    cases hweaker
  obtain ⟨selection, unknowns, hselect, rfl⟩ := compileContext_ok hcompile
  obtain ⟨selection', unknowns', hselect', rfl⟩ := compileContext_ok hcompile'
  -- the selected item is a candidate that some requirement asks for
  obtain ⟨c, hc, -, -, -, hfrom⟩ := selected_matches hselect (mem_assembled_items.mp hitem)
  obtain ⟨r, hr, other, hother, hid⟩ := exists_selected_frontier hselect
    (planRequirements_eq_ok hplan).2.1.ids_nodup hitem
  have hcandidate := (eligible_matches (frontierFrom_sublist.subset hother)).1
  have hidc : other.itemId = c.itemId := by
    rw [hid, hfrom]
    rfl
  obtain rfl : other = c := hplain.eq_of_id hsha hcandidate hc hidc
  rw [hfrom] at hgoverned hahead hrival hversion hbounds
  have hstrong : other.isGoverned = true := hgoverned
  obtain ⟨b, hb, hkind, hfrontier⟩ := exists_frontier hsha hplan hplain hplain' hsame hsub hr
    hstrong hother (fun n hn hweak hkey => hahead n (hmem.mp hn) hweak hkey)
    (fun n hn hweak hkey hundeclared g hg =>
      hrival n (hmem.mp hn) hweak hkey hundeclared g (hmem.mp hg))
    fun n hn hnew hdependency hkey => hversion n (hmem.mp hn)
      (fun hold => hnew (hmem.mpr hold)) hdependency hkey
  -- no bound leaves it out, so it is selected for the requirement
  have hbound : other.itemId ∈ boundIds (assembleContext (inputsOver intent scope activation kernels
      plan s') unknowns' selection'.selected) b := by
    by_contra hnone
    exact hbounds b hb hkind ⟨other, hfrontier, hnone⟩
  obtain ⟨item', hitem', hid'⟩ := List.mem_map.mp hbound
  obtain ⟨hselected', -⟩ := mem_boundItems.mp hitem'
  obtain ⟨c', hc', -, -, -, hfrom'⟩ := selected_matches hselect' (mem_assembled_items.mp hselected')
  refine ⟨item', hselected', hid'.trans hid, ?_⟩
  have hidc' : c'.itemId = other.itemId := by
    rw [← hid', hfrom']
    rfl
  obtain rfl : c' = other := hplain'.eq_of_id hsha hc' (hsub _ hcandidate) hidc'
  rw [hfrom', hfrom]
  rfl

end Frontier

/-! ## A law with a weaker restatement -/

section Rotation

attribute [local instance] Sha256.transparent

/-- The law on keys, stated at an authority and under a precedence. -/
def rotationLaw (level : AuthorityLevel) (precedence : Nat) : ContextItem :=
  .create level
    { sourceId := "handbook", sourceKind := "document", locator := "handbook"
      immutableCoordinate := some "3f2a", contentDigest := none }
    .global []
    (.applicableLaw
      { lawId := "ROTATION", statement := "rotate the keys", appliesBecause := []
        precedence := some precedence, supersedesRefs := [] })

theorem rotationLaw_rank (level : AuthorityLevel) (precedence : Nat) :
    (rotationLaw level precedence).authorityRank = level.rank :=
  rfl

/-- The governed law, and informative ones under the given precedences. -/
def rotationLaws (weaker : List Nat) : List ContextItem :=
  rotationLaw .governedAuthoritative 2 :: weaker.map (rotationLaw .informative)

theorem mem_rotationLaws {weaker : List Nat} {law : ContextItem} :
    law ∈ rotationLaws weaker ↔ law = rotationLaw .governedAuthoritative 2
      ∨ ∃ p ∈ weaker, law = rotationLaw .informative p := by
  unfold rotationLaws
  rw [List.mem_cons, List.mem_map]
  simp only [eq_comm]

theorem rotationLaw_valid (level : AuthorityLevel) (precedence : Nat) :
    (rotationLaw level precedence).Valid :=
  have hkey : isBlank "ROTATION" = false := by decide
  ContextItem.create_valid (by decide) hkey (by decide) trivial (fun _ => rfl)
    (fun h => by cases h)

theorem rotationLaws_valid (weaker : List Nat) : ∀ law ∈ rotationLaws weaker, law.Valid
    ∧ law.contextKind = .applicableLaw ∧ law.selectedBecause = [] := by
  intro law hlaw
  rcases mem_rotationLaws.mp hlaw with rfl | ⟨p, -, rfl⟩
  · exact ⟨rotationLaw_valid _ _, rfl, rfl⟩
  · exact ⟨rotationLaw_valid _ _, rfl, rfl⟩

def rotationSnapshot (weaker : List Nat) : ContextSnapshot :=
  lawSnapshot (rotationLaws weaker) (rotationLaws_valid weaker)

theorem mem_rotation_items {weaker : List Nat} {law : ContextItem} :
    law ∈ (rotationSnapshot weaker).allItems ↔ law ∈ rotationLaws weaker := by
  unfold rotationSnapshot
  rw [lawSnapshot_allItems]

/-- An id of the law covers its precedence and not its authority. -/
theorem rotation_precedence {level level' : AuthorityLevel} {p q : Nat}
    (h : (rotationLaw level p).itemId = (rotationLaw level' q).itemId) : p = q := by
  have hsame := sameItem_of_id Sha256.transparent_injective (rotationLaw_valid level p).id_recipe
    (rotationLaw_valid level' q).id_recipe h
  exact Option.some.inj (hsame.claim.precedence rfl rfl)

theorem rotation_weakerAdded (weaker : List Nat) :
    WeakerAdded (rotationSnapshot []).toSnapshotBuckets
      (rotationSnapshot weaker).toSnapshotBuckets := by
  refine ⟨fun law hlaw => ?_, fun law hlaw hnew => ?_⟩
  · rcases mem_rotationLaws.mp (mem_rotation_items.mp hlaw) with rfl | ⟨_, hp, -⟩
    · exact mem_rotation_items.mpr (mem_rotationLaws.mpr (.inl rfl))
    · cases hp
  · rcases mem_rotationLaws.mp (mem_rotation_items.mp hlaw) with rfl | ⟨_, -, rfl⟩
    · exact absurd (mem_rotation_items.mpr (mem_rotationLaws.mpr (.inl rfl))) hnew
    · rfl

theorem rotation_readOneWay {weaker : List Nat} (h : 2 ∉ weaker) :
    ReadOneWay (rotationSnapshot weaker).toSnapshotBuckets := by
  refine ⟨fun a ha b hb hid => ?_, fun a ha b hb hid => ?_⟩
  · rcases mem_rotationLaws.mp (mem_rotation_items.mp ha) with rfl | ⟨p, hp, rfl⟩ <;>
      rcases mem_rotationLaws.mp (mem_rotation_items.mp hb) with rfl | ⟨q, hq, rfl⟩
    · rfl
    · have hprecedence := rotation_precedence hid
      subst hprecedence
      exact absurd hq h
    · have hprecedence := rotation_precedence hid
      subst hprecedence
      exact absurd hp h
    · rw [rotationLaw_rank, rotationLaw_rank]
  · have hrecipe := ((rotationLaws_valid weaker a (mem_rotation_items.mp ha)).1).id_recipe
    have hdomain : domainId b = "ROTATION" := by
      rcases mem_rotationLaws.mp (mem_rotation_items.mp hb) with rfl | ⟨q, -, rfl⟩ <;> rfl
    exact itemId_ne_of_recipe hrecipe (by decide) (hid.trans hdomain)

/-- Candidates that name no other all survive, but for those that say of
themselves that they do not. -/
theorem leftOver_of_unnamed {items : List ContextItem}
    (hrefs : ∀ c ∈ items, c.supersedesRefs = [] ∧ c.supersededByRefs = []) {c : ContextItem}
    (hc : c ∈ items) (hstatus : c.hasStatus .superseded = false) : c ∈ leftOver items := by
  have hnone : ∀ s t, ¬Supersedes (ofKindIn c.contextKind items) s t := by
    intro s t hedge
    have hproposed : proposedEdges (ofKindIn c.contextKind items) = [] := by
      unfold proposedEdges
      refine List.flatMap_eq_nil_iff.mpr fun x hx => ?_
      obtain ⟨hforward, hbackward⟩ := hrefs x (List.mem_filter.mp hx).1
      rw [hforward, hbackward]
      rfl
    have hmem := (supersedes_iff.mp hedge).1
    rw [hproposed] at hmem
    cases hmem
  refine mem_leftOver.mpr ⟨hc, fun _ => survivors_iff.mpr
    ⟨List.mem_filter.mpr ⟨hc, decide_eq_true rfl⟩, fun hloop => ?_, hstatus,
      fun s hedge => absurd hedge (hnone s _)⟩⟩
  obtain ⟨t, hedge, -⟩ := TransGen.head'_iff.mp hloop
  exact hnone _ t hedge

theorem rotation_matches {law : ContextItem} {weaker : List Nat} (h : law ∈ rotationLaws weaker) :
    matchesRequirement (lawRequirement (compileScope auditIntent)) law = true := by
  rcases mem_rotationLaws.mp h with rfl | ⟨p, -, rfl⟩ <;> rfl

/-- The governed law is in the view of the law requirement, as are the
others. -/
theorem rotation_group {weaker : List Nat} {law : ContextItem} (h : law ∈ rotationLaws weaker) :
    law ∈ groupMembers ((resolveSnapshot (rotationSnapshot weaker).toSnapshotBuckets).candidates.filter
      (matchesRequirement (lawRequirement (compileScope auditIntent))))
        (.applicableLaw, "ROTATION") := by
  have hall : ∀ c ∈ (resolveSnapshot (rotationSnapshot weaker).toSnapshotBuckets).candidates.filter
      (matchesRequirement (lawRequirement (compileScope auditIntent))), c ∈ rotationLaws weaker :=
    fun c hc => mem_rotation_items.mp ((mem_sortedBy _).mp (List.mem_filter.mp hc).1)
  have hkey : groupKey law = (.applicableLaw, "ROTATION") := by
    rcases mem_rotationLaws.mp h with rfl | ⟨p, -, rfl⟩ <;> rfl
  refine mem_groupMembers.mpr ⟨leftOver_of_unnamed (fun c hc => ?_)
    (List.mem_filter.mpr ⟨(mem_sortedBy _).mpr (mem_rotation_items.mpr h), rotation_matches h⟩) ?_, hkey⟩
  · rcases mem_rotationLaws.mp (hall c hc) with rfl | ⟨p, -, rfl⟩ <;> exact ⟨rfl, rfl⟩
  · rcases mem_rotationLaws.mp h with rfl | ⟨p, -, rfl⟩ <;> rfl

theorem rotationLaw_size {law : ContextItem} (h : law = rotationLaw .governedAuthoritative 2
    ∨ law = rotationLaw .informative 1 ∨ law = rotationLaw .informative 3) :
    law.toJson.size ≤ 32000 := by
  have hrecipe : law.itemId = law.expectedItemId := by
    rcases h with rfl | rfl | rfl <;> exact (rotationLaw_valid _ _).id_recipe
  rw [ContextItem.size_transparent hrecipe]
  rcases h with rfl | rfl | rfl
  · decide +kernel
  · decide +kernel
  · decide +kernel

/-- The snapshots at hand: the governed law alone, or with one weaker. -/
theorem rotation_sizes {weaker : List Nat} (h : weaker = [] ∨ weaker = [1] ∨ weaker = [3]) :
    (rotationSnapshot weaker).allItems.length ≤ 2
      ∧ ∀ law ∈ (rotationSnapshot weaker).allItems, law.toJson.size ≤ 32000 := by
  have hitems : (rotationSnapshot weaker).allItems = rotationLaws weaker := lawSnapshot_allItems
  rw [hitems]
  refine ⟨?_, fun law hlaw => rotationLaw_size ?_⟩
  · rcases h with rfl | rfl | rfl <;> decide
  · rcases mem_rotationLaws.mp hlaw with hgoverned | ⟨p, hp, hweaker⟩
    · exact .inl hgoverned
    · rcases h with rfl | rfl | rfl
      · cases hp
      · exact .inr (.inl (List.mem_singleton.mp hp ▸ hweaker))
      · exact .inr (.inr (List.mem_singleton.mp hp ▸ hweaker))

theorem rotation_withinCeilings {weaker : List Nat}
    (h : weaker = [] ∨ weaker = [1] ∨ weaker = [3]) :
    WithinCeilings (rotationSnapshot weaker).toSnapshotBuckets :=
  withinCeilings_of_few ((rotation_sizes h).1.trans (by decide)) fun law hlaw =>
    ((rotation_sizes h).2 law hlaw).trans (by decide)

/-- The audit over the laws, under the plan for the governed one. -/
def rotationInputs (plan : ContextRequirementPlan) (weaker : List Nat) : CompileInputs :=
  inputsOver auditIntent (compileScope auditIntent) auditActivation [] plan (rotationSnapshot weaker)

def RotationPlanned (plan : ContextRequirementPlan) : Prop :=
  planRequirements (compileScope auditIntent) (discover (compileScope auditIntent)
    (resolveSnapshot (rotationSnapshot []).toSnapshotBuckets)) auditActivation [] = .ok plan

theorem rotation_run {plan : ContextRequirementPlan} (hplan : RotationPlanned plan)
    {weaker : List Nat} (h : weaker = [] ∨ weaker = [1] ∨ weaker = [3]) :
    ∃ selection unknowns, FinishedRun (rotationInputs plan weaker) selection unknowns
      ∧ compileContext (rotationInputs plan weaker)
        = .ok (assembleContext (rotationInputs plan weaker) unknowns selection.selected)
      ∧ AmpleBudget (rotationInputs plan weaker) := by
  have hneeds : NeedsAccepted [] := fun _ h => absurd h List.not_mem_nil
  have hversion : isBlank packageVersion = false := by decide
  have hresolution : (rotationInputs plan weaker).resolution
      = resolveSnapshot (rotationSnapshot weaker).toSnapshotBuckets := rfl
  have hmade : planRequirements (compileScope auditIntent) (discover (compileScope auditIntent)
      (resolveSnapshot (rotationSnapshot []).toSnapshotBuckets)) auditActivation []
      = .ok (rotationInputs plan weaker).requirementPlan := hplan
  obtain ⟨context, hcompile⟩ := planned_finishes hmade hneeds hversion
  obtain ⟨selection, unknowns, hrun, heq⟩ := finishedRun_of_plan hresolution rfl hmade hneeds
    (compileScope_unbound auditIntent) hcompile
  rw [heq] at hcompile
  obtain ⟨hcount, hcost⟩ := candidates_small (rotation_sizes h).1
    (fun law hlaw => (rotationSnapshot weaker).unselected law hlaw) (rotation_sizes h).2
  rw [← hresolution] at hcount hcost
  exact ⟨selection, unknowns, hrun, hcompile, ample_of_few hmade hcount hcost⟩

/-- Alone, the governed law is selected. -/
theorem rotation_selected {plan : ContextRequirementPlan} (hplan : RotationPlanned plan)
    {selection : Selection} {unknowns : List ContextUnknown}
    (hrun : FinishedRun (rotationInputs plan []) selection unknowns)
    (hample : AmpleBudget (rotationInputs plan [])) :
    ∃ reasons, (rotationLaw .governedAuthoritative 2).withSelection reasons
      ∈ (assembleContext (rotationInputs plan []) unknowns selection.selected).selectedItems := by
  have honly : ∀ c ∈ (rotationInputs plan []).resolution.candidates,
      c = rotationLaw .governedAuthoritative 2 := by
    intro c hc
    rcases mem_rotationLaws.mp (mem_rotation_items.mp ((mem_sortedBy _).mp hc)) with h | ⟨_, hp, -⟩
    · exact h
    · cases hp
  have hmember := rotation_group (mem_rotationLaws.mpr (.inl rfl) :
    rotationLaw .governedAuthoritative 2 ∈ rotationLaws [])
  have hfrontier : rotationLaw .governedAuthoritative 2 ∈ selectionFrontier
      (rotationInputs plan []).resolution (lawRequirement (compileScope auditIntent)) := by
    unfold selectionFrontier
    rw [frontierFrom_allEligible rfl]
    refine (mem_eligible_of_distinct_keys fun a ha b hb _ => ?_).mpr (mem_groupMembers.mp hmember).1
    rw [honly a (List.mem_filter.mp ha).1, honly b (List.mem_filter.mp hb).1]
  obtain ⟨item, hitem, -⟩ := hrun.frontier_selected Sha256.transparent_injective hample
    (lawRequirement_mem hplan) hfrontier
  obtain ⟨c, hc, hfrom⟩ := hrun.selected_from hitem
  rw [honly c hc] at hfrom
  exact ⟨_, hfrom ▸ hitem⟩

theorem rotation_planned : ∃ plan, RotationPlanned plan :=
  planRequirements_ok Sha256.transparent_injective _ _ auditActivation fun _ h =>
    absurd h List.not_mem_nil

/-- A weaker law behind the governed one leaves it selected. -/
theorem rotation_kept : ∃ plan context context', RotationPlanned plan
    ∧ compileContext (rotationInputs plan []) = .ok context
    ∧ compileContext (rotationInputs plan [3]) = .ok context'
    ∧ ∃ item ∈ context.selectedItems, item.isGoverned = true
      ∧ ∃ item' ∈ context'.selectedItems, item'.itemId = item.itemId
        ∧ item'.authorityLevel = item.authorityLevel := by
  obtain ⟨plan, hplan⟩ := rotation_planned
  obtain ⟨selection, unknowns, hrun, hcompile, hample⟩ := rotation_run hplan (.inl rfl)
  obtain ⟨selection', unknowns', hrun', hcompile', hample'⟩ :=
    rotation_run hplan (.inr (.inr rfl) : [3] = [] ∨ [3] = [1] ∨ [3] = [3])
  obtain ⟨reasons, hselected⟩ := rotation_selected hplan hrun hample
  refine ⟨plan, _, _, hplan, hcompile, hcompile', _, hselected, rfl,
    governed_undisplaced Sha256.transparent_injective auditIntent (compileScope auditIntent) _
      auditActivation [] plan (rotationSnapshot []) (rotationSnapshot [3]) _ _ hplan
      (rotation_weakerAdded [3]) (rotation_readOneWay (by decide)) hcompile hcompile' _ hselected rfl
      (fun n hn hweak _ => ?_) (fun n hn _ _ hundeclared => ?_) (fun n hn _ hdependency _ => ?_)
      (fun r hr _ => ?_)⟩
  · rcases mem_rotationLaws.mp (mem_rotation_items.mp hn) with rfl | ⟨p, hp, rfl⟩
    · cases hweak
    · rw [List.mem_singleton.mp hp]
      rintro ⟨p, q, hp, hq, hlt⟩
      obtain rfl : 2 = p := Option.some.inj hp
      obtain rfl : 3 = q := Option.some.inj hq
      omega
  · obtain ⟨-, hnone⟩ := hundeclared
    rcases mem_rotationLaws.mp (mem_rotation_items.mp hn) with rfl | ⟨p, -, rfl⟩ <;> cases hnone
  · rcases mem_rotationLaws.mp (mem_rotation_items.mp hn) with rfl | ⟨p, -, rfl⟩ <;>
      cases hdependency
  · exact hrun'.not_cutShort hample' hr

theorem mem_rotation_candidates {plan : ContextRequirementPlan} {weaker : List Nat}
    {c : ContextItem} (h : c ∈ (rotationInputs plan weaker).resolution.candidates) :
    c ∈ rotationLaws weaker :=
  mem_rotation_items.mp ((mem_sortedBy _).mp h)

/-- With a weaker law ahead of it, the governed one is not what its view
settles on. -/
theorem rotation_yields {weaker : List Nat} {p : Nat} (hp : p ∈ weaker) (hahead : p < 2) :
    rotationLaw .governedAuthoritative 2 ∉ eligibleItems (requirementView
      (resolveSnapshot (rotationSnapshot weaker).toSnapshotBuckets)
      (lawRequirement (compileScope auditIntent))) := by
  intro helig
  unfold requirementView SnapshotResolution.resolve at helig
  rw [mem_eligible_iff] at helig
  have hsettled := mem_resolveGroup_law.mp helig
  have hcontender := (mem_strongest.mp (hsettled ▸ List.mem_singleton_self _)).1
  obtain ⟨rep, hrep, hdigest⟩ :=
    exists_representative (rotation_group (mem_rotationLaws.mpr (.inr ⟨p, hp, rfl⟩)))
  have hlaws : ∀ law ∈ representatives (groupMembers
      ((resolveSnapshot (rotationSnapshot weaker).toSnapshotBuckets).candidates.filter
        (matchesRequirement (lawRequirement (compileScope auditIntent))))
      (.applicableLaw, "ROTATION")), ∃ level q, law = rotationLaw level q := by
    intro law hlaw
    have hleft := (mem_groupMembers.mp (mem_of_mem_representatives hlaw)).1
    have hin := (List.mem_filter.mp (mem_of_mem_leftOver hleft)).1
    rcases mem_rotationLaws.mp (mem_rotation_items.mp ((mem_sortedBy _).mp hin)) with h | ⟨q, -, h⟩
    · exact ⟨_, _, h⟩
    · exact ⟨_, _, h⟩
  have hall : ∀ law ∈ representatives (groupMembers
      ((resolveSnapshot (rotationSnapshot weaker).toSnapshotBuckets).candidates.filter
        (matchesRequirement (lawRequirement (compileScope auditIntent))))
      (.applicableLaw, "ROTATION")), (lawPrecedence law).isSome = true := by
    intro law hlaw
    obtain ⟨level, q, rfl⟩ := hlaws law hlaw
    rfl
  -- every law of the group declares a precedence: the least contends
  have hkey : groupKey (rotationLaw .governedAuthoritative 2) = (.applicableLaw, "ROTATION") := rfl
  unfold contenders at hcontender
  rw [hkey, if_pos (List.all_eq_true.mpr hall)] at hcontender
  have hfirst := ((mem_firstByPrecedence hall).mp hcontender).2 rep hrep
  obtain ⟨level, q, rfl⟩ := hlaws rep hrep
  have hsame := ((claimDigest_eq_iff Sha256.transparent_injective).mp hdigest).1
  have hdeclared : some q = some p := hsame.precedence rfl rfl
  have hle : 2 ≤ q := hfirst
  have := Option.some.inj hdeclared
  omega

theorem eligible_of_frontier {resolution : SnapshotResolution} {r : ContextRequirement}
    {c : ContextItem} (h : c ∈ selectionFrontier resolution r) :
    c ∈ eligibleItems (requirementView resolution r) :=
  frontierFrom_sublist.subset h

/-- A weaker law ahead of the governed one takes its place. -/
theorem rotation_displaced : ∃ plan context context', RotationPlanned plan
    ∧ WithinCeilings (rotationSnapshot []).toSnapshotBuckets
    ∧ WithinCeilings (rotationSnapshot [1]).toSnapshotBuckets
    ∧ WeakerAdded (rotationSnapshot []).toSnapshotBuckets (rotationSnapshot [1]).toSnapshotBuckets
    ∧ compileContext (rotationInputs plan []) = .ok context
    ∧ compileContext (rotationInputs plan [1]) = .ok context'
    ∧ ∃ item ∈ context.selectedItems, item.isGoverned = true
      ∧ ∀ item' ∈ context'.selectedItems, item'.itemId ≠ item.itemId := by
  obtain ⟨plan, hplan⟩ := rotation_planned
  obtain ⟨selection, unknowns, hrun, hcompile, hample⟩ := rotation_run hplan (.inl rfl)
  have hsome : [1] = [] ∨ [1] = [1] ∨ [1] = [3] := .inr (.inl rfl)
  obtain ⟨selection', unknowns', hrun', hcompile', -⟩ := rotation_run hplan hsome
  obtain ⟨reasons, hselected⟩ := rotation_selected hplan hrun hample
  refine ⟨plan, _, _, hplan, rotation_withinCeilings (.inl rfl),
    rotation_withinCeilings (.inr (.inl rfl)), rotation_weakerAdded [1], hcompile, hcompile', _,
    hselected, rfl, fun item' hitem' hid => ?_⟩
  obtain ⟨r, hr, c, hc, hcid⟩ := exists_selected_frontier hrun'.select hrun'.ids_nodup hitem'
  have helig := eligible_of_frontier hc
  obtain ⟨hcandidate, hmatch⟩ := eligible_matches helig
  -- the id is that of the governed law
  have hgoverned : c = rotationLaw .governedAuthoritative 2 := by
    rcases mem_rotationLaws.mp (mem_rotation_candidates hcandidate) with h | ⟨p, hp, h⟩
    · exact h
    · rw [h, List.mem_singleton.mp hp] at hcid
      exact absurd (rotation_precedence (hcid.trans hid)) (by decide)
  rw [hgoverned] at helig hmatch
  have hlaw := sole_law_requirement hplan hr (matches_kind hmatch).symm
  rw [hlaw] at helig
  exact rotation_yields (List.mem_singleton_self 1) (by decide) helig

end Rotation

end CognitiveRuntime
