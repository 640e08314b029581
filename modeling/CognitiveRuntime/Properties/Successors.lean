import CognitiveRuntime.Properties.OwnDomain
import CognitiveRuntime.Properties.PlanRuns

/-!
# Retirement and its successors

A claim that supersession drops, off every cycle and not by its own
status, should be answered for: a chain of declared references leads to
it from a claim that stands, each no weaker than the one it retires.

The gate compares the authority it reads under two item ids, and an item
id does not fix the authority. `retirements_succeeded` proves the chain
where every retired claim is retired by one that really is no weaker;
the induction is along the retirements off the cycles.
-/

namespace CognitiveRuntime

open Ordered Relation

/-! ## Declared succession -/

/-- The reference names the claim, by item id or by domain id. -/
def Names (members : List ContextItem) (referrer : ContextItem) (ref : String)
    (named : ContextItem) : Prop :=
  NamesItem referrer ref named ∨ NamesDomain members referrer ref named

/-- One claim declares that it supersedes the other, or the other that
it is superseded. -/
def Declares (members : List ContextItem) (x y : ContextItem) : Prop :=
  (∃ ref ∈ x.supersedesRefs, Names members x ref y)
    ∨ ∃ ref ∈ y.supersededByRefs, Names members y ref x

/-- A declared link of the chain, from a claim to one no stronger. -/
def Succeeds (members : List ContextItem) (x y : ContextItem) : Prop :=
  x ∈ members ∧ y ∈ members ∧ Declares members x y ∧ x.authorityRank ≤ y.authorityRank

/-- A claim that is kept, or is dropped by its own status alone. -/
def Stands (members : List ContextItem) (x : ContextItem) : Prop :=
  x ∈ supersessionSurvivors members
    ∨ x ∈ members ∧ x.itemId ∉ onCycle members ∧ x.itemId ∉ supersededItems members
      ∧ x.hasStatus .superseded = true

/-- Every claim that supersession retires is reachable from one that
stands. -/
def RetirementsSucceeded (members : List ContextItem) : Prop :=
  ∀ t ∈ members, t ∉ supersessionSurvivors members → t.itemId ∉ onCycle members →
    t.hasStatus .superseded = false → ∃ x, Stands members x ∧ TransGen (Succeeds members) x t

/-- A claim that one off every cycle retires is retired by one at least
as strong. -/
def RetiredByStronger (members : List ContextItem) : Prop :=
  ∀ t ∈ members, Reach.OffCycle (Retires members) t.itemId →
    (∃ s, Retires members s t.itemId ∧ Reach.OffCycle (Retires members) s) →
    ∃ u ∈ members, Retires members u.itemId t.itemId
      ∧ Reach.OffCycle (Retires members) u.itemId ∧ u.authorityRank ≤ t.authorityRank

/-! ## Items of one id declare the same -/

section Twins

theorem SameItem.supersedesRefs {a b : ContextItem} (h : SameItem a b) :
    a.supersedesRefs = b.supersedesRefs := by
  have hkind := h.contextKind
  have hfield := h.claim.field "supersedes_refs"
  unfold ContextItem.contextKind at hkind
  unfold ContextItem.supersedesRefs
  cases hca : a.claim <;> cases hcb : b.claim <;> rw [hca, hcb] at hkind <;> try cases hkind
  all_goals
    rw [hca, hcb] at hfield
    simp [Claim.payload, Json.field, Json.ofStrings_inj] at hfield
    assumption

theorem SameItem.supersededByRefs {a b : ContextItem} (h : SameItem a b) :
    a.supersededByRefs = b.supersededByRefs := by
  have hkind := h.contextKind
  have hfield := h.claim.field "superseded_by_refs"
  unfold ContextItem.contextKind at hkind
  unfold ContextItem.supersededByRefs
  cases hca : a.claim <;> cases hcb : b.claim <;> rw [hca, hcb] at hkind <;> try cases hkind
  all_goals
    rw [hca, hcb] at hfield
    simp [Claim.payload, Json.field, Json.ofStrings_inj] at hfield
    assumption

/-- What a reference names is named under its id and its domain. -/
theorem Names.congr {members : List ContextItem} {x x' y y' : ContextItem} {ref : String}
    (hx : x.itemId = x'.itemId) (hdx : domainId x = domainId x') (hy : y.itemId = y'.itemId)
    (hdy : domainId y = domainId y') (h : Names members x ref y) : Names members x' ref y' := by
  rcases h with ⟨hid, hne⟩ | ⟨hfree, hdomain, hother⟩
  · exact Or.inl ⟨hy ▸ hid, hx ▸ hy ▸ hne⟩
  · exact Or.inr ⟨hfree, hdy ▸ hdomain, hdx ▸ hother⟩

/-- A retirement is declared between any claims of its two ids. -/
theorem declares_of_retires [Sha256] (hsha : Sha256.Injective) {members : List ContextItem}
    (hids : ∀ c ∈ members, c.itemId = c.expectedItemId) {u t : ContextItem} (hu : u ∈ members)
    (ht : t ∈ members) (h : Retires members u.itemId t.itemId) : Declares members u t := by
  obtain ⟨x, hx, y, hy, hxu, hyt, hnames, -⟩ := h
  have hsameX := sameItem_of_id hsha (hids x hx) (hids u hu) hxu
  have hsameY := sameItem_of_id hsha (hids y hy) (hids t ht) hyt
  rcases hnames with ⟨ref, href, hnames⟩ | ⟨ref, href, hnames⟩
  · rw [hsameX.supersedesRefs] at href
    exact Or.inl ⟨ref, href, Names.congr hxu hsameX.domainId hyt hsameY.domainId hnames⟩
  · rw [hsameY.supersededByRefs] at href
    exact Or.inr ⟨ref, href, Names.congr hyt hsameY.domainId hxu hsameX.domainId hnames⟩

end Twins

/-! ## The chain -/

section Chain

variable {members : List ContextItem}

/-- A claim that is neither retired nor on a cycle stands. -/
theorem stands_of_unretired {u : ContextItem} (hu : u ∈ members)
    (hoff : u.itemId ∉ onCycle members) (hfree : u.itemId ∉ supersededItems members) :
    Stands members u := by
  cases hstatus : u.hasStatus .superseded with
  | true => exact Or.inr ⟨hu, hoff, hfree, hstatus⟩
  | false =>
      refine Or.inl (List.mem_filter.mpr ⟨hu, ?_⟩)
      rw [decide_eq_true_eq]
      exact ⟨hoff, hstatus, hfree⟩

/-- Along the retirements off the cycles, a retired claim is reached
from one that stands. -/
theorem succeeded_of_retired [Sha256] (hsha : Sha256.Injective)
    (hids : ∀ c ∈ members, c.itemId = c.expectedItemId) (h : RetiredByStronger members) :
    ∀ id, Reach.OffCycle (Supersedes members) id →
      ∀ t ∈ members, t.itemId = id → id ∈ supersededItems members →
        ∃ x, Stands members x ∧ TransGen (Succeeds members) x t := by
  have hsettled := settledDomains_of_recipe hsha hids
  have hfinite : {id | id ∈ members.map ContextItem.itemId}.Finite := List.finite_toSet _
  refine Reach.offCycle_induction hfinite (fun s t hst => (supersedes_endpoints hst).1) ?_
  rintro id hoff ih t ht rfl hretired
  obtain ⟨s, hedge, hs⟩ := mem_supersededItems.mp hretired
  rw [← retires_eq hsettled] at hoff hedge hs
  obtain ⟨u, hu, hretires, huoff, hrank⟩ := h t ht hoff ⟨s, hedge, hs⟩
  have hlink : Succeeds members u t := ⟨hu, ht, declares_of_retires hsha hids hu ht hretires, hrank⟩
  rw [retires_eq hsettled] at hretires huoff
  by_cases hfalls : u.itemId ∈ supersededItems members
  · obtain ⟨x, hx, hchain⟩ := ih u.itemId huoff hretires u hu rfl hfalls
    exact ⟨x, hx, hchain.tail hlink⟩
  · exact ⟨u, stands_of_unretired hu (notMem_onCycle.mpr huoff) hfalls, .single hlink⟩

/-- A claim that is dropped, off every cycle and not by its status, was
retired. -/
theorem retired_of_dropped {t : ContextItem} (ht : t ∈ members)
    (hdropped : t ∉ supersessionSurvivors members) (hoff : t.itemId ∉ onCycle members)
    (hstatus : t.hasStatus .superseded = false) : t.itemId ∈ supersededItems members := by
  by_contra hfree
  refine hdropped (List.mem_filter.mpr ⟨ht, ?_⟩)
  rw [decide_eq_true_eq]
  exact ⟨hoff, hstatus, hfree⟩

end Chain

/-- Where every retired claim is retired by one at least as strong, a
chain of such claims leads to it from one that stands; and such a chain
always ends in a declared superseder at least as strong. -/
theorem retirements_succeeded [Sha256] (hsha : Sha256.Injective) (members : List ContextItem)
    (hids : ∀ c ∈ members, c.itemId = c.expectedItemId) :
    (RetiredByStronger members → RetirementsSucceeded members)
      ∧ (RetirementsSucceeded members → ∀ t ∈ members, t.itemId ∈ supersededItems members →
          t.itemId ∉ onCycle members → t.hasStatus .superseded = false →
          ∃ u, Succeeds members u t) := by
  constructor
  · intro h t ht hdropped hoff hstatus
    exact succeeded_of_retired hsha hids h t.itemId (notMem_onCycle.mp hoff) t ht rfl
      (retired_of_dropped ht hdropped hoff hstatus)
  · intro h t ht hretired hoff hstatus
    have hdropped : t ∉ supersessionSurvivors members := fun hkept =>
      (of_decide_eq_true (List.mem_filter.mp hkept).2).2.2 hretired
    obtain ⟨x, -, hchain⟩ := h t ht hdropped hoff hstatus
    obtain ⟨u, -, hlink⟩ := TransGen.tail'_iff.mp hchain
    exact ⟨u, hlink⟩

/-! ## One decision at two levels -/

section Levels

variable [Sha256]

omit [Sha256] in
/-- Among claims of the strongest authority nothing stronger is
retired. -/
theorem retiredByStronger_of_strongest {members : List ContextItem}
    (h : ∀ c ∈ members, c.authorityRank = 0) : RetiredByStronger members := by
  rintro t ht - ⟨s, hretires, hoff⟩
  obtain ⟨u, hu, y, -, rfl, -⟩ := id hretires
  refine ⟨u, hu, hretires, hoff, ?_⟩
  rw [h u hu]
  exact Nat.zero_le _

/-- The first wording as an unverified source repeats it. -/
def repeatedWording : ContextItem := { firstWording with authorityLevel := .unverified }

/-- The later decision, from a weaker source. -/
def weakerDecision : ContextItem := { laterDecision with authorityLevel := .informative }

/-- A governed decision, its unverified repetition, and an informative
decision that retires it. -/
def repeatedDecisions : List ContextItem := [firstWording, repeatedWording, weakerDecision]

theorem repeated_recipe : ∀ c ∈ repeatedDecisions, c.itemId = c.expectedItemId := by
  intro c hc
  simp only [repeatedDecisions, List.mem_cons, List.not_mem_nil, or_false] at hc
  rcases hc with hc | hc | hc
  · rw [hc]
    rfl
  · rw [hc]
    rfl
  · rw [hc]
    rfl

/-- In the repeated decisions only domain references are declared. -/
theorem repeated_refs {c : ContextItem} (hc : c ∈ repeatedDecisions) :
    c.supersededByRefs = [] ∧ (c.supersedesRefs = [] ∨ c = weakerDecision) := by
  simp only [repeatedDecisions, List.mem_cons, List.not_mem_nil, or_false] at hc
  rcases hc with hc | hc | hc
  · rw [hc]
    exact ⟨rfl, Or.inl rfl⟩
  · rw [hc]
    exact ⟨rfl, Or.inl rfl⟩
  · rw [hc]
    exact ⟨rfl, Or.inr rfl⟩

/-- The weaker decision retires the first wording, whose repetition is
what the gate compares it with. -/
theorem weaker_retires (hsha : Sha256.Injective) :
    Retires repeatedDecisions weakerDecision.itemId firstWording.itemId := by
  have hne : firstWording.itemId ≠ weakerDecision.itemId :=
    storageDecision_itemId_ne hsha (by decide)
  refine ⟨weakerDecision, by simp [repeatedDecisions], firstWording,
    by simp [repeatedDecisions], rfl, rfl, Or.inl ⟨"D-1", List.mem_singleton_self _, Or.inr ?_⟩, ?_⟩
  · exact ⟨fun c hc => itemId_ne_of_recipe (repeated_recipe c hc) (by decide), rfl,
      show "D-2" ≠ "D-1" by decide⟩
  · have hlater : byItem repeatedDecisions weakerDecision.itemId = some weakerDecision := by
      unfold byItem repeatedDecisions lastBy
      simp [lastBy]
    have hfirst : byItem repeatedDecisions firstWording.itemId = some repeatedWording := by
      have hsame : repeatedWording.itemId = firstWording.itemId := rfl
      unfold byItem repeatedDecisions lastBy
      simp [lastBy, hne.symm, hsame]
    unfold rankOf
    rw [hlater, hfirst]
    show 2 ≤ 3
    omega

/-- Nothing names the weaker decision. -/
theorem weaker_offCycle (hsha : Sha256.Injective) :
    Reach.OffCycle (Retires repeatedDecisions) weakerDecision.itemId := by
  intro hloop
  obtain ⟨s, -, x, hx, y, hy, -, hid, hnames, -⟩ := TransGen.tail'_iff.mp hloop
  have hdomain : domainId y = domainId weakerDecision :=
    settledDomains_of_recipe hsha repeated_recipe y hy _ (by simp [repeatedDecisions]) hid
  rcases hnames with ⟨ref, href, hnames⟩ | ⟨ref, href, -⟩
  · rcases (repeated_refs hx).2 with hnil | rfl
    · rw [hnil] at href
      cases href
    · obtain rfl := List.mem_singleton.mp href
      rcases hnames with ⟨hitem, -⟩ | ⟨-, hdom, -⟩
      · exact itemId_ne_of_recipe (repeated_recipe y hy) (by decide) hitem
      · exact absurd (show "D-2" = "D-1" from hdomain.symm.trans hdom) (by decide)
  · rw [(repeated_refs hy).1] at href
    cases href

/-- The first wording retires nothing. -/
theorem first_offCycle (hsha : Sha256.Injective) :
    Reach.OffCycle (Retires repeatedDecisions) firstWording.itemId := by
  intro hloop
  obtain ⟨t, ⟨x, hx, y, hy, hid, -, hnames, -⟩, -⟩ := TransGen.head'_iff.mp hloop
  rcases hnames with ⟨ref, href, -⟩ | ⟨ref, href, -⟩
  · rcases (repeated_refs hx).2 with hnil | rfl
    · rw [hnil] at href
      cases href
    · exact storageDecision_itemId_ne hsha (by decide) hid
  · rw [(repeated_refs hy).1] at href
    cases href

/-- The governed wording falls, and nothing as strong supersedes it. -/
theorem first_unsucceeded (hsha : Sha256.Injective) :
    ¬RetirementsSucceeded repeatedDecisions := by
  have hsettled := settledDomains_of_recipe hsha repeated_recipe
  have hretires := weaker_retires hsha
  have hweaker := weaker_offCycle hsha
  have hstays := first_offCycle hsha
  rw [retires_eq hsettled] at hretires hweaker hstays
  have hfirst : firstWording ∈ repeatedDecisions := List.mem_cons_self ..
  have hfalls : firstWording.itemId ∈ supersededItems repeatedDecisions :=
    mem_supersededItems.mpr ⟨_, hretires, hweaker⟩
  have hdropped : firstWording ∉ supersessionSurvivors repeatedDecisions := fun hkept =>
    (survivors_iff.mp hkept).2.2.2 _ hretires hweaker
  intro h
  obtain ⟨x, -, hchain⟩ := h firstWording hfirst hdropped (notMem_onCycle.mpr hstays) rfl
  obtain ⟨u, -, hu, -, hdeclares, hrank⟩ := TransGen.tail'_iff.mp hchain
  -- the only claim that declares anything is weaker than the one it retires
  rcases hdeclares with ⟨ref, href, -⟩ | ⟨ref, href, -⟩
  · rcases (repeated_refs hu).2 with hnil | rfl
    · rw [hnil] at href
      cases href
    · exact absurd (show 2 ≤ 0 from hrank) (by omega)
  · rw [(repeated_refs hfirst).1] at href
    cases href

end Levels

/-- The decisions of one source retire one another by the book. -/
theorem replaced_decisions_succeeded :
    RetirementsSucceeded (@replacedDecisions Sha256.transparent) :=
  (@retirements_succeeded Sha256.transparent Sha256.transparent_injective _
    (@replaced_recipe Sha256.transparent)).1
    (retiredByStronger_of_strongest (@replaced_rank Sha256.transparent))

/-- An informative decision retires a governed one that an unverified
source repeats. -/
theorem repeated_decision_unsucceeded :
    ¬RetirementsSucceeded (@repeatedDecisions Sha256.transparent) :=
  @first_unsucceeded Sha256.transparent Sha256.transparent_injective

end CognitiveRuntime
