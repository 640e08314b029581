import CognitiveRuntime.Compiler.Supersession
import CognitiveRuntime.Properties.Identity

/-!
# Supersession within one domain

A claim may not supersede another of its own domain identifier. The
expansion of a reference guards its domain branch against that and not
its item branch, so a claim that names a sibling by item id does retire
it, and two siblings can be caught in a cycle of their own.

`supersedes_iff_retires` reads the accepted edges off the references.
`only_others_retire_iff` says exactly which member lists come out right
all the same: those where every sibling so named is also retired, or
caught in the cycle, by a claim of another domain.
-/

namespace CognitiveRuntime

open Relation

/-! ## What a reference names -/

/-- The reference is the item id of another claim. -/
def NamesItem (referrer : ContextItem) (ref : String) (named : ContextItem) : Prop :=
  named.itemId = ref ∧ named.itemId ≠ referrer.itemId

/-- The reference is no claim's item id, and it is the domain id of the
claim but not of its referrer. -/
def NamesDomain (members : List ContextItem) (referrer : ContextItem) (ref : String)
    (named : ContextItem) : Prop :=
  (∀ c ∈ members, c.itemId ≠ ref) ∧ domainId named = ref ∧ domainId referrer ≠ ref

/-- The superseder names the superseded, or is named by it, and is no
weaker. -/
def Refers (names : ContextItem → String → ContextItem → Prop) (members : List ContextItem)
    (s t : String) : Prop :=
  ∃ x ∈ members, ∃ y ∈ members, x.itemId = s ∧ y.itemId = t
    ∧ ((∃ ref ∈ x.supersedesRefs, names x ref y) ∨ ∃ ref ∈ y.supersededByRefs, names y ref x)
    ∧ rankOf members s ≤ rankOf members t

/-- One claim retires another, by item id or by domain id. -/
def Retires (members : List ContextItem) : String → String → Prop :=
  Refers (fun x ref y => NamesItem x ref y ∨ NamesDomain members x ref y) members

/-- One claim retires another of its own domain id, by item id. -/
def NamesSibling (members : List ContextItem) : String → String → Prop :=
  Refers (fun x ref y => NamesItem x ref y ∧ domainId x = domainId y) members

/-! ## The accepted edges, read off the references -/

/-- Members of one id are of one domain. -/
def SettledDomains (members : List ContextItem) : Prop :=
  ∀ a ∈ members, ∀ b ∈ members, a.itemId = b.itemId → domainId a = domainId b

theorem SameItem.domainId {a b : ContextItem} (h : SameItem a b) :
    domainId a = domainId b := by
  have hkind := h.contextKind
  have hlaw := h.claim.field "law_id"
  have hdecision := h.claim.field "decision_id"
  unfold ContextItem.contextKind at hkind
  unfold CognitiveRuntime.domainId
  cases hca : a.claim <;> cases hcb : b.claim <;> rw [hca, hcb] at hkind <;> try cases hkind
  all_goals
    rw [hca, hcb] at hlaw hdecision
    simp [Claim.payload, Json.field] at hlaw hdecision
    assumption

theorem settledDomains_of_recipe [Sha256] (hsha : Sha256.Injective) {members : List ContextItem}
    (hids : ∀ c ∈ members, c.itemId = c.expectedItemId) : SettledDomains members :=
  fun a ha b hb hid => (sameItem_of_id hsha (hids a ha) (hids b hb) hid).domainId

section Edges

variable {members : List ContextItem}

theorem domainOf_of_mem (hsettled : SettledDomains members) {x : ContextItem}
    (hx : x ∈ members) : domainOf members x.itemId = domainId x := by
  obtain ⟨held, hheld⟩ := exists_byItem (List.mem_map_of_mem hx)
  obtain ⟨hmem, hid⟩ := byItem_eq_some hheld
  unfold domainOf
  rw [hheld]
  exact hsettled held hmem x hx hid

theorem byItem_eq_none {ref : String} :
    byItem members ref = none ↔ ∀ c ∈ members, c.itemId ≠ ref := by
  constructor
  · intro h c hc hid
    obtain ⟨held, hheld⟩ := exists_byItem (List.mem_map_of_mem hc)
    rw [hid, h] at hheld
    cases hheld
  · intro h
    cases hheld : byItem members ref with
    | none => rfl
    | some held =>
        obtain ⟨hmem, hid⟩ := byItem_eq_some hheld
        exact absurd hid (h held hmem)

/-- The expansion of a reference is the ids of the claims it names. -/
theorem mem_expand_iff (hsettled : SettledDomains members) {x : ContextItem}
    (hx : x ∈ members) {ref target : String} :
    target ∈ (expandSupersessionRef members ref x).getD [] ↔
      ∃ y ∈ members, y.itemId = target ∧ (NamesItem x ref y ∨ NamesDomain members x ref y) := by
  unfold expandSupersessionRef
  rw [domainOf_of_mem hsettled hx]
  by_cases hitem : (byItem members ref).isSome
  · obtain ⟨held, hheld⟩ := Option.isSome_iff_exists.mp hitem
    obtain ⟨hmem, hid⟩ := byItem_eq_some hheld
    have hnone : ∀ y, ¬NamesDomain members x ref y := fun y h => h.1 held hmem hid
    rw [if_pos hitem, Option.getD_some]
    constructor
    · intro h
      split at h
      · next hne =>
          obtain rfl := List.mem_singleton.mp h
          exact ⟨held, hmem, hid, Or.inl ⟨hid, hid ▸ hne⟩⟩
      · cases h
    · rintro ⟨y, hy, rfl, h | h⟩
      · obtain ⟨rfl, hne⟩ := h
        rw [if_pos hne]
        exact List.mem_singleton_self _
      · exact absurd h (hnone y)
  · have hfree := byItem_eq_none.mp (Option.not_isSome_iff_eq_none.mp hitem)
    have hnoItem : ∀ y ∈ members, ¬NamesItem x ref y := fun y hy h => hfree y hy h.1
    rw [if_neg hitem]
    constructor
    · intro h
      split at h
      · split at h
        · cases h
        · next hne =>
            obtain ⟨htarget, -⟩ := List.mem_filter.mp h
            obtain ⟨y, hy, rfl⟩ := List.mem_map.mp htarget
            obtain ⟨hmem, hdomain⟩ := List.mem_filter.mp hy
            exact ⟨y, hmem, rfl, Or.inr ⟨hfree, of_decide_eq_true hdomain, Ne.symm hne⟩⟩
      · cases h
    · rintro ⟨y, hy, rfl, h | ⟨-, hdomain, hne⟩⟩
      · exact absurd h (hnoItem y hy)
      · have htarget : y.itemId ∈ byDomain members ref :=
          List.mem_map_of_mem (List.mem_filter.mpr ⟨hy, decide_eq_true hdomain⟩)
        have hother : y.itemId ≠ x.itemId := fun hid =>
          hne ((hsettled y hy x hx hid).symm.trans hdomain)
        rw [if_pos (List.ne_nil_of_mem htarget), if_neg (Ne.symm hne)]
        exact List.mem_filter.mpr ⟨htarget, decide_eq_true hother⟩

/-- The proposed edges are the references that name a claim. -/
theorem mem_proposedEdges (hsettled : SettledDomains members) {s t : String} :
    (s, t) ∈ proposedEdges members ↔
      ∃ x ∈ members, ∃ y ∈ members, x.itemId = s ∧ y.itemId = t
        ∧ ((∃ ref ∈ x.supersedesRefs, NamesItem x ref y ∨ NamesDomain members x ref y)
          ∨ ∃ ref ∈ y.supersededByRefs, NamesItem y ref x ∨ NamesDomain members y ref x) := by
  unfold proposedEdges
  simp only [List.mem_flatMap, List.mem_append, List.mem_map, Prod.mk.injEq]
  constructor
  · rintro ⟨item, hitem, ⟨ref, href, target, htarget, rfl, rfl⟩ |
      ⟨ref, href, target, htarget, rfl, rfl⟩⟩
    · obtain ⟨y, hy, hid, hnames⟩ := (mem_expand_iff hsettled hitem).mp htarget
      exact ⟨item, hitem, y, hy, rfl, hid, Or.inl ⟨ref, href, hnames⟩⟩
    · obtain ⟨x, hx, hid, hnames⟩ := (mem_expand_iff hsettled hitem).mp htarget
      exact ⟨x, hx, item, hitem, hid, rfl, Or.inr ⟨ref, href, hnames⟩⟩
  · rintro ⟨x, hx, y, hy, rfl, rfl, ⟨ref, href, hnames⟩ | ⟨ref, href, hnames⟩⟩
    · exact ⟨x, hx, Or.inl ⟨ref, href, y.itemId,
        (mem_expand_iff hsettled hx).mpr ⟨y, hy, rfl, hnames⟩, rfl, rfl⟩⟩
    · exact ⟨y, hy, Or.inr ⟨ref, href, x.itemId,
        (mem_expand_iff hsettled hy).mpr ⟨x, hx, rfl, hnames⟩, rfl, rfl⟩⟩

/-- The accepted edges are the references that name a claim no stronger
than the superseder. -/
theorem supersedes_iff_retires (hsettled : SettledDomains members) {s t : String} :
    Supersedes members s t ↔ Retires members s t := by
  rw [supersedes_iff, mem_proposedEdges hsettled]
  constructor
  · rintro ⟨⟨x, hx, y, hy, hxs, hyt, hnames⟩, hrank⟩
    exact ⟨x, hx, y, hy, hxs, hyt, hnames, hrank⟩
  · rintro ⟨x, hx, y, hy, hxs, hyt, hnames, hrank⟩
    exact ⟨⟨x, hx, y, hy, hxs, hyt, hnames⟩, hrank⟩

/-- A claim retires its sibling by item id or not at all. -/
theorem namesSibling_iff (hsettled : SettledDomains members) {s t : String} :
    NamesSibling members s t ↔ Retires members s t ∧ domainOf members s = domainOf members t := by
  constructor
  · rintro ⟨x, hx, y, hy, rfl, rfl, hnames, hrank⟩
    rw [domainOf_of_mem hsettled hx, domainOf_of_mem hsettled hy]
    rcases hnames with ⟨ref, href, hnames, hdomain⟩ | ⟨ref, href, hnames, hdomain⟩
    · exact ⟨⟨x, hx, y, hy, rfl, rfl, Or.inl ⟨ref, href, Or.inl hnames⟩, hrank⟩, hdomain⟩
    · exact ⟨⟨x, hx, y, hy, rfl, rfl, Or.inr ⟨ref, href, Or.inl hnames⟩, hrank⟩, hdomain.symm⟩
  · rintro ⟨⟨x, hx, y, hy, rfl, rfl, hnames, hrank⟩, hdomain⟩
    rw [domainOf_of_mem hsettled hx, domainOf_of_mem hsettled hy] at hdomain
    -- a reference by domain id is guarded against the referrer's own
    refine ⟨x, hx, y, hy, rfl, rfl, ?_, hrank⟩
    rcases hnames with ⟨ref, href, hnames | hnames⟩ | ⟨ref, href, hnames | hnames⟩
    · exact Or.inl ⟨ref, href, hnames, hdomain⟩
    · exact absurd (hdomain.trans hnames.2.1) hnames.2.2
    · exact Or.inr ⟨ref, href, hnames, hdomain.symm⟩
    · exact absurd (hdomain.symm.trans hnames.2.1) hnames.2.2

end Edges

/-! ## Only a claim of another domain retires -/

/-- A claim dropped as superseded, by claims of its own domain alone. -/
def RetiredByOwn (members : List ContextItem) (t : ContextItem) : Prop :=
  t ∈ members ∧ t.itemId ∈ supersededItems members
    ∧ ∀ s ∈ members, (s.itemId, t.itemId) ∈ acceptedEdges members →
        s.itemId ∉ onCycle members → domainId s = domainId t

/-- Every edge within the component joins claims of one domain. -/
def JoinsOneDomain (members : List ContextItem) (component : List String) : Prop :=
  ∀ s ∈ members, ∀ t ∈ members, s.itemId ∈ component → t.itemId ∈ component →
    (s.itemId, t.itemId) ∈ acceptedEdges members → domainId s = domainId t

/-- No claim falls to its own domain alone, and no cycle is reported
within one domain. -/
def OnlyOthersRetire (members : List ContextItem) : Prop :=
  (∀ t, ¬RetiredByOwn members t)
    ∧ ∀ component ∈ supersessionCycles members, ¬JoinsOneDomain members component

/-- Every sibling named by item id is retired, or caught in its cycle,
by a claim of another domain as well. -/
structure SiblingsExcused (members : List ContextItem) : Prop where
  retired : ∀ s t, NamesSibling members s t → Reach.OffCycle (Retires members) s →
    ∃ u, Retires members u t ∧ Reach.OffCycle (Retires members) u
      ∧ domainOf members u ≠ domainOf members t
  looped : ∀ s, TransGen (NamesSibling members) s s →
    ∃ u, TransGen (Retires members) s u ∧ TransGen (Retires members) u s
      ∧ domainOf members u ≠ domainOf members s

section Property

variable {members : List ContextItem}

theorem retires_eq (hsettled : SettledDomains members) :
    Retires members = Supersedes members :=
  funext fun _ => funext fun _ => propext (supersedes_iff_retires hsettled).symm

theorem namesSibling_eq (hsettled : SettledDomains members) :
    NamesSibling members = fun s t =>
      Supersedes members s t ∧ domainOf members s = domainOf members t := by
  funext s t
  rw [← retires_eq hsettled]
  exact propext (namesSibling_iff hsettled)

theorem retiredByOwn_iff (hsettled : SettledDomains members) {t : ContextItem}
    (ht : t ∈ members) (hfalls : t.itemId ∈ supersededItems members) :
    ¬RetiredByOwn members t ↔ ∃ u, Supersedes members u t.itemId
      ∧ Reach.OffCycle (Supersedes members) u
      ∧ domainOf members u ≠ domainOf members t.itemId := by
  constructor
  · intro h
    by_contra hnone
    refine h ⟨ht, hfalls, fun s hs hedge hoff => ?_⟩
    by_contra hne
    refine hnone ⟨s.itemId, hedge, notMem_onCycle.mp hoff, ?_⟩
    rwa [domainOf_of_mem hsettled hs, domainOf_of_mem hsettled ht]
  · rintro ⟨u, hedge, hoff, hne⟩ ⟨-, -, hown⟩
    obtain ⟨s, hs, rfl⟩ := List.mem_map.mp (supersedes_endpoints hedge).1
    rw [domainOf_of_mem hsettled hs, domainOf_of_mem hsettled ht] at hne
    exact hne (hown s hs hedge (notMem_onCycle.mpr hoff))

/-- A component joins two domains as soon as one of its claims is of
another domain than the one it was found from. -/
theorem joinsOneDomain_iff (hsettled : SettledDomains members) {component : List String}
    {node : String}
    (hcomponent : ∀ other, other ∈ component ↔
      TransGen (Supersedes members) node other ∧ TransGen (Supersedes members) other node) :
    ¬JoinsOneDomain members component ↔
      ∃ u ∈ component, domainOf members u ≠ domainOf members node := by
  constructor
  · intro h
    by_contra hnone
    have hlabel : ∀ s ∈ members, s.itemId ∈ component → domainId s = domainOf members node := by
      intro s hs hin
      rw [← domainOf_of_mem hsettled hs]
      by_contra hne
      exact hnone ⟨s.itemId, hin, hne⟩
    exact h fun s hs t ht hsin htin _ => (hlabel s hs hsin).trans (hlabel t ht htin).symm
  · rintro ⟨u, hu, hne⟩ hjoins
    obtain ⟨hto, hback⟩ := (hcomponent u).mp hu
    -- the way from the node to `u` crosses over inside the component
    obtain ⟨a, b, hna, hab, hcross, hbu⟩ :=
      Reach.crosses_of_label_ne (domainOf members) hto (Ne.symm hne)
    have hloopA : TransGen (Supersedes members) a node :=
      TransGen.head' hab (hbu.trans hback.to_reflTransGen)
    have hloopB : TransGen (Supersedes members) node b := TransGen.tail' hna hab
    have haIn : a ∈ component := by
      refine (hcomponent a).mpr ⟨?_, hloopA⟩
      exact TransGen.trans_left (hto.trans hback) hna
    have hbIn : b ∈ component := (hcomponent b).mpr ⟨hloopB, TransGen.trans_right hbu hback⟩
    obtain ⟨haMem, hbMem⟩ := supersedes_endpoints hab
    obtain ⟨x, hx, rfl⟩ := List.mem_map.mp haMem
    obtain ⟨y, hy, rfl⟩ := List.mem_map.mp hbMem
    rw [domainOf_of_mem hsettled hx, domainOf_of_mem hsettled hy] at hcross
    exact hcross (hjoins x hx y hy haIn hbIn hab)

/-- A sibling retired off every cycle needs another superseder. -/
theorem retired_iff (hsettled : SettledDomains members) :
    (∀ t, ¬RetiredByOwn members t) ↔
      ∀ s t, NamesSibling members s t → Reach.OffCycle (Retires members) s →
        ∃ u, Retires members u t ∧ Reach.OffCycle (Retires members) u
          ∧ domainOf members u ≠ domainOf members t := by
  rw [retires_eq hsettled, namesSibling_eq hsettled]
  constructor
  · rintro h s t ⟨hedge, -⟩ hoff
    obtain ⟨y, hy, rfl⟩ := List.mem_map.mp (supersedes_endpoints hedge).2
    exact (retiredByOwn_iff hsettled hy (mem_supersededItems.mpr ⟨s, hedge, hoff⟩)).mp (h y)
  · intro h t hown
    obtain ⟨s, hedge, hoff⟩ := mem_supersededItems.mp hown.2.1
    refine (retiredByOwn_iff hsettled hown.1 hown.2.1).mpr ?_ hown
    by_cases hdomain : domainOf members s = domainOf members t.itemId
    · exact h s t.itemId ⟨hedge, hdomain⟩ hoff
    · exact ⟨s, hedge, hoff, hdomain⟩

/-- A loop of siblings needs a claim of another domain in its cycle. -/
theorem looped_iff (hsettled : SettledDomains members) :
    (∀ component ∈ supersessionCycles members, ¬JoinsOneDomain members component) ↔
      ∀ s, TransGen (NamesSibling members) s s →
        ∃ u, TransGen (Retires members) s u ∧ TransGen (Retires members) u s
          ∧ domainOf members u ≠ domainOf members s := by
  rw [retires_eq hsettled, namesSibling_eq hsettled]
  constructor
  · intro h s hloop
    have hsub : (fun a b => Supersedes members a b ∧ domainOf members a = domainOf members b)
        ≤ Supersedes members := fun _ _ hab => hab.1
    have hself : TransGen (Supersedes members) s s := TransGen.mono hsub s s hloop
    have hcycle : s ∈ onCycle members := mem_onCycle.mpr hself
    obtain ⟨component, hreported, hs⟩ := List.mem_flatten.mp hcycle
    have hfrom := mem_component_iff hreported hs
    obtain ⟨u, hu, hne⟩ := (joinsOneDomain_iff hsettled hfrom).mp (h component hreported)
    obtain ⟨hto, hback⟩ := (hfrom u).mp hu
    exact ⟨u, hto, hback, hne⟩
  · intro h component hreported
    obtain ⟨node, hself, hcomponent⟩ := supersessionCycles_component hreported
    refine (joinsOneDomain_iff hsettled hcomponent).mpr ?_
    -- the cycle through the node leaves its domain, or is all siblings
    rcases Reach.crosses_or_stays (domainOf members) hself with hcross | hstays
    · obtain ⟨a, b, hna, hab, hne, hbn⟩ := hcross
      have haIn : a ∈ component :=
        (hcomponent a).mpr ⟨TransGen.trans_left hself hna, TransGen.head' hab hbn⟩
      have hbIn : b ∈ component :=
        (hcomponent b).mpr ⟨TransGen.tail' hna hab, TransGen.trans_right hbn hself⟩
      by_cases hsame : domainOf members a = domainOf members node
      · exact ⟨b, hbIn, fun hb => hne (hsame.trans hb.symm)⟩
      · exact ⟨a, haIn, hsame⟩
    · obtain ⟨u, hto, hback, hne⟩ := h node hstays
      exact ⟨u, (hcomponent u).mpr ⟨hto, hback⟩, hne⟩

end Property

/-- Nothing falls to its own domain alone, exactly when every sibling
named by item id has a claim of another domain against it too. -/
theorem only_others_retire_iff [Sha256] (hsha : Sha256.Injective) (members : List ContextItem)
    (hids : ∀ c ∈ members, c.itemId = c.expectedItemId) :
    OnlyOthersRetire members ↔ SiblingsExcused members := by
  have hsettled := settledDomains_of_recipe hsha hids
  constructor
  · rintro ⟨hretired, hlooped⟩
    exact ⟨(retired_iff hsettled).mp hretired, (looped_iff hsettled).mp hlooped⟩
  · intro h
    exact ⟨(retired_iff hsettled).mpr h.retired, (looped_iff hsettled).mpr h.looped⟩

/-! ## A decision restated -/

section Restated

variable [Sha256]

/-- A recorded decision about storage. -/
def storageDecision (decisionId statement : String) (supersedesRefs : List String) :
    ContextItem :=
  .create .governedAuthoritative
    { sourceId := "decisions", sourceKind := "log", locator := "docs/decisions.md"
      immutableCoordinate := some "3f2a", contentDigest := none }
    .global []
    (.priorDecision
      { decisionId := decisionId, status := .active, statement := statement
        supersedesRefs := supersedesRefs, supersededByRefs := [] })

/-- A decision, and its restatement under the same id. -/
def firstWording : ContextItem := storageDecision "D-1" "one database" []

def secondWording : ContextItem :=
  storageDecision "D-1" "one database a service" [firstWording.itemId]

/-- A later decision that retires the whole of the first. -/
def laterDecision : ContextItem := storageDecision "D-2" "no database" ["D-1"]

theorem storageDecision_recipe (decisionId statement : String) (supersedesRefs : List String) :
    (storageDecision decisionId statement supersedesRefs).itemId
      = (storageDecision decisionId statement supersedesRefs).expectedItemId :=
  rfl

/-- Decisions of two statements have two item ids. -/
theorem storageDecision_itemId_ne (hsha : Sha256.Injective) {d d' p p' : String}
    {refs refs' : List String} (hne : p ≠ p') :
    (storageDecision d p refs).itemId ≠ (storageDecision d' p' refs').itemId := by
  intro hid
  have hsame := sameItem_of_id hsha (storageDecision_recipe d p refs)
    (storageDecision_recipe d' p' refs') hid
  have hfield := hsame.claim.field "statement"
  simp [storageDecision, ContextItem.create, Claim.payload, Json.field] at hfield
  exact hne hfield

theorem domain_not_itemId (d p : String) (refs : List String) (n : String)
    (hn : n.toList.head? = some 'D') : (storageDecision d p refs).itemId ≠ n :=
  itemId_ne_of_recipe (storageDecision_recipe d p refs) (by rw [hn]; decide)

/-- Only its restatement names the first wording, and only by item id. -/
theorem restated_sibling {members : List ContextItem}
    (hmembers : ∀ c ∈ members, c = firstWording ∨ c = secondWording ∨ c = laterDecision)
    {s t : String} (h : NamesSibling members s t) :
    s = secondWording.itemId ∧ t = firstWording.itemId := by
  obtain ⟨x, hx, y, hy, rfl, rfl, ⟨ref, href, ⟨hitem, -⟩, -⟩ | ⟨ref, href, -⟩, -⟩ := h
  · rcases hmembers x hx with rfl | rfl | rfl
    · cases href
    · obtain rfl := List.mem_singleton.mp href
      exact ⟨rfl, hitem⟩
    · obtain rfl := List.mem_singleton.mp href
      rcases hmembers y hy with rfl | rfl | rfl <;>
        exact absurd hitem (domain_not_itemId _ _ _ _ (by decide))
  · rcases hmembers y hy with rfl | rfl | rfl <;> cases href

/-- Nothing retires a claim that no reference names. -/
theorem offCycle_of_unnamed (hsha : Sha256.Injective) {members : List ContextItem}
    (hmembers : ∀ c ∈ members, c = firstWording ∨ c = secondWording ∨ c = laterDecision)
    {c : ContextItem} (hc : c ∈ members) (hne : c.itemId ≠ firstWording.itemId)
    (hlater : domainId c = "D-1" → laterDecision ∉ members) :
    Reach.OffCycle (Retires members) c.itemId := by
  intro hloop
  obtain ⟨s, -, x, hx, y, hy, -, hid, hnames, -⟩ := TransGen.tail'_iff.mp hloop
  have hrecipe : ∀ d ∈ members, d.itemId = d.expectedItemId := by
    intro d hd
    rcases hmembers d hd with rfl | rfl | rfl <;> rfl
  have hdomain : domainId y = domainId c :=
    settledDomains_of_recipe hsha hrecipe y hy c hc hid
  rcases hnames with ⟨ref, href, hnames⟩ | ⟨ref, href, -⟩
  · rcases hmembers x hx with rfl | rfl | rfl
    · cases href
    · obtain rfl := List.mem_singleton.mp href
      rcases hnames with ⟨hitem, -⟩ | ⟨-, hdom, -⟩
      · exact hne (hid.symm.trans hitem)
      · have hword : domainId y ∈ ["D-1", "D-2"] := by
          rcases hmembers y hy with rfl | rfl | rfl <;>
            simp [domainId, firstWording, secondWording, laterDecision, storageDecision,
              ContextItem.create]
        rw [hdom] at hword
        rcases List.mem_cons.mp hword with h | h
        · exact domain_not_itemId _ _ _ _ (by decide) h
        · exact domain_not_itemId _ _ _ _ (by decide) (List.mem_singleton.mp h)
    · obtain rfl := List.mem_singleton.mp href
      rcases hnames with ⟨hitem, -⟩ | ⟨-, hdom, -⟩
      · rcases hmembers y hy with rfl | rfl | rfl <;>
          exact domain_not_itemId _ _ _ _ (by decide) hitem
      · exact hlater (hdomain.symm.trans hdom) hx
  · rcases hmembers y hy with rfl | rfl | rfl <;> cases href

/-- A decision recorded twice under one id. -/
def restatedDecisions : List ContextItem := [firstWording, secondWording]

/-- The same, with a later decision that retires both. -/
def replacedDecisions : List ContextItem := [firstWording, secondWording, laterDecision]

omit [Sha256] in
/-- Among claims of the strongest authority no edge is refused. -/
theorem rankOf_strongest {members : List ContextItem}
    (h : ∀ c ∈ members, c.authorityRank = 0) (id : String) : rankOf members id = 0 := by
  unfold rankOf
  cases hheld : byItem members id with
  | none => rfl
  | some held => exact h held (byItem_eq_some hheld).1

theorem replaced_named : ∀ c ∈ replacedDecisions,
    c = firstWording ∨ c = secondWording ∨ c = laterDecision := by
  intro c hc
  simpa [replacedDecisions] using hc

theorem replaced_recipe : ∀ c ∈ replacedDecisions, c.itemId = c.expectedItemId := by
  intro c hc
  rcases replaced_named c hc with rfl | rfl | rfl <;> rfl

theorem restated_sub : ∀ c ∈ restatedDecisions, c ∈ replacedDecisions := by
  intro c hc
  exact List.mem_append_left [laterDecision] hc

theorem replaced_rank : ∀ c ∈ replacedDecisions, c.authorityRank = 0 := by
  intro c hc
  rcases replaced_named c hc with rfl | rfl | rfl <;> rfl

/-- The later decision retires the first wording by its domain id. -/
theorem later_retires_first :
    Retires replacedDecisions laterDecision.itemId firstWording.itemId := by
  refine ⟨laterDecision, by simp [replacedDecisions], firstWording,
    by simp [replacedDecisions], rfl, rfl, Or.inl ⟨"D-1", List.mem_singleton_self _, Or.inr ?_⟩, ?_⟩
  · refine ⟨fun c hc => ?_, rfl, show "D-2" ≠ "D-1" by decide⟩
    rcases replaced_named c hc with rfl | rfl | rfl <;>
      exact domain_not_itemId _ _ _ _ (by decide)
  · rw [rankOf_strongest replaced_rank, rankOf_strongest replaced_rank]

/-- The later decision answers for the restatement. -/
theorem replaced_excused (hsha : Sha256.Injective) : SiblingsExcused replacedDecisions := by
  have hsettled := settledDomains_of_recipe hsha replaced_recipe
  constructor
  · intro s t hsibling _
    obtain ⟨-, rfl⟩ := restated_sibling replaced_named hsibling
    have hlater : laterDecision ∈ replacedDecisions := by simp [replacedDecisions]
    have hfirst : firstWording ∈ replacedDecisions := by simp [replacedDecisions]
    refine ⟨laterDecision.itemId, later_retires_first, ?_, ?_⟩
    · refine offCycle_of_unnamed hsha replaced_named hlater
        (storageDecision_itemId_ne hsha (by decide)) (fun hdomain => ?_)
      exact absurd (show "D-2" = "D-1" from hdomain) (by decide)
    · rw [domainOf_of_mem hsettled hlater, domainOf_of_mem hsettled hfirst]
      show "D-2" ≠ "D-1"
      decide
  · intro s hloop
    -- the restatement names the first wording, which names nothing
    obtain ⟨a, hfirst, -⟩ := TransGen.head'_iff.mp hloop
    obtain ⟨b, -, hlast⟩ := TransGen.tail'_iff.mp hloop
    have hs := (restated_sibling replaced_named hfirst).1
    have ht := (restated_sibling replaced_named hlast).2
    exact absurd (hs.symm.trans ht) (storageDecision_itemId_ne hsha (by decide))

/-- The restatement retires the first wording, and nothing else does. -/
theorem first_retired_by_own (hsha : Sha256.Injective) :
    RetiredByOwn restatedDecisions firstWording := by
  have hnamed : ∀ c ∈ restatedDecisions,
      c = firstWording ∨ c = secondWording ∨ c = laterDecision :=
    fun c hc => replaced_named c (restated_sub c hc)
  have hrank : ∀ c ∈ restatedDecisions, c.authorityRank = 0 :=
    fun c hc => replaced_rank c (restated_sub c hc)
  have hsettled := settledDomains_of_recipe hsha
    (fun c hc => replaced_recipe c (restated_sub c hc))
  have hne : secondWording.itemId ≠ firstWording.itemId :=
    storageDecision_itemId_ne hsha (by decide)
  have hfirst : firstWording ∈ restatedDecisions := List.mem_cons_self ..
  have hsecond : secondWording ∈ restatedDecisions := by simp [restatedDecisions]
  have hretires : Retires restatedDecisions secondWording.itemId firstWording.itemId := by
    refine ⟨secondWording, hsecond, firstWording, hfirst, rfl, rfl,
      Or.inl ⟨firstWording.itemId, List.mem_singleton_self _, Or.inl ⟨rfl, hne.symm⟩⟩, ?_⟩
    rw [rankOf_strongest hrank, rankOf_strongest hrank]
  have hoff : Reach.OffCycle (Retires restatedDecisions) secondWording.itemId := by
    refine offCycle_of_unnamed hsha hnamed hsecond hne (fun _ hlater => ?_)
    simp only [restatedDecisions, List.mem_cons, List.not_mem_nil, or_false] at hlater
    rcases hlater with h | h
    · exact storageDecision_itemId_ne hsha (by decide) (congrArg ContextItem.itemId h)
    · exact storageDecision_itemId_ne hsha (by decide) (congrArg ContextItem.itemId h)
  rw [retires_eq hsettled] at hretires hoff
  refine ⟨hfirst, mem_supersededItems.mpr ⟨_, hretires, hoff⟩, fun s hs _ _ => ?_⟩
  simp only [restatedDecisions, List.mem_cons, List.not_mem_nil, or_false] at hs
  rcases hs with hs | hs
  · rw [hs]
  · rw [hs]
    rfl

end Restated

/-- A restated decision that a later one retires falls to the later one
as well. -/
theorem replaced_decisions_stand : OnlyOthersRetire (@replacedDecisions Sha256.transparent) :=
  (@only_others_retire_iff Sha256.transparent Sha256.transparent_injective _
    (@replaced_recipe Sha256.transparent)).mpr
    (@replaced_excused Sha256.transparent Sha256.transparent_injective)

/-- A decision that restates another under the same id retires it. -/
theorem restated_decision_retired :
    ¬OnlyOthersRetire (@restatedDecisions Sha256.transparent) := by
  rintro ⟨hretired, -⟩
  exact hretired _ (@first_retired_by_own Sha256.transparent Sha256.transparent_injective)

end CognitiveRuntime
