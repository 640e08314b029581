import CognitiveRuntime.Properties.ArchitectureSurvival

/-!
# Who caused an unknown

What supersession finds in doubt, view by view, and what is left of it
in a finished context. The id of an unknown covers the doubt but not who
raised it: of all the views that record a doubt under one id, the last
one written speaks for them.
-/

namespace CognitiveRuntime

open Ordered Fallible

/-! ## Doubts -/

/-- A doubt about the supersession of some candidates: a cycle, at one of
the identifiers it touches, a refused edge, or a dangling reference with
those who made it. -/
inductive Doubt where
  | cycle (component : List String) (domain : String)
  | refused (edge : String × String)
  | dangling (entry : (String × String) × List String)

/-- The doubts about a list of candidates of one kind. -/
def doubts (members : List ContextItem) : List Doubt :=
  (supersessionCycles members).flatMap (fun component =>
      (sortedUnique (component.map (domainOf members))).map (.cycle component))
    ++ (refusedEdges members).map .refused ++ (danglingRefs members).map .dangling

/-- A doubt and the candidates that it was found in. -/
structure Sighting where
  kind : ContextKind
  members : List ContextItem
  doubt : Doubt

/-- What the record of a doubt tells apart. -/
inductive DoubtLabel where
  | cycle (kind : ContextKind) (domain : String) (domains ids : List String)
  | refused (kind : ContextKind) (domain level domain' level' : String)
  | dangling (kind : ContextKind) (domain ref : String)
  deriving DecidableEq

/-- The reason codes under which doubts are recorded. -/
def UnknownReasonCode.recordsDoubt : UnknownReasonCode → Bool
  | .unknownSupersession | .danglingSupersession => true
  | _ => false

namespace DoubtLabel

def key : DoubtLabel → String
  | .cycle _ domain _ _ => domain
  | .refused _ domain _ _ _ => domain
  | .dangling _ domain _ => domain

def reason : DoubtLabel → UnknownReasonCode
  | .cycle .. => .unknownSupersession
  | .refused .. => .unknownSupersession
  | .dangling .. => .danglingSupersession

def details : DoubtLabel → List (String × Json)
  | .cycle kind _ domains ids =>
      [("context_kind", .str kind.value), ("reason", .str "supersession cycle"),
        ("cycle_members", .ofStrings domains), ("cycle_item_ids", .ofStrings ids)]
  | .refused kind _ level domain' level' =>
      [("context_kind", .str kind.value),
        ("reason", .str "weaker authority may not supersede a stronger claim"),
        ("superseder_authority", .str level), ("superseded", .str domain'),
        ("superseded_authority", .str level')]
  | .dangling kind _ ref =>
      [("context_kind", .str kind.value), ("unresolved_ref", .str ref)]

/-- A label can be read off its record. -/
theorem eq_of_record {a b : DoubtLabel} (hkey : a.key = b.key) (hreason : a.reason = b.reason)
    (hdetails : Json.normalize (.obj a.details) = Json.normalize (.obj b.details)) : a = b := by
  have hfield := fun key => Json.field_of_normalize_eq hdetails key
  have hkind := hfield "context_kind"
  have htext := hfield "reason"
  cases a with
  | cycle kind domain domains ids =>
      cases b with
      | cycle kind' domain' domains' ids' =>
          have hdomains := hfield "cycle_members"
          have hids := hfield "cycle_item_ids"
          simp [details, Json.field, ContextKind.value_inj, Json.ofStrings_inj] at hkind hdomains hids
          obtain rfl : domain = domain' := hkey
          rw [hkind, hdomains, hids]
      | refused => simp [details, Json.field] at htext
      | dangling => cases hreason
  | refused kind domain level other level' =>
      cases b with
      | cycle => simp [details, Json.field] at htext
      | refused kind' domain' level₁ other' level₁' =>
          have hlevel := hfield "superseder_authority"
          have hother := hfield "superseded"
          have hlevel' := hfield "superseded_authority"
          simp [details, Json.field, ContextKind.value_inj] at hkind hlevel hother hlevel'
          obtain rfl : domain = domain' := hkey
          rw [hkind, hlevel, hother, hlevel']
      | dangling => cases hreason
  | dangling kind domain ref =>
      cases b with
      | cycle => cases hreason
      | refused => cases hreason
      | dangling kind' domain' ref' =>
          have href := hfield "unresolved_ref"
          simp [details, Json.field, ContextKind.value_inj] at hkind href
          obtain rfl : domain = domain' := hkey
          rw [hkind, href]

end DoubtLabel

namespace Sighting

/-- The claims that caused the doubt. -/
def causes (s : Sighting) : List ContextItem :=
  match s.doubt with
  | .cycle component _ => component.filterMap (byItem s.members)
  | .refused edge => (byItem s.members edge.1).toList ++ (byItem s.members edge.2).toList
  | .dangling entry => entry.2.filterMap (byItem s.members)

def label (s : Sighting) : DoubtLabel :=
  let level := fun id =>
    ((byItem s.members id).map fun item => item.authorityLevel.value).getD ""
  match s.doubt with
  | .cycle component domain =>
      .cycle s.kind domain (sortedUnique (component.map (domainOf s.members)))
        (sortedBy id component)
  | .refused edge =>
      .refused s.kind (domainOf s.members edge.1) (level edge.1) (domainOf s.members edge.2)
        (level edge.2)
  | .dangling entry => .dangling s.kind entry.1.1 entry.1.2

def materiality (s : Sighting) : UnknownMateriality :=
  match s.doubt with
  | .cycle .. => truthTierMateriality s.causes
  | _ => .nonBlocking

variable [Sha256]

/-- The unknown that records a sighting. -/
def unknown (s : Sighting) : ContextUnknown :=
  .create none (some s.label.key) s.label.reason s.label.details s.materiality
    (causalSourceRefs s.causes)

/-- Sightings share an id exactly where they share a label. -/
theorem unknownId_eq_iff (hsha : Sha256.Injective) {s t : Sighting} :
    s.unknown.unknownId = t.unknown.unknownId ↔ s.label = t.label := by
  constructor
  · intro h
    have hsame := sameIdentity_of_id hsha (ContextUnknown.create_valid ..)
      (ContextUnknown.create_valid ..) h
    exact DoubtLabel.eq_of_record (Option.some.inj hsame.semanticKey) hsame.reasonCode hsame.details
  · intro h
    unfold unknown ContextUnknown.create
    rw [h]

end Sighting

section Provenance

variable [Sha256]

/-- The unknowns of a kind record its doubts. -/
theorem supersessionUnknowns_eq (kind : ContextKind) (members : List ContextItem) :
    supersessionUnknowns kind members
      = (doubts members).map fun doubt => Sighting.unknown ⟨kind, members, doubt⟩ := by
  unfold supersessionUnknowns doubts
  rw [List.map_append, List.map_append, List.map_flatMap, List.map_map, List.map_map]
  congr 2
  refine List.flatMap_congr fun component _ => ?_
  rw [List.map_map]
  rfl

/-- The sightings in one candidate list, kind by kind. -/
def sightingsIn (items : List ContextItem) : List Sighting :=
  (groupBy ContextItem.contextKind items).flatMap fun entry =>
    if isSupersessionKind entry.1 then
      (doubts entry.2).map fun doubt => ⟨entry.1, entry.2, doubt⟩
    else []

theorem view_unknowns_eq (items : List ContextItem) :
    (resolveCandidates items).supersessionUnknowns
      = (sightingsIn items).map Sighting.unknown := by
  show (applySupersession items).2 = _
  unfold applySupersession sightingsIn
  rw [List.map_flatMap]
  refine List.flatMap_congr fun entry _ => ?_
  split
  · rw [List.map_map]
    exact supersessionUnknowns_eq entry.1 entry.2
  · rfl

/-! ## The views of a compile -/

/-- The candidates that discovery resolves. -/
def routingCandidates (inputs : CompileInputs) : List ContextItem :=
  inputs.resolution.candidates.filter (discoveryEligible inputs.scope.eligibleRefs)

/-- The candidates that a requirement resolves. -/
def requirementCandidates (inputs : CompileInputs) (r : ContextRequirement) : List ContextItem :=
  inputs.resolution.candidates.filter (matchesRequirement r)

/-- Everything the views of a compile find in doubt, discovery first and
then the requirements of the plan in order. -/
def sightings (inputs : CompileInputs) : List Sighting :=
  sightingsIn (routingCandidates inputs)
    ++ inputs.requirementPlan.requirements.flatMap fun r =>
      sightingsIn (requirementCandidates inputs r)

/-! ## Nothing else has the id of a doubt -/

omit [Sha256] in
theorem sighting_reason (s : Sighting) : s.label.reason.recordsDoubt = true := by
  cases s.label <;> rfl

/-- A doubt is recorded under no other reason. -/
theorem doubt_reason_ne {reason : UnknownReasonCode} (h : reason.recordsDoubt = false)
    (s : Sighting) : s.unknown.reasonCode ≠ reason := by
  intro hreason
  have hlabel : s.label.reason = reason := hreason
  rw [← hlabel, sighting_reason] at h
  cases h

theorem unknownId_ne_of_reason (hsha : Sha256.Injective) {u : ContextUnknown} (hu : u.Valid)
    (h : u.reasonCode.recordsDoubt = false) (s : Sighting) :
    u.unknownId ≠ s.unknown.unknownId := by
  intro hid
  have hreason : u.reasonCode = s.label.reason :=
    (sameIdentity_of_id hsha hu (ContextUnknown.create_valid ..) hid).reasonCode
  rw [hreason, sighting_reason] at h
  cases h

/-- A decision of unknown status is not a doubt about supersession. -/
theorem unknownStatus_id_ne (hsha : Sha256.Injective) {selected : List ContextItem}
    {u : ContextUnknown} (hu : u ∈ unknownStatusDecisions selected) (s : Sighting) :
    u.unknownId ≠ s.unknown.unknownId := by
  intro hid
  obtain ⟨item, -, h⟩ := List.mem_filterMap.mp hu
  split at h
  · split at h
    · obtain rfl := Option.some.inj h
      have hsame := sameIdentity_of_id hsha (ContextUnknown.create_valid ..)
        (ContextUnknown.create_valid ..) hid
      have htext : some (Json.str "decision status unknown")
          = (Json.field "reason" s.label.details).map Json.normalize := hsame.recorded "reason"
      have hreason : UnknownReasonCode.unknownSupersession = s.label.reason := hsame.reasonCode
      cases hlabel : s.label with
      | cycle => simp [hlabel, DoubtLabel.details, Json.field] at htext
      | refused => simp [hlabel, DoubtLabel.details, Json.field] at htext
      | dangling =>
          rw [hlabel] at hreason
          cases hreason
    · cases h
  · cases h

/-- A requirement writes the id of a doubt only where its view does. -/
theorem lastBy_selectFor (hsha : Sha256.Injective) {budget : ContextBudget}
    {resolution : SnapshotResolution} {r : ContextRequirement} {before after : Selection}
    {unknowns : List ContextUnknown}
    (h : selectFor budget resolution r before = .ok (after, unknowns)) (s : Sighting) :
    lastBy ContextUnknown.unknownId s.unknown.unknownId unknowns
      = lastBy ContextUnknown.unknownId s.unknown.unknownId
          (requirementView resolution r).supersessionUnknowns := by
  obtain ⟨state, stop, short, -, hshort, -, rfl⟩ := selectFor_ok h
  have hconflicts : lastBy ContextUnknown.unknownId s.unknown.unknownId
      ((conflictGroups (requirementView resolution r)).map (requirementConflict r)) = none := by
    refine lastBy_eq_none _ fun u hu => ?_
    obtain ⟨entry, -, rfl⟩ := List.mem_map.mp hu
    exact unknownId_ne_of_reason hsha (ContextUnknown.create_valid ..) rfl s
  have hshortfall : lastBy ContextUnknown.unknownId s.unknown.unknownId short = none := by
    refine lastBy_eq_none _ fun u hu => ?_
    obtain ⟨reason, details, hreason, rfl⟩ := mem_shortfall hshort hu
    rcases hreason with rfl | rfl <;>
      exact unknownId_ne_of_reason hsha (ContextUnknown.create_valid ..) rfl s
  rw [lastBy_append, lastBy_append, hshortfall, hconflicts, Option.none_or, Option.none_or]

theorem lastBy_selectAll (hsha : Sha256.Injective) {budget : ContextBudget}
    {resolution : SnapshotResolution} (s : Sighting) :
    ∀ {requirements : List ContextRequirement} {before after : Selection}
      {unknowns : List ContextUnknown},
      selectAll budget resolution requirements before = .ok (after, unknowns) →
      lastBy ContextUnknown.unknownId s.unknown.unknownId unknowns
        = lastBy ContextUnknown.unknownId s.unknown.unknownId (requirements.flatMap fun r =>
            (requirementView resolution r).supersessionUnknowns)
  | [], _, _, _, h => by
      rw [← (Prod.mk.inj (Except.ok.inj h)).2]
      rfl
  | r :: rest, _, _, _, h => by
      simp only [selectAll, bind_eq_ok, Prod.exists] at h
      obtain ⟨middle, first, hfirst, last, others, hothers, h⟩ := h
      rw [← (Prod.mk.inj (Except.ok.inj h)).2, List.flatMap_cons, lastBy_append, lastBy_append,
        lastBy_selectFor hsha hfirst s, lastBy_selectAll hsha s hothers]

/-- Discovery writes the id of a doubt only where its view does. -/
theorem lastBy_discover (hsha : Sha256.Injective) (scope : TaskScope)
    (resolution : SnapshotResolution) (s : Sighting) :
    lastBy ContextUnknown.unknownId s.unknown.unknownId
        (discover scope resolution).unresolvedUnknowns
      = lastBy ContextUnknown.unknownId s.unknown.unknownId
          (resolution.resolve (discoveryEligible scope.eligibleRefs)).supersessionUnknowns := by
  show lastBy _ _ (dedupeUnknowns _) = _
  unfold dedupeUnknowns
  rw [lastBy_dedupeLast, lastBy_append, lastBy_eq_none _ fun u hu => ?_, Option.none_or]
  obtain ⟨entry, -, rfl⟩ := List.mem_map.mp hu
  exact unknownId_ne_of_reason hsha (ContextUnknown.create_valid ..) rfl s

/-- What a finished context holds under the id of a doubt: the last
sighting of it. -/
theorem final_of_sighting (hsha : Sha256.Injective) {inputs : CompileInputs}
    {context : CompiledTaskContext}
    (hdiscovery : inputs.discovery = discover inputs.scope inputs.resolution)
    (hcompile : compileContext inputs = .ok context) {s : Sighting} (hs : s ∈ sightings inputs)
    {u : ContextUnknown} :
    u ∈ context.unresolvedUnknowns ∧ u.unknownId = s.unknown.unknownId ↔
      ∃ t, lastBy Sighting.label s.label (sightings inputs) = some t ∧ u = t.unknown := by
  obtain ⟨selection, unknowns, hselect, rfl⟩ := compileContext_ok hcompile
  have hgaps : lastBy ContextUnknown.unknownId s.unknown.unknownId
      (unknownStatusDecisions selection.selected ++ gapUnknowns inputs selection.selected)
      = none := by
    refine lastBy_eq_none _ fun u hu => ?_
    rcases List.mem_append.mp hu with hu | hu
    · exact unknownStatus_id_ne hsha hu s
    · rcases mem_gapUnknowns hu with ⟨id, state, rfl⟩ | ⟨r', state, rfl⟩ <;>
        exact unknownId_ne_of_reason hsha (ContextUnknown.create_valid ..) rfl s
  have hviews : (sightings inputs).map Sighting.unknown
      = (resolveCandidates (routingCandidates inputs)).supersessionUnknowns
        ++ inputs.requirementPlan.requirements.flatMap fun r =>
          (requirementView inputs.resolution r).supersessionUnknowns := by
    unfold sightings
    rw [List.map_append, List.map_flatMap, ← view_unknowns_eq]
    congr 1
    exact List.flatMap_congr fun r _ => (view_unknowns_eq _).symm
  have hlast : lastBy ContextUnknown.unknownId s.unknown.unknownId
      ((sightings inputs).map Sighting.unknown)
      = (lastBy Sighting.label s.label (sightings inputs)).map Sighting.unknown :=
    lastBy_map _ fun t _ => Sighting.unknownId_eq_iff hsha
  obtain ⟨t, ht⟩ := exists_lastBy Sighting.label (List.mem_map_of_mem hs)
  -- the scope is written before every view
  have hcontributed : lastBy ContextUnknown.unknownId s.unknown.unknownId
      (contributedUnknowns inputs unknowns selection.selected) = some t.unknown := by
    rw [ht, Option.map_some, hviews, lastBy_append] at hlast
    have happend : contributedUnknowns inputs unknowns selection.selected
        = inputs.scope.unresolvedUnknowns ++ (inputs.discovery.unresolvedUnknowns ++ (unknowns
          ++ (unknownStatusDecisions selection.selected
            ++ gapUnknowns inputs selection.selected))) := by
      simp only [contributedUnknowns, gapUnknowns, List.append_assoc]
    rw [happend, lastBy_append, lastBy_append, lastBy_append, hgaps, Option.none_or,
      lastBy_selectAll hsha s hselect, hdiscovery, lastBy_discover hsha]
    show (Option.or _ (lastBy _ _ (resolveCandidates
      (routingCandidates inputs)).supersessionUnknowns)).or _ = _
    rw [hlast, Option.some_or]
  rw [assembleContext_unknowns, mem_dedupeUnknowns]
  constructor
  · rintro ⟨hu, hid⟩
    rw [hid, hcontributed] at hu
    exact ⟨t, ht, (Option.some.inj hu).symm⟩
  · rintro ⟨t', ht', rfl⟩
    rw [ht] at ht'
    obtain rfl := Option.some.inj ht'
    have hid := (lastBy_eq_some _ hcontributed).2
    exact ⟨hid ▸ hcontributed, hid⟩

/-! ## Whose word is kept -/

/-- Every doubt of every view is on record with the source of each claim
that the view found to have caused it. -/
def CausesKept (inputs : CompileInputs) (context : CompiledTaskContext) : Prop :=
  ∀ s ∈ sightings inputs, ∃ u ∈ context.unresolvedUnknowns,
    u.unknownId = s.unknown.unknownId ∧ ∀ c ∈ s.causes, c.sourceRef ∈ u.sourceRefs

/-- The last view to see a doubt knows every source that any view has for
it. -/
def LastSightingTellsAll (inputs : CompileInputs) : Prop :=
  ∀ s ∈ sightings inputs, ∀ last, lastBy Sighting.label s.label (sightings inputs) = some last →
    ∀ c ∈ s.causes, c.sourceRef ∈ causalSourceRefs last.causes

/-- Causal provenance is kept exactly where the last sighting of each
doubt tells it all. -/
theorem causes_kept_iff (hsha : Sha256.Injective) (inputs : CompileInputs)
    (context : CompiledTaskContext)
    (hdiscovery : inputs.discovery = discover inputs.scope inputs.resolution)
    (hcompile : compileContext inputs = .ok context) :
    CausesKept inputs context ↔ LastSightingTellsAll inputs := by
  constructor
  · intro hkept s hs last hlast c hc
    obtain ⟨u, hu, hid, hsources⟩ := hkept s hs
    obtain ⟨t, ht, rfl⟩ := (final_of_sighting hsha hdiscovery hcompile hs).mp ⟨hu, hid⟩
    obtain rfl := Option.some.inj (ht.symm.trans hlast)
    exact hsources c hc
  · intro htells s hs
    obtain ⟨last, hlast⟩ := exists_lastBy Sighting.label (List.mem_map_of_mem hs)
    obtain ⟨hu, hid⟩ := (final_of_sighting hsha hdiscovery hcompile hs).mpr ⟨last, hlast, rfl⟩
    exact ⟨_, hu, hid, htells s hs last hlast⟩

/-! ## Causes -/

omit [Sha256] in
theorem mem_sightingsIn {items : List ContextItem} {s : Sighting} :
    s ∈ sightingsIn items ↔ isSupersessionKind s.kind = true
      ∧ s.members = ofKindIn s.kind items ∧ s.doubt ∈ doubts s.members := by
  unfold sightingsIn
  rw [List.mem_flatMap]
  constructor
  · rintro ⟨⟨kind, members⟩, hgroup, hs⟩
    obtain ⟨-, rfl⟩ := (mem_groupBy _).mp hgroup
    split at hs
    · next hkind =>
      obtain ⟨doubt, hdoubt, rfl⟩ := List.mem_map.mp hs
      exact ⟨hkind, rfl, hdoubt⟩
    · cases hs
  · obtain ⟨kind, members, doubt⟩ := s
    rintro ⟨hkind, hmembers, hdoubt⟩
    dsimp only at hkind hmembers hdoubt
    subst hmembers
    by_cases hmem : kind ∈ items.map ContextItem.contextKind
    · refine ⟨(kind, ofKindIn kind items), (mem_groupBy _).mpr ⟨hmem, rfl⟩, ?_⟩
      rw [if_pos hkind]
      exact List.mem_map_of_mem hdoubt
    · have hnone : ofKindIn kind items = [] := by
        refine List.filter_eq_nil_iff.mpr fun item hitem hkind' => hmem ?_
        rw [← of_decide_eq_true hkind']
        exact List.mem_map_of_mem hitem
      rw [hnone] at hdoubt
      cases hdoubt

omit [Sha256] in
theorem mem_causes {s : Sighting} {c : ContextItem} (h : c ∈ s.causes) : c ∈ s.members := by
  unfold Sighting.causes at h
  split at h
  · obtain ⟨id, -, hid⟩ := List.mem_filterMap.mp h
    exact (byItem_eq_some hid).1
  · rcases List.mem_append.mp h with h | h <;> exact (byItem_eq_some (Option.mem_toList.mp h)).1
  · obtain ⟨id, -, hid⟩ := List.mem_filterMap.mp h
    exact (byItem_eq_some hid).1

omit [Sha256] in
/-- No doubt is without a cause. -/
theorem causes_ne_nil {s : Sighting} (h : s.doubt ∈ doubts s.members) : s.causes ≠ [] := by
  have hsome : ∀ {ids : List String} {id : String}, id ∈ ids →
      id ∈ s.members.map ContextItem.itemId → ids.filterMap (byItem s.members) ≠ [] := by
    intro ids id hid hmem
    obtain ⟨item, hitem⟩ := exists_byItem hmem
    exact List.ne_nil_of_mem (List.mem_filterMap.mpr ⟨id, hid, hitem⟩)
  unfold Sighting.causes
  cases hdoubt : s.doubt with
  | cycle component domain =>
      rw [hdoubt] at h
      simp only [doubts, List.mem_append, List.mem_flatMap, List.mem_map, mem_sortedUnique,
        Doubt.cycle.injEq, reduceCtorEq, and_false, exists_false, or_false] at h
      obtain ⟨component, hcomponent, domain, ⟨id, hid, -⟩, rfl, -⟩ := h
      have hcycle : id ∈ onCycle s.members := List.mem_flatten.mpr ⟨component, hcomponent, hid⟩
      obtain ⟨other, hedge, -⟩ := Relation.TransGen.head'_iff.mp (mem_onCycle.mp hcycle)
      exact hsome hid (supersedes_endpoints hedge).1
  | refused edge =>
      rw [hdoubt] at h
      simp only [doubts, List.mem_append, List.mem_flatMap, List.mem_map, reduceCtorEq, and_false,
        exists_false, false_or, or_false, Doubt.refused.injEq, exists_eq_right] at h
      have hproposed := (List.mem_filter.mp (mem_firstSeen.mp ((mem_sortedBy _).mp h))).1
      obtain ⟨item, hitem⟩ := exists_byItem (proposed_endpoints hproposed).1
      dsimp only
      rw [hitem]
      exact List.cons_ne_nil _ _
  | dangling entry =>
      rw [hdoubt] at h
      simp only [doubts, List.mem_append, List.mem_flatMap, List.mem_map, reduceCtorEq, and_false,
        exists_false, false_or, Doubt.dangling.injEq, exists_eq_right] at h
      obtain ⟨⟨key, found⟩, hgroup, rfl⟩ := List.mem_map.mp ((mem_sortedBy _).mp h)
      obtain ⟨made, hmade⟩ := List.exists_mem_of_ne_nil _ (groupBy_ne_nil _ hgroup)
      obtain ⟨item, hitem, href⟩ := List.mem_flatMap.mp (mem_of_mem_groupBy _ hgroup hmade).1
      obtain ⟨ref, -, rfl⟩ := List.mem_map.mp href
      exact hsome (List.mem_map_of_mem hmade) (List.mem_map_of_mem hitem)

omit [Sha256] in
theorem mem_sightings {inputs : CompileInputs} {s : Sighting} (h : s ∈ sightings inputs) :
    s.doubt ∈ doubts s.members ∧ ∀ c ∈ s.members, c ∈ inputs.resolution.candidates := by
  obtain ⟨eligible, hs⟩ : ∃ eligible, s ∈ sightingsIn
      (inputs.resolution.candidates.filter eligible) := by
    rcases List.mem_append.mp h with h | h
    · exact ⟨_, h⟩
    · obtain ⟨r, -, hr⟩ := List.mem_flatMap.mp h
      exact ⟨_, hr⟩
  obtain ⟨-, hmembers, hdoubt⟩ := mem_sightingsIn.mp hs
  refine ⟨hdoubt, fun c hc => ?_⟩
  rw [hmembers] at hc
  exact (List.mem_filter.mp (List.mem_filter.mp hc).1).1

omit [Sha256] in
/-- Candidates of one source have nothing to forget. -/
theorem tellsAll_of_one_source {inputs : CompileInputs} {ref : ContextSourceRef}
    (h : ∀ c ∈ inputs.resolution.candidates, c.sourceRef = ref) :
    LastSightingTellsAll inputs := by
  intro s hs last hlast c hc
  obtain ⟨hdoubt, hcandidates⟩ := mem_sightings (lastBy_eq_some _ hlast).1
  obtain ⟨cause, hcause⟩ := List.exists_mem_of_ne_nil _ (causes_ne_nil hdoubt)
  obtain ⟨kept, hkept, -⟩ : ∃ kept ∈ causalSourceRefs last.causes,
      sourceSortKey kept = sourceSortKey cause.sourceRef :=
    exists_mem_dedupeLast (List.mem_map_of_mem hcause)
  obtain ⟨other, hother, rfl⟩ := List.mem_map.mp (mem_of_mem_dedupeLast hkept)
  rw [h c ((mem_sightings hs).2 c (mem_causes hc)), ← h other (hcandidates other (mem_causes hother))]
  exact hkept

end Provenance

/-! ## Laws of an audit -/

section Rules

attribute [local instance] Sha256.transparent

/-- A law with its source, authority and the identifiers it retires. -/
def rule (id source : String) (level : AuthorityLevel) (supersedes : List String) : ContextItem :=
  .create level
    { sourceId := source, sourceKind := "document", locator := source
      immutableCoordinate := some "3f2a", contentDigest := none }
    .global []
    (.applicableLaw
      { lawId := id, statement := "keep the logs", appliesBecause := [], precedence := none
        supersedesRefs := supersedes })

theorem rule_valid {id source : String} (level : AuthorityLevel) (supersedes : List String)
    (hid : isBlank id = false) (hsource : isBlank source = false) :
    (rule id source level supersedes).Valid :=
  have hkind : isBlank "document" = false := by decide
  ContextItem.create_valid ⟨hsource, hkind, hsource⟩ hid (by decide) trivial (fun _ => rfl)
    (fun h => by cases h)

/-- A snapshot that holds laws alone. -/
def lawSnapshot (laws : List ContextItem) (h : ∀ law ∈ laws, law.Valid
    ∧ law.contextKind = .applicableLaw ∧ law.selectedBecause = []) : ContextSnapshot where
  toSnapshotBuckets := { SnapshotBuckets.empty with applicableLaw := laws }
  kinds := by
    simpa [SnapshotBuckets.named, SnapshotBuckets.empty] using fun law hlaw => (h law hlaw).2.1
  valid := by
    simpa [SnapshotBuckets.allItems, SnapshotBuckets.named, SnapshotBuckets.empty] using
      fun law hlaw => (h law hlaw).1
  unselected := by
    simpa [SnapshotBuckets.allItems, SnapshotBuckets.named, SnapshotBuckets.empty] using
      fun law hlaw => (h law hlaw).2.2

theorem lawSnapshot_candidates {laws : List ContextItem} {h : ∀ law ∈ laws, law.Valid
    ∧ law.contextKind = .applicableLaw ∧ law.selectedBecause = []} :
    (resolveSnapshot (lawSnapshot laws h).toSnapshotBuckets).candidates
      = sortedBy ContextItem.sortKey laws := by
  simp [resolveSnapshot, lawSnapshot, SnapshotBuckets.allItems, SnapshotBuckets.named,
    SnapshotBuckets.empty]

/-- The inputs of the audit over a snapshot. -/
def auditInputs (snapshot : ContextSnapshot) (plan : ContextRequirementPlan) : CompileInputs :=
  { intent := auditIntent
    scope := compileScope auditIntent
    resolution := resolveSnapshot snapshot.toSnapshotBuckets
    discovery := discover (compileScope auditIntent) (resolveSnapshot snapshot.toSnapshotBuckets)
    requirementPlan := plan
    activation := auditActivation
    kernels := []
    packageVersion := packageVersion
    defaultAuthorityOrder := defaultAuthorityOrder }

/-- The audit is planned and compiled over any snapshot. -/
theorem audit_planned (snapshot : ContextSnapshot) :
    ∃ plan context, PlannedFrom snapshot (auditInputs snapshot plan)
      ∧ compileContext (auditInputs snapshot plan) = .ok context := by
  have hneeds : NeedsAccepted [] := fun _ h => absurd h List.not_mem_nil
  obtain ⟨plan, hplan⟩ := planRequirements_ok Sha256.transparent_injective
    (compileScope auditIntent)
    (discover (compileScope auditIntent) (resolveSnapshot snapshot.toSnapshotBuckets))
    auditActivation hneeds
  have hfrom : PlannedFrom snapshot (auditInputs snapshot plan) := ⟨rfl, rfl, hplan⟩
  have hversion : isBlank packageVersion = false := by decide
  obtain ⟨context, hcompile⟩ := hfrom.finishes hneeds hversion
  exact ⟨plan, context, hfrom, hcompile⟩

/-- The planner's law requirement. -/
def lawRequirement (scope : TaskScope) : ContextRequirement :=
  (baselineSpec scope.eligibleRefs .applicableLaw
    "law and governance rules applicable to the compiled task scope").draft.canonical

theorem lawRequirement_mem {scope : TaskScope} {discovery : DiscoveryContext}
    {activation : ActivationPlan} {kernels : List KernelBinding} {plan : ContextRequirementPlan}
    (h : planRequirements scope discovery activation kernels = .ok plan) :
    lawRequirement scope ∈ plan.requirements := by
  refine ((planRequirements_eq_ok h).1 _).mpr (List.mem_map.mpr ⟨_, List.mem_append_left _ ?_, rfl⟩)
  exact List.mem_cons_of_mem _ (List.mem_cons_self ..)

/-- The audit's law requirement reads informative laws. -/
theorem audit_matches_rule (id source : String) {level : AuthorityLevel}
    (hlevel : level.rank ≤ AuthorityLevel.informative.rank) (supersedes : List String) :
    matchesRequirement (lawRequirement (compileScope auditIntent))
      (rule id source level supersedes) = true := by
  have hmode : (lawRequirement (compileScope auditIntent)).scopeMode = .global := rfl
  have hfreshness : (lawRequirement (compileScope auditIntent)).freshnessRequirement
      = .snapshotBound := rfl
  have hrank : decide ((rule id source level supersedes).authorityRank
      ≤ AuthorityLevel.informative.rank) = true := decide_eq_true hlevel
  unfold matchesRequirement scopeMatches freshnessMatches
  rw [hmode, hfreshness]
  show (true && decide ((rule id source level supersedes).authorityRank
    ≤ AuthorityLevel.informative.rank) && true && true && true) = true
  rw [hrank]
  rfl

/-! ## Two drafts that retire one law -/

/-- The law in force. -/
def retentionRule : ContextItem := rule "RETENTION" "policy" .governedAuthoritative []

/-- A draft of another law that means to retire it. -/
def draftRule (source : String) : ContextItem := rule "DRAFT" source .informative ["RETENTION"]

def draftedLaws : List ContextItem := [retentionRule, draftRule "wiki", draftRule "mail"]

theorem draftedLaws_valid : ∀ law ∈ draftedLaws, law.Valid
    ∧ law.contextKind = .applicableLaw ∧ law.selectedBecause = [] := by
  simp only [draftedLaws, List.mem_cons, List.not_mem_nil, or_false]
  rintro law (rfl | rfl | rfl) <;> exact ⟨rule_valid _ _ (by decide) (by decide), rfl, rfl⟩

/-- Laws under one id that agree on their authority are one law. -/
theorem rule_eq_of_id {id id' source source' : String} {level : AuthorityLevel}
    {supersedes : List String}
    (h : (rule id source level supersedes).itemId = (rule id' source' level supersedes).itemId) :
    rule id source level supersedes = rule id' source' level supersedes := by
  have hsame := sameItem_of_id Sha256.transparent_injective rfl rfl h
  have hkey : id = id' := hsame.semanticKey
  have hsource : source = source' := congrArg ContextSourceRef.sourceId hsame.sourceRef
  rw [hkey, hsource]

theorem draftedLaws_id_inj : ∀ a ∈ draftedLaws, ∀ b ∈ draftedLaws, a.itemId = b.itemId → a = b := by
  have hapart : ∀ source, retentionRule.itemId ≠ (draftRule source).itemId := by
    intro source h
    have hkey : "RETENTION" = "DRAFT" :=
      (sameItem_of_id Sha256.transparent_injective rfl rfl h).semanticKey
    exact absurd hkey (by decide)
  simp only [draftedLaws, List.mem_cons, List.not_mem_nil, or_false]
  rintro a (rfl | rfl | rfl) b (rfl | rfl | rfl) h
  · rfl
  · exact absurd h (hapart _)
  · exact absurd h (hapart _)
  · exact absurd h.symm (hapart _)
  · rfl
  · exact rule_eq_of_id h
  · exact absurd h.symm (hapart _)
  · exact rule_eq_of_id h
  · rfl

def draftedSnapshot : ContextSnapshot := lawSnapshot draftedLaws draftedLaws_valid

/-- The laws the law requirement resolves. -/
def draftedMembers (plan : ContextRequirementPlan) : List ContextItem :=
  ofKindIn .applicableLaw
    (requirementCandidates (auditInputs draftedSnapshot plan) (lawRequirement (compileScope auditIntent)))

theorem mem_draftedMembers {plan : ContextRequirementPlan} {law : ContextItem} :
    law ∈ draftedMembers plan ↔ law ∈ draftedLaws := by
  unfold draftedMembers ofKindIn requirementCandidates
  have hcandidates : (auditInputs draftedSnapshot plan).resolution.candidates
      = sortedBy ContextItem.sortKey draftedLaws := lawSnapshot_candidates
  rw [hcandidates, List.mem_filter, List.mem_filter, mem_sortedBy]
  constructor
  · exact fun h => h.1.1
  · intro h
    refine ⟨⟨h, ?_⟩, decide_eq_true (draftedLaws_valid law h).2.1⟩
    simp only [draftedLaws, List.mem_cons, List.not_mem_nil, or_false] at h
    rcases h with rfl | rfl | rfl <;> exact audit_matches_rule _ _ (by decide) _

theorem draft_byItem {plan : ContextRequirementPlan} {law : ContextItem} (h : law ∈ draftedLaws) :
    byItem (draftedMembers plan) law.itemId = some law :=
  byItem_of_mem (mem_draftedMembers.mpr h) fun other hother hid =>
    draftedLaws_id_inj other (mem_draftedMembers.mp hother) law h hid

/-- Each draft is refused. -/
theorem draft_refused (plan : ContextRequirementPlan) {source : String}
    (h : draftRule source ∈ draftedLaws) :
    ((draftRule source).itemId, retentionRule.itemId) ∈ refusedEdges (draftedMembers plan) := by
  have hretention : retentionRule ∈ draftedLaws := List.mem_cons_self ..
  unfold refusedEdges
  rw [mem_sortedBy, mem_firstSeen, List.mem_filter]
  constructor
  · refine proposed_by_domain (mem_draftedMembers.mpr h) (mem_draftedMembers.mpr hretention)
      (List.mem_singleton_self "RETENTION") ?_ rfl ?_ ?_
    · refine lastBy_eq_none _ fun law hlaw => itemId_ne_of_recipe ?_ (by decide)
      exact (draftedLaws_valid law (mem_draftedMembers.mp hlaw)).1.id_recipe
    · unfold domainOf
      rw [draft_byItem h]
      show "DRAFT" ≠ "RETENTION"
      decide
    · intro hid
      have hkey : "RETENTION" = "DRAFT" :=
        (sameItem_of_id Sha256.transparent_injective rfl rfl hid).semanticKey
      exact absurd hkey (by decide)
  · unfold gateAccepts rankOf
    rw [draft_byItem h, draft_byItem hretention]
    rfl

/-- The refusal of a draft, as the law requirement sees it. -/
def draftSighting (plan : ContextRequirementPlan) (source : String) : Sighting :=
  ⟨.applicableLaw, draftedMembers plan,
    .refused ((draftRule source).itemId, retentionRule.itemId)⟩

theorem draftSighting_mem {plan : ContextRequirementPlan}
    (hplan : lawRequirement (compileScope auditIntent) ∈ plan.requirements) {source : String}
    (h : draftRule source ∈ draftedLaws) :
    draftSighting plan source ∈ sightings (auditInputs draftedSnapshot plan) := by
  have hrefused : Doubt.refused ((draftRule source).itemId, retentionRule.itemId)
      ∈ doubts (draftedMembers plan) :=
    List.mem_append_left _ (List.mem_append_right _ (List.mem_map_of_mem (draft_refused plan h)))
  have hmembers : draftedMembers plan = ofKindIn .applicableLaw (requirementCandidates
      (auditInputs draftedSnapshot plan) (lawRequirement (compileScope auditIntent))) := by
    unfold draftedMembers
    rfl
  unfold draftSighting
  refine List.mem_append_right _ (List.mem_flatMap.mpr ⟨_, hplan, ?_⟩)
  rw [mem_sightingsIn]
  dsimp only
  exact ⟨rfl, hmembers, hrefused⟩

theorem draftSighting_label {plan : ContextRequirementPlan} {source : String}
    (h : draftRule source ∈ draftedLaws) :
    (draftSighting plan source).label = .refused .applicableLaw "DRAFT"
      AuthorityLevel.informative.value "RETENTION" AuthorityLevel.governedAuthoritative.value := by
  have hretention : retentionRule ∈ draftedLaws := List.mem_cons_self ..
  unfold Sighting.label draftSighting domainOf
  dsimp only
  rw [draft_byItem h, draft_byItem hretention]
  rfl

theorem draftSighting_causes {plan : ContextRequirementPlan} {source : String}
    (h : draftRule source ∈ draftedLaws) :
    (draftSighting plan source).causes = [draftRule source, retentionRule] := by
  have hretention : retentionRule ∈ draftedLaws := List.mem_cons_self ..
  unfold Sighting.causes draftSighting
  dsimp only
  rw [draft_byItem h, draft_byItem hretention]
  rfl

/-- A refused edge has two causes at most. -/
theorem refused_sources {s : Sighting} {kind : ContextKind}
    {domain level domain' level' : String}
    (h : s.label = .refused kind domain level domain' level') :
    (causalSourceRefs s.causes).length ≤ 2 := by
  have hcauses : s.causes.length ≤ 2 := by
    unfold Sighting.label at h
    unfold Sighting.causes
    cases hdoubt : s.doubt with
    | cycle => simp [hdoubt] at h
    | dangling => simp [hdoubt] at h
    | refused edge =>
        dsimp only
        rw [List.length_append]
        have hone : ∀ item : Option ContextItem, item.toList.length ≤ 1 := by
          intro item
          cases item <;> simp
        have hfirst := hone (byItem s.members edge.1)
        have hsecond := hone (byItem s.members edge.2)
        omega
  have hrefs : (causalSourceRefs s.causes).length ≤ (s.causes.map ContextItem.sourceRef).length :=
    length_dedupeLast_le _
  rw [List.length_map] at hrefs
  exact hrefs.trans hcauses

/-- A law that retires one nobody knows. -/
def orphanRule : ContextItem := rule "RETENTION" "policy" .governedAuthoritative ["RETENTION-1"]

def orphanSnapshot : ContextSnapshot :=
  lawSnapshot [orphanRule] fun law hlaw => by
    rw [List.mem_singleton.mp hlaw]
    exact ⟨rule_valid _ _ (by decide) (by decide), rfl, rfl⟩

/-- The dangling reference of one law is on record with the law. -/
theorem orphan_causes_kept : ∃ plan context,
    compileContext (auditInputs orphanSnapshot plan) = .ok context
      ∧ CausesKept (auditInputs orphanSnapshot plan) context := by
  obtain ⟨plan, context, hfrom, hcompile⟩ := audit_planned orphanSnapshot
  have hsource : ∀ law ∈ (auditInputs orphanSnapshot plan).resolution.candidates,
      law.sourceRef = orphanRule.sourceRef := by
    intro law hlaw
    have hcandidates : (auditInputs orphanSnapshot plan).resolution.candidates
        = sortedBy ContextItem.sortKey [orphanRule] := lawSnapshot_candidates
    rw [hcandidates, mem_sortedBy] at hlaw
    rw [List.mem_singleton.mp hlaw]
  exact ⟨plan, context, hcompile, (causes_kept_iff Sha256.transparent_injective _ context
    hfrom.discovery hcompile).mpr (tellsAll_of_one_source hsource)⟩

/-- Two drafts are refused under one id, and one of them is not heard of
again. -/
theorem one_draft_forgotten : ∃ plan context,
    PlannedFrom draftedSnapshot (auditInputs draftedSnapshot plan)
      ∧ compileContext (auditInputs draftedSnapshot plan) = .ok context
      ∧ ¬CausesKept (auditInputs draftedSnapshot plan) context := by
  obtain ⟨plan, context, hfrom, hcompile⟩ := audit_planned draftedSnapshot
  refine ⟨plan, context, hfrom, hcompile, fun hkept => ?_⟩
  have hplan := lawRequirement_mem hfrom.plan
  have hwiki : draftRule "wiki" ∈ draftedLaws := by simp [draftedLaws]
  have hmail : draftRule "mail" ∈ draftedLaws := by simp [draftedLaws]
  obtain ⟨u, hu, hid, hsources⟩ := hkept _ (draftSighting_mem hplan hwiki)
  obtain ⟨v, hv, hid', hsources'⟩ := hkept _ (draftSighting_mem hplan hmail)
  obtain ⟨last, hlast, rfl⟩ := (final_of_sighting Sha256.transparent_injective hfrom.discovery
    hcompile (draftSighting_mem hplan hwiki)).mp ⟨hu, hid⟩
  obtain ⟨last', hlast', rfl⟩ := (final_of_sighting Sha256.transparent_injective hfrom.discovery
    hcompile (draftSighting_mem hplan hmail)).mp ⟨hv, hid'⟩
  rw [draftSighting_label hwiki] at hlast
  rw [draftSighting_label hmail, hlast] at hlast'
  obtain rfl := Option.some.inj hlast'
  rw [draftSighting_causes hwiki] at hsources
  rw [draftSighting_causes hmail] at hsources'
  -- one record has two sources, and three were seen
  have hsubset : [(draftRule "wiki").sourceRef, (draftRule "mail").sourceRef,
      retentionRule.sourceRef] ⊆ last.unknown.sourceRefs := by
    intro ref href
    simp only [List.mem_cons, List.not_mem_nil, or_false] at href
    rcases href with rfl | rfl | rfl
    · exact hsources _ (List.mem_cons_self ..)
    · exact hsources' _ (List.mem_cons_self ..)
    · exact hsources _ (List.mem_cons_of_mem _ (List.mem_singleton_self _))
  have hnodup : [(draftRule "wiki").sourceRef, (draftRule "mail").sourceRef,
      retentionRule.sourceRef].Nodup := by decide
  have hthree := (hnodup.subperm hsubset).length_le
  have htwo := refused_sources (lastBy_eq_some _ hlast).2
  exact absurd (hthree.trans htwo) (by decide)

end Rules

end CognitiveRuntime
