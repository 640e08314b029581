import CognitiveRuntime.Properties.KernelDemand
import CognitiveRuntime.Properties.LoadedNeeds

/-!
# Planning stops at a surrogate

The parser of declared needs accepts any string, and a requirement is
identified by the hash of its canonical bytes, which a string with an
unpaired surrogate does not have. So the planner raises on a need that
was accepted, exactly when what it writes of the need into a requirement
holds a surrogate. Without one, the needs are those of the model, and
planning is total (`planning_total`). Kernels whose documents are texts
are planned as in the model (`planRaw_loaded`).
-/

namespace CognitiveRuntime

open Ordered Fallible
open PyStr (ofString)

/-! ## Texts -/

theorem ofString_append (s t : String) : ofString (s ++ t) = ofString s ++ ofString t := by
  unfold PyStr.ofString
  rw [String.toList_append, List.map_append]

/-- The text of a string, or none. -/
def textOrEmpty (s : PyStr) : String := s.text?.getD ""

theorem ofString_textOrEmpty {s : PyStr} (h : s.hasSurrogate = false) :
    ofString (textOrEmpty s) = s := by
  have hsome := PyStr.text?_isSome (s := s)
  rw [h] at hsome
  obtain ⟨t, ht⟩ := Option.isSome_iff_exists.mp hsome
  unfold textOrEmpty
  rw [ht]
  exact PyStr.ofString_of_text? ht

theorem map_ofString_textOrEmpty {l : List PyStr} (h : ∀ s ∈ l, s.hasSurrogate = false) :
    (l.map textOrEmpty).map ofString = l := by
  rw [List.map_map]
  exact (List.map_congr_left fun s hs => ofString_textOrEmpty (h s hs)).trans (List.map_id l)

theorem mapM_text?_ofString (l : List String) : (l.map ofString).mapM PyStr.text? = some l := by
  induction l with
  | nil => rfl
  | cons s l ih => simp [ih]

/-- Bytes come out of values without surrogates only. -/
theorem hasSurrogate_of_bytes {v : PyJson} {bytes : ByteArray}
    (h : canonicalJsonBytes v = .ok bytes) : v.hasSurrogate = false := by
  rcases canonicalJsonBytes_cases v with ⟨-, _, herror⟩ | ⟨-, -, herror⟩ | ⟨j, rfl, -⟩
  · cases herror.symm.trans h
  · cases herror.symm.trans h
  · have hsome := PyJson.scalar?_isSome j.toPy
    rw [PyJson.scalar?_toPy] at hsome
    cases hsurrogate : j.toPy.hasSurrogate with
    | false => rfl
    | true =>
        rw [hsurrogate, Bool.not_true, Bool.and_false] at hsome
        cases hsome

theorem hasSurrogateItems_strs (l : List PyStr) :
    PyJson.hasSurrogateItems (l.map .str) = l.any PyStr.hasSurrogate := by
  induction l with
  | nil => rfl
  | cons s l ih => rw [List.map_cons, PyJson.hasSurrogateItems, ih, List.any_cons,
      PyJson.hasSurrogate]

/-! ## Needs without surrogates -/

/-- What the planner writes of a need holds no surrogate. -/
structure KernelContextNeed.Encodable (need : KernelContextNeed PyStr) (ref : PyStr) : Prop where
  reason : need.reason.hasSurrogate = false
  keys : ∀ key ∈ need.requiredSemanticKeys, key.hasSurrogate = false
  ref : ref.hasSurrogate = false

/-- The binding of the model. -/
def RawBinding.typed (binding : RawBinding) : KernelBinding where
  kernelId := ""
  sourceRef := textOrEmpty binding.sourceRef
  sourceDigest := ""
  outputs := []
  contextNeeds := binding.contextNeeds.map (KernelContextNeed.map textOrEmpty)

/-- The binding as it is loaded from a document that is a text
(`parseRawContextNeeds_of_text`). -/
def KernelBinding.loaded (binding : KernelBinding) : RawBinding where
  sourceRef := ofString binding.sourceRef
  contextNeeds := binding.contextNeeds.map (KernelContextNeed.map ofString)

theorem rawDeclaredNeeds_loaded (kernels : List KernelBinding) :
    rawDeclaredNeeds (kernels.map KernelBinding.loaded)
      = (declaredNeeds kernels).map fun e => (e.1.map ofString, ofString e.2) := by
  unfold rawDeclaredNeeds declaredNeeds
  rw [List.flatMap_map, List.map_flatMap]
  refine List.flatMap_congr fun binding _ => ?_
  unfold KernelBinding.loaded
  rw [List.map_map, List.map_map]
  refine List.map_congr_left fun need _ => ?_
  rw [Function.comp_apply, Function.comp_apply, ofString_append, ofString_append]
  rfl

/-- Declared needs without surrogates are those of the model. -/
theorem rawDeclaredNeeds_eq {kernels : List RawBinding}
    (h : ∀ e ∈ rawDeclaredNeeds kernels, e.1.Encodable e.2) :
    rawDeclaredNeeds kernels = (declaredNeeds (kernels.map RawBinding.typed)).map
      fun e => (e.1.map ofString, ofString e.2) := by
  unfold declaredNeeds
  rw [List.flatMap_map, List.map_flatMap]
  unfold rawDeclaredNeeds at h ⊢
  refine List.flatMap_congr fun binding hbinding => ?_
  unfold RawBinding.typed
  rw [List.map_map, List.map_map]
  refine List.map_congr_left fun need hneed => ?_
  have henc := h _ (List.mem_flatMap.mpr ⟨binding, hbinding, List.mem_map_of_mem hneed⟩)
  have href := henc.ref
  rw [hasSurrogate_append, hasSurrogate_append, Bool.or_eq_false_iff, Bool.or_eq_false_iff] at href
  obtain ⟨⟨hsource, -⟩, hid⟩ := href
  have hneedText : (need.map textOrEmpty).map ofString = need := by
    cases need
    unfold KernelContextNeed.map
    simp only [ofString_textOrEmpty hid, ofString_textOrEmpty henc.reason,
      map_ofString_textOrEmpty henc.keys]
  refine Prod.ext hneedText.symm ?_
  show _ = ofString (textOrEmpty binding.sourceRef ++ "#" ++ textOrEmpty need.needId)
  rw [ofString_append, ofString_append, ofString_textOrEmpty hsource, ofString_textOrEmpty hid]

theorem typed_accepted {kernels : List RawBinding}
    (hparsed : ∀ binding ∈ kernels, ∀ need ∈ binding.contextNeeds, need.AcceptedBy rawBlank)
    (h : ∀ e ∈ rawDeclaredNeeds kernels, e.1.Encodable e.2) :
    NeedsAccepted (kernels.map RawBinding.typed) := by
  intro binding' hbinding' need' hneed'
  obtain ⟨binding, hbinding, rfl⟩ := List.mem_map.mp hbinding'
  obtain ⟨need, hneed, rfl⟩ := List.mem_map.mp hneed'
  have haccepted := hparsed binding hbinding need hneed
  have henc := h _ (List.mem_flatMap.mpr ⟨binding, hbinding, List.mem_map_of_mem hneed⟩)
  refine acceptedBy_of_map ⟨?_, ?_, ?_⟩
  · show rawBlank (ofString (textOrEmpty need.reason)) = false
    rw [ofString_textOrEmpty henc.reason]
    exact haccepted.reason_ne
  · show sortedUnique ((need.requiredSemanticKeys.map textOrEmpty).map ofString) = _
    rw [map_ofString_textOrEmpty henc.keys, haccepted.keys_canonical]
    exact (map_ofString_textOrEmpty henc.keys).symm
  · show need.coverage = .semanticKeys
      ↔ (need.requiredSemanticKeys.map textOrEmpty).map ofString ≠ []
    rw [map_ofString_textOrEmpty henc.keys]
    exact haccepted.keys_iff

/-! ## Requirements -/

/-- The requirement over the code points of its strings. -/
def ContextRequirement.raw (r : ContextRequirement) : ContextRequirement PyStr where
  requirementId := r.requirementId
  contextKind := r.contextKind
  reason := ofString r.reason
  required := r.required
  scopeMode := r.scopeMode
  scopeRefs := r.scopeRefs
  freshnessRequirement := r.freshnessRequirement
  coordinateConstraint := r.coordinateConstraint
  minimumAuthority := r.minimumAuthority
  priority := r.priority
  coverageMode := r.coverageMode
  minItems := r.minItems
  requiredSemanticKeys := r.requiredSemanticKeys.map ofString
  maxItems := r.maxItems
  maxBytes := r.maxBytes
  missingPolicy := r.missingPolicy
  kernelNeedRefs := r.kernelNeedRefs.map ofString

theorem tidied_map (spec : RequirementSpec) :
    (spec.map ofString).draft.tidied = spec.draft.tidied.raw := by
  unfold ContextRequirement.tidied ContextRequirement.raw RequirementSpec.draft RequirementSpec.map
  simp only [sortedUnique_map strictMono_ofString]

theorem breachWith_raw (r : ContextRequirement) : r.raw.breachWith rawBlank = r.breach := by
  unfold ContextRequirement.breach ContextRequirement.breachWith ContextRequirement.raw
  simp only [rawBlank_ofString, List.map_eq_nil_iff, List.length_map, ne_eq]

theorem rawPayload_raw (r : ContextRequirement) :
    r.raw.rawPayload = (Json.obj r.identityPayload).toPy := by
  unfold ContextRequirement.rawPayload ContextRequirement.raw ContextRequirement.identityPayload
  simp only [Json.toPy, Json.toPyEntries, Json.ofStrings, Json.toPyItems_eq, List.map_map]
  rfl

theorem text?_raw (r : ContextRequirement) : r.raw.text? = some r := by
  unfold ContextRequirement.text? ContextRequirement.raw
  simp only [PyStr.text?_ofString, mapM_text?_ofString]
  rfl

/-! ## Identities -/

theorem derivationBytes_toPy (j : Json) :
    derivationBytes j.toPy = .ok j.canonicalText.toUTF8 := by
  unfold derivationBytes
  rw [canonicalJsonBytes_toPy]
  rfl

/-- An identity is derived from values without surrogates only. -/
theorem hasSurrogate_of_derivation {payload : PyJson} {bytes : ByteArray}
    (h : derivationBytes payload = .ok bytes) : payload.hasSurrogate = false :=
  hasSurrogate_of_bytes (mapError_eq_ok.mp h)

section Requirements

variable [Sha256]

/-- A requirement is made once its checks pass and it has bytes. -/
theorem createRaw_eq_ok {draft : ContextRequirement PyStr} {r : ContextRequirement} :
    draft.createRaw = .ok r
      ↔ draft.tidied.breachWith rawBlank = none ∧ draft.tidied.identifyRaw = .ok r := by
  unfold ContextRequirement.createRaw
  dsimp only
  split
  · rename_i message hbreach
    constructor
    · intro h
      cases h
    · rintro ⟨hnone, -⟩
      have hsome : draft.tidied.breachWith rawBlank = some message := hbreach
      cases hsome.symm.trans hnone
  · rename_i hbreach
    exact ⟨fun h => ⟨hbreach, h⟩, fun h => h.2⟩

/-- A specification that builds as text builds the same requirement from
its code points. -/
theorem buildRaw_map {spec : RequirementSpec} {r : ContextRequirement} (h : spec.build = .ok r) :
    (spec.map ofString).buildRaw = .ok r := by
  obtain ⟨hbreach, rfl⟩ := build_eq_ok.mp h
  refine createRaw_eq_ok.mpr ⟨?_, ?_⟩
  · rw [tidied_map, breachWith_raw, hbreach]
  · unfold ContextRequirement.identifyRaw
    rw [tidied_map, rawPayload_raw, derivationBytes_toPy, ok_bind, text?_raw, require_some,
      ok_bind]
    rfl

/-- A requirement is built of strings without surrogates only. -/
theorem encodable_of_buildRaw {spec : RequirementSpec PyStr} {r : ContextRequirement}
    (h : spec.buildRaw = .ok r) :
    spec.reason.hasSurrogate = false ∧ (∀ key ∈ spec.requiredSemanticKeys, key.hasSurrogate = false)
      ∧ ∀ ref ∈ spec.kernelNeedRefs, ref.hasSurrogate = false := by
  obtain ⟨-, h⟩ := createRaw_eq_ok.mp h
  simp only [ContextRequirement.identifyRaw, bind_eq_ok] at h
  obtain ⟨bytes, hbytes, -⟩ := h
  have hclean := hasSurrogate_of_derivation hbytes
  unfold ContextRequirement.rawPayload ContextRequirement.tidied RequirementSpec.draft at hclean
  simp only [PyJson.hasSurrogate, PyJson.hasSurrogateEntries, Bool.or_eq_false_iff,
    hasSurrogateItems_strs, List.any_eq_false, mem_sortedUnique, Bool.not_eq_true] at hclean
  obtain ⟨-, ⟨-, hreason⟩, -, -, -, -, -, -, -, -, -, ⟨-, hkeys⟩, -, -, -, ⟨-, hrefs⟩, -⟩ := hclean
  exact ⟨hreason, hkeys, hrefs⟩

/-! ## Plans -/

omit [Sha256] in
theorem rawPlanPayload_toPy (plan : ContextRequirementPlan) :
    rawPlanPayload plan.taskScopeDigest (ofString plan.matchedRoute) plan.globalBudget
        plan.requirements
      = (Json.obj plan.identityPayload).toPy := by
  unfold rawPlanPayload ContextRequirementPlan.identityPayload
  simp only [Json.toPy, Json.toPyEntries, Json.toPyItems_eq, List.map_map]
  rfl

/-- A plan made as text is made from the code points of its route. -/
theorem createRaw_ofString {digest route : String} {budget : ContextBudget}
    {requirements : List ContextRequirement} {plan : ContextRequirementPlan}
    (h : ContextRequirementPlan.create digest route budget requirements = .ok plan) :
    ContextRequirementPlan.createRaw digest (ofString route) budget requirements = .ok plan := by
  unfold ContextRequirementPlan.create at h
  unfold ContextRequirementPlan.createRaw
  dsimp only at h ⊢
  split at h
  · rename_i hnodup
    rw [if_pos hnodup, PyStr.text?_ofString, require_some, ok_bind, ← h]
    have hpayload := rawPlanPayload_toPy
      { planId := "", taskScopeDigest := digest, matchedRoute := route, globalBudget := budget
        requirements := sortedBy ContextRequirement.orderKey requirements }
    dsimp only at hpayload
    rw [hpayload, derivationBytes_toPy, ok_bind]
  · cases h

/-- A plan is made under a route without surrogates only. -/
theorem route_of_createRaw {digest : String} {route : PyStr} {budget : ContextBudget}
    {requirements : List ContextRequirement} {plan : ContextRequirementPlan}
    (h : ContextRequirementPlan.createRaw digest route budget requirements = .ok plan) :
    route.hasSurrogate = false := by
  unfold ContextRequirementPlan.createRaw at h
  dsimp only at h
  split at h
  · simp only [bind_eq_ok] at h
    obtain ⟨bytes, hbytes, -⟩ := h
    have hclean := hasSurrogate_of_derivation hbytes
    unfold rawPlanPayload at hclean
    simp only [PyJson.hasSurrogate, PyJson.hasSurrogateEntries, Bool.or_eq_false_iff] at hclean
    exact hclean.2.1.2
  · cases h

/-- Neither the route nor what is planned of a need holds a surrogate. -/
structure SurrogateFree (matchedRoute : PyStr) (kernels : List RawBinding) : Prop where
  route : matchedRoute.hasSurrogate = false
  needs : ∀ e ∈ rawDeclaredNeeds kernels, e.1.Encodable e.2

variable {scope : TaskScope} {discovery : DiscoveryContext} {activation : ActivationPlan}
  {matchedRoute : PyStr} {kernels kernels' : List RawBinding} {plan : ContextRequirementPlan}

/-- The activation of the model, under the route as a text. -/
def ActivationPlan.routed (activation : ActivationPlan) (matchedRoute : PyStr) : ActivationPlan :=
  { activation with matchedRoute := textOrEmpty matchedRoute }

/-- Needs that are those of the model are planned as the model plans
them. -/
theorem planRaw_of_declared {bindings : List KernelBinding}
    (hneeds : rawDeclaredNeeds kernels
      = (declaredNeeds bindings).map fun e => (e.1.map ofString, ofString e.2))
    (h : planRequirements scope discovery activation bindings = .ok plan) :
    planRawRequirements scope discovery activation (ofString activation.matchedRoute) kernels
      = .ok plan := by
  unfold planRequirements plannedSpecs kernelNeedSpecs at h
  rw [List.mapM_append] at h
  simp only [bind_eq_ok] at h
  obtain ⟨_, ⟨baseline, hbaseline, declared, hdeclared, happend⟩, hcreate⟩ := h
  cases happend
  have hraw : (mergedNeedSpecs scope.eligibleRefs (rawDeclaredNeeds kernels)).mapM
      RequirementSpec.buildRaw = .ok declared := by
    rw [hneeds, mergedNeedSpecs_map strictMono_ofString, List.mapM_map]
    exact mapM_eq_ok.mpr ((mapM_eq_ok.mp hdeclared).imp fun _ _ => buildRaw_map)
  unfold planRawRequirements
  rw [hbaseline, ok_bind, hraw, ok_bind, createRaw_ofString hcreate]

/-- Kernels whose documents are texts are planned as in the model. -/
theorem planRaw_loaded {bindings : List KernelBinding}
    (h : planRequirements scope discovery activation bindings = .ok plan) :
    planRawRequirements scope discovery activation (ofString activation.matchedRoute)
      (bindings.map KernelBinding.loaded) = .ok plan :=
  planRaw_of_declared (rawDeclaredNeeds_loaded bindings) h

/-- Without surrogates, the plan is that of the model. -/
theorem planRaw_of_plan (hfree : SurrogateFree matchedRoute kernels)
    (h : planRequirements scope discovery (activation.routed matchedRoute)
      (kernels.map RawBinding.typed) = .ok plan) :
    planRawRequirements scope discovery activation matchedRoute kernels = .ok plan := by
  have hplan := planRaw_of_declared (rawDeclaredNeeds_eq hfree.needs) h
  rw [show ofString (activation.routed matchedRoute).matchedRoute = matchedRoute from
    ofString_textOrEmpty hfree.route] at hplan
  exact hplan

/-- What is planned was declared without surrogates. -/
theorem surrogateFree_of_plan
    (h : planRawRequirements scope discovery activation matchedRoute kernels = .ok plan) :
    SurrogateFree matchedRoute kernels := by
  unfold planRawRequirements at h
  simp only [bind_eq_ok] at h
  obtain ⟨baseline, -, declared, hdeclared, hcreate⟩ := h
  refine ⟨route_of_createRaw hcreate, fun e he => ?_⟩
  obtain ⟨refs, href, hspec⟩ : ∃ refs, e.2 ∈ refs ∧ kernelNeedSpec scope.eligibleRefs e.1 refs
      ∈ mergedNeedSpecs scope.eligibleRefs (rawDeclaredNeeds kernels) := exists_mergedNeedSpec he
  obtain ⟨r, hbuild⟩ := exists_result_of_mapM hdeclared hspec
  obtain ⟨hreason, hkeys, hrefs⟩ := encodable_of_buildRaw hbuild
  exact ⟨hreason, hkeys, hrefs e.2 ((mem_sortedBy _).mpr href)⟩

theorem planRaw_perm (h : kernels.Perm kernels') :
    planRawRequirements scope discovery activation matchedRoute kernels
      = planRawRequirements scope discovery activation matchedRoute kernels' := by
  have hdeclared : (rawDeclaredNeeds kernels).Perm (rawDeclaredNeeds kernels') :=
    h.flatMap_right _
  unfold planRawRequirements
  rw [mergedNeedSpecs_perm hdeclared]

/-- A requirement planned for a loaded need: it lists the need's
reference and asks for what the need asks for. -/
structure RawDemandedBy (r : ContextRequirement) (need : KernelContextNeed PyStr) (ref : PyStr) :
    Prop where
  listed : ref ∈ r.kernelNeedRefs.map ofString
  kind : r.contextKind = need.contextKind
  required : r.required = need.required
  reason : ofString r.reason = need.reason
  coverage : r.coverageMode = need.coverage
  keys : r.requiredSemanticKeys.map ofString = need.requiredSemanticKeys
  floor : r.minimumAuthority = authorityFloor need.contextKind need.minimumAuthority

/-- Planning succeeds, lists every declared need, and comes out the same
in whatever order the kernels come. -/
def PlanningTotal (scope : TaskScope) (discovery : DiscoveryContext) (activation : ActivationPlan)
    (matchedRoute : PyStr) (kernels : List RawBinding) : Prop :=
  ∃ plan, planRawRequirements scope discovery activation matchedRoute kernels = .ok plan
    ∧ (∀ e ∈ rawDeclaredNeeds kernels, ∃ r ∈ plan.requirements, RawDemandedBy r e.1 e.2)
    ∧ ∀ kernels', kernels.Perm kernels' →
        planRawRequirements scope discovery activation matchedRoute kernels' = .ok plan

omit [Sha256] in
theorem rawDemandedBy_of_demandedBy {r : ContextRequirement} {need : KernelContextNeed}
    {ref : String} (h : DemandedBy r need ref) :
    RawDemandedBy r (need.map ofString) (ofString ref) where
  listed := List.mem_map_of_mem h.listed
  kind := h.kind
  required := h.required
  reason := congrArg ofString h.reason
  coverage := h.coverage
  keys := congrArg (List.map ofString) h.keys
  floor := h.floor

/-- On needs that were accepted, planning is total exactly when neither
the route nor what is planned of a need holds an unpaired surrogate. -/
theorem planning_total_iff (hsha : Sha256.Injective) (scope : TaskScope)
    (discovery : DiscoveryContext) (activation : ActivationPlan) (matchedRoute : PyStr)
    (kernels : List RawBinding)
    (hparsed : ∀ binding ∈ kernels, ∃ document sourceRef,
      parseRawContextNeeds document sourceRef = .ok binding.contextNeeds) :
    PlanningTotal scope discovery activation matchedRoute kernels
      ↔ SurrogateFree matchedRoute kernels := by
  constructor
  · rintro ⟨plan, hplan, -⟩
    exact surrogateFree_of_plan hplan
  · intro hfree
    have haccepted : NeedsAccepted (kernels.map RawBinding.typed) := by
      refine typed_accepted (fun binding hbinding => ?_) hfree.needs
      obtain ⟨document, sourceRef, hparse⟩ := hparsed binding hbinding
      exact parseRawContextNeeds_accepted hparse
    obtain ⟨plan, hplan, hlisted, -⟩ := planning_total hsha scope discovery
      (activation.routed matchedRoute) haccepted
    have hraw := planRaw_of_plan hfree hplan
    refine ⟨plan, hraw, fun e he => ?_, fun kernels' hperm => (planRaw_perm hperm).symm.trans hraw⟩
    rw [rawDeclaredNeeds_eq hfree.needs] at he
    obtain ⟨⟨need, ref⟩, hdeclared, rfl⟩ := List.mem_map.mp he
    obtain ⟨binding, hbinding, hneed⟩ := List.mem_flatMap.mp hdeclared
    obtain ⟨need', hneed', hentry⟩ := List.mem_map.mp hneed
    cases hentry
    obtain ⟨r, hr, hdemanded⟩ := hlisted binding hbinding _ hneed'
    exact ⟨r, hr, rawDemandedBy_of_demandedBy hdemanded⟩

end Requirements

/-! ## Two surveys -/

section Surveys

attribute [local instance] Sha256.transparent

/-- The survey as it is loaded from a kernel file. -/
def loadedSurvey (sourceRef : String) : RawBinding :=
  { sourceRef := ofString sourceRef, contextNeeds := [surveyNeed.map ofString] }

theorem loaded_survey_parses :
    parseRawContextNeeds (Json.toPyEntries surveyDocument) (ofString "kernels/survey.yaml")
      = .ok [surveyNeed.map ofString] :=
  parseRawContextNeeds_of_text survey_need_parses

/-- Two kernels that declare the survey are planned for, in either order. -/
theorem surveys_planned_either_way :
    ∃ plan, planRawRequirements (compileScope auditIntent)
        (discover (compileScope auditIntent) (resolveSnapshot branchSnapshot.toSnapshotBuckets))
        auditActivation (ofString "guided_execution")
        [loadedSurvey "kernels/survey.yaml", loadedSurvey "kernels/review.yaml"] = .ok plan
      ∧ (∃ r ∈ plan.requirements, RawDemandedBy r (surveyNeed.map ofString)
        (ofString "kernels/survey.yaml#repository"))
      ∧ (∃ r ∈ plan.requirements, RawDemandedBy r (surveyNeed.map ofString)
        (ofString "kernels/review.yaml#repository"))
      ∧ planRawRequirements (compileScope auditIntent)
        (discover (compileScope auditIntent) (resolveSnapshot branchSnapshot.toSnapshotBuckets))
        auditActivation (ofString "guided_execution")
        [loadedSurvey "kernels/review.yaml", loadedSurvey "kernels/survey.yaml"] = .ok plan := by
  have hfree : SurrogateFree (ofString "guided_execution")
      [loadedSurvey "kernels/survey.yaml", loadedSurvey "kernels/review.yaml"] := by
    refine ⟨PyStr.hasSurrogate_ofString _, fun e he => ?_⟩
    rcases List.mem_cons.mp he with rfl | he
    · exact ⟨PyStr.hasSurrogate_ofString _, fun _ h => (nomatch h), by decide⟩
    · obtain rfl := List.mem_singleton.mp he
      exact ⟨PyStr.hasSurrogate_ofString _, fun _ h => (nomatch h), by decide⟩
  obtain ⟨plan, hplan, hlisted, hperm⟩ := (planning_total_iff Sha256.transparent_injective
    (compileScope auditIntent)
    (discover (compileScope auditIntent) (resolveSnapshot branchSnapshot.toSnapshotBuckets))
    auditActivation (ofString "guided_execution")
    [loadedSurvey "kernels/survey.yaml", loadedSurvey "kernels/review.yaml"] (by
      intro binding hbinding
      rcases List.mem_cons.mp hbinding with rfl | hbinding
      · exact ⟨_, _, loaded_survey_parses⟩
      · obtain rfl := List.mem_singleton.mp hbinding
        exact ⟨_, _, loaded_survey_parses⟩)).mpr hfree
  exact ⟨plan, hplan, hlisted _ (List.mem_cons_self ..),
    hlisted _ (List.mem_cons_of_mem _ (List.mem_singleton_self _)), hperm _ (.swap ..)⟩

/-- An unpaired surrogate. -/
def tornReason : PyStr := [⟨0xd83d, by decide⟩]

/-- The survey for a reason that has no bytes. -/
def tornNeed : KernelContextNeed PyStr := { surveyNeed.map ofString with reason := tornReason }

/-- The kernel document that declares it. -/
def tornDocument : Payload :=
  [(ofString "context_needs", .arr [.obj [(ofString "id", .str (ofString "repository")),
    (ofString "context_kind", .str (ofString "repository_state")),
    (ofString "required", .bool false), (ofString "reason", .str tornReason),
    (ofString "coverage", .str (ofString "all_eligible")),
    (ofString "minimum_authority", .str (ofString "unverified"))]])]

/-- The torn need is accepted, and the planner raises on it. -/
theorem torn_need_unplanned :
    parseRawContextNeeds tornDocument (ofString "kernels/survey.yaml") = .ok [tornNeed]
      ∧ ∀ plan, planRawRequirements (compileScope auditIntent)
        (discover (compileScope auditIntent) (resolveSnapshot branchSnapshot.toSnapshotBuckets))
        auditActivation (ofString "guided_execution")
        [{ sourceRef := ofString "kernels/survey.yaml", contextNeeds := [tornNeed] }]
          ≠ .ok plan := by
  refine ⟨rfl, fun plan hplan => ?_⟩
  have htorn := ((surrogateFree_of_plan hplan).needs _ (List.mem_singleton_self _)).reason
  exact absurd htorn (by decide)

end Surveys

end CognitiveRuntime
