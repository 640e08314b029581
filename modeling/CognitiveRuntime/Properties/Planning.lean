import CognitiveRuntime.Compiler.Requirements

/-!
# What the planner produces

The plan holds one requirement for each baseline kind and one for each
merged kernel need, in canonical order. Every requirement passes its own
validators, and different requirements have different ids, so planning
never fails on needs that were accepted when their kernel was bound.
-/

namespace CognitiveRuntime

open Ordered Fallible

section Planning

variable [Sha256]

/-! ## Requirement identity -/

/-- The draft with its lists sorted. -/
def ContextRequirement.tidied {σ : Type} [LinearOrder σ] (draft : ContextRequirement σ) :
    ContextRequirement σ :=
  { draft with
    scopeRefs := sortedUnique draft.scopeRefs
    requiredSemanticKeys := sortedUnique draft.requiredSemanticKeys
    kernelNeedRefs := sortedUnique draft.kernelNeedRefs }

/-- The canonical form of a draft, with its derived id. -/
def ContextRequirement.canonical (draft : ContextRequirement) : ContextRequirement :=
  { draft.tidied with requirementId := deriveId "ctxreq" (.obj draft.tidied.identityPayload) }

theorem create_eq_ok {draft r : ContextRequirement} :
    ContextRequirement.create draft = .ok r ↔ draft.tidied.breach = none
      ∧ r = draft.canonical := by
  simp only [ContextRequirement.create]
  split
  · next message hbreach =>
    have htidied : draft.tidied.breach = some message := hbreach
    simp [htidied]
  · next hbreach =>
    have htidied : draft.tidied.breach = none := hbreach
    rw [htidied, Except.ok.injEq, and_iff_right rfl, eq_comm]
    rfl

omit [Sha256] in
/-- The identity payload determines a requirement up to its id. -/
theorem identityPayload_inj {r r' : ContextRequirement}
    (h : (Json.obj r.identityPayload).normalize = (Json.obj r'.identityPayload).normalize) :
    { r with requirementId := "" } = { r' with requirementId := "" } := by
  have hvalues := Json.values_eq_of_normalize_eq h rfl (by
    simp only [ContextRequirement.identityPayload, List.map_cons, List.map_nil]
    decide)
  simp only [ContextRequirement.identityPayload, List.map_cons, List.map_nil,
    Json.normalize_str, Json.normalize_bool, Json.normalize_ofStrings, Json.normalize_ofOption,
    Json.normalize_int, Claim.normalize_ofPrecedence, List.cons.injEq, Json.str.injEq,
    Json.bool.injEq, Json.int.injEq, Json.ofStrings_inj, Json.ofOption_inj,
    Claim.ofPrecedence_inj, ContextKind.value_inj, ContextScopeMode.value_inj,
    FreshnessRequirement.value_inj, AuthorityLevel.value_inj, CoverageMode.value_inj,
    MissingPolicy.value_inj, Int.ofNat_inj, and_true] at hvalues
  obtain ⟨h1, h2, h3, h4, h5, h6, h7, h8, h9, h10, h11, h12, h13, h14, h15, h16⟩ := hvalues
  cases r
  cases r'
  simp only at h1 h2 h3 h4 h5 h6 h7 h8 h9 h10 h11 h12 h13 h14 h15 h16
  subst h1 h2 h3 h4 h5 h6 h7 h8 h9 h10 h11 h12 h13 h14 h15 h16
  rfl

/-- Created requirements with one id are one requirement. -/
theorem canonical_eq_of_id (hsha : Sha256.Injective) {d d' : ContextRequirement}
    (h : d.canonical.requirementId = d'.canonical.requirementId) :
    d.canonical = d'.canonical := by
  have hfields := identityPayload_inj (deriveId_inj hsha h)
  have hid : ∀ e : ContextRequirement, { e.canonical with
      requirementId := e.canonical.requirementId } = e.canonical := fun _ => rfl
  rw [← hid d, ← hid d', h]
  exact congrArg (fun r : ContextRequirement =>
    { r with requirementId := d'.canonical.requirementId }) hfields

/-! ## Specifications -/

/-- What the validators ask of a specification. -/
structure RequirementSpec.Sound (spec : RequirementSpec) : Prop where
  reason_ne : isBlank spec.reason = false
  scoped_iff : spec.scopeMode = .scoped ↔ spec.scopeRefs ≠ []
  required_min : spec.required = true → 1 ≤ spec.minItems
  max_pos : 1 ≤ spec.maxItems
  min_le_max : spec.minItems ≤ spec.maxItems
  keys_iff : spec.coverageMode = .semanticKeys ↔ spec.requiredSemanticKeys ≠ []
  keys_le_min : (sortedUnique spec.requiredSemanticKeys).length ≤ spec.minItems
  policy : spec.missingPolicy = if spec.required then .preserveUnknown else .optional

omit [Sha256] in
theorem RequirementSpec.Sound.breach_none {spec : RequirementSpec} (h : spec.Sound) :
    spec.draft.tidied.breach = none := by
  have hscope : spec.scopeMode = .global ↔ spec.scopeRefs = [] := by
    have := h.scoped_iff
    cases hmode : spec.scopeMode <;> simp_all
  have hmax := h.max_pos
  have hmin := h.min_le_max
  have hkeys := h.keys_le_min
  have hbytes : ¬perRequirementMaxBytes < 1 := by decide
  have hpolicy := h.policy
  unfold ContextRequirement.breach ContextRequirement.breachWith ContextRequirement.tidied
    RequirementSpec.draft
  simp only [h.reason_ne, h.scoped_iff, hscope, h.keys_iff, sortedUnique_eq_nil, Option.any_some,
    decide_eq_true_eq, ne_eq, Bool.false_eq_true, not_and_self_iff, and_not_self_iff, if_false,
    reduceCtorEq, false_and, Option.some_ne_none, and_false, not_not, hbytes]
  have hone : ¬(spec.required = true ∧ spec.minItems < 1) := by
    rintro ⟨hreq, hlt⟩
    have := h.required_min hreq
    omega
  have hlow : ¬spec.maxItems < 1 := by omega
  have hcap : ¬spec.maxItems < spec.minItems := by omega
  have hcover : ¬(¬spec.requiredSemanticKeys = [] ∧
      spec.minItems < (sortedUnique spec.requiredSemanticKeys).length) := by
    rintro ⟨-, hlt⟩
    omega
  have hopt : ¬(spec.required = true ∧ spec.missingPolicy = .optional) := by
    rintro ⟨hreq, hopt⟩
    rw [hpolicy, if_pos hreq] at hopt
    cases hopt
  simp only [hone, hlow, hcap, hcover, hopt, if_false]

omit [Sha256] in
/-- The scope a baseline kind is planned under is well formed. -/
theorem baselineSpec_sound {scopedRefs : List String} {kind : ContextKind} {reason : String}
    (hreason : isBlank reason = false) : (baselineSpec scopedRefs kind reason).Sound where
  reason_ne := hreason
  scoped_iff := by
    simp only [baselineSpec]
    split <;> simp_all
  required_min := fun h => by cases h
  max_pos := show 1 ≤ perRequirementMaxItems by decide
  min_le_max := Nat.zero_le _
  keys_iff := by simp [baselineSpec]
  keys_le_min := by simp [baselineSpec]
  policy := rfl

omit [Sha256] in
theorem requirableSpec_sound {spec : RequirementSpec} (h : spec.Sound)
    (hkeys : spec.requiredSemanticKeys = []) (required : Bool) :
    (requirableSpec spec required).Sound where
  reason_ne := h.reason_ne
  scoped_iff := h.scoped_iff
  required_min := fun hreq => by
    simp only [requirableSpec] at hreq ⊢
    simp [hreq]
  max_pos := h.max_pos
  min_le_max := by
    have := h.max_pos
    simp only [requirableSpec]
    split <;> omega
  keys_iff := h.keys_iff
  keys_le_min := by simp [requirableSpec, hkeys]
  policy := rfl

omit [Sha256] in
theorem baselineSpecs_sound {scopedRefs : List String} {architectureRequired : Bool} :
    ∀ spec ∈ baselineSpecs scopedRefs architectureRequired, spec.Sound := by
  have hbase : ∀ {kind : ContextKind} {reason : String}, isBlank reason = false →
      (baselineSpec scopedRefs kind reason).Sound := baselineSpec_sound
  intro spec hspec
  simp only [baselineSpecs, List.mem_cons, List.not_mem_nil, or_false] at hspec
  rcases hspec with rfl | rfl | rfl | rfl | rfl | rfl | rfl | rfl | rfl | rfl
  · refine requirableSpec_sound (hbase ?_) rfl _
    cases architectureRequired <;> decide
  · exact hbase (by decide)
  · have hreason : isBlank (if decide (scopedRefs ≠ []) then
          "repository facts about the explicitly targeted references"
        else "repository facts relevant to the task scope, if any") = false := by
      split <;> decide
    have hstate : (requirableSpec (baselineSpec scopedRefs .repositoryState _)
        (decide (scopedRefs ≠ []))).Sound := requirableSpec_sound (hbase hreason) rfl _
    exact { hstate with }
  · exact hbase (by decide)
  · exact hbase (by decide)
  · exact hbase (by decide)
  · have h : (baselineSpec scopedRefs .evidenceRef
        "evidence supporting governed claims selected for this task").Sound :=
      hbase (by decide)
    exact { h with }
  · have h : (baselineSpec scopedRefs .authorityFact
        "proven authority grants and limits bearing on the compiled task").Sound :=
      hbase (by decide)
    exact { h with }
  · have h : (baselineSpec scopedRefs .capabilityFact
        "proven capability availability bearing on the compiled task").Sound :=
      hbase (by decide)
    exact { h with }
  · have h : (baselineSpec scopedRefs .memoryContext
        "non-authoritative recall that may enrich, never resolve, the task").Sound :=
      hbase (by decide)
    exact { h with
      required_min := fun hreq => by cases hreq
      max_pos := show 1 ≤ memoryMinItems by decide
      min_le_max := le_refl _
      keys_iff := by simp [baselineSpec]
      keys_le_min := by simp [baselineSpec] }

omit [Sha256] in
theorem kernelNeedSpec_sound {scopedRefs : List String} {need : KernelContextNeed}
    (h : need.Accepted) (refs : List String) : (kernelNeedSpec scopedRefs need refs).Sound where
  reason_ne := h.reason_ne
  scoped_iff := by
    simp only [kernelNeedSpec]
    split <;> simp_all
  required_min := by
    intro hreq
    have hreq' : need.required = true := hreq
    simp only [kernelNeedSpec, hreq', if_true]
    split
    · rename_i hcover
      exact List.length_pos_of_ne_nil (h.keys_iff.mp hcover)
    · exact le_refl _
  max_pos := by
    simp only [kernelNeedSpec, perRequirementMaxItems]
    omega
  min_le_max := le_max_right _ _
  keys_iff := h.keys_iff
  keys_le_min := by
    simp only [kernelNeedSpec, h.keys_canonical]
    split
    · exact le_refl _
    · rename_i hcover
      have hnil : need.requiredSemanticKeys = [] := by
        by_contra hne
        exact hcover (h.keys_iff.mpr hne)
      simp [hnil]
  policy := rfl

omit [Sha256] in
/-- A kernel need's specification comes from one of the declared needs. -/
theorem mem_kernelNeedSpecs {scopedRefs : List String} {kernels : List KernelBinding}
    {spec : RequirementSpec} (h : spec ∈ kernelNeedSpecs scopedRefs kernels) :
    ∃ need refs, refs ≠ [] ∧ (∃ ref, (need, ref) ∈ declaredNeeds kernels)
      ∧ spec = kernelNeedSpec scopedRefs need refs := by
  unfold kernelNeedSpecs at h
  obtain ⟨⟨signature, group⟩, hentry, hspec⟩ := List.mem_filterMap.mp h
  obtain ⟨first, hfirst, rfl⟩ := Option.map_eq_some_iff.mp hspec
  have hmem : first ∈ group := List.mem_of_mem_head? hfirst
  have hneed := (mem_of_mem_groupBy _ ((mem_sortedBy _).mp hentry) hmem).1
  refine ⟨first.1, group.map Prod.snd, ?_, ⟨first.2, hneed⟩, rfl⟩
  exact List.ne_nil_of_mem (List.mem_map_of_mem hmem)

/-- Every need of every kernel was accepted when the kernel was bound. -/
def NeedsAccepted (kernels : List KernelBinding) : Prop :=
  ∀ binding ∈ kernels, ∀ need ∈ binding.contextNeeds, need.Accepted

omit [Sha256] in
theorem declaredNeeds_accepted {kernels : List KernelBinding} (h : NeedsAccepted kernels)
    {need : KernelContextNeed} {ref : String} (hneed : (need, ref) ∈ declaredNeeds kernels) :
    need.Accepted := by
  obtain ⟨binding, hbinding, hmem⟩ := List.mem_flatMap.mp hneed
  obtain ⟨need', hneed', heq⟩ := List.mem_map.mp hmem
  cases heq
  exact h binding hbinding need hneed'

omit [Sha256] in
theorem plannedSpecs_sound {scope : TaskScope} {discovery : DiscoveryContext}
    {plan : ActivationPlan} {kernels : List KernelBinding} (h : NeedsAccepted kernels) :
    ∀ spec ∈ plannedSpecs scope discovery plan kernels, spec.Sound := by
  intro spec hspec
  rcases List.mem_append.mp hspec with hspec | hspec
  · exact baselineSpecs_sound spec hspec
  · obtain ⟨need, refs, -, ⟨ref, hneed⟩, rfl⟩ := mem_kernelNeedSpecs hspec
    exact kernelNeedSpec_sound (declaredNeeds_accepted h hneed) refs

omit [Sha256] in
/-- The scope a baseline kind is planned under. -/
theorem baselineSpecs_scope {scopedRefs : List String} {architectureRequired : Bool} :
    ∀ spec ∈ baselineSpecs scopedRefs architectureRequired, spec.scopeMode
      = if scopedRefs ≠ [] ∧ isScopedKind spec.kind then .scoped else .global := by
  intro spec hspec
  simp only [baselineSpecs, List.mem_cons, List.not_mem_nil, or_false] at hspec
  rcases hspec with rfl | rfl | rfl | rfl | rfl | rfl | rfl | rfl | rfl | rfl <;> rfl

omit [Sha256] in
/-- A task that names no reference is planned for globally. -/
theorem plannedSpecs_unscoped {scope : TaskScope} {discovery : DiscoveryContext}
    {plan : ActivationPlan} {kernels : List KernelBinding} (h : scope.eligibleRefs = []) :
    ∀ spec ∈ plannedSpecs scope discovery plan kernels, spec.scopeMode = .global := by
  intro spec hspec
  rcases List.mem_append.mp hspec with hspec | hspec
  · rw [baselineSpecs_scope spec hspec, h]
    simp
  · obtain ⟨need, refs, -, -, rfl⟩ := mem_kernelNeedSpecs hspec
    simp [kernelNeedSpec, h]

/-! ## Different specifications, different ids -/

/-- What tells two planned specifications apart. -/
def RequirementSpec.mark (spec : RequirementSpec) : String ×ₗ Bool ×ₗ String ×ₗ String ×ₗ
    String ×ₗ List String :=
  toLex (spec.kind.value, toLex (spec.required, toLex (spec.reason,
    toLex (spec.coverageMode.value,
      toLex (spec.minimumAuthority.value, sortedUnique spec.requiredSemanticKeys)))))

omit [Sha256] in
theorem mark_kernelNeedSpec {scopedRefs : List String} {need : KernelContextNeed}
    (h : need.Accepted) (refs : List String) :
    (kernelNeedSpec scopedRefs need refs).mark = needSignature need := by
  show toLex (_, toLex (_, toLex (_, toLex (_, toLex (_,
    sortedUnique need.requiredSemanticKeys))))) = _
  rw [h.keys_canonical]
  rfl

theorem mark_of_canonical_eq {spec spec' : RequirementSpec}
    (h : spec.draft.canonical = spec'.draft.canonical) :
    spec.mark = spec'.mark ∧ (spec.kernelNeedRefs = [] ↔ spec'.kernelNeedRefs = []) := by
  have hkind : spec.kind = spec'.kind := congrArg ContextRequirement.contextKind h
  have hrequired : spec.required = spec'.required := congrArg ContextRequirement.required h
  have hreason : spec.reason = spec'.reason := congrArg ContextRequirement.reason h
  have hcover : spec.coverageMode = spec'.coverageMode :=
    congrArg ContextRequirement.coverageMode h
  have hfloor : spec.minimumAuthority = spec'.minimumAuthority :=
    congrArg ContextRequirement.minimumAuthority h
  have hkeys : sortedUnique spec.requiredSemanticKeys
      = sortedUnique spec'.requiredSemanticKeys :=
    congrArg ContextRequirement.requiredSemanticKeys h
  have hrefs : sortedUnique spec.kernelNeedRefs = sortedUnique spec'.kernelNeedRefs :=
    congrArg ContextRequirement.kernelNeedRefs h
  refine ⟨?_, ?_⟩
  · unfold RequirementSpec.mark
    rw [hkind, hrequired, hreason, hcover, hfloor, hkeys]
  · rw [← sortedUnique_eq_nil, hrefs, sortedUnique_eq_nil]

omit [Sha256] in
theorem baselineSpecs_kinds (scopedRefs : List String) (architectureRequired : Bool) :
    (baselineSpecs scopedRefs architectureRequired).map RequirementSpec.kind
      = [.architectureConstraint, .applicableLaw, .repositoryState, .relevantEntity,
        .dependencyContext, .priorDecision, .evidenceRef, .authorityFact, .capabilityFact,
        .memoryContext] := rfl

omit [Sha256] in
theorem baselineSpecs_refs {scopedRefs : List String} {architectureRequired : Bool} :
    ∀ spec ∈ baselineSpecs scopedRefs architectureRequired, spec.kernelNeedRefs = [] := by
  intro spec hspec
  simp only [baselineSpecs, List.mem_cons, List.not_mem_nil, or_false] at hspec
  rcases hspec with rfl | rfl | rfl | rfl | rfl | rfl | rfl | rfl | rfl | rfl <;> rfl

theorem baselineSpecs_distinct (scopedRefs : List String) (architectureRequired : Bool) :
    (baselineSpecs scopedRefs architectureRequired).Pairwise fun spec spec' =>
      spec.draft.canonical ≠ spec'.draft.canonical := by
  have hnodup : ((baselineSpecs scopedRefs architectureRequired).map
      RequirementSpec.kind).Nodup := by
    rw [baselineSpecs_kinds]
    decide
  refine (List.pairwise_map.mp hnodup).imp fun hkind h => hkind ?_
  exact congrArg ContextRequirement.contextKind h

theorem kernelNeedSpecs_distinct {scopedRefs : List String} {kernels : List KernelBinding}
    (h : NeedsAccepted kernels) :
    (kernelNeedSpecs scopedRefs kernels).Pairwise fun spec spec' =>
      spec.draft.canonical ≠ spec'.draft.canonical := by
  have hnodup : ((sortedBy Prod.fst (groupBy
      (fun e : KernelContextNeed × String => needSignature e.1)
      (declaredNeeds kernels))).map Prod.fst).Nodup := by
    have hperm := perm_sortedBy Prod.fst (groupBy
      (fun e : KernelContextNeed × String => needSignature e.1) (declaredNeeds kernels))
    rw [(hperm.map Prod.fst).nodup_iff, map_fst_groupBy]
    exact nodup_firstSeen _
  -- the mark of an entry's specification is the entry's signature
  have hmark : ∀ entry ∈ sortedBy Prod.fst (groupBy
      (fun e : KernelContextNeed × String => needSignature e.1) (declaredNeeds kernels)),
      ∀ spec, (entry.2.head?.map fun first =>
        kernelNeedSpec scopedRefs first.1 (entry.2.map Prod.snd)) = some spec →
      spec.mark = entry.1 := by
    intro entry hentry spec hspec
    obtain ⟨first, hfirst, rfl⟩ := Option.map_eq_some_iff.mp hspec
    obtain ⟨hneed, hsignature⟩ := mem_of_mem_groupBy _ ((mem_sortedBy _).mp hentry)
      (List.mem_of_mem_head? hfirst)
    rw [mark_kernelNeedSpec (declaredNeeds_accepted h hneed), hsignature]
  unfold kernelNeedSpecs mergedNeedSpecs
  rw [List.pairwise_filterMap]
  refine (List.pairwise_map.mp hnodup).imp_of_mem ?_
  intro entry entry' hentry hentry' hne spec hspec spec' hspec' heq
  apply hne
  rw [← hmark entry hentry spec hspec, ← hmark entry' hentry' spec' hspec']
  exact (mark_of_canonical_eq heq).1

theorem plannedSpecs_distinct {scope : TaskScope} {discovery : DiscoveryContext}
    {plan : ActivationPlan} {kernels : List KernelBinding} (h : NeedsAccepted kernels) :
    (plannedSpecs scope discovery plan kernels).Pairwise fun spec spec' =>
      spec.draft.canonical ≠ spec'.draft.canonical := by
  refine List.pairwise_append.mpr
    ⟨baselineSpecs_distinct _ _, kernelNeedSpecs_distinct h, ?_⟩
  intro spec hspec spec' hspec' heq
  obtain ⟨need, refs, hrefs, -, rfl⟩ := mem_kernelNeedSpecs hspec'
  have hnil := (mark_of_canonical_eq heq).2.mp (baselineSpecs_refs spec hspec)
  -- the references of a kernel need are only reordered
  have hempty : sortedBy id refs = [] := hnil
  have hlen := (perm_sortedBy id refs).length_eq
  rw [hempty] at hlen
  exact hrefs (List.length_eq_zero_iff.mp hlen.symm)

/-! ## Plans -/

theorem build_eq_ok {spec : RequirementSpec} {r : ContextRequirement} :
    spec.build = .ok r ↔ spec.draft.tidied.breach = none ∧ r = spec.draft.canonical :=
  create_eq_ok

theorem mapM_build {specs : List RequirementSpec} {requirements : List ContextRequirement}
    (h : specs.mapM RequirementSpec.build = .ok requirements) :
    requirements = specs.map fun spec => spec.draft.canonical := by
  have hall := mapM_eq_ok.mp h
  clear h
  induction hall with
  | nil => rfl
  | cons hstep _ ih => rw [List.map_cons, ← ih, ← (build_eq_ok.mp hstep).2]

/-- A plan holds the canonical form of what was planned, in order, with
distinct ids. -/
theorem planRequirements_eq_ok {scope : TaskScope} {discovery : DiscoveryContext}
    {activation : ActivationPlan} {kernels : List KernelBinding} {plan : ContextRequirementPlan}
    (h : planRequirements scope discovery activation kernels = .ok plan) :
    SameMembers plan.requirements ((plannedSpecs scope discovery activation kernels).map
        fun spec => spec.draft.canonical)
      ∧ plan.Valid
      ∧ plan.globalBudget = { maxTotalItems := globalMaxItems, maxTotalBytes := globalMaxBytes }
      ∧ plan.taskScopeDigest = scope.sha256 ∧ plan.matchedRoute = activation.matchedRoute := by
  simp only [planRequirements, bind_eq_ok] at h
  obtain ⟨requirements, hrequirements, hcreate⟩ := h
  unfold ContextRequirementPlan.create at hcreate
  by_cases hnodup : ((sortedBy ContextRequirement.orderKey requirements).map
      ContextRequirement.requirementId).Nodup
  · simp only [hnodup, if_true] at hcreate
    cases hcreate
    refine ⟨?_, ⟨hnodup, ?_⟩, rfl, rfl, rfl⟩
    · intro r
      rw [mem_sortedBy, mapM_build hrequirements]
    · intro r hr
      obtain ⟨spec, -, hspec⟩ := exists_of_mapM hrequirements ((mem_sortedBy _).mp hr)
      obtain ⟨hbreach, rfl⟩ := build_eq_ok.mp hspec
      exact hbreach
  · simp only [hnodup, if_false] at hcreate
    cases hcreate

/-- Requirements stand in canonical order. -/
theorem planRequirements_sorted {scope : TaskScope} {discovery : DiscoveryContext}
    {activation : ActivationPlan} {kernels : List KernelBinding} {plan : ContextRequirementPlan}
    (h : planRequirements scope discovery activation kernels = .ok plan) :
    plan.requirements.Pairwise fun r r' => r.orderKey ≤ r'.orderKey := by
  simp only [planRequirements, bind_eq_ok] at h
  obtain ⟨requirements, -, hcreate⟩ := h
  unfold ContextRequirementPlan.create at hcreate
  dsimp only at hcreate
  split at hcreate
  · cases hcreate
    exact pairwise_sortedBy _ _
  · cases hcreate

theorem exists_spec_of_mem {scope : TaskScope} {discovery : DiscoveryContext}
    {activation : ActivationPlan} {kernels : List KernelBinding} {plan : ContextRequirementPlan}
    (h : planRequirements scope discovery activation kernels = .ok plan)
    {r : ContextRequirement} (hr : r ∈ plan.requirements) :
    ∃ spec ∈ plannedSpecs scope discovery activation kernels, r = spec.draft.canonical := by
  obtain ⟨spec, hspec, rfl⟩ := List.mem_map.mp (((planRequirements_eq_ok h).1 r).mp hr)
  exact ⟨spec, hspec, rfl⟩

/-- Planning succeeds whatever the scope, the discovery projection and
the activation plan, on needs that were accepted. -/
theorem planRequirements_ok (hsha : Sha256.Injective) (scope : TaskScope)
    (discovery : DiscoveryContext) (activation : ActivationPlan) {kernels : List KernelBinding}
    (h : NeedsAccepted kernels) :
    ∃ plan, planRequirements scope discovery activation kernels = .ok plan := by
  have hbuild : ∀ spec ∈ plannedSpecs scope discovery activation kernels,
      spec.build = .ok spec.draft.canonical := fun spec hspec =>
    build_eq_ok.mpr ⟨(plannedSpecs_sound h spec hspec).breach_none, rfl⟩
  have hmap : (plannedSpecs scope discovery activation kernels).mapM RequirementSpec.build
      = .ok ((plannedSpecs scope discovery activation kernels).map
        fun spec => spec.draft.canonical) := by
    rw [mapM_eq_ok, List.forall₂_map_right_iff, List.forall₂_same]
    exact hbuild
  have hnodup : (((plannedSpecs scope discovery activation kernels).map
      fun spec => spec.draft.canonical).map ContextRequirement.requirementId).Nodup := by
    rw [List.map_map]
    refine List.pairwise_map.mpr ((plannedSpecs_distinct h).imp fun hne hid => hne ?_)
    exact canonical_eq_of_id hsha hid
  unfold planRequirements
  rw [hmap, ok_bind]
  unfold ContextRequirementPlan.create
  rw [if_pos (((perm_sortedBy ContextRequirement.orderKey _).map
    ContextRequirement.requirementId).nodup_iff.mpr hnodup)]
  exact ⟨_, rfl⟩

end Planning

end CognitiveRuntime
