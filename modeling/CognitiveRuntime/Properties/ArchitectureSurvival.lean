import CognitiveRuntime.Properties.Conflicts
import CognitiveRuntime.Properties.EmptySnapshot
import CognitiveRuntime.Properties.Unknowns

/-!
# What proved materiality survives selection

Discovery reads governed constraints only, detailed selection reads
informative ones too. Adding weaker candidates to a group does not move
its strongest representative, and the architecture requirement is the
first of the plan, so what discovery routed from is selected or a budget
stop says so.
-/

namespace CognitiveRuntime

open Ordered Fallible

section Survival

variable [Sha256]

/-! ## The architecture requirement -/

/-- What the planner asks for where materiality is proven. -/
def architectureSpec (scopedRefs : List String) : RequirementSpec :=
  requirableSpec (baselineSpec scopedRefs .architectureConstraint
    "architecture materiality proven by governed discovery signals") true

/-- The requirement it becomes. -/
def architectureRequirement (scope : TaskScope) : ContextRequirement :=
  (architectureSpec scope.eligibleRefs).draft.canonical

omit [Sha256] in
theorem priorityOf_ge (kind : ContextKind) : 10 ≤ priorityOf kind := by
  cases kind <;> decide

omit [Sha256] in
theorem priorityOf_gt {kind : ContextKind} (h : kind ≠ .architectureConstraint) :
    10 < priorityOf kind := by
  cases kind with
  | architectureConstraint => exact absurd rfl h
  | _ => decide

omit [Sha256] in
theorem baselineSpecs_priority {scopedRefs : List String} {architectureRequired : Bool} :
    ∀ spec ∈ baselineSpecs scopedRefs architectureRequired,
      spec.priority = priorityOf spec.kind := by
  intro spec hspec
  simp only [baselineSpecs, List.mem_cons, List.not_mem_nil, or_false] at hspec
  rcases hspec with rfl | rfl | rfl | rfl | rfl | rfl | rfl | rfl | rfl | rfl <;> rfl

omit [Sha256] in
/-- Everything else is planned behind it. -/
theorem plannedSpecs_priority {scope : TaskScope} {discovery : DiscoveryContext}
    {activation : ActivationPlan} {kernels : List KernelBinding}
    (hrequired : activation.architectureMateriality.required = true)
    (hsignals : discovery.architectureSignalRefs ≠ []) :
    ∀ spec ∈ plannedSpecs scope discovery activation kernels,
      spec = architectureSpec scope.eligibleRefs ∨ 10 < spec.priority := by
  have hproven : (activation.architectureMateriality.required
      && !discovery.architectureSignalRefs.isEmpty) = true := by
    rw [hrequired, Bool.true_and, Bool.not_eq_true', List.isEmpty_eq_false_iff]
    exact hsignals
  intro spec hspec
  unfold plannedSpecs at hspec
  rw [hproven] at hspec
  rcases List.mem_append.mp hspec with hspec | hspec
  · rw [baselineSpecs_priority spec hspec]
    simp only [baselineSpecs, List.mem_cons, List.not_mem_nil, or_false] at hspec
    rcases hspec with rfl | rfl | rfl | rfl | rfl | rfl | rfl | rfl | rfl | rfl
    · exact .inl rfl
    all_goals
      refine .inr (priorityOf_gt fun h => ?_)
      cases h
  · obtain ⟨need, refs, -, -, rfl⟩ := mem_kernelNeedSpecs hspec
    exact .inr (Nat.lt_succ_of_le (priorityOf_ge need.contextKind))

/-- The requirement is planned where materiality is proven. -/
theorem architectureRequirement_mem {scope : TaskScope} {discovery : DiscoveryContext}
    {activation : ActivationPlan} {kernels : List KernelBinding} {plan : ContextRequirementPlan}
    (h : planRequirements scope discovery activation kernels = .ok plan)
    (hrequired : activation.architectureMateriality.required = true)
    (hsignals : discovery.architectureSignalRefs ≠ []) :
    architectureRequirement scope ∈ plan.requirements := by
  refine ((planRequirements_eq_ok h).1 _).mpr
    (List.mem_map.mpr ⟨architectureSpec scope.eligibleRefs, List.mem_append_left _ ?_, rfl⟩)
  have hproven : (activation.architectureMateriality.required
      && !discovery.architectureSignalRefs.isEmpty) = true := by
    rw [hrequired, Bool.true_and, Bool.not_eq_true', List.isEmpty_eq_false_iff]
    exact hsignals
  rw [hproven]
  exact List.mem_cons_self ..

/-- Where materiality is proven the plan begins with its requirement. -/
theorem architectureRequirement_first {scope : TaskScope} {discovery : DiscoveryContext}
    {activation : ActivationPlan} {kernels : List KernelBinding} {plan : ContextRequirementPlan}
    (h : planRequirements scope discovery activation kernels = .ok plan)
    (hrequired : activation.architectureMateriality.required = true)
    (hsignals : discovery.architectureSignalRefs ≠ []) :
    ∃ rest, plan.requirements = architectureRequirement scope :: rest := by
  have hmem := architectureRequirement_mem h hrequired hsignals
  have hsorted := planRequirements_sorted h
  cases hplan : plan.requirements with
  | nil =>
      rw [hplan] at hmem
      cases hmem
  | cons first rest =>
      rw [hplan] at hmem hsorted
      refine ⟨rest, ?_⟩
      rcases List.mem_cons.mp hmem with heq | hrest
      · rw [heq]
      · -- what stands before it has no greater priority, so it is the same
        have hle := (List.pairwise_cons.mp hsorted).1 _ hrest
        have hpriority : first.priority ≤ 10 := by
          rcases Prod.Lex.toLex_le_toLex.mp hle with hlt | ⟨heq, -⟩
          · exact hlt.le
          · exact heq.le
        obtain ⟨spec, hspec, rfl⟩ := exists_spec_of_mem h (hplan ▸ List.mem_cons_self ..)
        rcases plannedSpecs_priority hrequired hsignals spec hspec with rfl | hgt
        · rfl
        · exact absurd hpriority (Nat.not_le.mpr hgt)

/-! ## What it matches -/

omit [Sha256] in
theorem sortedUnique_eligibleRefs (scope : TaskScope) :
    sortedUnique scope.eligibleRefs = scope.eligibleRefs :=
  sortedUnique_idem _

/-- The requirement reads constraints in the scope discovery reads them
in. -/
theorem scopeMatches_architecture {scope : TaskScope} (item : ContextItem) :
    scopeMatches (architectureRequirement scope) item
      = discoveryScopeMatch item scope.eligibleRefs := by
  have hmode : (architectureRequirement scope).scopeMode
      = if scope.eligibleRefs ≠ [] then .scoped else .global := by
    show (if _ then _ else _) = _
    simp [isScopedKind]
  have hrefs : (architectureRequirement scope).scopeRefs
      = if scope.eligibleRefs ≠ [] then scope.eligibleRefs else [] := by
    show sortedUnique (if _ then _ else _) = _
    by_cases hnil : scope.eligibleRefs = []
    · simp [hnil]
    · simp [hnil, isScopedKind, sortedUnique_eligibleRefs]
  unfold scopeMatches discoveryScopeMatch
  rw [hmode, hrefs]
  by_cases hnil : scope.eligibleRefs = []
  · cases item.scopeMode <;> simp [hnil]
  · cases hitem : item.scopeMode
    · simp [hnil]
    · simp only [ne_eq, hnil, not_false_eq_true, if_true]
      rfl

/-- Among constraints, discovery reads the governed ones that the
requirement matches. -/
theorem discoveryEligible_architecture {scope : TaskScope} {item : ContextItem}
    (hkind : item.contextKind = .architectureConstraint) :
    discoveryEligible scope.eligibleRefs item
      = (item.isGoverned && matchesRequirement (architectureRequirement scope) item) := by
  have hdiscovery : decide (item.contextKind ∈ discoveryKinds) = true := by
    rw [hkind]
    decide
  have hsame : decide (item.contextKind = (architectureRequirement scope).contextKind) = true :=
    decide_eq_true hkind
  have hopen : item.contextKind.isGovernedOnly = false := by
    rw [hkind]
    rfl
  have hfresh : freshnessMatches (architectureRequirement scope) item = true := rfl
  unfold discoveryEligible matchesRequirement
  rw [hdiscovery, hsame, hopen, hfresh, scopeMatches_architecture]
  cases hgoverned : item.isGoverned with
  | false => simp
  | true =>
      have hrank : item.authorityRank ≤ (architectureRequirement scope).minimumAuthority.rank :=
        (isGoverned_iff_rank.mp hgoverned).trans
          (show 1 ≤ AuthorityLevel.informative.rank by decide)
      simp [hrank]

/-! ## The routed constraint in the requirement's view -/

/-- Discovery's group of a constraint is the governed part of the
requirement's. -/
theorem groupMembers_architecture {scope : TaskScope} {candidates : List ContextItem}
    {key : ContextKind × String} (hkind : key.1 = .architectureConstraint) :
    groupMembers (candidates.filter (discoveryEligible scope.eligibleRefs)) key
      = (groupMembers (candidates.filter (matchesRequirement (architectureRequirement scope)))
          key).filter fun item => item.isGoverned := by
  have hsupersession : isSupersessionKind key.1 = false := by
    rw [hkind]
    rfl
  rw [groupMembers_of_kind hsupersession, groupMembers_of_kind hsupersession, List.filter_filter,
    List.filter_filter, List.filter_filter]
  refine List.filter_congr fun item _ => ?_
  by_cases hkey : groupKey item = key
  · rw [discoveryEligible_architecture ((congrArg Prod.fst hkey).trans hkind), hkey]
    simp
  · simp [hkey]

omit [Sha256] in
/-- Discovery routes from the settled groups of its kinds. -/
theorem mem_discoveryItems {view : ResolvedCandidates} {item : ContextItem} :
    item ∈ discoveryItems view ↔ ∃ entry ∈ view.groups, entry.1.1 ∈ discoveryKinds
      ∧ entry.2.conflict = false ∧ item ∈ entry.2.items := by
  unfold discoveryItems discoveryGroups
  simp only [List.mem_flatMap, List.mem_filter, mem_sortedGroups, decide_eq_true_eq,
    Bool.not_eq_true']
  constructor
  · rintro ⟨entry, ⟨⟨kind, hkind, hentry, rfl⟩, hconflict⟩, hitem⟩
    exact ⟨entry, hentry, hkind, hconflict, hitem⟩
  · rintro ⟨entry, hentry, hkind, hconflict, hitem⟩
    exact ⟨entry, ⟨⟨_, hkind, hentry, rfl⟩, hconflict⟩, hitem⟩

/-- The architecture requirement may select what discovery routes from. -/
theorem routed_eligible {scope : TaskScope} {resolution : SnapshotResolution}
    {item : ContextItem}
    (hrouted : item ∈ discoveryItems
      (resolution.resolve (discoveryEligible scope.eligibleRefs)))
    (hkind : item.contextKind = .architectureConstraint) :
    item ∈ eligibleItems (requirementView resolution (architectureRequirement scope)) := by
  obtain ⟨⟨key, group⟩, hgroup, -, -, hitem⟩ := mem_discoveryItems.mp hrouted
  obtain ⟨-, hmember⟩ := mem_groupMembers.mp (mem_view_items hgroup hitem)
  obtain rfl : groupKey item = key := hmember
  obtain ⟨-, rfl⟩ := mem_groups.mp hgroup
  have harchitecture : (groupKey item).1 = .architectureConstraint := hkind
  rw [harchitecture, mem_resolveGroup_authority rfl, groupMembers_architecture harchitecture] at hitem
  unfold requirementView SnapshotResolution.resolve
  rw [mem_eligible_iff, hkind, mem_resolveGroup_authority rfl]
  exact strongest_of_governed hitem

/-! ## Survival -/

/-- The ids discovery routes from are those of its items. -/
theorem mem_routingFactRefs {scope : TaskScope} {resolution : SnapshotResolution} {id : String} :
    id ∈ (discover scope resolution).routingFactRefs ↔
      ∃ item ∈ discoveryItems (resolution.resolve (discoveryEligible scope.eligibleRefs)),
        item.itemId = id := by
  unfold discover
  dsimp only
  rw [mem_sortedUnique, List.mem_map]

/-- The signals discovery reads are the ids of its constraints. -/
theorem mem_architectureSignalRefs {scope : TaskScope} {resolution : SnapshotResolution}
    {id : String} : id ∈ (discover scope resolution).architectureSignalRefs ↔
      ∃ item ∈ discoveryItems (resolution.resolve (discoveryEligible scope.eligibleRefs)),
        ∃ constraint, item.claim = .architectureConstraint constraint
          ∧ constraint.constraintId = id := by
  have hclaim : ∀ {item : ContextItem} {constraint : GovernedConstraint},
      item.architectureConstraint? = some constraint
        ↔ item.claim = .architectureConstraint constraint := by
    intro item constraint
    unfold ContextItem.architectureConstraint?
    cases item.claim <;> simp
  unfold discover
  dsimp only
  simp only [mem_sortedUnique, List.mem_filterMap, Option.map_eq_some_iff, hclaim]

/-- The inputs of a compile whose discovery and plan come from the
compiler's own stages over a snapshot. -/
structure PlannedFrom (snapshot : ContextSnapshot) (inputs : CompileInputs) : Prop where
  resolution : inputs.resolution = resolveSnapshot snapshot.toSnapshotBuckets
  discovery : inputs.discovery = discover inputs.scope inputs.resolution
  plan : planRequirements inputs.scope inputs.discovery inputs.activation inputs.kernels
    = .ok inputs.requirementPlan

/-- Candidates carry the id their recipe derives. -/
theorem PlannedFrom.ids {snapshot : ContextSnapshot} {inputs : CompileInputs}
    (h : PlannedFrom snapshot inputs) :
    ∀ item ∈ inputs.resolution.candidates, item.itemId = item.expectedItemId := by
  intro item hitem
  rw [h.resolution] at hitem
  exact (snapshot.valid item ((mem_sortedBy _).mp hitem)).id_recipe

/-- The spine compiles over inputs that its own stages produce. -/
theorem prepareContextPlan_plannedFrom [TextTables] {request : CompileRequest}
    {pack : RuntimePack} {snapshot : Option ContextSnapshot} {options : RunOptions}
    {prepared : PreparedContextPlan}
    (h : prepareContextPlan request pack snapshot options = .ok prepared) :
    PlannedFrom prepared.snapshot prepared.compileInputs := by
  simp only [prepareContextPlan, planFromDiscovery, bind_eq_ok, Prod.exists] at h
  obtain ⟨sources, -, intent, -, _, -, activation, kernels, plan, contextPlan, hplan, h⟩ := h
  obtain ⟨_, -, _, -, plan', hrequirements, contextPlan', -, heq⟩ := hplan
  cases heq
  obtain rfl := Except.ok.inj h
  exact ⟨rfl, rfl, hrequirements⟩

/-- Compilation under a plan of the planner finishes. -/
theorem planned_finishes {scope : TaskScope} {discovery : DiscoveryContext}
    {activation : ActivationPlan} {kernels : List KernelBinding} {inputs : CompileInputs}
    (hplan : planRequirements scope discovery activation kernels = .ok inputs.requirementPlan)
    (hneeds : NeedsAccepted kernels) (hversion : isBlank inputs.packageVersion = false) :
    ∃ context, compileContext inputs = .ok context := by
  refine compileContext_finishes (fun r hr hblock => ?_) hversion
  obtain ⟨spec, hspec, rfl⟩ := exists_spec_of_mem hplan hr
  have hpolicy : spec.missingPolicy = .block := hblock
  rw [(plannedSpecs_sound hneeds spec hspec).policy] at hpolicy
  split at hpolicy <;> cases hpolicy

theorem PlannedFrom.finishes {snapshot : ContextSnapshot} {inputs : CompileInputs}
    (h : PlannedFrom snapshot inputs) (hneeds : NeedsAccepted inputs.kernels)
    (hversion : isBlank inputs.packageVersion = false) :
    ∃ context, compileContext inputs = .ok context :=
  planned_finishes h.plan hneeds hversion

/-- A constraint is selected, or a blocking unknown of the architecture
requirement says that it may not have been. -/
def SelectedOrBlocked (inputs : CompileInputs) (context : CompiledTaskContext)
    (item : ContextItem) : Prop :=
  (∃ reasons, item.withSelection reasons ∈ context.architectureConstraints)
    ∨ (architectureRequirement inputs.scope ∈ inputs.requirementPlan.requirements
      ∧ ∃ u ∈ context.unresolvedUnknowns, u.materiality = .blocking
        ∧ u.requirementRef = some (architectureRequirement inputs.scope).requirementId)

theorem routed_selected_or_blocked (hsha : Sha256.Injective) {snapshot : ContextSnapshot}
    {inputs : CompileInputs} {context : CompiledTaskContext} (hfrom : PlannedFrom snapshot inputs)
    (hrequired : inputs.activation.architectureMateriality.required = true)
    (hsignals : inputs.discovery.architectureSignalRefs ≠ [])
    (hcompile : compileContext inputs = .ok context) {item : ContextItem}
    (hrouted : item ∈ discoveryItems
      (inputs.resolution.resolve (discoveryEligible inputs.scope.eligibleRefs)))
    (hkind : item.contextKind = .architectureConstraint) :
    SelectedOrBlocked inputs context item := by
  obtain ⟨selection, unknowns, hselect, rfl⟩ := compileContext_ok hcompile
  obtain ⟨rest, hfirst⟩ := architectureRequirement_first hfrom.plan hrequired hsignals
  have hplanned := architectureRequirement_mem hfrom.plan hrequired hsignals
  have hall := hselect
  rw [hfirst] at hall
  simp only [selectAll, bind_eq_ok, Prod.exists] at hall
  obtain ⟨after, first, hfor, last, others, hrest, hdone⟩ := hall
  obtain ⟨hlast, hunknowns⟩ := Prod.mk.inj (Except.ok.inj hdone)
  obtain ⟨state, stop, short, hloop, hshort, hafter, hfirstUnknowns⟩ := selectFor_ok hfor
  have heligible := routed_eligible hrouted hkind
  cases stop with
  | none =>
      left
      have hids : ((eligibleItems (requirementView inputs.resolution
          (architectureRequirement inputs.scope))).map ContextItem.itemId).Nodup := by
        refine (nodup_eligibleItems _).map_on fun a ha b hb hid => ?_
        exact eligible_eq_of_id hsha (fun other hother =>
          hfrom.ids other (List.mem_filter.mp hother).1) ha hb hid
      have hadmitted := (selectLoop_allEligible rfl hloop hids
        (fun _ _ => List.not_mem_nil)).2 item heligible
      rw [← hafter] at hadmitted
      have hkept : item ∈ selection.byItem := hlast ▸ mem_selectAll_of_mem hrest hadmitted
      exact ⟨_, List.mem_filter.mpr ⟨exists_mem_selected hkept, decide_eq_true hkind⟩⟩
  | some stop =>
      right
      have hnot : satisfied (architectureRequirement inputs.scope) state.selectedCount
          state.selectedKeys ((conflictGroups (requirementView inputs.resolution
            (architectureRequirement inputs.scope))).map fun entry => entry.1.2)
          (some stop).isSome = false := by
        unfold satisfied
        split <;> rfl
      obtain ⟨reason, details, hreason, hu⟩ := shortfall_unsatisfied hshort rfl hnot
      have hmem : ContextUnknown.create
          (some (architectureRequirement inputs.scope).requirementId) none reason details
          (materialityFor (architectureRequirement inputs.scope)) [] ∈ unknowns := by
        rw [← hunknowns, hfirstUnknowns]
        exact List.mem_append_left _ (List.mem_append_right _ hu)
      obtain ⟨u, hu, href, -, hmateriality⟩ := shortfall_recorded hsha
        (planRequirements_eq_ok hfrom.plan).2.1 hselect hplanned hreason hmem
      exact ⟨hplanned, u, hu, hmateriality, href⟩

/-- Every constraint that discovery routed from is selected, or the
architecture requirement blocks: where materiality is proven, each
candidate under a routed id and a signalled constraint stands for one
routed item, itself where it is routed. -/
theorem routed_constraints_survive (hsha : Sha256.Injective) (snapshot : ContextSnapshot)
    (inputs : CompileInputs) (context : CompiledTaskContext)
    (hfrom : PlannedFrom snapshot inputs)
    (hrequired : inputs.activation.architectureMateriality.required = true)
    (hcompile : compileContext inputs = .ok context) :
    ∀ item ∈ inputs.resolution.candidates, ∀ constraint,
      item.claim = .architectureConstraint constraint →
      item.itemId ∈ inputs.discovery.routingFactRefs →
      constraint.constraintId ∈ inputs.discovery.architectureSignalRefs →
      ∃ routed ∈ discoveryItems
          (inputs.resolution.resolve (discoveryEligible inputs.scope.eligibleRefs)),
        routed.itemId = item.itemId ∧ SameItem routed item
          ∧ (item ∈ discoveryItems
              (inputs.resolution.resolve (discoveryEligible inputs.scope.eligibleRefs)) →
            routed = item)
          ∧ SelectedOrBlocked inputs context routed := by
  intro item hitem constraint hclaim hid hsignal
  have hsignals := List.ne_nil_of_mem hsignal
  have hkind : item.contextKind = .architectureConstraint := by
    unfold ContextItem.contextKind
    rw [hclaim]
    rfl
  rw [hfrom.discovery] at hid
  obtain ⟨routed, hrouted, hroutedId, hsame⟩ : ∃ routed ∈ discoveryItems
      (inputs.resolution.resolve (discoveryEligible inputs.scope.eligibleRefs)),
      routed.itemId = item.itemId ∧ (item ∈ discoveryItems
        (inputs.resolution.resolve (discoveryEligible inputs.scope.eligibleRefs)) →
        routed = item) := by
    by_cases hin : item ∈ discoveryItems
        (inputs.resolution.resolve (discoveryEligible inputs.scope.eligibleRefs))
    · exact ⟨item, hin, rfl, fun _ => rfl⟩
    · obtain ⟨routed, hrouted, hroutedId⟩ := mem_routingFactRefs.mp hid
      exact ⟨routed, hrouted, hroutedId, fun h => absurd h hin⟩
  obtain ⟨entry, hentry, -, -, hmember⟩ := mem_discoveryItems.mp hrouted
  have hcandidate : routed ∈ inputs.resolution.candidates := (List.mem_filter.mp
    (mem_of_mem_leftOver (mem_groupMembers.mp (mem_view_items hentry hmember)).1)).1
  have hboth := sameItem_of_id hsha (hfrom.ids routed hcandidate) (hfrom.ids item hitem) hroutedId
  exact ⟨routed, hrouted, hroutedId, hboth, hsame, routed_selected_or_blocked hsha hfrom
    hrequired hsignals hcompile hrouted (hboth.contextKind.trans hkind)⟩

end Survival

/-! ## A layering rule -/

section Layering

attribute [local instance] Sha256.transparent

/-- A constraint that stands alone is routed from. -/
theorem sole_constraint_routed {resolution : SnapshotResolution} {scopedRefs : List String}
    {item : ContextItem} (hone : resolution.candidates = [item])
    (heligible : discoveryEligible scopedRefs item = true)
    (hkind : item.contextKind = .architectureConstraint) :
    item ∈ discoveryItems (resolution.resolve (discoveryEligible scopedRefs)) := by
  unfold SnapshotResolution.resolve
  rw [hone, List.filter_singleton, heligible, cond_true]
  have hmember : item ∈ groupMembers [item] (groupKey item) := by
    refine mem_groupMembers.mpr ⟨mem_leftOver_of_kind (List.mem_singleton_self _) ?_, rfl⟩
    rw [hkind]
    rfl
  have honly : ∀ other ∈ groupMembers [item] (groupKey item), other = item := fun other hother =>
    List.mem_singleton.mp (mem_of_mem_leftOver (mem_groupMembers.mp hother).1)
  have hstrongest : strongest (representatives (groupMembers [item] (groupKey item))) = [item] :=
    eq_singleton_of_all_eq ((nodup_representatives _).filter _)
      (strongest_ne_nil (representatives_ne_nil (List.ne_nil_of_mem hmember)))
      fun other hother => honly other (mem_of_mem_representatives (mem_strongest.mp hother).1)
  have hsettled : item ∈ (resolveGroup (groupKey item).1
      (representatives (groupMembers [item] (groupKey item)))).items := by
    have harchitecture : (groupKey item).1 = .architectureConstraint := hkind
    rw [harchitecture]
    exact (mem_resolveGroup_authority rfl).mpr hstrongest
  refine mem_discoveryItems.mpr ⟨_, mem_groups.mpr ⟨List.ne_nil_of_mem hmember, rfl⟩, ?_,
    settled_of_mem hsettled, hsettled⟩
  show item.contextKind ∈ discoveryKinds
  rw [hkind]
  decide

theorem layeringRule_valid : (layeringRule "no upward imports" .global []).Valid :=
  ContextItem.create_valid (by decide) (by decide) (by decide) trivial (fun _ => by decide)
    (fun h => by cases h)

theorem layeringRule_size : (layeringRule "no upward imports" .global []).toJson.size ≤ 65536 := by
  rw [ContextItem.size_transparent rfl]
  decide +kernel

/-- A snapshot with one governed constraint. -/
def layeringSnapshot : ContextSnapshot where
  toSnapshotBuckets := { SnapshotBuckets.empty with
    architectureConstraints := [layeringRule "no upward imports" .global []] }
  kinds := by
    simp [SnapshotBuckets.named, SnapshotBuckets.empty, layeringRule, ContextItem.create,
      ContextItem.contextKind, Claim.kind]
  valid := by
    intro item hitem
    obtain rfl : item = layeringRule "no upward imports" .global [] :=
      List.mem_singleton.mp hitem
    exact layeringRule_valid
  unselected := by
    intro item hitem
    obtain rfl : item = layeringRule "no upward imports" .global [] :=
      List.mem_singleton.mp hitem
    rfl

/-- The audit's activation, with architecture proven material. -/
def layeringActivation : ActivationPlan :=
  { auditActivation with architectureMateriality :=
    { required := true, triggers := [], activeLenses := [], evidence := [] } }

/-- The inputs of an audit under the constraint. -/
def layeringInputs (plan : ContextRequirementPlan) : CompileInputs :=
  { intent := auditIntent
    scope := compileScope auditIntent
    resolution := resolveSnapshot layeringSnapshot.toSnapshotBuckets
    discovery := discover (compileScope auditIntent)
      (resolveSnapshot layeringSnapshot.toSnapshotBuckets)
    requirementPlan := plan
    activation := layeringActivation
    kernels := []
    packageVersion := packageVersion
    defaultAuthorityOrder := defaultAuthorityOrder }

/-- The layering rule is routed from, and survives. -/
theorem layering_rule_survives :
    ∃ plan context, compileContext (layeringInputs plan) = .ok context
      ∧ ∃ routed ∈ discoveryItems ((layeringInputs plan).resolution.resolve
          (discoveryEligible (layeringInputs plan).scope.eligibleRefs)),
        routed.itemId = (layeringRule "no upward imports" .global []).itemId
          ∧ SelectedOrBlocked (layeringInputs plan) context routed := by
  have hneeds : NeedsAccepted [] := fun _ h => absurd h List.not_mem_nil
  have hversion : isBlank packageVersion = false := by decide
  obtain ⟨plan, hplan⟩ := planRequirements_ok Sha256.transparent_injective
    (compileScope auditIntent)
    (discover (compileScope auditIntent) (resolveSnapshot layeringSnapshot.toSnapshotBuckets))
    layeringActivation hneeds
  have hfrom : PlannedFrom layeringSnapshot (layeringInputs plan) := ⟨rfl, rfl, hplan⟩
  obtain ⟨context, hcompile⟩ := hfrom.finishes hneeds hversion
  have hrouted : layeringRule "no upward imports" .global [] ∈ discoveryItems
      ((layeringInputs plan).resolution.resolve
        (discoveryEligible (layeringInputs plan).scope.eligibleRefs)) :=
    sole_constraint_routed rfl rfl rfl
  have hcandidate : layeringRule "no upward imports" .global []
      ∈ (layeringInputs plan).resolution.candidates := List.mem_singleton_self _
  obtain ⟨routed, hroutedMem, hid, -, -, hsurvives⟩ := routed_constraints_survive
    Sha256.transparent_injective layeringSnapshot (layeringInputs plan) context hfrom rfl hcompile
    _ hcandidate _ rfl (mem_routingFactRefs.mpr ⟨_, hrouted, rfl⟩)
    (mem_architectureSignalRefs.mpr ⟨_, hrouted, _, rfl, rfl⟩)
  exact ⟨plan, context, hcompile, routed, hroutedMem, hid, hsurvives⟩

end Layering

end CognitiveRuntime
