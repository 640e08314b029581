import Mathlib.Algebra.Order.BigOperators.Group.List
import CognitiveRuntime.Properties.ArchitectureSurvival

/-!
# What the candidates outside a view can change

Every consumer resolves its own eligible candidates, so a consumer
cannot tell apart two snapshots with the same eligible candidates in the
same order. Filtering commutes with the stable sort of the snapshot,
hence it is enough that the snapshots agree on the candidates before
they are sorted.

Two consequences. Candidates that neither discovery nor any requirement
is eligible for are inert: the discovery projection, the plan and the
compiled context are equal with and without them. And the context plan
depends on the snapshot through the discovery projection only, so what
is acquired to fulfil a plan cannot move its id.
-/

namespace CognitiveRuntime

open Ordered Fallible

/-- The eligibility rules of a compile: discovery's own, and one for each
requirement. -/
def consumers (scope : TaskScope) (plan : ContextRequirementPlan) : List (ContextItem → Bool) :=
  discoveryEligible scope.eligibleRefs :: plan.requirements.map matchesRequirement

section Views

variable [Sha256]

omit [Sha256] in
/-- Sorting the snapshot does not disturb a view. -/
theorem candidates_filter_congr {s s' : SnapshotBuckets} {eligible : ContextItem → Bool}
    (h : s'.allItems.filter eligible = s.allItems.filter eligible) :
    (resolveSnapshot s').candidates.filter eligible
      = (resolveSnapshot s).candidates.filter eligible := by
  unfold resolveSnapshot
  rw [filter_sortedBy, filter_sortedBy, h]

/-- Two views that no consumer can tell apart: groups are walked in key
order. -/
structure ResolvedCandidates.Alike (view' view : ResolvedCandidates) : Prop where
  groups : view'.sortedGroups = view.sortedGroups
  unknowns : view'.supersessionUnknowns = view.supersessionUnknowns

/-- A view reads exactly the candidates it is eligible for. -/
theorem resolve_congr {resolution resolution' : SnapshotResolution}
    {eligible : ContextItem → Bool}
    (h : resolution'.candidates.filter eligible = resolution.candidates.filter eligible) :
    (resolution'.resolve eligible).Alike (resolution.resolve eligible) := by
  unfold SnapshotResolution.resolve
  rw [h]
  exact ⟨rfl, rfl⟩

/-- Discovery reads one view. -/
theorem discover_congr {scope : TaskScope} {resolution resolution' : SnapshotResolution}
    (h : (resolution'.resolve (discoveryEligible scope.eligibleRefs)).Alike
      (resolution.resolve (discoveryEligible scope.eligibleRefs))) :
    discover scope resolution' = discover scope resolution := by
  unfold discover discoveryItems discoveryGroups
  dsimp only
  rw [h.groups, h.unknowns]

/-- One requirement selects from its own view only. -/
theorem selectFor_congr {budget : ContextBudget} {resolution resolution' : SnapshotResolution}
    {requirement : ContextRequirement}
    (h : (requirementView resolution' requirement).Alike (requirementView resolution requirement))
    (selection : Selection) :
    selectFor budget resolution' requirement selection
      = selectFor budget resolution requirement selection := by
  unfold selectFor eligibleItems conflictGroups
  dsimp only
  rw [h.groups, h.unknowns]

theorem selectAll_congr {budget : ContextBudget}
    {resolution resolution' : SnapshotResolution} :
    ∀ {requirements : List ContextRequirement} (selection : Selection),
      (∀ r ∈ requirements, (requirementView resolution' r).Alike (requirementView resolution r)) →
      selectAll budget resolution' requirements selection
        = selectAll budget resolution requirements selection
  | [], _, _ => rfl
  | requirement :: rest, selection, h => by
      rw [selectAll, selectAll, selectFor_congr (h requirement (List.mem_cons_self ..))]
      refine congrArg _ (funext fun first => ?_)
      rw [selectAll_congr first.1 fun r hr => h r (List.mem_cons_of_mem _ hr)]

/-- What is assembled from a selection no longer looks at the snapshot. -/
theorem assembleContext_resolution (inputs : CompileInputs)
    (resolution' : SnapshotResolution) (unknowns : List ContextUnknown)
    (selected : List ContextItem) :
    assembleContext { inputs with resolution := resolution' } unknowns selected
      = assembleContext inputs unknowns selected := by
  simp only [assembleContext, contributedUnknowns]

/-- Compilation reads the snapshot through the views of its plan. -/
theorem compileContext_congr {inputs : CompileInputs} {resolution' : SnapshotResolution}
    (h : ∀ r ∈ inputs.requirementPlan.requirements,
      (requirementView resolution' r).Alike (requirementView inputs.resolution r)) :
    compileContext { inputs with resolution := resolution' } = compileContext inputs := by
  unfold compileContext
  rw [selectAll_congr .empty h]
  simp only [assembleContext_resolution]

end Views

/-! ## Inert candidates -/

/-- Each bucket of the second snapshot is the bucket of the first with
candidates of a kind inserted. -/
def SnapshotBuckets.InsertedWith (p : ContextItem → Prop) (s s' : SnapshotBuckets) : Prop :=
  List.Forall₂ (fun bucket bucket' => bucket.1 = bucket'.1
    ∧ Ordered.InsertedWith p bucket.2.2 bucket'.2.2) s.named s'.named

theorem SnapshotBuckets.InsertedWith.allItems {p : ContextItem → Prop} {s s' : SnapshotBuckets}
    (h : s.InsertedWith p s') : Ordered.InsertedWith p s.allItems s'.allItems := by
  unfold SnapshotBuckets.allItems
  unfold SnapshotBuckets.InsertedWith at h
  generalize s.named = buckets at h ⊢
  generalize s'.named = buckets' at h ⊢
  induction h with
  | nil => exact .nil
  | cons hbucket _ ih =>
      rw [List.flatMap_cons, List.flatMap_cons]
      exact hbucket.2.append ih

/-- What compilation over a snapshot and a plan reads. -/
def inputsOver [Sha256] (intent : IntentContract) (scope : TaskScope)
    (activation : ActivationPlan) (kernels : List KernelBinding) (plan : ContextRequirementPlan)
    (snapshot : ContextSnapshot) : CompileInputs :=
  { intent := intent
    scope := scope
    resolution := resolveSnapshot snapshot.toSnapshotBuckets
    discovery := discover scope (resolveSnapshot snapshot.toSnapshotBuckets)
    requirementPlan := plan
    activation := activation
    kernels := kernels
    packageVersion := packageVersion
    defaultAuthorityOrder := defaultAuthorityOrder }

/-- Neither discovery nor a requirement of the plan looks at the item. -/
def Irrelevant (scope : TaskScope) (plan : ContextRequirementPlan) (item : ContextItem) : Prop :=
  discoveryEligible scope.eligibleRefs item = false
    ∧ ∀ r ∈ plan.requirements, matchesRequirement r item = false

/-- Candidates nobody is eligible for leave no trace: discovery, the
plan and the compiled context are the same without them. -/
theorem irrelevant_candidates_inert [Sha256] (scope : TaskScope) (activation : ActivationPlan)
    (kernels : List KernelBinding) (intent : IntentContract) (s s' : ContextSnapshot)
    (plan : ContextRequirementPlan)
    (hplan : planRequirements scope (discover scope (resolveSnapshot s.toSnapshotBuckets))
      activation kernels = .ok plan)
    (hinserted : s.InsertedWith (Irrelevant scope plan) s'.toSnapshotBuckets) :
    discover scope (resolveSnapshot s'.toSnapshotBuckets)
        = discover scope (resolveSnapshot s.toSnapshotBuckets)
      ∧ planRequirements scope (discover scope (resolveSnapshot s'.toSnapshotBuckets))
          activation kernels = .ok plan
      ∧ compileContext (inputsOver intent scope activation kernels plan s')
          = compileContext (inputsOver intent scope activation kernels plan s) := by
  have hitems := hinserted.allItems
  have hdiscovery : discover scope (resolveSnapshot s'.toSnapshotBuckets)
      = discover scope (resolveSnapshot s.toSnapshotBuckets) :=
    discover_congr (resolve_congr (candidates_filter_congr (hitems.filter_eq fun _ h => h.1)))
  refine ⟨hdiscovery, ?_, ?_⟩
  · rw [hdiscovery]
    exact hplan
  · have hviews : ∀ r ∈ plan.requirements,
        (resolveSnapshot s'.toSnapshotBuckets).candidates.filter (matchesRequirement r)
          = (resolveSnapshot s.toSnapshotBuckets).candidates.filter (matchesRequirement r) :=
      fun r hr => candidates_filter_congr (hitems.filter_eq fun _ h => h.2 r hr)
    have hinputs : inputsOver intent scope activation kernels plan s'
        = { inputsOver intent scope activation kernels plan s with
            resolution := resolveSnapshot s'.toSnapshotBuckets } := by
      simp only [inputsOver, hdiscovery]
    rw [hinputs]
    exact compileContext_congr fun r hr => resolve_congr (hviews r hr)

/-- For a task that names no reference, a scoped candidate is nobody's. -/
theorem scoped_irrelevant [Sha256] {scope : TaskScope} {discovery : DiscoveryContext}
    {activation : ActivationPlan} {kernels : List KernelBinding} {plan : ContextRequirementPlan}
    (hplan : planRequirements scope discovery activation kernels = .ok plan)
    (hrefs : scope.eligibleRefs = []) {item : ContextItem} (hmode : item.scopeMode = .scoped) :
    Irrelevant scope plan item := by
  refine ⟨?_, ?_⟩
  · simp [discoveryEligible, discoveryScopeMatch, hmode, hrefs]
  · intro r hr
    obtain ⟨spec, hspec, rfl⟩ := exists_spec_of_mem hplan hr
    have hglobal : spec.draft.canonical.scopeMode = .global := plannedSpecs_unscoped hrefs spec hspec
    simp [matchesRequirement, scopeMatches, hglobal, hmode]

section Changelog

attribute [local instance] Sha256.transparent

/-- The layering rule and, for the changelog alone, a rival of it. -/
def changelogRules : List ContextItem :=
  [layeringRule "no upward imports" .global [],
    layeringRule "no cyclic imports" .scoped ["CHANGELOG.md"]]

/-- The snapshot with the rival beside the layering rule. -/
def changelogSnapshot : ContextSnapshot where
  toSnapshotBuckets := { SnapshotBuckets.empty with architectureConstraints := changelogRules }
  kinds := by
    simp [SnapshotBuckets.named, SnapshotBuckets.empty, changelogRules, layeringRule,
      ContextItem.create, ContextItem.contextKind, Claim.kind]
  valid := by
    have hrival : (layeringRule "no cyclic imports" .scoped ["CHANGELOG.md"]).Valid :=
      ContextItem.create_valid (by decide) (by decide) (by decide) trivial (fun _ => by decide)
        (fun h => by cases h)
    intro item hitem
    rcases List.mem_cons.mp hitem with rfl | hitem
    · exact layeringRule_valid
    · obtain rfl := List.mem_singleton.mp hitem
      exact hrival
  unselected := by
    intro item hitem
    rcases List.mem_cons.mp hitem with rfl | hitem
    · rfl
    · obtain rfl := List.mem_singleton.mp hitem
      rfl

/-- The changelog's rule contradicts the layering rule, and changes
nothing about the audit. -/
theorem changelog_rule_inert :
    ¬SameClaim (layeringRule "no cyclic imports" .scoped ["CHANGELOG.md"])
        (layeringRule "no upward imports" .global [])
      ∧ ∃ plan context, planRequirements (compileScope auditIntent)
          (discover (compileScope auditIntent)
            (resolveSnapshot layeringSnapshot.toSnapshotBuckets)) auditActivation auditKernels
          = .ok plan
        ∧ discover (compileScope auditIntent) (resolveSnapshot changelogSnapshot.toSnapshotBuckets)
          = discover (compileScope auditIntent)
            (resolveSnapshot layeringSnapshot.toSnapshotBuckets)
        ∧ compileContext (inputsOver auditIntent (compileScope auditIntent) auditActivation
            auditKernels plan changelogSnapshot) = .ok context
        ∧ compileContext (inputsOver auditIntent (compileScope auditIntent) auditActivation
            auditKernels plan layeringSnapshot) = .ok context := by
  have hrivals : ¬SameClaim (layeringRule "no cyclic imports" .scoped ["CHANGELOG.md"])
      (layeringRule "no upward imports" .global []) :=
    fun h => absurd (h.field "statement") (by decide)
  obtain ⟨plan, hplan⟩ := planRequirements_ok Sha256.transparent_injective
    (compileScope auditIntent)
    (discover (compileScope auditIntent) (resolveSnapshot layeringSnapshot.toSnapshotBuckets))
    auditActivation audit_needsAccepted
  have hfrom : PlannedFrom layeringSnapshot (inputsOver auditIntent (compileScope auditIntent)
      auditActivation auditKernels plan layeringSnapshot) := ⟨rfl, rfl, hplan⟩
  have hversion : isBlank packageVersion = false := by decide
  obtain ⟨context, hcompile⟩ := hfrom.finishes audit_needsAccepted hversion
  have hinserted : layeringSnapshot.InsertedWith
      (Irrelevant (compileScope auditIntent) plan) changelogSnapshot.toSnapshotBuckets := by
    have hempty : Ordered.InsertedWith (Irrelevant (compileScope auditIntent) plan)
        ([] : List ContextItem) [] := .nil
    have hrival : Ordered.InsertedWith (Irrelevant (compileScope auditIntent) plan)
        [layeringRule "no upward imports" .global []] changelogRules :=
      .keep _ (.insert (scoped_irrelevant hplan audit_scope.2 rfl) .nil)
    simp [SnapshotBuckets.InsertedWith, SnapshotBuckets.named, layeringSnapshot,
      SnapshotBuckets.empty, changelogSnapshot, hempty, hrival]
  obtain ⟨hdiscovery, -, hcontext⟩ := irrelevant_candidates_inert (compileScope auditIntent)
    auditActivation auditKernels auditIntent layeringSnapshot changelogSnapshot plan hplan hinserted
  exact ⟨hrivals, plan, context, hplan, hdiscovery, hcontext.trans hcompile, hcompile⟩

end Changelog

/-! ## Binding to a plan -/

section PlanBinding

variable [Sha256] [TextTables]

/-- The context plan as a function of the discovery projection. -/
def planGivenDiscovery (request : CompileRequest) (pack : RuntimePack) (options : RunOptions)
    (discovery : TaskScope → DiscoveryContext) : Except RuntimeError ContextPlan := do
  let sources ← readSources pack
  let intent ← deriveIntent request
  let planned ← planFromDiscovery pack options sources intent (compileScope intent)
    (discovery (compileScope intent))
  .ok planned.2.2.2

/-- What the prefix reads of the snapshot, once it is within the
ceilings, is the discovery projection. -/
theorem prepareContextPlan_map (request : CompileRequest) (pack : RuntimePack)
    (snapshot : Option ContextSnapshot) (options : RunOptions)
    (hceiling : WithinCeilings (snapshot.getD ContextSnapshot.empty).toSnapshotBuckets) :
    (prepareContextPlan request pack snapshot options).map PreparedContextPlan.contextPlan
      = planGivenDiscovery request pack options fun scope =>
          discover scope
            (resolveSnapshot (snapshot.getD ContextSnapshot.empty).toSnapshotBuckets) := by
  unfold prepareContextPlan planGivenDiscovery
  cases readSources pack with
  | error e => rfl
  | ok sources =>
      cases deriveIntent request with
      | error e => rfl
      | ok intent =>
          simp only [ok_bind, preflightSnapshot_ok_iff.mpr hceiling]
          generalize planFromDiscovery pack options sources intent (compileScope intent)
            (discover (compileScope intent)
              (resolveSnapshot (snapshot.getD ContextSnapshot.empty).toSnapshotBuckets)) = planned
          rcases planned with e | ⟨activation, kernels, requirementPlan, contextPlan⟩
          · rfl
          · rfl

theorem planGivenDiscovery_congr {request : CompileRequest} {pack : RuntimePack}
    {options : RunOptions} {discovery discovery' : TaskScope → DiscoveryContext}
    (h : ∀ intent, deriveIntent request = .ok intent →
      discovery' (compileScope intent) = discovery (compileScope intent)) :
    planGivenDiscovery request pack options discovery'
      = planGivenDiscovery request pack options discovery := by
  unfold planGivenDiscovery
  cases readSources pack with
  | error e => rw [error_bind, error_bind]
  | ok sources =>
      cases hintent : deriveIntent request with
      | error e => simp only [ok_bind, error_bind]
      | ok intent =>
          simp only [ok_bind]
          rw [h intent hintent]

/-- The candidates discovery reads of a snapshot under an intent. -/
def discoveryCandidates (intent : IntentContract) (snapshot : Option ContextSnapshot) :
    List ContextItem :=
  (snapshot.getD ContextSnapshot.empty).allItems.filter
    (discoveryEligible (compileScope intent).eligibleRefs)

/-- Snapshots with the same discovery candidates give the same plan. -/
theorem prepareContextPlan_map_congr {request : CompileRequest} {pack : RuntimePack}
    {s s' : Option ContextSnapshot} {options : RunOptions}
    (hs : WithinCeilings (s.getD ContextSnapshot.empty).toSnapshotBuckets)
    (hs' : WithinCeilings (s'.getD ContextSnapshot.empty).toSnapshotBuckets)
    (hsame : ∀ intent, deriveIntent request = .ok intent →
      discoveryCandidates intent s' = discoveryCandidates intent s) :
    (prepareContextPlan request pack s' options).map PreparedContextPlan.contextPlan
      = (prepareContextPlan request pack s options).map PreparedContextPlan.contextPlan := by
  rw [prepareContextPlan_map request pack s' options hs',
    prepareContextPlan_map request pack s options hs]
  exact planGivenDiscovery_congr fun intent hintent =>
    discover_congr (resolve_congr (candidates_filter_congr (hsame intent hintent)))

omit [TextTables] in
theorem requireContextPlan_self (prepared : PreparedContextPlan) :
    requireContextPlan (some prepared.contextPlan.contextPlanId) prepared = .ok () := by
  simp [requireContextPlan]

omit [TextTables] in
theorem requireContextPlan_ne {expected : String} {prepared : PreparedContextPlan}
    (h : prepared.contextPlan.contextPlanId ≠ expected) :
    requireContextPlan (some expected) prepared
      = .error (replanRequired expected prepared.contextPlan.contextPlanId) := by
  simp [requireContextPlan, ensure, h]

/-- A compile bound to the plan of a demand. -/
structure BindsDemand (request : CompileRequest) (pack : RuntimePack)
    (s s' : Option ContextSnapshot) : Prop where
  /-- Planning over the one and the prefix of compiling over the other
  compute the same plan, or stop with the same error. -/
  plan_eq : planContext request pack s
    = (prepareContextPlan request pack s' .standard).map PreparedContextPlan.contextPlan
  /-- Bound to that plan's id, the check passes. -/
  check_passes : ∀ plan, planContext request pack s = .ok plan →
    ∀ prepared, prepareContextPlan request pack s' .standard = .ok prepared →
      prepared.contextPlan.contextPlanId = plan.contextPlanId
        ∧ requireContextPlan (some plan.contextPlanId) prepared = .ok ()
  /-- So the compile is the one without a plan to be bound to. -/
  bound_eq_unbound : ∀ plan, planContext request pack s = .ok plan →
    compile request pack s' (some plan.contextPlanId) = compile request pack s' none
  /-- Bound to any other id, it stops at the check, whatever the stages
  after the check are. -/
  other_id_stops : ∀ (snapshot : Option ContextSnapshot) (prepared : PreparedContextPlan)
    (expected : String), prepareContextPlan request pack snapshot .standard = .ok prepared →
    prepared.contextPlan.contextPlanId ≠ expected →
    ∀ {β : Type} (later : PreparedContextPlan → Except RuntimeError β),
      compileThen later request pack snapshot .standard (some expected)
        = .error (replanRequired expected prepared.contextPlan.contextPlanId)

/-- The check of a plan id does nothing on the plan it came from. -/
theorem compileThen_of_id {β : Type} (later : PreparedContextPlan → Except RuntimeError β)
    {request : CompileRequest} {pack : RuntimePack} {snapshot : Option ContextSnapshot}
    {options : RunOptions} {id : String}
    (h : ∀ prepared, prepareContextPlan request pack snapshot options = .ok prepared →
      prepared.contextPlan.contextPlanId = id) :
    compileThen later request pack snapshot options (some id)
      = compileThen later request pack snapshot options none := by
  unfold compileThen
  cases hprepared : prepareContextPlan request pack snapshot options with
  | error e => rw [error_bind, error_bind]
  | ok prepared =>
      obtain rfl := h prepared hprepared
      rw [ok_bind, ok_bind, requireContextPlan_self]
      rfl

/-- The plan id is exact about demand: it is the same for every snapshot
with the same discovery candidates, and a compile bound to another id
never gets past the check. -/
theorem context_plan_binds_demand (request : CompileRequest) (pack : RuntimePack)
    (s s' : Option ContextSnapshot)
    (hs : WithinCeilings (s.getD ContextSnapshot.empty).toSnapshotBuckets)
    (hs' : WithinCeilings (s'.getD ContextSnapshot.empty).toSnapshotBuckets)
    (hsame : ∀ intent, deriveIntent request = .ok intent →
      discoveryCandidates intent s' = discoveryCandidates intent s) :
    BindsDemand request pack s s' := by
  have hplan : planContext request pack s
      = (prepareContextPlan request pack s' .standard).map PreparedContextPlan.contextPlan := by
    rw [prepareContextPlan_map_congr hs hs' hsame]
    unfold planContext
    cases prepareContextPlan request pack s .standard <;> rfl
  have hid : ∀ plan, planContext request pack s = .ok plan → ∀ prepared,
      prepareContextPlan request pack s' .standard = .ok prepared →
      prepared.contextPlan = plan := by
    intro plan hok prepared hprepared
    rw [hplan, hprepared] at hok
    exact Except.ok.inj hok
  refine ⟨hplan, ?_, ?_, ?_⟩
  · intro plan hok prepared hprepared
    obtain rfl := hid plan hok prepared hprepared
    exact ⟨rfl, requireContextPlan_self prepared⟩
  · intro plan hok
    have hbound := compileThen_of_id (compileStages pack) fun prepared hprepared =>
      congrArg ContextPlan.contextPlanId (hid plan hok prepared hprepared)
    unfold compile compileRoot
    rw [hbound]
  · intro snapshot prepared expected hprepared hne β later
    unfold compileThen
    rw [hprepared, ok_bind, requireContextPlan_ne hne]
    rfl

end PlanBinding

section Audit

attribute [local instance] Sha256.transparent TextTables.ascii

/-- A few candidates fit. -/
theorem withinCeilings_of_few {s : SnapshotBuckets} (hcount : s.allItems.length ≤ 8)
    (hsize : ∀ item ∈ s.allItems, item.toJson.size ≤ 65536) : WithinCeilings s := by
  have hnumber : s.itemCount = s.allItems.length := by
    unfold SnapshotBuckets.itemCount SnapshotBuckets.allItems
    rw [List.length_flatMap]
  have hbytes := s.canonicalByteSize_le
  have hsum : (s.allItems.map fun item => item.toJson.size + 1).sum
      ≤ s.allItems.length * 65537 := by
    have hle := List.sum_le_card_nsmul (s.allItems.map fun item => item.toJson.size + 1) 65537 (by
      intro n hn
      obtain ⟨item, hitem, rfl⟩ := List.mem_map.mp hn
      exact Nat.succ_le_succ (hsize item hitem))
    rw [List.length_map] at hle
    exact hle
  have hframe : SnapshotBuckets.frameSize ≤ 1024 := by decide +kernel
  unfold WithinCeilings snapshotMaxItems snapshotMaxBytes
  rw [hnumber]
  exact ⟨by omega, by omega⟩

theorem rule_size {rule : ContextItem} (h : rule ∈ changelogRules) :
    rule.toJson.size ≤ 65536 := by
  rcases List.mem_cons.mp h with rfl | h
  · exact layeringRule_size
  · obtain rfl := List.mem_singleton.mp h
    rw [ContextItem.size_transparent rfl]
    decide +kernel

theorem changelog_withinCeilings : WithinCeilings changelogSnapshot.toSnapshotBuckets :=
  withinCeilings_of_few (by decide) fun _ hitem => rule_size hitem

theorem layering_withinCeilings : WithinCeilings layeringSnapshot.toSnapshotBuckets :=
  withinCeilings_of_few (by decide) fun _ hitem =>
    rule_size (List.mem_cons.mpr (.inl (List.mem_singleton.mp hitem)))

/-- Discovery reads the layering rule alone. -/
theorem changelog_discoveryCandidates :
    discoveryCandidates auditIntent (some changelogSnapshot)
        = [layeringRule "no upward imports" .global []]
      ∧ discoveryCandidates auditIntent (some layeringSnapshot)
        = [layeringRule "no upward imports" .global []] := by
  unfold discoveryCandidates
  rw [audit_scope.2]
  exact ⟨rfl, rfl⟩

/-- The audit is planned from the layering rule, and acquiring the rival
for the changelog does not invalidate the plan. -/
theorem audit_plan_binds_rules :
    layeringRule "no upward imports" .global []
        ∈ discoveryCandidates auditIntent (some layeringSnapshot)
      ∧ (∃ plan, planContext auditRequest auditPack (some layeringSnapshot) = .ok plan)
      ∧ BindsDemand auditRequest auditPack (some layeringSnapshot) (some changelogSnapshot) := by
  obtain ⟨hchangelog, hlayering⟩ := changelog_discoveryCandidates
  refine ⟨?_, ?_, ?_⟩
  · rw [hlayering]
    exact List.mem_singleton_self _
  · obtain ⟨plan, contextPlan, hprepares, -⟩ := audit_prepares_over Sha256.transparent_injective
      (some layeringSnapshot) rfl layering_withinCeilings
    refine ⟨contextPlan, ?_⟩
    unfold planContext
    rw [hprepares]
    rfl
  · refine context_plan_binds_demand auditRequest auditPack (some layeringSnapshot)
      (some changelogSnapshot) layering_withinCeilings changelog_withinCeilings
      fun intent hintent => ?_
    obtain rfl := Except.ok.inj (audit_intent.symm.trans hintent)
    rw [hchangelog, hlayering]

end Audit

end CognitiveRuntime
