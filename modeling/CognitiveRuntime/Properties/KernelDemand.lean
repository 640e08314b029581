import CognitiveRuntime.Properties.Agreement
import CognitiveRuntime.Properties.DeclaredNeeds
import CognitiveRuntime.Properties.ExactSelection

/-!
# What a kernel's demand becomes

Every need a kernel declares is planned: identical needs share one
requirement that lists them all, and the plan does not depend on the
order the kernels come in. What the selector then takes for it depends on
the coverage the need asked for.
-/

namespace CognitiveRuntime

open Ordered Fallible Greedy

/-! ## Needs in the plan -/

section Demand

variable {scopedRefs : List String} {need : KernelContextNeed}

/-- The order of the kernels does not matter. -/
theorem kernelNeedSpecs_perm {kernels kernels' : List KernelBinding} (h : kernels.Perm kernels') :
    kernelNeedSpecs scopedRefs kernels = kernelNeedSpecs scopedRefs kernels' :=
  mergedNeedSpecs_perm (h.flatMap_right _)

/-- Every declared need is merged into a specification that lists it. -/
theorem exists_kernelNeedSpec {kernels : List KernelBinding} {ref : String}
    (h : (need, ref) ∈ declaredNeeds kernels) :
    ∃ refs, ref ∈ refs ∧ kernelNeedSpec scopedRefs need refs ∈ kernelNeedSpecs scopedRefs kernels :=
  exists_mergedNeedSpec h

end Demand

section Plans

variable [Sha256]

/-- A requirement planned for a need: it lists the need's reference and
asks for what the need asks for. -/
structure DemandedBy (r : ContextRequirement) (need : KernelContextNeed) (ref : String) :
    Prop where
  listed : ref ∈ r.kernelNeedRefs
  kind : r.contextKind = need.contextKind
  required : r.required = need.required
  reason : r.reason = need.reason
  coverage : r.coverageMode = need.coverage
  keys : r.requiredSemanticKeys = need.requiredSemanticKeys
  floor : r.minimumAuthority = authorityFloor need.contextKind need.minimumAuthority

theorem demandedBy_canonical {scopedRefs refs : List String} {need : KernelContextNeed}
    {ref : String} (haccepted : need.Accepted) (h : ref ∈ refs) :
    DemandedBy (kernelNeedSpec scopedRefs need refs).draft.canonical need ref where
  listed := mem_sortedUnique.mpr ((mem_sortedBy _).mpr h)
  kind := rfl
  required := rfl
  reason := rfl
  coverage := rfl
  keys := haccepted.keys_canonical
  floor := rfl

/-- The plan holds a requirement for every declared need. -/
theorem exists_demanded {scope : TaskScope} {discovery : DiscoveryContext}
    {activation : ActivationPlan} {kernels : List KernelBinding} {plan : ContextRequirementPlan}
    (hplan : planRequirements scope discovery activation kernels = .ok plan)
    {need : KernelContextNeed} {ref : String} (hneed : (need, ref) ∈ declaredNeeds kernels) :
    ∃ refs, ref ∈ refs
      ∧ (kernelNeedSpec scope.eligibleRefs need refs).draft.canonical ∈ plan.requirements := by
  obtain ⟨refs, href, hspec⟩ := exists_kernelNeedSpec hneed
  refine ⟨refs, href, ((planRequirements_eq_ok hplan).1 _).mpr (List.mem_map_of_mem ?_)⟩
  exact List.mem_append_right _ hspec

/-- On needs that were accepted, planning never fails, every declared
need is listed by a requirement that asks for what it asks for, and the
plan is the same in whatever order the kernels come. -/
theorem planning_total (hsha : Sha256.Injective) (scope : TaskScope)
    (discovery : DiscoveryContext) (activation : ActivationPlan) {kernels : List KernelBinding}
    (haccepted : NeedsAccepted kernels) :
    ∃ plan, planRequirements scope discovery activation kernels = .ok plan
      ∧ (∀ binding ∈ kernels, ∀ need ∈ binding.contextNeeds, ∃ r ∈ plan.requirements,
          DemandedBy r need (binding.sourceRef ++ "#" ++ need.needId))
      ∧ ∀ kernels', kernels.Perm kernels' →
          planRequirements scope discovery activation kernels' = .ok plan := by
  obtain ⟨plan, hplan⟩ := planRequirements_ok hsha scope discovery activation haccepted
  refine ⟨plan, hplan, fun binding hbinding need hneed => ?_, fun kernels' hperm => ?_⟩
  · have hdeclared : (need, binding.sourceRef ++ "#" ++ need.needId) ∈ declaredNeeds kernels :=
      List.mem_flatMap.mpr ⟨binding, hbinding, List.mem_map_of_mem hneed⟩
    obtain ⟨refs, href, hmem⟩ := exists_demanded hplan hdeclared
    exact ⟨_, hmem, demandedBy_canonical (haccepted binding hbinding need hneed) href⟩
  · rw [← hplan]
    unfold planRequirements plannedSpecs
    rw [kernelNeedSpecs_perm hperm]

/-! ## Needs in the selection -/

variable {inputs : CompileInputs} {selection : Selection} {unknowns : List ContextUnknown}
  {r : ContextRequirement} {item : ContextItem} {need : KernelContextNeed} {ref : String}

/-- A requirement that lists a need comes from one. -/
theorem exists_need_of_listed {scope : TaskScope} {discovery : DiscoveryContext}
    {activation : ActivationPlan} {kernels : List KernelBinding} {plan : ContextRequirementPlan}
    (hplan : planRequirements scope discovery activation kernels = .ok plan)
    (hr : r ∈ plan.requirements) (hlisted : ref ∈ r.kernelNeedRefs) :
    ∃ need' refs, r = (kernelNeedSpec scope.eligibleRefs need' refs).draft.canonical := by
  obtain ⟨spec, hspec, rfl⟩ := exists_spec_of_mem hplan hr
  rcases List.mem_append.mp hspec with hspec | hspec
  · have hrefs : spec.draft.canonical.kernelNeedRefs = sortedUnique spec.kernelNeedRefs := rfl
    rw [hrefs, baselineSpecs_refs spec hspec] at hlisted
    cases hlisted
  · obtain ⟨need', refs, -, -, rfl⟩ := mem_kernelNeedSpecs hspec
    exact ⟨need', refs, rfl⟩

/-- Something of the frontier is left where something is asked for, unless
nothing has to be taken. -/
theorem frontier_ne_nil {resolution : SnapshotResolution}
    (hitem : item ∈ eligibleItems (requirementView resolution r)) (hasked : AskedFor r item)
    (hcount : r.coverageMode = .minimum → 1 ≤ r.minItems) :
    selectionFrontier resolution r ≠ [] := by
  unfold selectionFrontier
  by_cases hmode : r.coverageMode = .minimum
  · have hmin := hcount hmode
    cases heligible : eligibleItems (requirementView resolution r) with
    | nil =>
        rw [heligible] at hitem
        cases hitem
    | cons first rest =>
        rw [frontierFrom, if_neg (by omega), if_neg (by rw [hmode]; exact fun h => by cases h.1)]
        exact List.cons_ne_nil _ _
  · exact List.ne_nil_of_mem (mem_frontierFrom_of_asked hmode hasked hitem)

/-- The demand has an effect: something is selected for the requirement, or
a budget stop is on record for it. -/
def DemandEffective (context : CompiledTaskContext) (r : ContextRequirement) : Prop :=
  (∃ item ∈ context.selectedItems, r.requirementId ∈ item.selectedBecause)
  ∨ ∃ u ∈ context.unresolvedUnknowns, u.reasonCode = .budgetInsufficient
      ∧ u.requirementRef = some r.requirementId

/-- What a planned requirement asks for at least, by its coverage. -/
theorem demanded_minItems {kernels : List KernelBinding} {scope : TaskScope}
    {discovery : DiscoveryContext} {activation : ActivationPlan} {plan : ContextRequirementPlan}
    (hplan : planRequirements scope discovery activation kernels = .ok plan)
    (hneeds : NeedsAccepted kernels) (hr : r ∈ plan.requirements)
    (hdemanded : DemandedBy r need ref) :
    (r.coverageMode = .minimum → r.minItems = if need.required then 1 else 0)
      ∧ (r.coverageMode = .semanticKeys → 1 ≤ r.minItems) := by
  have hrequired := hdemanded.required
  obtain ⟨spec, hspec, hcanonical⟩ := exists_spec_of_mem hplan hr
  obtain ⟨need', refs, hneed'⟩ := exists_need_of_listed hplan hr hdemanded.listed
  constructor
  · intro hmode
    rw [hneed'] at hmode hrequired ⊢
    have hcoverage : need'.coverage = .minimum := hmode
    have hsame : need'.required = need.required := hrequired
    show (if need'.coverage = .semanticKeys then _ else _) = _
    rw [hcoverage, hsame, if_neg (by decide)]
  · intro hmode
    have hsound := plannedSpecs_sound hneeds spec hspec
    rw [hcanonical] at hmode ⊢
    have hkeys : sortedUnique spec.requiredSemanticKeys ≠ [] := by
      rw [Ne, sortedUnique_eq_nil]
      exact hsound.keys_iff.mp hmode
    exact (List.length_pos_of_ne_nil hkeys).trans_le hsound.keys_le_min

/-- Over what a requirement's view holds for it, the demand is effective
unless nothing has to be taken. -/
theorem FinishedRun.demandEffective_iff (hsha : Sha256.Injective)
    (hrun : FinishedRun inputs selection unknowns)
    (hr : r ∈ inputs.requirementPlan.requirements)
    (hitem : item ∈ eligibleItems (requirementView inputs.resolution r)) (hasked : AskedFor r item)
    (hkeys : r.coverageMode = .semanticKeys → 1 ≤ r.minItems) :
    DemandEffective (assembleContext inputs unknowns selection.selected) r
      ↔ (r.coverageMode = .minimum → 1 ≤ r.minItems) := by
  obtain ⟨before, taken, rest, stop, short, h⟩ := exists_runAt hrun.select hrun.ids_nodup hr
  have hfrontier : selectionFrontier inputs.resolution r = taken ++ rest := h.loop.frontier
  have hrecorded : ∀ {u : ContextUnknown},
      (u ∈ (assembleContext inputs unknowns selection.selected).unresolvedUnknowns
        ∧ u.requirementRef = some r.requirementId ∧ u.reasonCode.isShortfall = true)
      ↔ u ∈ short :=
    h.mem_recorded hsha hrun.scope hrun.discovery hrun.select (hrun.planned r hr)
  have hbound : (∃ item ∈ (assembleContext inputs unknowns selection.selected).selectedItems,
      r.requirementId ∈ item.selectedBecause) ↔ taken ≠ [] := by
    constructor
    · rintro ⟨item, hselected, hbecause⟩ hnil
      have hid := (h.mem_boundIds hrun.select).mp
        (List.mem_map_of_mem (mem_boundItems.mpr ⟨hselected, hbecause⟩))
      rw [hnil] at hid
      cases hid
    · intro hne
      obtain ⟨first, hfirst⟩ := List.exists_mem_of_ne_nil _ hne
      obtain ⟨bound, hmem, -⟩ := List.mem_map.mp
        ((h.mem_boundIds hrun.select).mpr (List.mem_map_of_mem hfirst))
      exact ⟨bound, mem_boundItems.mp hmem⟩
  constructor
  · rintro heffective hmode
    by_contra hzero
    -- a requirement for no item has nothing on its frontier
    have hnil : taken ++ rest = [] := by
      rw [← hfrontier]
      unfold selectionFrontier
      cases eligibleItems (requirementView inputs.resolution r) with
      | nil => rfl
      | cons first others => rw [frontierFrom, if_pos ⟨hmode, by omega⟩]
    obtain ⟨rfl, rfl⟩ := List.append_eq_nil_iff.mp hnil
    rcases heffective with hselected | ⟨u, hu, hreason, href⟩
    · exact hbound.mp hselected rfl
    · have hshort : u ∈ short := hrecorded.mp ⟨hu, href, by rw [hreason]; rfl⟩
      cases hstop : stop with
      | some s =>
          obtain ⟨blocked, after, hrest, -⟩ := h.loop.stopped s hstop
          cases hrest
      | none =>
          rcases shortfall_planned (hrun.planned r hr) h.short_eq with ⟨hnone, -⟩ | hone
          · rw [hnone] at hshort
            cases hshort
          · rw [hone, hstop] at hshort
            rw [List.mem_singleton.mp hshort] at hreason
            cases hreason
  · intro hcount
    by_cases htaken : taken = []
    · right
      have hne : rest ≠ [] := by
        intro hrest
        refine frontier_ne_nil hitem hasked hcount ?_
        rw [hfrontier, htaken, hrest]
        rfl
      obtain ⟨s, hstop⟩ : ∃ s, stop = some s := by
        cases hstop : stop with
        | none => exact absurd (h.loop.finished hstop) hne
        | some s => exact ⟨s, rfl⟩
      have hunsatisfied : satisfied r (stateAfter before r taken).selectedCount
          (stateAfter before r taken).selectedKeys (conflictKeys inputs.resolution r)
          stop.isSome = false := by
        rw [selectedCount_stateAfter, htaken, hstop]
        unfold satisfied
        by_cases hmin : r.minItems = 0
        · rw [List.length_nil, if_neg (by omega)]
          cases hmode : r.coverageMode with
          | minimum => exact absurd (hcount hmode) (by omega)
          | semanticKeys => exact absurd (hkeys hmode) (by omega)
          | allEligible => rfl
        · rw [List.length_nil, if_pos (by omega)]
      rcases shortfall_planned (hrun.planned r hr) h.short_eq with
        ⟨-, hsatisfied | ⟨hnone, -⟩⟩ | hone
      · exact absurd (hunsatisfied.symm.trans hsatisfied) Bool.false_ne_true
      · cases hnone.symm.trans hstop
      · obtain ⟨hu, href, -⟩ := hrecorded.mpr (hone ▸ List.mem_singleton_self _)
        refine ⟨_, hu, ?_, href⟩
        unfold shortfallUnknown
        rw [hstop]
        rfl
    · exact .inl (hbound.mpr htaken)

/-- A kernel's demand is effective over whatever its requirement's view
holds for it exactly when it is required or asks for more than a
minimum. -/
theorem kernel_demand_effective_iff (hsha : Sha256.Injective) (snapshot : ContextSnapshot)
    (inputs : CompileInputs) (context : CompiledTaskContext)
    (hfrom : PlannedFrom snapshot inputs)
    (hparsed : ∀ binding ∈ inputs.kernels, ∃ document sourceRef,
      parseContextNeeds document sourceRef = .ok binding.contextNeeds)
    (hscope : UnboundUnknowns inputs.scope) (hcompile : compileContext inputs = .ok context) :
    ∀ binding ∈ inputs.kernels, ∀ need ∈ binding.contextNeeds,
    ∀ r ∈ inputs.requirementPlan.requirements,
      DemandedBy r need (binding.sourceRef ++ "#" ++ need.needId) →
      (∃ item ∈ eligibleItems (requirementView inputs.resolution r), AskedFor r item) →
      (DemandEffective context r ↔ (need.required = true ∨ need.coverage ≠ .minimum)) := by
  rintro binding - need - r hr hdemanded ⟨item, hitem, hasked⟩
  have hneeds : NeedsAccepted inputs.kernels := by
    intro binding hbinding
    obtain ⟨document, sourceRef, hparse⟩ := hparsed binding hbinding
    exact parseContextNeeds_accepted hparse
  obtain ⟨selection, unknowns, hrun, rfl⟩ := finishedRun_of_compile hfrom hneeds hscope hcompile
  obtain ⟨hminimum, hkeys⟩ := demanded_minItems hfrom.plan hneeds hr hdemanded
  rw [hrun.demandEffective_iff hsha hr hitem hasked hkeys, ← hdemanded.coverage]
  constructor
  · intro hcount
    by_cases hmode : r.coverageMode = .minimum
    · have hmin := hcount hmode
      rw [hminimum hmode] at hmin
      cases hrequired : need.required with
      | true => exact .inl rfl
      | false =>
          rw [hrequired, if_neg Bool.false_ne_true] at hmin
          omega
    · exact .inr hmode
  · rintro (hrequired | hmode) hmin
    · rw [hminimum hmin, if_pos hrequired]
    · exact absurd hmin hmode

end Plans

/-! ## A survey that takes nothing -/

section Survey

attribute [local instance] Sha256.transparent

/-- The survey's need under a coverage. -/
def surveyFor (coverage : CoverageMode) : KernelContextNeed :=
  { surveyNeed with coverage := coverage }

/-- A survey that asks for a minimum it does not require. -/
def idleKernel : KernelBinding := { surveyKernel with contextNeeds := [surveyFor .minimum] }

theorem idle_need_parses :
    parseContextNeeds [("context_needs", .arr [(surveyFor .minimum).toDict])] "kernels/survey.yaml"
      = .ok [surveyFor .minimum] := by rfl

/-- The inputs of the audit with the idle survey. -/
def idleInputs (plan : ContextRequirementPlan) : CompileInputs :=
  { auditInputs branchSnapshot plan with kernels := [idleKernel] }

/-- Whatever its coverage, the survey is planned, and the reported branch
lies in its view. -/
theorem survey_demanded {coverage : CoverageMode} {kernels : List KernelBinding}
    {plan : ContextRequirementPlan}
    (hplan : planRequirements (compileScope auditIntent)
      (discover (compileScope auditIntent) (resolveSnapshot branchSnapshot.toSnapshotBuckets))
      auditActivation kernels = .ok plan)
    (hneed : (surveyFor coverage, "kernels/survey.yaml#repository") ∈ declaredNeeds kernels)
    (haccepted : (surveyFor coverage).Accepted) :
    ∃ r ∈ plan.requirements, DemandedBy r (surveyFor coverage) "kernels/survey.yaml#repository"
      ∧ reportedBranch ∈ eligibleItems
          (requirementView (resolveSnapshot branchSnapshot.toSnapshotBuckets) r)
      ∧ AskedFor r reportedBranch := by
  obtain ⟨refs, href, hr⟩ := exists_demanded hplan hneed
  refine ⟨_, hr, demandedBy_canonical haccepted href, sole_eligible rfl ?_ rfl, fun hmode => ?_⟩
  · rw [audit_scope.2]
    rfl
  · exact absurd rfl (haccepted.keys_iff.mp hmode)

/-- The survey of everything takes the reported branch. -/
theorem survey_demand_effective :
    ∃ plan context, compileContext (surveyInputs branchSnapshot plan) = .ok context
      ∧ ∃ r ∈ plan.requirements, DemandedBy r surveyNeed "kernels/survey.yaml#repository"
        ∧ DemandEffective context r := by
  obtain ⟨plan, context, hfrom, hcompile⟩ := survey_planned branchSnapshot
  have haccepted : (surveyFor .allEligible).Accepted :=
    parseContextNeeds_accepted survey_need_parses _ (List.mem_singleton_self _)
  obtain ⟨r, hr, hdemanded, heligible, hasked⟩ := survey_demanded hfrom.plan
    (List.mem_singleton_self _) haccepted
  refine ⟨plan, context, hcompile, r, hr, hdemanded, ?_⟩
  refine (kernel_demand_effective_iff Sha256.transparent_injective branchSnapshot
    (surveyInputs branchSnapshot plan) context hfrom ?_ (compileScope_unbound auditIntent) hcompile
    surveyKernel (List.mem_singleton_self _) surveyNeed (List.mem_singleton_self _) r hr hdemanded
    ⟨_, heligible, hasked⟩).mpr (.inr (by decide))
  intro binding hbinding
  obtain rfl := List.mem_singleton.mp hbinding
  exact ⟨surveyDocument, "kernels/survey.yaml", survey_need_parses⟩

/-- The idle survey compiles over a branch that lies in its view, and takes
nothing and records nothing. -/
theorem idle_survey_ineffective :
    ∃ plan context, PlannedFrom branchSnapshot (idleInputs plan)
      ∧ compileContext (idleInputs plan) = .ok context
      ∧ ∃ r ∈ plan.requirements,
          DemandedBy r (surveyFor .minimum) "kernels/survey.yaml#repository"
          ∧ (∃ item ∈ eligibleItems (requirementView (idleInputs plan).resolution r),
              AskedFor r item)
          ∧ ¬DemandEffective context r := by
  have haccepted : (surveyFor .minimum).Accepted :=
    parseContextNeeds_accepted idle_need_parses _ (List.mem_singleton_self _)
  have hneeds : NeedsAccepted [idleKernel] := by
    intro binding hbinding need hneed
    obtain rfl := List.mem_singleton.mp hbinding
    obtain rfl := List.mem_singleton.mp hneed
    exact haccepted
  obtain ⟨plan, hplan⟩ := planRequirements_ok Sha256.transparent_injective
    (compileScope auditIntent)
    (discover (compileScope auditIntent) (resolveSnapshot branchSnapshot.toSnapshotBuckets))
    auditActivation hneeds
  have hfrom : PlannedFrom branchSnapshot (idleInputs plan) := ⟨rfl, rfl, hplan⟩
  have hversion : isBlank packageVersion = false := by decide
  obtain ⟨context, hcompile⟩ := hfrom.finishes hneeds hversion
  obtain ⟨r, hr, hdemanded, heligible, hasked⟩ := survey_demanded hplan
    (List.mem_singleton_self _) haccepted
  refine ⟨plan, context, hfrom, hcompile, r, hr, hdemanded, ⟨_, heligible, hasked⟩, ?_⟩
  obtain ⟨selection, unknowns, hrun, rfl⟩ := finishedRun_of_compile hfrom hneeds
    (compileScope_unbound auditIntent) hcompile
  obtain ⟨hminimum, hkeys⟩ := demanded_minItems hplan hneeds hr hdemanded
  rw [hrun.demandEffective_iff Sha256.transparent_injective hr heligible hasked hkeys]
  intro hcount
  have hmin := hcount hdemanded.coverage
  rw [hminimum hdemanded.coverage] at hmin
  exact absurd hmin (by decide)

end Survey

end CognitiveRuntime
