import CognitiveRuntime.Properties.Recomputation
import CognitiveRuntime.Properties.WriteSubjects

/-!
# Exclusion is real

Discovery, every requirement of a plan and the subjects of a write all
read the one set of references that the caller's hints include and do not
exclude. A reference that is both included and excluded selects nothing
and blocks.
-/

namespace CognitiveRuntime

open Ordered Fallible

/-! ## What the caller's hints say -/

/-- The caller lists the reference under the hint. Only a list's strings
are hints, and a blank one is none. -/
def Hinted (intent : IntentContract) (hint ref : String) : Prop :=
  ∃ items, Json.field hint intent.sourceContext = some (.arr items) ∧ Json.str ref ∈ items
    ∧ isBlank ref = false

def Included (intent : IntentContract) (ref : String) : Prop :=
  Hinted intent "target_refs" ref ∨ Hinted intent "in_scope_refs" ref

def Excluded (intent : IntentContract) (ref : String) : Prop :=
  Hinted intent "excluded_refs" ref

/-- A scoped item meets a reference that the caller includes and does not
exclude. -/
def InScope (intent : IntentContract) (item : ContextItem) : Prop :=
  item.scopeMode = .scoped → ∃ ref ∈ item.scopeRefs, Included intent ref ∧ ¬Excluded intent ref

variable {scope : TaskScope} {intent : IntentContract} {item : ContextItem}

theorem mem_stringList {value : Option Json} {ref : String} : ref ∈ stringList value
    ↔ ∃ items, value = some (.arr items) ∧ Json.str ref ∈ items ∧ isBlank ref = false := by
  unfold stringList
  cases value with
  | none => simp
  | some value =>
      cases value with
      | arr items =>
          simp only [Option.some.injEq, Json.arr.injEq, exists_eq_left', List.mem_filterMap]
          constructor
          · rintro ⟨value, hmem, hvalue⟩
            split at hvalue
            · split at hvalue
              · cases hvalue
              · next hblank =>
                  obtain rfl := Option.some.inj hvalue
                  exact ⟨hmem, Bool.eq_false_of_not_eq_true hblank⟩
            · cases hvalue
          · rintro ⟨hmem, hblank⟩
            exact ⟨.str ref, hmem, by simp [hblank]⟩
      | _ => simp

theorem hinted_iff {hint ref : String} : Hinted intent hint ref
    ↔ ref ∈ stringList (Json.field hint intent.sourceContext) :=
  mem_stringList.symm

/-- A hint is canonical but for order and repetition: none of its strings
is blank. -/
theorem mem_canonical_stringList {value : Option Json} {ref : String} :
    ref ∈ TaskScope.canonicalList (stringList value) ↔ ref ∈ stringList value := by
  unfold TaskScope.canonicalList
  rw [mem_sortedUnique, List.mem_filter]
  refine and_iff_left_of_imp fun hmem => ?_
  obtain ⟨-, -, -, hblank⟩ := mem_stringList.mp hmem
  rw [hblank]
  rfl

/-! ## What is in scope -/

/-- A scoped item meets an eligible reference of the compiled scope. -/
def MeetsScope (scope : TaskScope) (item : ContextItem) : Prop :=
  item.scopeMode = .scoped → ∃ ref ∈ item.scopeRefs, ref ∈ scope.eligibleRefs

/-- The eligible references of the compiled scope are those that the
caller includes and does not exclude. -/
theorem mem_eligibleRefs_compileScope [Sha256] {ref : String} :
    ref ∈ (compileScope intent).eligibleRefs ↔ Included intent ref ∧ ¬Excluded intent ref := by
  unfold TaskScope.eligibleRefs Included Excluded
  rw [mem_sortedUnique, List.mem_filter, List.mem_append, decide_eq_true_eq, hinted_iff, hinted_iff,
    hinted_iff]
  exact and_congr (or_congr mem_canonical_stringList mem_canonical_stringList)
    (not_congr mem_canonical_stringList)

theorem meetsScope_compileScope [Sha256] : MeetsScope (compileScope intent) item
    ↔ InScope intent item := by
  unfold MeetsScope InScope
  simp only [mem_eligibleRefs_compileScope]

theorem meetsScope_of_discoveryScopeMatch
    (h : discoveryScopeMatch item scope.eligibleRefs = true) : MeetsScope scope item := by
  intro hscoped
  unfold discoveryScopeMatch at h
  rw [hscoped] at h
  obtain ⟨ref, href, heligible⟩ := List.any_eq_true.mp h
  exact ⟨ref, href, of_decide_eq_true heligible⟩

/-- Every planned requirement is scoped to eligible references only. -/
theorem plannedSpecs_scopeRefs {discovery : DiscoveryContext} {activation : ActivationPlan}
    {kernels : List KernelBinding} :
    ∀ spec ∈ plannedSpecs scope discovery activation kernels,
      ∀ ref ∈ spec.scopeRefs, ref ∈ scope.eligibleRefs := by
  have hguarded : ∀ (p : Prop) [Decidable p], ∀ ref ∈ (if p then scope.eligibleRefs else []),
      ref ∈ scope.eligibleRefs := by
    intro p _ ref href
    split at href
    · exact href
    · cases href
  intro spec hspec
  rcases List.mem_append.mp hspec with hspec | hspec
  · simp only [baselineSpecs, List.mem_cons, List.not_mem_nil, or_false] at hspec
    rcases hspec with rfl | rfl | rfl | rfl | rfl | rfl | rfl | rfl | rfl | rfl <;>
      exact hguarded _
  · obtain ⟨need, refs, -, -, rfl⟩ := mem_kernelNeedSpecs hspec
    exact hguarded _

section Exclusion

variable [Sha256] {inputs : CompileInputs}

/-- What a planned requirement matches is in scope. -/
theorem meetsScope_of_matches
    (hplan : planRequirements inputs.scope inputs.discovery inputs.activation inputs.kernels
      = .ok inputs.requirementPlan) {r : ContextRequirement}
    (hr : r ∈ inputs.requirementPlan.requirements) (hmatch : matchesRequirement r item = true) :
    MeetsScope inputs.scope item := by
  intro hscoped
  obtain ⟨spec, hspec, rfl⟩ := exists_spec_of_mem hplan hr
  unfold matchesRequirement at hmatch
  simp only [Bool.and_eq_true] at hmatch
  have hscope := hmatch.1.2
  unfold scopeMatches at hscope
  rw [hscoped] at hscope
  split at hscope
  · next hmode => cases hmode
  · next => cases hscope
  · next =>
      obtain ⟨ref, href, hrefs⟩ := List.any_eq_true.mp hscope
      have hmem : ref ∈ sortedUnique spec.scopeRefs := of_decide_eq_true hrefs
      exact ⟨ref, href, plannedSpecs_scopeRefs spec hspec ref (mem_sortedUnique.mp hmem)⟩
  · next => contradiction

/-- What discovery routes from is in scope. -/
theorem meetsScope_of_routed {resolution : SnapshotResolution}
    (h : item ∈ discoveryItems (resolution.resolve (discoveryEligible scope.eligibleRefs))) :
    MeetsScope scope item ∧ item ∈ resolution.candidates := by
  obtain ⟨⟨key, group⟩, hgroup, -, -, hitem⟩ := mem_discoveryItems.mp h
  have hleft := (mem_groupMembers.mp (mem_view_items hgroup hitem)).1
  obtain ⟨hcandidate, heligible⟩ := List.mem_filter.mp (mem_of_mem_leftOver hleft)
  unfold discoveryEligible at heligible
  rw [Bool.and_eq_true] at heligible
  exact ⟨meetsScope_of_discoveryScopeMatch heligible.2, hcandidate⟩

omit [Sha256] in
/-- Where an item applies is part of what its id covers. -/
theorem InScope.congr {other : ContextItem} (hsame : SameItem item other)
    (h : InScope intent item) : InScope intent other := by
  unfold InScope
  rw [← hsame.place.1, ← hsame.place.2]
  exact h

/-! ## The subjects of a write -/

theorem mem_write_requirements {intent : IntentContract} {activation : ActivationPlan}
    {kernels : List KernelBinding} {selected : List ContextItem} {r : AuthorityRequirement}
    (hr : r ∈ authorityRequirements intent scope activation kernels selected)
    {subject : String} (hsubject : r.subjectRef = some subject) :
    ∃ targets, (some subject, targets) ∈ repositorySubjects scope selected
      ∧ r.actionScope = sortedUnique targets := by
  unfold authorityRequirements at hr
  dsimp only at hr
  simp only [mem_sortedBy, List.mem_append, List.mem_ite_nil_right, List.mem_map,
    List.mem_singleton] at hr
  rcases hr with (⟨-, ⟨subject', targets⟩, hentry, rfl⟩ | ⟨-, rfl⟩) | ⟨-, rfl⟩
  · have heq : subject' = some subject := hsubject
    subst heq
    exact ⟨targets, hentry, rfl⟩
  · cases hsubject
  · cases hsubject

/-! ## The blocker of an ambiguous reference -/

/-- Only the scope raises an ambiguity of scope. -/
theorem found_not_ambiguous {selection : Selection} {unknowns : List ContextUnknown}
    (hselect : selectAll inputs.requirementPlan.globalBudget inputs.resolution
      inputs.requirementPlan.requirements .empty = .ok (selection, unknowns)) {u : ContextUnknown}
    (hu : u ∈ foundUnknowns inputs unknowns selection.selected) :
    u.reasonCode ≠ .ambiguousScope := by
  have hdoubt : ∀ {items : List ContextItem}, u ∈ (resolveCandidates items).supersessionUnknowns →
      u.reasonCode ≠ .ambiguousScope := by
    intro items hview
    obtain ⟨s, -, rfl⟩ := sighting_of_view hview
    exact doubt_reason_ne rfl s
  rcases List.mem_append.mp hu with hu | hu
  · rcases List.mem_append.mp hu with hu | hu
    · exact hdoubt hu
    · obtain ⟨entry, -, rfl⟩ := List.mem_map.mp hu
      exact fun h => by cases h
  rcases List.mem_append.mp hu with hu | hu
  · obtain ⟨r, -, before, after, first, hfor, hfirst⟩ := mem_selectAll_unknowns hselect hu
    cases selectFor_unknown hfor hfirst with
    | supersession _ h => exact hdoubt h
    | conflict entry => exact fun h => by cases h
    | shortfall reason details hreason =>
        intro h
        have heq : reason = .ambiguousScope := h
        rw [heq] at hreason
        rcases hreason with h | h <;> cases h
  rcases List.mem_append.mp hu with hu | hu
  · rw [unknownStatusDecisions_eq] at hu
    obtain ⟨o, -, rfl⟩ := List.mem_map.mp hu
    exact fun h => by cases h
  · rcases mem_gapUnknowns hu with ⟨_, _, rfl⟩ | ⟨_, _, rfl⟩ <;> exact fun h => by cases h

/-- The blocker a reference raises that is both included and excluded. -/
def ambiguousUnknown (refs : List String) : ContextUnknown :=
  .create none none .ambiguousScope
    [("conflicting_refs", .ofStrings refs),
      ("reason", .str "reference is both included and excluded")] .blocking []

theorem compileScope_ambiguous {ref : String} (hincluded : Included intent ref)
    (hexcluded : Excluded intent ref) :
    ∃ refs, ref ∈ refs ∧ ambiguousUnknown refs ∈ (compileScope intent).unresolvedUnknowns := by
  have hconflicting : ref ∈ (sortedUnique
      (stringList (Json.field "target_refs" intent.sourceContext)
        ++ stringList (Json.field "in_scope_refs" intent.sourceContext))).filter
      (· ∈ stringList (Json.field "excluded_refs" intent.sourceContext)) :=
    List.mem_filter.mpr ⟨mem_sortedUnique.mpr (List.mem_append.mpr
      (hincluded.imp hinted_iff.mp hinted_iff.mp)), decide_eq_true (hinted_iff.mp hexcluded)⟩
  refine ⟨_, hconflicting, ?_⟩
  unfold compileScope TaskScope.create
  dsimp only
  rw [if_neg (List.ne_nil_of_mem hconflicting)]
  exact List.mem_append_left _ (List.mem_singleton_self _)

/-- The blocker is on record, whoever else speaks of the scope. -/
theorem ambiguous_recorded (hsha : Sha256.Injective) {selection : Selection}
    {unknowns : List ContextUnknown} (hscope : inputs.scope = compileScope inputs.intent)
    (hdiscovery : inputs.discovery = discover inputs.scope inputs.resolution)
    (hselect : selectAll inputs.requirementPlan.globalBudget inputs.resolution
      inputs.requirementPlan.requirements .empty = .ok (selection, unknowns)) {refs : List String}
    (h : ambiguousUnknown refs ∈ inputs.scope.unresolvedUnknowns) :
    ∃ u ∈ (assembleContext inputs unknowns selection.selected).unresolvedUnknowns,
      u.reasonCode = .ambiguousScope ∧ u.materiality = .blocking
        ∧ Json.field "conflicting_refs" u.details = some (.ofStrings refs) := by
  have hunbound : UnboundUnknowns inputs.scope := hscope ▸ compileScope_unbound inputs.intent
  obtain ⟨v, hv, hraised, hsame⟩ := raised_recorded hsha hunbound hdiscovery hselect
    (List.mem_append_left _ h)
  have hreason : v.reasonCode = .ambiguousScope := hsame.reasonCode
  have hrefs := hsame.recorded "conflicting_refs"
  rcases List.mem_append.mp hraised with hmem | hfound
  · rw [hscope] at hmem
    unfold compileScope TaskScope.create at hmem
    rcases List.mem_append.mp hmem with hmem | hmem <;> split at hmem
    · cases hmem
    · obtain rfl := List.mem_singleton.mp hmem
      refine ⟨_, hv, hreason, rfl, ?_⟩
      simp [ambiguousUnknown, ContextUnknown.create, Json.field, Json.ofStrings_inj] at hrefs ⊢
      exact hrefs
    · obtain rfl := List.mem_singleton.mp hmem
      simp [ambiguousUnknown, ContextUnknown.create, Json.field] at hrefs
    · cases hmem
  · exact absurd hreason (found_not_ambiguous hselect hfound)

/-- Exclusion is real: whatever the hints, the snapshot and the kernels,
nothing out of the caller's scope is routed from or selected, a write
names only subjects that selected facts in scope prove, and a reference
both included and excluded is recorded as a blocker that names it. -/
theorem scope_exclusion_real (hsha : Sha256.Injective) (snapshot : ContextSnapshot)
    (inputs : CompileInputs) (context : CompiledTaskContext)
    (hscope : inputs.scope = compileScope inputs.intent) (hfrom : PlannedFrom snapshot inputs)
    (hcompile : compileContext inputs = .ok context) :
    (∀ c ∈ inputs.resolution.candidates, c.itemId ∈ inputs.discovery.routingFactRefs →
      InScope inputs.intent c)
    ∧ (∀ item ∈ context.selectedItems, InScope inputs.intent item)
    ∧ (∀ r ∈ context.authority.required, ∀ subject, r.subjectRef = some subject →
        r.actionScope ≠ [] ∧ ∀ ref ∈ r.actionScope, ∃ item ∈ context.selectedItems,
          ProvesSubject item subject ref ∧ InScope inputs.intent item)
    ∧ ∀ ref, Included inputs.intent ref → Excluded inputs.intent ref →
        ∃ u ∈ context.unresolvedUnknowns, u.reasonCode = .ambiguousScope
          ∧ u.materiality = .blocking
          ∧ ∃ refs, Json.field "conflicting_refs" u.details = some (.ofStrings refs)
            ∧ ref ∈ refs := by
  obtain ⟨selection, unknowns, hselect, rfl⟩ := compileContext_ok hcompile
  have hinScope : ∀ {c : ContextItem}, MeetsScope inputs.scope c → InScope inputs.intent c := by
    intro c hmeets
    rw [hscope] at hmeets
    exact meetsScope_compileScope.mp hmeets
  have hselected : ∀ item ∈ (assembleContext inputs unknowns selection.selected).selectedItems,
      InScope inputs.intent item := by
    intro item hitem
    obtain ⟨other, hother, r, hr, hmatch, rfl⟩ :=
      selected_matches hselect (mem_assembled_items.mp hitem)
    exact hinScope (meetsScope_of_matches hfrom.plan hr hmatch)
  refine ⟨fun c hc hid => ?_, hselected, fun r hr subject hsubject => ?_,
    fun ref hincluded hexcluded => ?_⟩
  · rw [hfrom.discovery] at hid
    obtain ⟨routed, hrouted, hsame⟩ := mem_routingFactRefs.mp hid
    obtain ⟨hin, hcandidate⟩ := meetsScope_of_routed hrouted
    exact (hinScope hin).congr
      (sameItem_of_id hsha (hfrom.ids routed hcandidate) (hfrom.ids c hc) hsame)
  · obtain ⟨targets, hentry, hactions⟩ := mem_write_requirements hr hsubject
    refine ⟨fun hnil => ?_, fun ref href => ?_⟩
    · rw [hactions, sortedUnique_eq_nil] at hnil
      exact targets_ne_nil hentry hnil
    · rw [hactions, mem_sortedUnique] at href
      obtain ⟨-, item, hitem, hproves⟩ := listed_under_repository.mp ⟨targets, hentry, href⟩
      have hmem : item ∈ (assembleContext inputs unknowns selection.selected).selectedItems :=
        mem_assembled_items.mpr hitem
      exact ⟨item, hmem, hproves, hselected item hmem⟩
  · obtain ⟨refs, href, hmem⟩ := compileScope_ambiguous hincluded hexcluded
    rw [← hscope] at hmem
    obtain ⟨u, hu, hreason, hmateriality, hrefs⟩ :=
      ambiguous_recorded hsha hscope hfrom.discovery hselect hmem
    exact ⟨u, hu, hreason, hmateriality, refs, hrefs, href⟩

end Exclusion

/-! ## A target that is excluded -/

section TornTarget

attribute [local instance] Sha256.transparent

/-- The audit, asked about a reference that it is told to leave out. -/
def tornIntent : IntentContract :=
  { auditIntent with sourceContext :=
      [("target_refs", .ofStrings ["src/greeting"]), ("excluded_refs", .ofStrings ["src/greeting"])] }

theorem torn_target : Included tornIntent "src/greeting" ∧ Excluded tornIntent "src/greeting" :=
  ⟨.inl (hinted_iff.mpr (by decide)), hinted_iff.mpr (by decide)⟩

/-- The layering rule, stated for the torn reference alone. -/
def tornRule : ContextItem := layeringRule "no upward imports" .scoped ["src/greeting"]

def tornSnapshot : ContextSnapshot where
  toSnapshotBuckets := { SnapshotBuckets.empty with architectureConstraints := [tornRule] }
  kinds := by
    simp [SnapshotBuckets.named, SnapshotBuckets.empty, tornRule, layeringRule, ContextItem.create,
      ContextItem.contextKind, Claim.kind]
  valid := by
    intro item hitem
    obtain rfl : item = tornRule := List.mem_singleton.mp hitem
    exact ContextItem.create_valid (by decide) (by decide) (by decide) trivial
      (fun _ => by decide) (fun h => by cases h)
  unselected := by
    intro item hitem
    obtain rfl : item = tornRule := List.mem_singleton.mp hitem
    rfl

/-- The inputs of the torn audit over the rule. -/
def tornInputs (plan : ContextRequirementPlan) : CompileInputs :=
  { auditInputs tornSnapshot plan with
    intent := tornIntent
    scope := compileScope tornIntent
    discovery := discover (compileScope tornIntent)
      (resolveSnapshot tornSnapshot.toSnapshotBuckets) }

/-- The torn audit compiles to a context without the rule, which
discovery does not route from either, and that is blocked on its target. -/
theorem torn_audit_blocked :
    ∃ plan context, compileContext (tornInputs plan) = .ok context
      ∧ tornRule ∈ (tornInputs plan).resolution.candidates
      ∧ tornRule.itemId ∉ (tornInputs plan).discovery.routingFactRefs
      ∧ (∀ item ∈ context.selectedItems, item.scopeMode = .scoped →
        item.scopeRefs ≠ tornRule.scopeRefs)
      ∧ ∃ u ∈ context.unresolvedUnknowns, u.reasonCode = .ambiguousScope
        ∧ u.materiality = .blocking
        ∧ ∃ refs, Json.field "conflicting_refs" u.details = some (.ofStrings refs)
          ∧ "src/greeting" ∈ refs := by
  have hneeds : NeedsAccepted [] := fun _ h => absurd h List.not_mem_nil
  have hversion : isBlank packageVersion = false := by decide
  obtain ⟨plan, hplan⟩ := planRequirements_ok Sha256.transparent_injective
    (compileScope tornIntent)
    (discover (compileScope tornIntent) (resolveSnapshot tornSnapshot.toSnapshotBuckets))
    auditActivation hneeds
  have hfrom : PlannedFrom tornSnapshot (tornInputs plan) := ⟨rfl, rfl, hplan⟩
  obtain ⟨context, hcompile⟩ := hfrom.finishes hneeds hversion
  obtain ⟨hrouted, hselected, -, hblocked⟩ := scope_exclusion_real Sha256.transparent_injective
    tornSnapshot (tornInputs plan) context rfl hfrom hcompile
  have hcandidate : tornRule ∈ (tornInputs plan).resolution.candidates :=
    (mem_sortedBy _).mpr (List.mem_singleton_self _)
  -- the one reference of the rule is excluded
  have hout : ∀ item : ContextItem, item.scopeMode = .scoped →
      item.scopeRefs = tornRule.scopeRefs → ¬InScope tornIntent item := by
    intro item hscoped hrefs hin
    obtain ⟨ref, href, -, hexcluded⟩ := hin hscoped
    rw [hrefs] at href
    obtain rfl : ref = "src/greeting" := List.mem_singleton.mp href
    exact hexcluded torn_target.2
  refine ⟨plan, context, hcompile, hcandidate, fun hid => ?_, fun item hitem hscoped hrefs => ?_,
    hblocked "src/greeting" torn_target.1 torn_target.2⟩
  · exact hout tornRule rfl rfl (hrouted tornRule hcandidate hid)
  · exact hout item hscoped hrefs (hselected item hitem)

end TornTarget

end CognitiveRuntime
