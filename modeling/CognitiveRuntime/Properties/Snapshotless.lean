import CognitiveRuntime.Compiler.ShippedPack
import CognitiveRuntime.Properties.Agreement
import CognitiveRuntime.Properties.Progress
import CognitiveRuntime.Properties.Routing

/-!
# Callers without a snapshot

A caller that hands in no snapshot always gets a bundle from the shipped
pack. What a mission decides is one of the seven routes, whether its
optional improvement phases are taken, and whether architecture is
material; every combination activates kernels the later stages can work
with. The hints decide which requirements are scoped or required, and an
empty snapshot leaves each of them disposed.
-/

namespace CognitiveRuntime

open Ordered Fallible

/-! ## The shipped shapes -/

/-- The phases of a route, in canonical order. -/
def routedPhases (route : Route) (improves material : Bool) : List String :=
  let requested := route.phases ++ route.optionalPhases.filter fun phase =>
    decide (phase ∈ improvementPhases) && improves
  let wanted := if material then
      if "P3_ARCHITECTURE_DECISION" ∈ requested then requested
      else requested ++ ["P3_ARCHITECTURE_DECISION"]
    else requested
  (shippedPipeline.phaseOrder.map PipelinePhase.id).filter (· ∈ wanted)

/-- The kernels of a route. -/
def routedKernels (route : Route) (improves material : Bool) : List String :=
  insertTaskKernels (firstSeen ((routedPhases route improves material).flatMap fun id =>
    if id = "P2_TASK_ROUTING" then []
    else ((shippedPipeline.phaseById id).map PipelinePhase.primaryKernels).getD []))
    route.taskKernels

/-- What every shape of a shipped route has. -/
structure WellRouted (phases kernels : List String) (material : Bool) : Prop where
  phases_nodup : phases.Nodup
  stepped : ∀ id ∈ phases, (phaseStep id).isSome = true
  unpack : "P0_UNPACK" ∈ phases
  preflight : "P1_CONSTITUTIONAL_PREFLIGHT" ∈ phases
  routing : "P2_TASK_ROUTING" ∈ phases
  unfinished : terminalPhase ∉ phases
  kernels_nodup : kernels.Nodup
  shipped : ∀ rel ∈ kernels, rel ∈ shippedKernels
  placed : ∀ rel ∈ kernels, ∃ id ∈ phases, placedIn shippedPipeline rel id = true
  constitution : "runtime/kernels/constitutional/K01-platform-architecture-engine.yaml" ∈ kernels
  decision : material = true → "P3_ARCHITECTURE_DECISION" ∈ phases ∧ architectRef ∈ kernels

theorem routedKernels_eq (route : Route) (improves material : Bool) :
    routedKernels route improves material
      = phaseKernelsOf shippedPipeline (routedPhases route improves material) route.taskKernels :=
  rfl

theorem mem_routedPhases {route : Route} {improves material : Bool} {id : String} :
    id ∈ routedPhases route improves material ↔ id ∈ shippedPhases.map PipelinePhase.id
      ∧ (id ∈ route.phases
        ∨ (improves = true ∧ id ∈ route.optionalPhases ∧ id ∈ improvementPhases)
        ∨ (material = true ∧ id = "P3_ARCHITECTURE_DECISION")) := by
  have hrequested : ∀ phase, phase ∈ (route.phases ++ route.optionalPhases.filter fun phase =>
      decide (phase ∈ improvementPhases) && improves) ↔ phase ∈ route.phases
        ∨ (improves = true ∧ phase ∈ route.optionalPhases ∧ phase ∈ improvementPhases) := by
    intro phase
    cases improves <;> simp
  unfold routedPhases
  rw [List.mem_filter, decide_eq_true_eq]
  refine and_congr_right fun _ => ?_
  rw [← or_assoc, ← hrequested]
  cases material with
  | false => simp
  | true =>
      rw [if_pos rfl, and_iff_right rfl]
      split
      · next hdecided =>
        refine ⟨.inl, ?_⟩
        rintro (h | rfl)
        · exact h
        · exact hdecided
      · rw [List.mem_append (s := _), List.mem_singleton]

/-- What the shipped routes declare: the phases every route begins with,
no terminal phase, and task kernels of the routing phase. -/
theorem shippedRoutes_declared : ∀ entry ∈ shippedRoutes,
    (∀ id ∈ ["P0_UNPACK", "P1_CONSTITUTIONAL_PREFLIGHT", "P2_TASK_ROUTING"],
        id ∈ entry.2.phases)
      ∧ terminalPhase ∉ entry.2.phases ∧ entry.2.taskKernels.Nodup
      ∧ ∀ rel ∈ entry.2.taskKernels, placedIn shippedPipeline rel "P2_TASK_ROUTING" = true := by
  decide +kernel

/-- The kernels that the phases are known by. -/
theorem shippedPhases_named :
    (shippedPhases.map PipelinePhase.id).Nodup
      ∧ placedIn shippedPipeline "runtime/kernels/constitutional/K01-platform-architecture-engine.yaml"
        "P1_CONSTITUTIONAL_PREFLIGHT" = true
      ∧ placedIn shippedPipeline architectRef "P3_ARCHITECTURE_DECISION" = true := by
  decide +kernel

/-- The phases of the pipeline are found by their ids, and each but the
last has a step. -/
theorem shippedPhases_found {phase : PipelinePhase} (hphase : phase ∈ shippedPhases) :
    shippedPipeline.phaseById phase.id = some phase
      ∧ (shippedPhases.find? fun p => p.id = phase.id) = some phase
      ∧ (phase.id ≠ terminalPhase → (phaseStep phase.id).isSome = true) := by
  have hsteps : ∀ phase ∈ shippedPhases,
      phase.id ≠ terminalPhase → (phaseStep phase.id).isSome = true := by decide +kernel
  have hone : ∀ other ∈ shippedPhases, other.id = phase.id → other = phase := fun _ hother hid =>
    List.inj_on_of_nodup_map shippedPhases_named.1 hother hphase hid
  refine ⟨?_, ?_, hsteps phase hphase⟩
  · obtain ⟨other, hother, hid, hlast⟩ := exists_lastBy_of_mem PipelinePhase.id hphase
    rw [hone other hother hid] at hlast
    exact hlast
  · cases hfind : shippedPhases.find? fun p => p.id = phase.id with
    | none => simpa using List.find?_eq_none.mp hfind phase hphase
    | some other =>
        rw [hone other (List.mem_of_find?_eq_some hfind) (by simpa using List.find?_some hfind)]

theorem placedIn_shipped {rel id : String} : placedIn shippedPipeline rel id = true ↔
    ∃ phase ∈ shippedPhases, phase.id = id ∧ rel ∈ phase.primaryKernels := by
  have hfind : ∀ {phase : PipelinePhase}, phase ∈ shippedPhases → phase.id = id →
      (shippedPipeline.phaseOrder.find? fun p => p.id = id) = some phase := fun hphase hid =>
    hid ▸ (shippedPhases_found hphase).2.1
  unfold placedIn
  rw [Option.any_eq_true]
  constructor
  · rintro ⟨phase, hphase, hrel⟩
    refine ⟨phase, List.mem_of_find?_eq_some hphase, ?_, of_decide_eq_true hrel⟩
    simpa using List.find?_some hphase
  · rintro ⟨phase, hphase, hid, hrel⟩
    exact ⟨phase, hfind hphase hid, decide_eq_true hrel⟩

theorem shipped_of_placedIn {rel id : String} (h : placedIn shippedPipeline rel id = true) :
    rel ∈ shippedKernels := by
  obtain ⟨phase, hphase, -, hrel⟩ := placedIn_shipped.mp h
  exact List.mem_flatMap.mpr ⟨phase, hphase, hrel⟩

/-- The kernels of a listed phase are those placed in it. -/
theorem mem_primaryKernels {rel id : String} (hid : id ∈ shippedPhases.map PipelinePhase.id) :
    rel ∈ ((shippedPipeline.phaseById id).map PipelinePhase.primaryKernels).getD []
      ↔ placedIn shippedPipeline rel id = true := by
  obtain ⟨phase, hphase, rfl⟩ := List.mem_map.mp hid
  obtain ⟨hfound, hfind, -⟩ := shippedPhases_found hphase
  unfold placedIn
  rw [hfound, show shippedPipeline.phaseOrder = shippedPhases from rfl, hfind]
  simp

theorem shippedRoutes_phases {entry : String × Route} (h : entry ∈ shippedRoutes)
    (improves material : Bool) :
    (routedPhases entry.2 improves material).Nodup
      ∧ (∀ id ∈ routedPhases entry.2 improves material, (phaseStep id).isSome = true)
      ∧ (∀ id ∈ ["P0_UNPACK", "P1_CONSTITUTIONAL_PREFLIGHT", "P2_TASK_ROUTING"],
        id ∈ routedPhases entry.2 improves material)
      ∧ terminalPhase ∉ routedPhases entry.2 improves material := by
  obtain ⟨hbegins, hunfinished, -, -⟩ := shippedRoutes_declared entry h
  have hterminal : terminalPhase ∉ routedPhases entry.2 improves material := by
    intro hmem
    rcases (mem_routedPhases.mp hmem).2 with hroute | ⟨-, -, himprovement⟩ | ⟨-, hdecision⟩
    · exact hunfinished hroute
    · exact improvement_ne_terminal himprovement rfl
    · exact absurd hdecision (by decide)
  have hnodup : (routedPhases entry.2 improves material).Nodup := by
    unfold routedPhases
    exact shippedPhases_named.1.filter _
  refine ⟨hnodup, fun id hid => ?_, fun id hid => ?_, hterminal⟩
  · obtain ⟨phase, hphase, rfl⟩ := List.mem_map.mp (mem_routedPhases.mp hid).1
    exact (shippedPhases_found hphase).2.2 fun heq => hterminal (heq ▸ hid)
  · have hlisted : ∀ id ∈ ["P0_UNPACK", "P1_CONSTITUTIONAL_PREFLIGHT", "P2_TASK_ROUTING"],
        id ∈ shippedPhases.map PipelinePhase.id := by decide
    exact mem_routedPhases.mpr ⟨hlisted id hid, .inl (hbegins id hid)⟩

/-- A kernel is activated from the phase it is placed in, a task kernel
from the routing phase. -/
theorem mem_routedKernels {route : Route} {improves material : Bool} {rel : String} :
    rel ∈ routedKernels route improves material ↔
      (∃ id ∈ routedPhases route improves material, id ≠ "P2_TASK_ROUTING"
        ∧ placedIn shippedPipeline rel id = true) ∨ rel ∈ route.taskKernels := by
  rw [routedKernels_eq, mem_phaseKernelsOf]
  refine or_congr_left (exists_congr fun id => and_congr_right fun hid => ?_)
  rw [mem_primaryKernels (mem_routedPhases.mp hid).1]

theorem placed_of_routed {entry : String × Route} (h : entry ∈ shippedRoutes)
    {improves material : Bool} {rel : String}
    (hrel : rel ∈ routedKernels entry.2 improves material) :
    ∃ id ∈ routedPhases entry.2 improves material, placedIn shippedPipeline rel id = true := by
  rcases mem_routedKernels.mp hrel with ⟨id, hid, -, hplaced⟩ | htask
  · exact ⟨id, hid, hplaced⟩
  · obtain ⟨-, -, hbegins, -⟩ := shippedRoutes_phases h improves material
    exact ⟨_, hbegins _ (by simp), (shippedRoutes_declared entry h).2.2.2 rel htask⟩

theorem shippedRoutes_wellRouted {entry : String × Route} (h : entry ∈ shippedRoutes)
    (improves material : Bool) :
    WellRouted (routedPhases entry.2 improves material) (routedKernels entry.2 improves material)
      material := by
  obtain ⟨hnodup, hstepped, hbegins, hunfinished⟩ := shippedRoutes_phases h improves material
  obtain ⟨-, hconstitution, hdecision⟩ := shippedPhases_named
  have hpreflight : "P1_CONSTITUTIONAL_PREFLIGHT" ∈ routedPhases entry.2 improves material :=
    hbegins _ (by simp)
  exact
    { phases_nodup := hnodup
      stepped := hstepped
      unpack := hbegins _ (by simp)
      preflight := hpreflight
      routing := hbegins _ (by simp)
      unfinished := hunfinished
      kernels_nodup :=
        nodup_insertTaskKernels (nodup_firstSeen _) (shippedRoutes_declared entry h).2.2.1
      shipped := fun rel hrel => by
        obtain ⟨id, -, hplaced⟩ := placed_of_routed h hrel
        exact shipped_of_placedIn hplaced
      placed := fun rel hrel => placed_of_routed h hrel
      constitution := mem_routedKernels.mpr (.inl ⟨_, hpreflight, by decide, hconstitution⟩)
      decision := fun hmaterial => by
        have hphase : "P3_ARCHITECTURE_DECISION" ∈ routedPhases entry.2 improves material :=
          mem_routedPhases.mpr ⟨by decide, .inr (.inr ⟨hmaterial, rfl⟩)⟩
        exact ⟨hphase, mem_routedKernels.mpr (.inl ⟨_, hphase, by decide, hdecision⟩)⟩ }

/-! ## Activation -/

section Activation

variable [TextTables]

/-- Every mission matches a shipped route. -/
theorem matchRoute_shipped (task : String) :
    ∃ entry ∈ shippedRoutes, ∃ confidence,
      matchRoute task shippedRules = .ok (entry.1, entry.2, confidence) := by
  obtain ⟨fallback, hfallback⟩ : ∃ route,
      shippedRules.taskRoutes.lookup "pack_review" = some route := ⟨_, rfl⟩
  obtain ⟨found, hfound, hbest⟩ := matchRoute_ok task hfallback
  exact ⟨found, hbest.mem, _, hfound⟩

/-- The activation of a mission is one of the shipped shapes. -/
theorem planActivation_shipped (intent : IntentContract) (discovery : DiscoveryContext) :
    ∃ entry ∈ shippedRoutes, ∃ improves plan,
      planActivation intent shippedRules shippedPipeline discovery false = .ok plan
        ∧ plan.matchedRoute = entry.1
        ∧ plan.phaseSequence
          = routedPhases entry.2 improves plan.architectureMateriality.required
        ∧ plan.activeKernels
          = routedKernels entry.2 improves plan.architectureMateriality.required
        ∧ plan.terminalAllowed = false ∧ plan.blockers = [] := by
  obtain ⟨entry, hentry, confidence, hroute⟩ := matchRoute_shipped intent.mission
  refine ⟨entry, hentry, mentionsAny intent.mission improvementTokens, ?_⟩
  have hwanted : ∀ materiality : ArchitectureMateriality,
      materialityPhases shippedRules materiality (requestedPhases intent.mission entry.2 false)
        = .ok (let requested := entry.2.phases ++ entry.2.optionalPhases.filter fun phase =>
              decide (phase ∈ improvementPhases) && mentionsAny intent.mission improvementTokens
            if materiality.required then
              if "P3_ARCHITECTURE_DECISION" ∈ requested then requested
              else requested ++ ["P3_ARCHITECTURE_DECISION"]
            else requested) := by
    intro materiality
    unfold materialityPhases
    cases materiality.required <;> rfl
  have hshape := shippedRoutes_wellRouted hentry (mentionsAny intent.mission improvementTokens)
    (assessMateriality intent shippedRules discovery).required
  unfold planActivation
  rw [hroute, ok_bind]
  dsimp only
  rw [hwanted, ok_bind]
  refine ⟨_, rfl, rfl, ?_, ?_, ?_, ?_⟩
  · show (if (decide (terminalPhase ∈ routedPhases _ _ _) && _) = true then _
      else routedPhases _ _ _) = _
    rw [decide_eq_false hshape.unfinished, Bool.false_and, if_neg Bool.false_ne_true]
  · show (if (decide (terminalPhase ∈ routedPhases _ _ _) && _) = true then _
      else routedKernels _ _ _) = _
    rw [decide_eq_false hshape.unfinished, Bool.false_and, if_neg Bool.false_ne_true]
  · show (_ && decide (terminalPhase ∈ if (decide (terminalPhase ∈ routedPhases _ _ _) && _) = true
      then _ else routedPhases _ _ _)) = false
    rw [decide_eq_false hshape.unfinished, Bool.false_and, if_neg Bool.false_ne_true,
      decide_eq_false hshape.unfinished, Bool.and_false]
  · refine if_neg fun h => h.1 ?_
    show "P1_CONSTITUTIONAL_PREFLIGHT" ∈ if (decide (terminalPhase ∈ routedPhases _ _ _) && _) = true
      then _ else routedPhases _ _ _
    rw [decide_eq_false hshape.unfinished, Bool.false_and, if_neg Bool.false_ne_true]
    exact hshape.preflight

end Activation

/-! ## Kernels -/

/-- A required output is parsed with a consumer. -/
theorem parseOutputEntry_consumed {sourceRef : String} {seen : List String} {raw : Json}
    {o : KernelOutput} (h : parseOutputEntry sourceRef seen raw = .ok o) :
    o.required = true → o.consumerRefs ≠ [] := by
  simp only [parseOutputEntry, bind_eq_ok, require_eq_ok, ensure_eq_ok] at h
  obtain ⟨entry, -, outputId, -, required, -, _, -, refs, -, _, -, _, hconsumed, h⟩ := h
  cases h
  rintro (rfl : required = true) (rfl : refs = [])
  cases hconsumed

theorem parseDeclaredOutputs_consumed {kernelDoc : List (String × Json)} {sourceRef : String}
    {outputs : List KernelOutput} (h : parseDeclaredOutputs kernelDoc sourceRef = .ok outputs) :
    ∀ o ∈ outputs, o.required = true → o.consumerRefs ≠ [] := by
  have hentries : ∀ {entries : List Json} {seen : List String} {outputs : List KernelOutput},
      parseOutputEntries sourceRef seen entries = .ok outputs →
      ∀ o ∈ outputs, o.required = true → o.consumerRefs ≠ [] := by
    intro entries
    induction entries with
    | nil =>
        intro seen outputs h o ho
        cases h
        cases ho
    | cons entry rest ih =>
        intro seen outputs h o ho
        simp only [parseOutputEntries, bind_eq_ok] at h
        obtain ⟨first, hfirst, others, hothers, h⟩ := h
        cases h
        rcases List.mem_cons.mp ho with rfl | ho
        · exact parseOutputEntry_consumed hfirst
        · exact ih hothers o ho
  unfold parseDeclaredOutputs at h
  intro o ho
  split at h
  · cases h
    cases ho
  · cases h
    cases ho
  · exact hentries h o ho
  · cases h

/-- The characters of a plain relative path. -/
def isPlainPath (path : List Char) : Bool :=
  path.all (fun c => c ≠ '\\' && !isSpace c) && path.head?.all (· ≠ '/') && !path.isEmpty
    && !(path.splitOn '/').contains ['.', '.']

theorem shippedKernels_plain : ∀ rel ∈ shippedKernels, isPlainPath rel.toList = true := by
  decide +kernel

theorem kernelPath_plain {rel : String} (h : isPlainPath rel.toList = true) :
    kernelPath rel = rel := by
  simp only [isPlainPath, Bool.and_eq_true, List.all_eq_true, decide_eq_true_eq,
    Bool.not_eq_true'] at h
  obtain ⟨⟨⟨hchars, -⟩, -⟩, -⟩ := h
  have hdrop : ∀ {l : List Char}, (∀ c ∈ l, isSpace c = false) → l.dropWhile isSpace = l := by
    intro l hl
    cases l with
    | nil => rfl
    | cons c rest => rw [List.dropWhile_cons_of_neg (by simp [hl c (List.mem_cons_self ..)])]
  have hstrip : strip rel = rel := by
    unfold strip
    rw [hdrop fun c hc => (hchars c hc).2,
      hdrop fun c hc => (hchars c (List.mem_reverse.mp hc)).2, List.reverse_reverse,
      String.ofList_toList]
  unfold kernelPath
  rw [hstrip]
  have hmap : rel.toList.map (fun c => if c = '\\' then '/' else c) = rel.toList := by
    refine (List.map_congr_left fun c hc => ?_).trans (List.map_id _)
    rw [if_neg (hchars c hc).1]
    rfl
  rw [hmap, String.ofList_toList]

/-- A shipped kernel is a path the resolver accepts. -/
theorem kernelPathBreach_shipped {pack : RuntimePack} (hpack : pack.Ships) {rel : String}
    (hrel : rel ∈ shippedKernels) : kernelPathBreach pack.toSourcePack rel = none := by
  have hplain := shippedKernels_plain rel hrel
  simp only [isPlainPath, Bool.and_eq_true, Bool.not_eq_true'] at hplain
  obtain ⟨⟨⟨-, hhead⟩, hempty⟩, hdots⟩ := hplain
  unfold kernelPathBreach
  rw [if_neg, hpack.contained rel hrel, hpack.present rel hrel]
  · rfl
  · rintro (rfl | hslash | hdot)
    · cases hempty
    · rw [hslash] at hhead
      cases hhead
    · rw [List.contains_iff_mem.mpr hdot] at hdots
      cases hdots

/-- What the resolver binds of a shipped kernel. -/
structure ShippedBinding (b : KernelBinding) : Prop where
  stamped : b.sourceDigest ≠ ""
  consumed : ∀ o ∈ b.outputs, o.required = true → o.consumerRefs ≠ []
  accepted : ∀ need ∈ b.contextNeeds, need.Accepted
  architect : b.sourceRef = architectRef → b.outputs ≠ []

theorem architect_declares :
    (parseDeclaredOutputs (shippedDeclarations architectRef) architectRef).toOption.any
        (fun outputs => !outputs.isEmpty) = true
      ∧ (parseContextNeeds (shippedDeclarations architectRef) architectRef).toOption.isSome = true
      ∧ hasYamlSuffix (pathName architectRef) = true := by
  decide +kernel

/-- Every shipped declaration parses. -/
theorem shippedDeclarations_parse (rel : String) :
    (∃ outputs, parseDeclaredOutputs (shippedDeclarations rel) rel = .ok outputs
        ∧ (rel = architectRef → outputs ≠ []))
      ∧ ∃ needs, parseContextNeeds (shippedDeclarations rel) rel = .ok needs := by
  by_cases hrel : rel = architectRef
  · subst hrel
    obtain ⟨houtputs, hneeds, -⟩ := architect_declares
    constructor
    · cases h : parseDeclaredOutputs (shippedDeclarations architectRef) architectRef with
      | error e =>
          rw [h] at houtputs
          cases houtputs
      | ok outputs =>
          rw [h] at houtputs
          refine ⟨outputs, rfl, fun _ hnone => ?_⟩
          rw [hnone] at houtputs
          cases houtputs
    · cases h : parseContextNeeds (shippedDeclarations architectRef) architectRef with
      | error e =>
          rw [h] at hneeds
          cases hneeds
      | ok needs => exact ⟨needs, rfl⟩
  · unfold shippedDeclarations
    rw [if_neg hrel]
    exact ⟨⟨[], rfl, fun h => absurd h hrel⟩, [], rfl⟩

theorem bindKernel_shipped {pack : RuntimePack} (hpack : pack.Ships) {rel : String}
    (hrel : rel ∈ shippedKernels) :
    ∃ b, bindKernel pack.toSourcePack rel = .ok b ∧ b.sourceRef = rel ∧ ShippedBinding b := by
  obtain ⟨source, hread, hdocument⟩ := hpack.readable rel hrel
  obtain ⟨⟨outputs, houtputs, hdeclared⟩, needs, hneeds⟩ := shippedDeclarations_parse rel
  unfold bindKernel
  rw [hread, ok_bind]
  cases hsuffix : hasYamlSuffix (pathName rel) with
  | true =>
      obtain ⟨document, hload, hfields⟩ := hdocument hsuffix
      have hparsed : parseDeclaredOutputs document rel = .ok outputs := by
        rw [← houtputs]
        unfold parseDeclaredOutputs
        rw [hfields "typed_outputs" (by decide)]
      have hneeded : parseContextNeeds document rel = .ok needs := by
        rw [← hneeds]
        unfold parseContextNeeds
        rw [hfields "context_needs" (by decide)]
      simp only [if_true, hload, ok_bind, hparsed, hneeded]
      exact ⟨_, rfl, rfl, hpack.digests source, parseDeclaredOutputs_consumed hparsed,
        parseContextNeeds_accepted hneeded, hdeclared⟩
  | false =>
      rw [if_neg Bool.false_ne_true]
      refine ⟨_, rfl, rfl, hpack.digests source, nofun, nofun, fun h => ?_⟩
      rw [show rel = architectRef from h, architect_declares.2.2] at hsuffix
      cases hsuffix

theorem resolveKernels_shipped {pack : RuntimePack} (hpack : pack.Ships) :
    ∀ {items seen : List String}, items.Nodup → (∀ rel ∈ items, rel ∈ shippedKernels ∧ rel ∉ seen) →
      ∃ kernels, resolveKernels pack.toSourcePack seen items = .ok kernels
        ∧ kernels.map KernelBinding.sourceRef = items ∧ ∀ b ∈ kernels, ShippedBinding b
  | [], _, _, _ => ⟨[], rfl, rfl, nofun⟩
  | rel :: rest, seen, hnodup, hitems => by
      obtain ⟨hfresh, hnodup⟩ := List.nodup_cons.mp hnodup
      obtain ⟨hshipped, hunseen⟩ := hitems rel (List.mem_cons_self ..)
      obtain ⟨b, hb, href, hbinding⟩ := bindKernel_shipped hpack hshipped
      have hrest : ∀ rel' ∈ rest, rel' ∈ shippedKernels ∧ rel' ∉ rel :: seen := by
        intro rel' hrel'
        obtain ⟨hshipped', hunseen'⟩ := hitems rel' (List.mem_cons_of_mem _ hrel')
        refine ⟨hshipped', fun hmem => ?_⟩
        rcases List.mem_cons.mp hmem with rfl | hmem
        · exact hfresh hrel'
        · exact hunseen' hmem
      obtain ⟨kernels, hkernels, hrefs, hbindings⟩ := resolveKernels_shipped hpack hnodup hrest
      have hpath := kernelPath_plain (shippedKernels_plain rel hshipped)
      refine ⟨b :: kernels, ?_, by rw [List.map_cons, href, hrefs], fun b' hb' => ?_⟩
      · simp only [resolveKernels, hpath, kernelPathBreach_shipped hpack hshipped, hunseen,
          if_false, hb, hkernels, ok_bind]
      · rcases List.mem_cons.mp hb' with rfl | hb'
        · exact hbinding
        · exact hbindings b' hb'

/-- The architect is the one shipped kernel with its name. -/
theorem shippedKernels_architect : ∀ rel ∈ shippedKernels,
    rel.endsWith "global_architect_kernel.yaml" = true ↔ rel = architectRef := by
  decide +kernel

theorem shippedRoutes_named : ∀ entry ∈ shippedRoutes, isBlank entry.1 = false := by
  decide +kernel

/-- From the shipped pack every mission activates kernels the later
stages can work with. -/
theorem activated_shipped [TextTables] {pack : RuntimePack} (hpack : pack.Ships)
    (intent : IntentContract) (discovery : DiscoveryContext) :
    ∃ plan kernels, planActivation intent shippedRules shippedPipeline discovery false = .ok plan
      ∧ resolveKernels pack.toSourcePack [] plan.activeKernels = .ok kernels
      ∧ Activated plan kernels shippedPipeline ∧ NeedsAccepted kernels
      ∧ isBlank plan.matchedRoute = false := by
  obtain ⟨entry, hentry, improves, plan, hplan, hroute, hphases, hactive, hterminal, hblockers⟩ :=
    planActivation_shipped intent discovery
  have hshape := shippedRoutes_wellRouted hentry improves plan.architectureMateriality.required
  rw [← hphases, ← hactive] at hshape
  obtain ⟨kernels, hkernels, hrefs, hbindings⟩ := resolveKernels_shipped hpack
    hshape.kernels_nodup fun rel hrel => ⟨hshape.shipped rel hrel, List.not_mem_nil⟩
  have hbound : ∀ {b}, b ∈ kernels → b.sourceRef ∈ plan.activeKernels := fun hb =>
    hrefs ▸ List.mem_map_of_mem hb
  refine ⟨plan, kernels, hplan, hkernels, ?_, fun b hb => (hbindings b hb).accepted, ?_⟩
  · exact
      { unblocked := hblockers
        terminalContract := ⟨"runtime/kernels/terminal/flawless_victory.contract.yaml", by decide⟩
        pipelineId := ⟨"l9_clean_kernel_pipeline.v1", by decide⟩
        phases_nodup := hshape.phases_nodup
        stepped := fun id hid => Option.isSome_iff_exists.mp (hshape.stepped id hid)
        unpack := hshape.unpack
        preflight := hshape.preflight
        routing := hshape.routing
        decision := fun hmaterial => (hshape.decision hmaterial).1
        unfinished := hshape.unfinished
        not_terminal := hterminal
        bound := fun item hitem => hrefs ▸ hitem
        placed := fun b hb => hshape.placed _ (hbound hb)
        stamped := fun b hb => (hbindings b hb).stamped
        consumed := fun b hb => (hbindings b hb).consumed
        constitution := hrefs ▸ hshape.constitution
        architect := fun hmaterial => by
          obtain ⟨b, hb, href⟩ := List.mem_map.mp (hrefs ▸ (hshape.decision hmaterial).2)
          obtain ⟨gar, hgar⟩ := Option.isSome_iff_exists.mp (List.find?_isSome
            (p := fun b : KernelBinding => b.sourceRef.endsWith "global_architect_kernel.yaml").mpr
              ⟨b, hb, (shippedKernels_architect _ (hshape.shipped _ (hbound hb))).mpr href⟩)
          have hmem := List.mem_of_find?_eq_some hgar
          have hname : gar.sourceRef.endsWith "global_architect_kernel.yaml" = true :=
            List.find?_some (p := fun b : KernelBinding =>
              b.sourceRef.endsWith "global_architect_kernel.yaml") hgar
          exact ⟨gar, hgar, (hbindings gar hmem).architect
            ((shippedKernels_architect _ (hshape.shipped _ (hbound hmem))).mp hname)⟩ }
  · rw [hroute]
    exact shippedRoutes_named entry hentry

/-! ## The whole spine -/

section Spine

variable [Sha256] [TextTables]

/-- The prefix of a compile returns over any snapshot within the
ceilings. -/
theorem prepares_shipped (hsha : Sha256.Injective) {pack : RuntimePack} (hpack : pack.Ships)
    (request : CompileRequest) (hmission : request.mission ≠ "")
    (snapshot : Option ContextSnapshot)
    (hceilings : WithinCeilings (snapshot.getD ContextSnapshot.empty).toSnapshotBuckets) :
    ∃ prepared, prepareContextPlan request pack snapshot .standard = .ok prepared
      ∧ Activated prepared.activation prepared.kernels prepared.pipeline
      ∧ NeedsAccepted prepared.kernels ∧ deriveIntent request = .ok prepared.intent
      ∧ prepared.scope = compileScope prepared.intent
      ∧ prepared.resolution
        = resolveSnapshot (snapshot.getD ContextSnapshot.empty).toSnapshotBuckets := by
  obtain ⟨rulesSource, hreadRules, hloadRules⟩ := hpack.rules
  obtain ⟨pipelineSource, hreadPipeline, hloadPipeline⟩ := hpack.pipeline
  obtain ⟨intent, hintent⟩ : ∃ intent, deriveIntent request = .ok intent := by
    unfold deriveIntent
    simp only [hmission, ne_eq, not_false_eq_true, decide_true, ensure_true, ok_bind]
    exact ⟨_, rfl⟩
  obtain ⟨discovery, hdiscovery⟩ : ∃ discovery, discovery = discover (compileScope intent)
      (resolveSnapshot (snapshot.getD ContextSnapshot.empty).toSnapshotBuckets) := ⟨_, rfl⟩
  obtain ⟨activation, kernels, hactivation, hkernels, hactivated, hneeds, hroute⟩ :=
    activated_shipped hpack intent discovery
  obtain ⟨plan, hplan⟩ := planRequirements_ok hsha (compileScope intent) discovery activation
    hneeds
  obtain ⟨-, -, -, hscope, hmatched⟩ := planRequirements_eq_ok hplan
  have hdigest : discovery.taskScopeDigest = (compileScope intent).sha256 := by
    rw [hdiscovery]
    rfl
  obtain ⟨contextPlan, hcontextPlan⟩ : ∃ contextPlan, ContextPlan.create
      { contextPlanId := "", taskScope := compileScope intent, discovery := discovery
        requirementPlan := plan
        activeKernelDigests := dictOf (kernels.map fun b => (b.sourceRef, b.sourceDigest))
        packManifestDigest := pack.manifestDigest
        routingRulesDigest := pack.bytesDigest rulesSource
        pipelineDigest := pack.bytesDigest pipelineSource
        compilerIdentity :=
          { packageVersion := packageVersion
            semanticsVersion := contextCompilerSemanticsVersion } } = .ok contextPlan := by
    unfold ContextPlan.create
    dsimp only
    rw [hdigest, if_neg (not_not.mpr rfl), if_neg (not_not.mpr hscope),
      if_neg (by simp [hmatched, hroute])]
    exact ⟨_, rfl⟩
  have hsources : readSources pack = .ok
      { rulesDigest := pack.bytesDigest rulesSource
        pipelineDigest := pack.bytesDigest pipelineSource
        rules := shippedRules, pipeline := shippedPipeline } := by
    unfold readSources
    simp only [hreadRules, hreadPipeline, hloadRules, hloadPipeline, ok_bind]
  have hpreflight : preflightSnapshot (snapshot.getD ContextSnapshot.empty).toSnapshotBuckets
      = .ok () := preflightSnapshot_ok_iff.mpr hceilings
  have hchosen : chooseActivation .standard
      { rulesDigest := pack.bytesDigest rulesSource
        pipelineDigest := pack.bytesDigest pipelineSource
        rules := shippedRules, pipeline := shippedPipeline } intent discovery
      = .ok activation := hactivation
  have hplanned : planFromDiscovery pack .standard
      { rulesDigest := pack.bytesDigest rulesSource
        pipelineDigest := pack.bytesDigest pipelineSource
        rules := shippedRules, pipeline := shippedPipeline } intent (compileScope intent) discovery
      = .ok (activation, kernels, plan, contextPlan) := by
    unfold planFromDiscovery
    simp only [hchosen, hkernels, hplan, hcontextPlan, ok_bind]
  unfold prepareContextPlan
  simp only [hsources, hintent, ok_bind, hpreflight, ← hdiscovery, hplanned]
  exact ⟨_, rfl, hactivated, hneeds, rfl, rfl, rfl⟩

omit [TextTables] in
/-- Over no candidates a finished run selects nothing. -/
theorem FinishedRun.selects_nothing {inputs : CompileInputs} {selection : Selection}
    {unknowns : List ContextUnknown} (hrun : FinishedRun inputs selection unknowns)
    (hresolution : inputs.resolution = noCandidates) :
    (assembleContext inputs unknowns selection.selected).selectedItems = [] := by
  rw [List.eq_nil_iff_forall_not_mem]
  intro item hitem
  obtain ⟨c, hc, -⟩ := hrun.selected_from hitem
  rw [hresolution] at hc
  cases hc

omit [Sha256] [TextTables] in
/-- A context that selects nothing lists no capability. -/
theorem contradictoryCapabilities_of_nothing {context : CompiledTaskContext}
    (h : context.selectedItems = []) : contradictoryCapabilities context = [] := by
  have havailable : context.capabilities.available = [] := by
    rw [List.eq_nil_iff_forall_not_mem]
    intro item hitem
    have hmem : item ∈ context.selectedItems := by
      unfold CompiledTaskContext.selectedItems
      simp [hitem]
    rw [h] at hmem
    cases hmem
  unfold contradictoryCapabilities
  rw [havailable]
  rfl

/-- A prefix of the shipped pack is carried to a bundle, where its run
selects no unverified repository state, no capability both available and
unavailable, and nothing under a conflict. -/
theorem compileRoot_of_settled (hsha : Sha256.Injective) {request : CompileRequest}
    {pack : RuntimePack} {snapshot : Option ContextSnapshot} {prepared : PreparedContextPlan}
    (hprepared : prepareContextPlan request pack snapshot .standard = .ok prepared)
    (hactivated : Activated prepared.activation prepared.kernels prepared.pipeline)
    (hneeds : NeedsAccepted prepared.kernels)
    (hscope : prepared.scope = compileScope prepared.intent)
    (hsettled : ∀ selection unknowns, FinishedRun prepared.compileInputs selection unknowns →
      (∀ item ∈ (assembleContext prepared.compileInputs unknowns selection.selected).selectedItems,
        ¬(item.contextKind = .repositoryState ∧ item.authorityLevel = .unverified))
      ∧ contradictoryCapabilities (assembleContext prepared.compileInputs unknowns
          selection.selected) = []
      ∧ selectedConflicts (assembleContext prepared.compileInputs unknowns
          selection.selected) = []) :
    ∃ root, compileStages pack prepared = .ok root
      ∧ compileRoot request pack snapshot .standard none = .ok root := by
  have hplanned := prepareContextPlan_plannedFrom hprepared
  have hversion : isBlank packageVersion = false := by decide
  have hunbound : UnboundUnknowns prepared.compileInputs.scope := by
    show UnboundUnknowns prepared.scope
    rw [hscope]
    exact compileScope_unbound _
  obtain ⟨taskContext, hcontext⟩ := hplanned.finishes hneeds hversion
  obtain ⟨selection, selectionUnknowns, hrun, rfl⟩ :=
    finishedRun_of_compile hplanned hneeds hunbound hcontext
  obtain ⟨hstate, hcapabilities, hquiet⟩ := hsettled selection selectionUnknowns hrun
  have horder : prepared.compileInputs.defaultAuthorityOrder ≠ [] := by
    show defaultAuthorityOrder ≠ []
    decide
  have hclosed := hrun.closed hsha horder hstate hcapabilities
  obtain ⟨root, hroot⟩ := compileStages_passes pack hactivated hcontext
    (validateClosure_ok_iff.mpr ⟨hclosed, rfl⟩) hquiet
  refine ⟨root, hroot, ?_⟩
  unfold compileRoot compileThen
  rw [hprepared, ok_bind]
  exact hroot

/-- Over no candidates nothing is left to settle. -/
theorem compileRoot_of_noCandidates (hsha : Sha256.Injective) {request : CompileRequest}
    {pack : RuntimePack} {prepared : PreparedContextPlan}
    (hprepared : prepareContextPlan request pack none .standard = .ok prepared)
    (hactivated : Activated prepared.activation prepared.kernels prepared.pipeline)
    (hneeds : NeedsAccepted prepared.kernels)
    (hscope : prepared.scope = compileScope prepared.intent)
    (hresolution : prepared.resolution = noCandidates) :
    ∃ root, compileStages pack prepared = .ok root
      ∧ compileRoot request pack none .standard none = .ok root := by
  refine compileRoot_of_settled hsha hprepared hactivated hneeds hscope
    fun selection unknowns hrun => ?_
  have hnothing := hrun.selects_nothing hresolution
  refine ⟨fun item hitem => absurd (hnothing ▸ hitem) List.not_mem_nil,
    contradictoryCapabilities_of_nothing hnothing, ?_⟩
  unfold selectedConflicts
  rw [hnothing]
  rfl

/-- Every request with a mission is carried from the shipped pack to a
bundle. -/
theorem compile_shipped (hsha : Sha256.Injective) {pack : RuntimePack} (hpack : pack.Ships)
    (request : CompileRequest) (hmission : request.mission ≠ "") :
    ∃ bundle, compile request pack none none = .ok bundle := by
  obtain ⟨prepared, hprepared, hactivated, hneeds, -, hscope, hresolution⟩ :=
    prepares_shipped hsha hpack request hmission none empty_withinCeilings
  obtain ⟨root, -, hroot⟩ :=
    compileRoot_of_noCandidates hsha hprepared hactivated hneeds hscope hresolution
  refine ⟨root.bundle, ?_⟩
  unfold compile
  rw [hroot, ok_bind]

/-- The hint dictionary of a caller that names references. -/
def referenceHints (targetRefs inScopeRefs excludedRefs : List String) : List (String × Json) :=
  [("target_refs", .ofStrings targetRefs), ("in_scope_refs", .ofStrings inScopeRefs),
    ("excluded_refs", .ofStrings excludedRefs)]

/-- Without a snapshot and without a plan to be bound to, every request
with a mission compiles from the shipped pack. -/
theorem snapshotless_compiles (hsha : Sha256.Injective) (pack : RuntimePack)
    (hpack : pack.Ships) (mission taskType : String)
    (constraints desiredOutputs unknowns targetRefs inScopeRefs excludedRefs : List String)
    (hmission : isBlank mission = false) :
    ∃ bundle, compile
      { mission := mission, taskType := taskType, constraints := constraints
        desiredOutputs := desiredOutputs, unknowns := unknowns
        sourceContext := referenceHints targetRefs inScopeRefs excludedRefs } pack none none
      = .ok bundle := by
  have hne : mission ≠ "" := by
    rintro rfl
    cases hmission
  exact compile_shipped hsha hpack
    { mission := mission, taskType := taskType, constraints := constraints
      desiredOutputs := desiredOutputs, unknowns := unknowns
      sourceContext := referenceHints targetRefs inScopeRefs excludedRefs } hne

end Spine

/-! ## A shipped pack -/

/-- A pack whose files are named by their paths. -/
def shippedPack : RuntimePack where
  read rel := .ok rel
  bytesDigest bytes := "sha256:" ++ bytes
  loadMapping _ rel := .ok (shippedDeclarations rel)
  escapesRoot _ := false
  isFile _ := true
  manifestDigest := "manifest"
  loadRules _ := .ok shippedRules
  loadPipeline _ := .ok shippedPipeline

theorem shippedPack_ships : shippedPack.Ships where
  rules := ⟨rulesRel, rfl, rfl⟩
  pipeline := ⟨pipelineRel, rfl, rfl⟩
  contained _ _ := rfl
  present _ _ := rfl
  readable rel _ := ⟨rel, rfl, fun _ => ⟨shippedDeclarations rel, rfl, fun _ _ => rfl⟩⟩
  digests source h := by
    have hlist := congrArg String.toList h
    change ("sha256:" ++ source).toList = _ at hlist
    rw [String.toList_append] at hlist
    cases hlist

attribute [local instance] Sha256.transparent TextTables.ascii

/-- A mission that excludes the reference it targets still compiles. -/
theorem hardening_compiles :
    ∃ bundle, compile
      { mission := "harden the worker queue", taskType := "feature", constraints := []
        desiredOutputs := [], unknowns := ["which queue"]
        sourceContext := referenceHints ["src/queue.py"] [] ["src/queue.py"] } shippedPack none none
      = .ok bundle :=
  snapshotless_compiles Sha256.transparent_injective shippedPack shippedPack_ships
    "harden the worker queue" "feature" [] [] ["which queue"] ["src/queue.py"] []
    ["src/queue.py"] (by decide)

end CognitiveRuntime
