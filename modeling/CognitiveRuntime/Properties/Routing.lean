import CognitiveRuntime.Compiler.ShippedPack
import CognitiveRuntime.Data.FirstBest

/-!
# Routes and the terminal phase

The scan over the task routes starts below every score, so its first
entry always replaces the declared default: what it returns is the first
of the best routes, and the default comes back only where it is listed
first or something scores.

Asking for the terminal phase takes the place of the optional phases
instead of coming after them. Everything else the two plans run is the
same, so the terminal plan keeps the gates of the other one exactly where
it would run the optional phases anyway.
-/

namespace CognitiveRuntime

open Ordered Fallible

section Routing

variable [TextTables]

/-! ## The scan over the routes -/

/-- The score of an entry for a lowered task. -/
def entryScore (lowered : String) (entry : String × Route) : Nat := routeScore lowered entry.2

/-- From a route that has been scored, the scan ends at the first best of
that route and the rest. -/
theorem bestRoute_scored {lowered : String} : ∀ (rest : List (String × Route))
    (entry : String × Route), ∃ found,
      bestRoute lowered rest (entry, some (entryScore lowered entry))
        = (found, some (entryScore lowered found))
      ∧ FirstBest (entryScore lowered) (entry :: rest) found
  | [], entry => ⟨entry, rfl, FirstBest.singleton⟩
  | next :: rest, entry => by
      unfold bestRoute
      by_cases hbetter : entryScore lowered entry < entryScore lowered next
      · rw [if_pos (by simpa [entryScore] using hbetter)]
        obtain ⟨found, hfound, hbest⟩ := bestRoute_scored rest next
        have hle := hbest.le (List.mem_cons_self ..)
        exact ⟨found, hfound, hbest.cons_of_lt (hbetter.trans_le hle)⟩
      · rw [if_neg (by simpa [entryScore] using hbetter)]
        obtain ⟨found, hfound, hbest⟩ := bestRoute_scored rest entry
        exact ⟨found, hfound, hbest.insert (not_lt.mp hbetter)⟩

/-- The sentinel loses to any entry. -/
theorem bestRoute_seeded (lowered : String) {routes : List (String × Route)}
    (seed : String × Route) (hroutes : routes ≠ []) :
    ∃ found, bestRoute lowered routes (seed, none) = (found, some (entryScore lowered found))
      ∧ FirstBest (entryScore lowered) routes found := by
  obtain ⟨entry, rest, rfl⟩ := List.exists_cons_of_ne_nil hroutes
  exact bestRoute_scored rest entry

/-- The confidence of a score. -/
def confidenceOf : Nat → String
  | 0 => "low"
  | 1 => "medium"
  | _ => "high"

/-- With a default among the routes, a route is always found: the first
best one. -/
theorem matchRoute_ok (task : String) {rules : RoutingRules} {default : Route}
    (hdefault : rules.taskRoutes.lookup "pack_review" = some default) :
    ∃ found, matchRoute task rules
        = .ok (found.1, found.2, confidenceOf (entryScore (TextTables.lower task) found))
      ∧ FirstBest (entryScore (TextTables.lower task)) rules.taskRoutes found := by
  have hroutes : rules.taskRoutes ≠ [] := by
    intro hnil
    rw [hnil] at hdefault
    cases hdefault
  obtain ⟨found, hfound, hbest⟩ :=
    bestRoute_seeded (TextTables.lower task) ("pack_review", default) hroutes
  refine ⟨found, ?_, hbest⟩
  unfold matchRoute
  rw [hdefault, require_some, ok_bind, hfound]
  rcases hscore : entryScore (TextTables.lower task) found with _ | _ | _ <;> rfl

/-! ## The declared default -/

/-- The best route of the task: none scores more, of those that score as
much the first one where the score is positive, and the default where
nothing scores. -/
structure StableArgmax (task : String) (rules : RoutingRules) (default : Route)
    (name : String) (route : Route) (confidence : String) : Prop where
  listed : (name, route) ∈ rules.taskRoutes
  best : ∀ entry ∈ rules.taskRoutes,
    entryScore (TextTables.lower task) entry ≤ routeScore (TextTables.lower task) route
  first : 0 < routeScore (TextTables.lower task) route →
    FirstBest (entryScore (TextTables.lower task)) rules.taskRoutes (name, route)
  confident : confidence = confidenceOf (routeScore (TextTables.lower task) route)
  defaulted : (∀ entry ∈ rules.taskRoutes, entryScore (TextTables.lower task) entry = 0) →
    name = "pack_review" ∧ route = default

/-- A token of some route occurs in the task, or the default is listed
first. -/
def RouteDecided (task : String) (rules : RoutingRules) : Prop :=
  (∃ entry ∈ rules.taskRoutes, 0 < entryScore (TextTables.lower task) entry)
    ∨ (rules.taskRoutes.head?.map Prod.fst) = some "pack_review"

/-- Where nothing scores the first listed route is found. -/
theorem head_of_unscored {lowered : String} {routes : List (String × Route)}
    {found : String × Route} (hbest : FirstBest (entryScore lowered) routes found)
    (hnone : ∀ entry ∈ routes, entryScore lowered entry = 0) : routes.head? = some found := by
  obtain ⟨entry, rest, rfl⟩ := List.exists_cons_of_ne_nil (List.ne_nil_of_mem hbest.mem)
  rcases hbest.cons_cases with ⟨rfl, -⟩ | ⟨hrest, hlt⟩
  · rfl
  · rw [hnone found (List.mem_cons_of_mem _ hrest.mem)] at hlt
    exact absurd hlt (Nat.not_lt_zero _)

omit [TextTables] in
theorem lookup_of_head {name : String} {route : Route} {routes : List (String × Route)}
    (h : routes.head? = some (name, route)) : routes.lookup name = some route := by
  obtain ⟨rest, rfl⟩ := List.head?_eq_some_iff.mp h
  exact List.lookup_cons_self

/-- Routes are matched as a stable argmax with the declared default
exactly where some token occurs or the default is listed first. -/
theorem match_route_argmax_iff (task : String) (rules : RoutingRules) (default : Route)
    (hdefault : rules.taskRoutes.lookup "pack_review" = some default) :
    ∃ name route confidence, matchRoute task rules = .ok (name, route, confidence)
      ∧ (StableArgmax task rules default name route confidence ↔ RouteDecided task rules) := by
  obtain ⟨⟨name, route⟩, hmatch, hbest⟩ := matchRoute_ok task hdefault
  refine ⟨name, route, _, hmatch, fun h => ?_, fun h => ?_⟩
  · -- nothing scores: the default was found, and it is the first listed
    by_cases hscored : ∃ entry ∈ rules.taskRoutes, 0 < entryScore (TextTables.lower task) entry
    · exact .inl hscored
    · push Not at hscored
      have hnone : ∀ entry ∈ rules.taskRoutes, entryScore (TextTables.lower task) entry = 0 :=
        fun entry hentry => Nat.le_zero.mp (hscored entry hentry)
      rw [RouteDecided, head_of_unscored hbest hnone, (h.defaulted hnone).1]
      exact .inr rfl
  · refine ⟨hbest.mem, fun entry hentry => hbest.le hentry, fun _ => hbest, rfl, fun hnone => ?_⟩
    have hhead := head_of_unscored hbest hnone
    rcases h with ⟨entry, hentry, hscored⟩ | hfirst
    · exact absurd (hnone entry hentry) (Nat.ne_of_gt hscored)
    · rw [hhead] at hfirst
      obtain rfl : name = "pack_review" := Option.some.inj hfirst
      exact ⟨rfl, Option.some.inj ((lookup_of_head hhead).symm.trans hdefault)⟩

/-! ## The phases of a plan -/

theorem mem_requestedPhases {mission phase : String} {route : Route} {includeTerminal : Bool} :
    phase ∈ requestedPhases mission route includeTerminal ↔
      phase ∈ route.phases ∨ (includeTerminal = true ∧ phase = terminalPhase)
        ∨ (includeTerminal = false ∧ phase ∈ route.optionalPhases ∧ phase ∈ improvementPhases
          ∧ mentionsAny mission improvementTokens = true) := by
  cases includeTerminal <;> simp [requestedPhases]

omit [TextTables] in
/-- A required materiality needs a phase to pull in, and pulls in that. -/
theorem mem_materialityPhases {rules : RoutingRules} {materiality : ArchitectureMateriality}
    {phases wanted : List String} (h : materialityPhases rules materiality phases = .ok wanted)
    {phase : String} : phase ∈ wanted ↔
      phase ∈ phases ∨ (materiality.required = true ∧ rules.addsPhase = some phase) := by
  unfold materialityPhases at h
  cases hrequired : materiality.required with
  | false =>
      rw [hrequired] at h
      obtain rfl := Except.ok.inj h
      simp
  | true =>
      rw [hrequired, if_pos rfl] at h
      cases hadds : rules.addsPhase with
      | none => rw [hadds] at h; cases h
      | some added =>
          rw [hadds] at h
          obtain rfl := Except.ok.inj h
          by_cases hadded : added ∈ phases
          · rw [if_pos hadded]
            exact ⟨.inl, fun hor => hor.elim id fun heq => Option.some.inj heq.2 ▸ hadded⟩
          · rw [if_neg hadded]
            simp [eq_comm]

omit [TextTables] in
/-- Whether the materiality phase is there does not depend on the phases. -/
theorem materialityPhases_ok {rules : RoutingRules} {materiality : ArchitectureMateriality}
    {phases wanted : List String} (h : materialityPhases rules materiality phases = .ok wanted)
    (others : List String) : ∃ wanted', materialityPhases rules materiality others = .ok wanted' := by
  unfold materialityPhases at h ⊢
  cases hrequired : materiality.required with
  | false => exact ⟨_, rfl⟩
  | true =>
      rw [hrequired] at h
      cases hadds : rules.addsPhase with
      | none => rw [hadds] at h; cases h
      | some added => exact ⟨_, rfl⟩

omit [TextTables] in
theorem mem_insertTaskKernels {active taskKernels : List String} {kernel : String} :
    kernel ∈ insertTaskKernels active taskKernels ↔ kernel ∈ active ∨ kernel ∈ taskKernels := by
  have hextra : kernel ∈ active ∨ kernel ∈ taskKernels.filter (· ∉ active) ↔
      kernel ∈ active ∨ kernel ∈ taskKernels := by
    by_cases hactive : kernel ∈ active <;> simp [hactive]
  -- wherever the extra kernels go, the active ones stand around them
  have hspread : ∀ n, kernel ∈ active.take n ++ taskKernels.filter (· ∉ active) ++ active.drop n ↔
      kernel ∈ active ∨ kernel ∈ taskKernels.filter (· ∉ active) := by
    intro n
    have hsplit : kernel ∈ active ↔ kernel ∈ active.take n ∨ kernel ∈ active.drop n := by
      rw [← List.mem_append, List.take_append_drop]
    rw [List.mem_append, List.mem_append, hsplit]
    tauto
  rw [← hextra]
  unfold insertTaskKernels
  dsimp only
  split
  · next hnil =>
      rw [hnil]
      simp
  · exact hspread _

omit [TextTables] in
/-- Only task kernels that are not active yet are put in. -/
theorem nodup_insertTaskKernels {active taskKernels : List String} (hactive : active.Nodup)
    (htask : taskKernels.Nodup) : (insertTaskKernels active taskKernels).Nodup := by
  have hspread : ∀ n,
      (active.take n ++ taskKernels.filter (· ∉ active) ++ active.drop n).Nodup := by
    intro n
    have hperm : (active.take n ++ taskKernels.filter (· ∉ active) ++ active.drop n).Perm
        (active ++ taskKernels.filter (· ∉ active)) := by
      rw [List.append_assoc]
      refine (List.perm_append_comm.append_left _).trans ?_
      rw [← List.append_assoc, List.take_append_drop]
    refine hperm.nodup_iff.mpr (List.nodup_append'.mpr ⟨hactive, htask.filter _, ?_⟩)
    intro kernel hin hextra
    simpa [hin] using (List.mem_filter.mp hextra).2
  unfold insertTaskKernels
  dsimp only
  split
  · exact hactive
  · exact hspread _

/-- The phases of the pipeline that are wanted, in its order. -/
def canonicalPhases (pipeline : PipelineDefinition) (wanted : List String) : List String :=
  (pipeline.phaseOrder.map PipelinePhase.id).filter (· ∈ wanted)

/-- The kernels of some phases and a route, before any is dropped. -/
def phaseKernelsOf (pipeline : PipelineDefinition) (phases taskKernels : List String) :
    List String :=
  insertTaskKernels (firstSeen (phases.flatMap fun id =>
    if id = "P2_TASK_ROUTING" then []
    else ((pipeline.phaseById id).map PipelinePhase.primaryKernels).getD [])) taskKernels

omit [TextTables] in
theorem mem_phaseKernelsOf {pipeline : PipelineDefinition} {phases taskKernels : List String}
    {kernel : String} : kernel ∈ phaseKernelsOf pipeline phases taskKernels ↔
      (∃ phase ∈ phases, phase ≠ "P2_TASK_ROUTING"
        ∧ kernel ∈ ((pipeline.phaseById phase).map PipelinePhase.primaryKernels).getD [])
      ∨ kernel ∈ taskKernels := by
  unfold phaseKernelsOf
  rw [mem_insertTaskKernels, mem_firstSeen, List.mem_flatMap]
  refine or_congr_left (exists_congr fun phase => and_congr_right fun _ => ?_)
  by_cases hrouting : phase = "P2_TASK_ROUTING"
  · rw [if_pos hrouting]
    simp [hrouting]
  · rw [if_neg hrouting]
    exact (and_iff_right hrouting).symm

omit [TextTables] in
/-- More phases bring at least the same kernels. -/
theorem phaseKernelsOf_mono {pipeline : PipelineDefinition} {phases others taskKernels : List String}
    (h : ∀ phase ∈ phases, phase ∈ others) {kernel : String}
    (hkernel : kernel ∈ phaseKernelsOf pipeline phases taskKernels) :
    kernel ∈ phaseKernelsOf pipeline others taskKernels := by
  rw [mem_phaseKernelsOf] at hkernel ⊢
  refine hkernel.imp_left ?_
  rintro ⟨phase, hphase, hin⟩
  exact ⟨phase, h phase hphase, hin⟩

/-- What a plan's phases and kernels are made of. Only the terminal phase
and its contract are ever taken out again, and not where it was asked
for. -/
structure Activates (intent : IntentContract) (rules : RoutingRules)
    (pipeline : PipelineDefinition) (discovery : DiscoveryContext) (includeTerminal : Bool)
    (route : Route) (wanted : List String) (plan : ActivationPlan) : Prop where
  routed : ∃ name confidence, matchRoute intent.mission rules = .ok (name, route, confidence)
  asked : materialityPhases rules (assessMateriality intent rules discovery)
    (requestedPhases intent.mission route includeTerminal) = .ok wanted
  kept : ∀ phase ∈ canonicalPhases pipeline wanted, phase ≠ terminalPhase →
    phase ∈ plan.phaseSequence
  canonical : ∀ phase ∈ plan.phaseSequence, phase ∈ canonicalPhases pipeline wanted
  kernels : ∀ kernel ∈ plan.activeKernels,
    kernel ∈ phaseKernelsOf pipeline (canonicalPhases pipeline wanted) route.taskKernels
  whole : includeTerminal = true → plan.phaseSequence = canonicalPhases pipeline wanted
    ∧ plan.activeKernels
      = phaseKernelsOf pipeline (canonicalPhases pipeline wanted) route.taskKernels

theorem planActivation_ok {intent : IntentContract} {rules : RoutingRules}
    {pipeline : PipelineDefinition} {discovery : DiscoveryContext} {includeTerminal : Bool}
    {plan : ActivationPlan}
    (h : planActivation intent rules pipeline discovery includeTerminal = .ok plan) :
    ∃ route wanted, Activates intent rules pipeline discovery includeTerminal route wanted plan := by
  simp only [planActivation, bind_eq_ok] at h
  obtain ⟨⟨name, route, confidence⟩, hroute, wanted, hwanted, hplan⟩ := h
  obtain rfl := Except.ok.inj hplan
  refine ⟨route, wanted, ⟨⟨name, confidence, hroute⟩, hwanted, fun phase hphase hne => ?_,
    fun phase hphase => ?_, fun kernel hkernel => ?_, fun hterminal => ?_⟩⟩
  · dsimp only
    split
    · exact (List.mem_erase_of_ne hne).mpr hphase
    · exact hphase
  · dsimp only at hphase
    split at hphase
    · exact List.mem_of_mem_erase hphase
    · exact hphase
  · dsimp only at hkernel
    split at hkernel
    · exact (List.mem_filter.mp hkernel).1
    · exact hkernel
  · subst hterminal
    simp only [Bool.or_true, Bool.not_true, Bool.and_false, Bool.false_eq_true, if_false]
    exact ⟨rfl, rfl⟩

/-! ## Asking for the terminal phase -/

section Terminal

variable {intent : IntentContract} {rules : RoutingRules} {pipeline : PipelineDefinition}
  {discovery : DiscoveryContext} {plan terminal : ActivationPlan}

/-- The optional phases that a mission adds where the terminal phase is
not asked for. -/
def addedPhases (mission : String) (route : Route) (pipeline : PipelineDefinition) : List String :=
  route.optionalPhases.filter fun phase => decide (phase ∈ improvementPhases)
    && mentionsAny mission improvementTokens
    && decide (phase ∈ pipeline.phaseOrder.map PipelinePhase.id)

/-- The terminal plan runs the phase too: the route or the materiality
asks for it. -/
def AskedAnyway (rules : RoutingRules) (materiality : ArchitectureMateriality) (route : Route)
    (phase : String) : Prop :=
  phase ∈ route.phases ∨ (materiality.required = true ∧ rules.addsPhase = some phase)

omit [TextTables] in
theorem improvement_ne_terminal {phase : String} (h : phase ∈ improvementPhases) :
    phase ≠ terminalPhase := by
  rintro rfl
  exact absurd h (by decide)

omit [TextTables] in
theorem mem_canonicalPhases {wanted : List String} {phase : String} :
    phase ∈ canonicalPhases pipeline wanted ↔
      phase ∈ pipeline.phaseOrder.map PipelinePhase.id ∧ phase ∈ wanted := by
  simp [canonicalPhases]

/-- Both plans follow one route. -/
theorem Activates.route_eq {route route' : Route} {wanted wanted' : List String}
    {b b' : Bool} (h : Activates intent rules pipeline discovery b route wanted plan)
    (h' : Activates intent rules pipeline discovery b' route' wanted' terminal) :
    route = route' := by
  obtain ⟨name, confidence, hroute⟩ := h.routed
  obtain ⟨name', confidence', hroute'⟩ := h'.routed
  rw [hroute] at hroute'
  exact congrArg (fun found => found.2.1) (Except.ok.inj hroute')

/-- A plan without the terminal phase exists only beside one with it. -/
theorem planActivation_terminal
    (h : planActivation intent rules pipeline discovery false = .ok plan) :
    ∃ terminal, planActivation intent rules pipeline discovery true = .ok terminal := by
  simp only [planActivation, bind_eq_ok] at h ⊢
  obtain ⟨⟨name, route, confidence⟩, hroute, wanted, hwanted, -⟩ := h
  obtain ⟨wanted', hwanted'⟩ :=
    materialityPhases_ok hwanted (requestedPhases intent.mission route true)
  exact ⟨_, _, hroute, _, hwanted', rfl⟩

/-- The terminal plan keeps the phases and the kernels of the other plan
exactly where it asks for every optional phase that the mission adds. -/
theorem keeps_gates_iff {route : Route} {wanted wanted' : List String}
    (h : Activates intent rules pipeline discovery false route wanted plan)
    (h' : Activates intent rules pipeline discovery true route wanted' terminal) :
    ((∀ phase ∈ plan.phaseSequence, phase ∈ terminal.phaseSequence)
        ∧ ∀ kernel ∈ plan.activeKernels, kernel ∈ terminal.activeKernels)
      ↔ ∀ phase ∈ addedPhases intent.mission route pipeline,
        AskedAnyway rules (assessMateriality intent rules discovery) route phase := by
  obtain ⟨hphases, hkernels⟩ := h'.whole rfl
  constructor
  · rintro ⟨hkept, -⟩ phase hphase
    simp only [addedPhases, List.mem_filter, Bool.and_eq_true, decide_eq_true_eq] at hphase
    obtain ⟨hoptional, ⟨himprovement, hmission⟩, hknown⟩ := hphase
    have hne := improvement_ne_terminal himprovement
    -- the phase is in the first plan, and so in the terminal one
    have hwanted : phase ∈ wanted := (mem_materialityPhases h.asked).mpr
      (.inl (mem_requestedPhases.mpr (.inr (.inr ⟨rfl, hoptional, himprovement, hmission⟩))))
    have hin := hkept phase (h.kept phase (mem_canonicalPhases.mpr ⟨hknown, hwanted⟩) hne)
    rw [hphases] at hin
    rcases (mem_materialityPhases h'.asked).mp (mem_canonicalPhases.mp hin).2 with hasked | hadded
    · rcases mem_requestedPhases.mp hasked with hroute | ⟨-, hterminal⟩ | ⟨hflag, -⟩
      · exact .inl hroute
      · exact absurd hterminal hne
      · cases hflag
    · exact .inr hadded
  · intro hasked
    have hsub : ∀ phase ∈ canonicalPhases pipeline wanted,
        phase ∈ canonicalPhases pipeline wanted' := by
      intro phase hphase
      obtain ⟨hknown, hwanted⟩ := mem_canonicalPhases.mp hphase
      refine mem_canonicalPhases.mpr ⟨hknown, (mem_materialityPhases h'.asked).mpr ?_⟩
      rcases (mem_materialityPhases h.asked).mp hwanted with hrequested | hadded
      · rcases mem_requestedPhases.mp hrequested with hroute | ⟨hflag, -⟩
          | ⟨-, hoptional, himprovement, hmission⟩
        · exact .inl (mem_requestedPhases.mpr (.inl hroute))
        · cases hflag
        · have hmem : phase ∈ addedPhases intent.mission route pipeline := by
            simp only [addedPhases, List.mem_filter, Bool.and_eq_true, decide_eq_true_eq]
            exact ⟨hoptional, ⟨himprovement, hmission⟩, hknown⟩
          exact (hasked phase hmem).imp_left fun hroute => mem_requestedPhases.mpr (.inl hroute)
      · exact .inr hadded
    refine ⟨fun phase hphase => ?_, fun kernel hkernel => ?_⟩
    · rw [hphases]
      exact hsub phase (h.canonical phase hphase)
    · rw [hkernels]
      exact phaseKernelsOf_mono hsub (h.kernels kernel hkernel)

end Terminal

/-- Where a plan is made without the terminal phase one is made with it,
and it drops no phase and no kernel exactly where the route or the
materiality asks for every optional phase that the mission adds. -/
theorem terminal_keeps_gates_iff (intent : IntentContract) (rules : RoutingRules)
    (pipeline : PipelineDefinition) (discovery : DiscoveryContext) (plan : ActivationPlan)
    (hplan : planActivation intent rules pipeline discovery false = .ok plan) :
    ∃ terminal name route confidence,
      planActivation intent rules pipeline discovery true = .ok terminal
      ∧ matchRoute intent.mission rules = .ok (name, route, confidence)
      ∧ (((∀ phase ∈ plan.phaseSequence, phase ∈ terminal.phaseSequence)
            ∧ ∀ kernel ∈ plan.activeKernels, kernel ∈ terminal.activeKernels)
          ↔ ∀ phase ∈ addedPhases intent.mission route pipeline,
            AskedAnyway rules (assessMateriality intent rules discovery) route phase) := by
  obtain ⟨terminal, hterminal⟩ := planActivation_terminal hplan
  obtain ⟨route, wanted, h⟩ := planActivation_ok hplan
  obtain ⟨route', wanted', h'⟩ := planActivation_ok hterminal
  obtain rfl := h.route_eq h'
  obtain ⟨name, confidence, hroute⟩ := h.routed
  exact ⟨terminal, name, route, confidence, hterminal, hroute, keeps_gates_iff h h'⟩

end Routing

section Listing

attribute [local instance] TextTables.ascii

/-- The shipped rules with their routes listed the other way round. -/
def reversedRules : RoutingRules := { shippedRules with taskRoutes := shippedRoutes.reverse }

/-- A greeting names no token of any route, and the reversed listing sends
it to the route listed first. -/
theorem greeting_misrouted : ∃ default,
    reversedRules.taskRoutes.lookup "pack_review" = some default
      ∧ ∀ name route confidence,
        matchRoute "say hello" reversedRules = .ok (name, route, confidence) →
          ¬StableArgmax "say hello" reversedRules default name route confidence := by
  have hnone : ∀ entry ∈ reversedRules.taskRoutes,
      entryScore (TextTables.lower "say hello") entry = 0 := by
    decide +kernel
  obtain ⟨default, hdefault⟩ : ∃ default,
      reversedRules.taskRoutes.lookup "pack_review" = some default := ⟨_, rfl⟩
  refine ⟨default, hdefault, fun name route confidence hmatch h => ?_⟩
  obtain ⟨found, hfound, hbest⟩ := matchRoute_ok "say hello" hdefault
  have hhead := head_of_unscored hbest hnone
  rw [hfound] at hmatch
  have hname : found.1 = name := congrArg Prod.fst (Except.ok.inj hmatch)
  have hfirst : found.1 = "feature_development" :=
    congrArg Prod.fst (Option.some.inj hhead).symm
  rw [(h.defaulted hnone).1, hfirst] at hname
  exact absurd hname (by decide)

/-- In the listing as shipped the greeting is reviewed by default. -/
theorem greeting_reviewed : ∃ default,
    shippedRules.taskRoutes.lookup "pack_review" = some default
      ∧ ∃ name route confidence,
        matchRoute "say hello" shippedRules = .ok (name, route, confidence)
          ∧ StableArgmax "say hello" shippedRules default name route confidence := by
  obtain ⟨name, route, confidence, hmatch, hiff⟩ :=
    match_route_argmax_iff "say hello" shippedRules _ rfl
  exact ⟨_, rfl, name, route, confidence, hmatch, hiff.mpr (.inr rfl)⟩

/-- An analysis of the shipped pack under some mission. -/
def archiveIntent (mission : String) : IntentContract :=
  { intentId := "intent.runtime_convergence.v1"
    mission := mission
    taskType := "runtime_intent"
    constraints := []
    desiredOutputs := []
    sourceContext := []
    unknowns := []
    objective :=
      { requested := true, realizationMode := .analysis, acceptanceConditions := []
        validationRequired := false, deliveryRequired := false, deliveryMode := .none }
    accountabilityRequired := false
    obligations := [] }

/-- A discovery that found nothing. -/
def quietDiscovery : DiscoveryContext :=
  { taskScopeDigest := "scope", routingFactRefs := [], architectureSignalRefs := []
    unresolvedUnknowns := [], selectedItemDigests := [] }

/-- Under rules that say which phase materiality adds, every mission with
a route is planned. -/
theorem planActivation_returns {mission name confidence phase : String} {route : Route}
    {rules : RoutingRules} (hadds : rules.addsPhase = some phase)
    (hroute : matchRoute mission rules = .ok (name, route, confidence))
    (includeTerminal : Bool) : ∃ plan wanted,
      planActivation (archiveIntent mission) rules shippedPipeline quietDiscovery
        includeTerminal = .ok plan
      ∧ Activates (archiveIntent mission) rules shippedPipeline quietDiscovery
        includeTerminal route wanted plan := by
  have hwanted : ∃ wanted, materialityPhases rules
      (assessMateriality (archiveIntent mission) rules quietDiscovery)
      (requestedPhases mission route includeTerminal) = .ok wanted := by
    unfold materialityPhases
    rw [hadds]
    split <;> exact ⟨_, rfl⟩
  obtain ⟨wanted, hwanted⟩ := hwanted
  obtain ⟨plan, hplan⟩ : ∃ plan, planActivation (archiveIntent mission) rules
      shippedPipeline quietDiscovery includeTerminal = .ok plan := by
    simp only [planActivation, bind_eq_ok]
    exact ⟨_, _, hroute, wanted, hwanted, rfl⟩
  obtain ⟨route', wanted', h⟩ := planActivation_ok hplan
  obtain ⟨name', confidence', hroute'⟩ := h.routed
  obtain rfl : route = route' :=
    congrArg (fun found => found.2.1) (Except.ok.inj (hroute.symm.trans hroute'))
  exact ⟨plan, wanted', hplan, h⟩

/-- The mission asks for improvement, so the plan runs the alignment gate;
with the terminal phase the gate is gone. -/
theorem terminal_drops_alignment : ∃ plan terminal,
    planActivation (archiveIntent "inspect and improve the archive") shippedRules shippedPipeline
        quietDiscovery false = .ok plan
      ∧ planActivation (archiveIntent "inspect and improve the archive") shippedRules
        shippedPipeline quietDiscovery true = .ok terminal
      ∧ "P4_ALIGNMENT_AND_STUB_GATE" ∈ plan.phaseSequence
      ∧ "P4_ALIGNMENT_AND_STUB_GATE" ∉ terminal.phaseSequence := by
  have himproves : mentionsAny "inspect and improve the archive" improvementTokens = true := by
    decide +kernel
  obtain ⟨route, confidence, hroute, hoptional, hrequired⟩ : ∃ route confidence,
      matchRoute "inspect and improve the archive" shippedRules
        = .ok ("pack_review", route, confidence)
      ∧ "P4_ALIGNMENT_AND_STUB_GATE" ∈ route.optionalPhases
      ∧ "P4_ALIGNMENT_AND_STUB_GATE" ∉ route.phases := ⟨_, _, rfl, by decide, by decide⟩
  obtain ⟨plan, wanted, hplan, h⟩ := planActivation_returns rfl hroute false
  obtain ⟨terminal, wanted', hterminal, h'⟩ := planActivation_returns rfl hroute true
  refine ⟨plan, terminal, hplan, hterminal, ?_, fun hin => ?_⟩
  · refine h.kept _ (mem_canonicalPhases.mpr ⟨by decide, ?_⟩) (by decide)
    exact (mem_materialityPhases h.asked).mpr (.inl (mem_requestedPhases.mpr
      (.inr (.inr ⟨rfl, hoptional, by decide, himproves⟩))))
  · rcases (mem_materialityPhases h'.asked).mp (mem_canonicalPhases.mp (h'.canonical _ hin)).2 with
      hasked | ⟨-, hadded⟩
    · rcases mem_requestedPhases.mp hasked with hphase | ⟨-, hphase⟩ | ⟨hflag, -⟩
      · exact hrequired hphase
      · exact absurd hphase (by decide)
      · cases hflag
    · exact absurd (Option.some.inj hadded) (by decide)

/-- The phases of a route listed as optional too. -/
def Route.doubled (route : Route) : Route :=
  { route with optionalPhases := route.phases ++ route.optionalPhases }

def doubledRules : RoutingRules :=
  { shippedRules with taskRoutes := shippedRoutes.map fun entry => (entry.1, entry.2.doubled) }

def cleanupRoute : Route :=
  ((shippedRoutes.lookup "cleanup_streamline").getD
    { matchAny := [], phases := [], optionalPhases := [], taskKernels := [] }).doubled

theorem cleaning_routed : matchRoute "clean the overlap" doubledRules
    = .ok ("cleanup_streamline", cleanupRoute, "high") := by
  rfl

/-- A mission that adds the gate keeps it where the route asks for it
anyway. -/
theorem terminal_keeps_alignment : ∃ plan terminal,
    planActivation (archiveIntent "clean the overlap") doubledRules shippedPipeline
        quietDiscovery false = .ok plan
      ∧ planActivation (archiveIntent "clean the overlap") doubledRules shippedPipeline
        quietDiscovery true = .ok terminal
      ∧ "P4_ALIGNMENT_AND_STUB_GATE" ∈ addedPhases "clean the overlap" cleanupRoute shippedPipeline
      ∧ (∀ phase ∈ plan.phaseSequence, phase ∈ terminal.phaseSequence)
      ∧ ∀ kernel ∈ plan.activeKernels, kernel ∈ terminal.activeKernels := by
  have himproves : mentionsAny "clean the overlap" improvementTokens = true := by decide +kernel
  obtain ⟨plan, wanted, hplan, -⟩ := planActivation_returns rfl cleaning_routed false
  obtain ⟨terminal, name, route, confidence, hterminal, hroute, hiff⟩ :=
    terminal_keeps_gates_iff (archiveIntent "clean the overlap") doubledRules shippedPipeline
      quietDiscovery plan hplan
  have hsame := Except.ok.inj (hroute.symm.trans cleaning_routed)
  obtain rfl : route = cleanupRoute := congrArg (fun found => found.2.1) hsame
  obtain ⟨hphases, hkernels⟩ := hiff.mpr fun phase hphase => by
    obtain ⟨hadded, hmission⟩ := List.mem_filter.mp hphase
    rw [Bool.and_eq_true, Bool.and_eq_true, decide_eq_true_eq] at hmission
    rcases List.mem_append.mp hadded with hlisted | hlast
    · exact .inl hlisted
    · exact absurd (List.mem_singleton.mp hlast) (improvement_ne_terminal hmission.1.1)
  refine ⟨plan, terminal, hplan, hterminal, List.mem_filter.mpr ⟨by decide, ?_⟩, hphases, hkernels⟩
  rw [himproves]
  decide

end Listing

end CognitiveRuntime
