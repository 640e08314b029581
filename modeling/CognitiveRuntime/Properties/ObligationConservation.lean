import CognitiveRuntime.Properties.EmptySnapshot

/-!
# Conservation of obligations

The conservation gates compare neighbouring contracts by inclusion.
Equality comes from the stages themselves: the deriver emits pending
obligations only, every contract carries the list unchanged, an
obligation kind maps to one phase, and a graph has one node per phase.
-/

namespace CognitiveRuntime

open Ordered Fallible

/-! ## What each stage carries -/

theorem compileExecution_ok [Sha256] {intent : IntentContract} {plan : ActivationPlan}
    {kernels : List KernelBinding} {pipeline : PipelineDefinition}
    {obligations : List Obligation} {context : CompiledTaskContext} {digest : String}
    {execution : ExecutionContract}
    (h : compileExecution intent plan kernels pipeline obligations context digest
      = .ok execution) :
    execution.obligations = obligations
      ∧ ∃ (inputs : StepInputs) (terminalTarget : String),
        inputs.obligations = obligations
          ∧ inputs.phaseOf = kindPhase plan.phaseSequence terminalTarget
          ∧ execution.executionSteps = inputs.steps plan.phaseSequence [] := by
  simp only [compileExecution, bind_eq_ok] at h
  obtain ⟨_, -, doctrine, -, pipelineId, -, sequence, -, terminalTarget, -, h⟩ := h
  cases h
  exact ⟨rfl, _, terminalTarget, rfl, rfl, rfl⟩

/-- Each phase of the sequence has one step, which carries the
obligations of its phase. -/
theorem mem_steps {inputs : StepInputs} :
    ∀ {phases previous : List String} {step : ExecutionStep},
      step ∈ inputs.steps phases previous → ∃ phase ∈ phases,
        step.stepId = "step." ++ phase ∧ step.phase = phase
          ∧ step.obligationRefs = inputs.obligationIds phase
  | [], _, _, h => absurd h List.not_mem_nil
  | phase :: rest, previous, step, h => by
      rw [StepInputs.steps] at h
      rcases List.mem_cons.mp h with rfl | h
      · exact ⟨phase, List.mem_cons_self .., rfl, rfl, rfl⟩
      · obtain ⟨phase', hphase', hstep⟩ := mem_steps h
        exact ⟨phase', List.mem_cons_of_mem _ hphase', hstep⟩

theorem compileContracts_ok [Sha256] {prepared : PreparedContextPlan} {taskContext : CompiledTaskContext}
    {report : ContextClosureReport} {a : CompiledArtifacts}
    (h : compileContracts prepared taskContext report = .ok a) :
    SameObligations a
        (deriveObligations prepared.intent prepared.activation prepared.kernels taskContext)
      ∧ (a.execution.obligations.map Obligation.obligationId).Nodup
      ∧ a.taskContext = taskContext
      ∧ compileExecution a.intent prepared.activation prepared.kernels prepared.pipeline
          a.execution.obligations taskContext a.contextDigest = .ok a.execution
      ∧ deriveExecutionGraph a.execution = .ok a.graph := by
  simp only [compileContracts, bind_eq_ok, conserve] at h
  obtain ⟨_, -, execution, hexecution, -, ⟨_, hindex, -⟩, _, -, _, -, graph, hgraph, _, hrefs,
    h⟩ := h
  cases h
  have hobligations := (compileExecution_ok hexecution).1
  refine ⟨⟨rfl, hobligations, hobligations, ?_⟩, ?_, rfl, ?_, hgraph⟩
  · rw [ensure_eq_ok, decide_eq_true_eq] at hrefs
    exact hrefs.trans (by rw [hobligations])
  · show (execution.obligations.map Obligation.obligationId).Nodup
    rw [hobligations]
    exact (indexObligations_ok hindex).1
  · show compileExecution _ _ _ _ execution.obligations taskContext taskContext.sha256 = _
    rw [hobligations]
    exact hexecution

/-- What packet validation says about the packet's obligation ids. -/
theorem validatePacket_properties [Sha256] {packet : ExecutionPacket}
    (h : validatePacket packet = .ok ()) (id : String) :
    id ∈ packet.validationProperties.map ValidationProperty.obligationRef
      ↔ id ∈ packet.requiredObligations.map Obligation.obligationId := by
  simp only [validatePacket, bind_eq_ok, ensure_eq_ok, decide_eq_true_eq,
    sortedUnique_eq_nil, List.filter_eq_nil_iff, decide_not, Bool.not_eq_true',
    decide_eq_false_iff_not, not_not] at h
  obtain ⟨_, -, _, -, _, -, _, hforeign, _, hunvalidated, -⟩ := h
  exact ⟨hforeign id, hunvalidated id⟩

/-! ## Exactly one node -/

theorem mem_obligationIds {inputs : StepInputs} {phase id : String} :
    id ∈ inputs.obligationIds phase ↔
      ∃ o ∈ inputs.obligations, inputs.phaseOf o.kind = phase ∧ o.obligationId = id := by
  unfold StepInputs.obligationIds
  simp only [List.mem_map, List.mem_filter, decide_eq_true_eq, and_assoc]

theorem eq_of_nodup_ids {obligations : List Obligation}
    (hnodup : (obligations.map Obligation.obligationId).Nodup) {o o' : Obligation}
    (ho : o ∈ obligations) (ho' : o' ∈ obligations)
    (hid : o.obligationId = o'.obligationId) : o = o' :=
  List.inj_on_of_nodup_map hnodup ho ho' hid

/-- Two nodes that carry one obligation are nodes of one phase. -/
theorem node_unique {inputs : StepInputs} {phases : List String}
    (hnodup : (inputs.obligations.map Obligation.obligationId).Nodup)
    {n n' : ExecutionGraphNode} (hn : n ∈ (inputs.steps phases []).map graphNode)
    (hn' : n' ∈ (inputs.steps phases []).map graphNode) {id : String}
    (hid : id ∈ n.obligationRefs) (hid' : id ∈ n'.obligationRefs) : n.id = n'.id := by
  obtain ⟨step, hstep, rfl⟩ := List.mem_map.mp hn
  obtain ⟨step', hstep', rfl⟩ := List.mem_map.mp hn'
  obtain ⟨phase, -, hstepId, -, hrefs⟩ := mem_steps hstep
  obtain ⟨phase', -, hstepId', -, hrefs'⟩ := mem_steps hstep'
  have hmem : id ∈ inputs.obligationIds phase := hrefs ▸ hid
  have hmem' : id ∈ inputs.obligationIds phase' := hrefs' ▸ hid'
  obtain ⟨o, ho, hphase, rfl⟩ := mem_obligationIds.mp hmem
  obtain ⟨o', ho', hphase', hsame⟩ := mem_obligationIds.mp hmem'
  -- ids are unique, so it is one obligation and it has one kind
  obtain rfl := eq_of_nodup_ids hnodup ho' ho hsame
  show step.stepId = step'.stepId
  rw [hstepId, hstepId', ← hphase, ← hphase']

/-- A list in which a key is not repeated has at most one element of each
kind that determines the key. -/
theorem filter_length_eq_one {α κ : Type} {key : α → κ} {p : α → Bool} :
    ∀ {l : List α}, (l.map key).Nodup →
      (∀ a ∈ l, ∀ b ∈ l, p a = true → p b = true → key a = key b) →
      (∃ a ∈ l, p a = true) → (l.filter p).length = 1
  | a :: l, hnodup, hkey, ⟨b, hb, hpb⟩ => by
      obtain ⟨hfresh, hnodup⟩ := List.nodup_cons.mp hnodup
      cases hpa : p a with
      | true =>
          have hnone : l.filter p = [] := by
            rw [List.filter_eq_nil_iff]
            intro c hc hpc
            apply hfresh
            rw [hkey a (List.mem_cons_self ..) c (List.mem_cons_of_mem _ hc) hpa hpc]
            exact List.mem_map_of_mem hc
          rw [List.filter_cons_of_pos hpa, hnone, List.length_singleton]
      | false =>
          have hbl : b ∈ l := by
            rcases List.mem_cons.mp hb with rfl | hb
            · rw [hpa] at hpb
              cases hpb
            · exact hb
          rw [List.filter_cons_of_neg (by simp [hpa])]
          exact filter_length_eq_one hnodup
            (fun c hc d hd => hkey c (List.mem_cons_of_mem _ hc) d (List.mem_cons_of_mem _ hd))
            ⟨b, hbl, hpb⟩

/-- Liveness check 7: every open required obligation has a node. -/
theorem liveness_realization [Sha256] {a : CompiledArtifacts} {packet : ExecutionPacket}
    {payload : List (String × Json)} (h : validateLiveness a packet payload = .ok ()) :
    ∀ id ∈ requiredPendingIds a.execution.obligations,
      id ∈ a.graph.nodes.flatMap ExecutionGraphNode.obligationRefs := by
  have hall := validateLiveness_ok.mp h
  have hcheck := hall (nothingMissing "every_required_execution_obligation_has_realization_path"
    "missing" (a.graph.nodes.flatMap ExecutionGraphNode.obligationRefs)
    ((openRequired a.execution.obligations).map Obligation.obligationId))
    (by simp [allLivenessChecks, realizationChecks])
  rw [nothingMissing_holds, openRequired_ids] at hcheck
  exact hcheck

/-- Every open required obligation is carried by one node and no other. -/
theorem realized_once [Sha256] {prepared : PreparedContextPlan} {taskContext : CompiledTaskContext}
    {report : ContextClosureReport} {a : CompiledArtifacts} {packet : ExecutionPacket}
    {payload : List (String × Json)}
    (hcontracts : compileContracts prepared taskContext report = .ok a)
    (hlive : validateLiveness a packet payload = .ok ()) {id : String}
    (hid : id ∈ requiredPendingIds a.execution.obligations) :
    (a.graph.nodes.filter fun n => id ∈ n.obligationRefs).length = 1 := by
  obtain ⟨-, hnodup, -, hexecution, hgraph⟩ := compileContracts_ok hcontracts
  obtain ⟨hobligations, inputs, terminalTarget, hinputs, -, hsteps⟩ :=
    compileExecution_ok hexecution
  obtain ⟨hnodes, hstepIds⟩ := deriveExecutionGraph_ok hgraph
  have hkeys : (a.graph.nodes.map ExecutionGraphNode.id).Nodup := by
    rw [hnodes, List.map_map]
    exact hstepIds
  have hsome := liveness_realization hlive id hid
  refine filter_length_eq_one hkeys ?_ ?_
  · intro n hn n' hn' hmem hmem'
    rw [hnodes, hsteps] at hn hn'
    rw [← hinputs] at hnodup
    exact node_unique hnodup hn hn' (of_decide_eq_true hmem) (of_decide_eq_true hmem')
  · obtain ⟨n, hn, hmem⟩ := List.mem_flatMap.mp hsome
    exact ⟨n, hn, decide_eq_true hmem⟩

/-! ## End to end -/

/-- The obligations of a bundle, conserved through every artifact. -/
structure Conserved (bundle : RuntimeBundle) : Prop where
  ids_nodup : (bundle.intent.obligations.map Obligation.obligationId).Nodup
    ∧ (bundle.execution.obligations.map Obligation.obligationId).Nodup
    ∧ (bundle.handoff.obligations.map Obligation.obligationId).Nodup
    ∧ (bundle.packet.requiredObligations.map Obligation.obligationId).Nodup
  same_intent : requiredPendingIds bundle.intent.obligations
    = requiredPendingIds bundle.execution.obligations
  same_handoff : requiredPendingIds bundle.handoff.obligations
    = requiredPendingIds bundle.execution.obligations
  same_graph : bundle.graph.obligationRefs = requiredPendingIds bundle.execution.obligations
  same_packet : bundle.packet.requiredObligations.map Obligation.obligationId
    = requiredPendingIds bundle.execution.obligations
  same_properties : SameMembers
    (bundle.validation.validationProperties.map ValidationProperty.obligationRef)
    (requiredPendingIds bundle.execution.obligations)
  realized_once : ∀ id ∈ requiredPendingIds bundle.execution.obligations,
    (bundle.graph.nodes.filter fun n => id ∈ n.obligationRefs).length = 1
  blocking_unknowns : ∀ u ∈ bundle.taskContext.unresolvedUnknowns, u.materiality = .blocking →
    contextObligationId u.unknownId ∈ requiredPendingIds bundle.execution.obligations

theorem contextObligation_required {intent : IntentContract} {plan : ActivationPlan}
    {kernels : List KernelBinding} {context : CompiledTaskContext} {u : ContextUnknown}
    (hu : u ∈ context.unresolvedUnknowns) (hblock : u.materiality = .blocking) :
    contextObligationId u.unknownId
      ∈ requiredPendingIds (deriveObligations intent plan kernels context) :=
  mem_requiredPendingIds.mpr ⟨_, contextObligation_mem hu hblock, rfl, rfl⟩

/-- A blocking unknown of a finished compile is an open required
obligation of its bundle. -/
theorem blocking_unknown_required [Sha256] {prepared : PreparedContextPlan}
    {root : RootCompilation} (h : CompiledFrom prepared root) {u : ContextUnknown}
    (hu : u ∈ root.bundle.taskContext.unresolvedUnknowns) (hblock : u.materiality = .blocking) :
    contextObligationId u.unknownId ∈ requiredPendingIds root.bundle.execution.obligations := by
  obtain ⟨-, -, a, hcontracts, -, hexecution, -⟩ := h
  obtain ⟨hsame, -⟩ := compileContracts_ok hcontracts
  rw [hexecution, hsame.execution]
  exact contextObligation_required hu hblock

/-- Every compilation that returns conserves its obligations: unique ids,
the same open required set in every artifact, one graph node for each,
and an obligation for each blocking unknown. -/
theorem obligations_conserved [Sha256] [TextTables] (request : CompileRequest)
    (pack : RuntimePack) (snapshot : Option ContextSnapshot) (options : RunOptions)
    (expected : Option String) (root : RootCompilation)
    (h : compileRoot request pack snapshot options expected = .ok root) :
    Conserved root.bundle := by
  obtain ⟨prepared, -, hfrom⟩ := compileRoot_ok h
  have hblocking : ∀ u ∈ root.bundle.taskContext.unresolvedUnknowns, u.materiality = .blocking →
      contextObligationId u.unknownId
        ∈ requiredPendingIds root.bundle.execution.obligations :=
    fun u hu hblock => blocking_unknown_required hfrom hu hblock
  obtain ⟨hcontext, -, a, hcontracts, hintent, hexecution, hvalidation, hhandoff, hgraph,
    ⟨digests, hpacket⟩, hvalid, payload, hlive⟩ := hfrom
  obtain ⟨hsame, hnodup, -, -, -⟩ := compileContracts_ok hcontracts
  have hrequired : root.bundle.packet.requiredObligations = openRequired a.execution.obligations := by
    rw [hpacket]
    rfl
  have hproperties : root.bundle.packet.validationProperties
      = a.validation.validationProperties := by
    rw [hpacket]
    rfl
  refine ⟨⟨?_, ?_, ?_, ?_⟩, ?_, ?_, ?_, ?_, ?_, ?_, ?_⟩
  · rw [hintent, hsame.intent, ← hsame.execution]
    exact hnodup
  · rw [hexecution]
    exact hnodup
  · rw [hhandoff, hsame.handoff, ← hsame.execution]
    exact hnodup
  · rw [hrequired]
    exact hnodup.sublist (List.filter_sublist.map _)
  · rw [hintent, hexecution, hsame.intent, hsame.execution]
  · rw [hhandoff, hexecution, hsame.handoff, hsame.execution]
  · rw [hgraph, hexecution, hsame.graph, hsame.execution]
  · rw [hrequired, hexecution, openRequired_ids]
  · intro id
    have hpaths := validatePacket_properties hvalid id
    rw [hproperties, hrequired, openRequired_ids] at hpaths
    rw [hvalidation, hexecution]
    exact hpaths
  · intro id hid
    rw [hexecution] at hid
    rw [hgraph]
    exact realized_once hcontracts hlive hid
  · exact hblocking

section Audit

attribute [local instance] Sha256.transparent TextTables.ascii

/-- The audit compiles, and its obligations are conserved. -/
theorem audit_obligations_conserved :
    ∃ root, compileRoot auditRequest auditPack none .standard none = .ok root
      ∧ Conserved root.bundle := by
  obtain ⟨root, hroot⟩ := audit_compiles Sha256.transparent_injective
  exact ⟨root, hroot, obligations_conserved auditRequest auditPack none .standard none root hroot⟩

end Audit

end CognitiveRuntime
