import CognitiveRuntime.Data.JsonPrefix
import CognitiveRuntime.Properties.ChainOrder
import CognitiveRuntime.Properties.Closed
import CognitiveRuntime.Properties.ObligationConservation
import CognitiveRuntime.Properties.Unknowns

/-!
# The stages after activation accept what they are given

Every contract stage fails closed. What it asks for is decided when the
kernels are bound: the phases of the sequence have a step each, every
bound kernel belongs to one of them, and the owners the deriver names
are registered. Over such an activation no check of the contracts, the
graph, the packet or the liveness ladder can fail, whatever the intent
and whatever the compiled context leaves unknown.
-/

namespace CognitiveRuntime

open Ordered Fallible

/-! ## The activation they rely on -/

/-- The kernel is a primary kernel of the phase. -/
def placedIn (pipeline : PipelineDefinition) (sourceRef phaseId : String) : Bool :=
  (pipeline.phaseOrder.find? fun phase => phase.id = phaseId).any fun phase =>
    decide (sourceRef ∈ phase.primaryKernels)

/-- An activation with its bound kernels that the later stages can work
with. -/
structure Activated (plan : ActivationPlan) (kernels : List KernelBinding)
    (pipeline : PipelineDefinition) : Prop where
  unblocked : plan.blockers = []
  terminalContract : ∃ s, pipeline.terminalContract.filter (fun s => !isBlank s) = some s
  pipelineId : ∃ s, pipeline.pipelineId.filter (fun s => !isBlank s) = some s
  phases_nodup : plan.phaseSequence.Nodup
  stepped : ∀ id ∈ plan.phaseSequence, ∃ step, phaseStep id = some step
  unpack : "P0_UNPACK" ∈ plan.phaseSequence
  preflight : "P1_CONSTITUTIONAL_PREFLIGHT" ∈ plan.phaseSequence
  routing : "P2_TASK_ROUTING" ∈ plan.phaseSequence
  decision : plan.architectureMateriality.required = true →
    "P3_ARCHITECTURE_DECISION" ∈ plan.phaseSequence
  unfinished : terminalPhase ∉ plan.phaseSequence
  not_terminal : plan.terminalAllowed = false
  bound : ∀ item ∈ plan.activeKernels, item ∈ kernels.map KernelBinding.sourceRef
  placed : ∀ b ∈ kernels, ∃ id ∈ plan.phaseSequence, placedIn pipeline b.sourceRef id = true
  stamped : ∀ b ∈ kernels, b.sourceDigest ≠ ""
  consumed : ∀ b ∈ kernels, ∀ o ∈ b.outputs, o.required = true → o.consumerRefs ≠ []
  constitution : "runtime/kernels/constitutional/K01-platform-architecture-engine.yaml"
    ∈ kernels.map KernelBinding.sourceRef
  architect : plan.architectureMateriality.required = true → ∃ gar, kernels.find?
    (fun b => b.sourceRef.endsWith "global_architect_kernel.yaml") = some gar ∧ gar.outputs ≠ []

section Obligations

/-! ## Obligation ids -/

variable {intent : IntentContract} {plan : ActivationPlan} {kernels : List KernelBinding}

/-- The ids the objective and the activation give rise to. -/
def objectiveIds : List String :=
  ["OBL.AUTHORITY", "OBL.RUNTIME_INTEGRITY", "OBL.REALIZATION", "OBL.VALIDATION", "OBL.DELIVERY",
    "OBL.CONVERGENCE", "OBL.ARCHITECTURE", "OBL.EPISTEMIC.REALIZATION_RESOLUTION"]

theorem objectiveObligations_sublist :
    ((objectiveObligations intent plan kernels).map Obligation.obligationId).Sublist
      objectiveIds := by
  have hoption : ∀ (c : Prop) [Decidable c] (o : Obligation),
      ((if c then [o] else []).map Obligation.obligationId).Sublist [o.obligationId] := by
    intro c _ o
    split
    · exact .refl _
    · exact List.nil_sublist _
  have hids : objectiveIds = ["OBL.AUTHORITY", "OBL.RUNTIME_INTEGRITY", "OBL.REALIZATION"]
      ++ ["OBL.VALIDATION"] ++ ["OBL.DELIVERY"] ++ ["OBL.CONVERGENCE"] ++ ["OBL.ARCHITECTURE"]
      ++ ["OBL.EPISTEMIC.REALIZATION_RESOLUTION"] := rfl
  rw [hids]
  unfold objectiveObligations
  simp only [List.map_append]
  refine ((((List.Sublist.append ?_ (hoption _ _)).append (hoption _ _)).append
    (hoption _ _)).append (hoption _ _)).append (hoption _ _)
  exact .refl _

/-- The prefix of the notes remaining unknowns become. -/
def notePrefix : String := "OBL.EPISTEMIC.UNKNOWN."

theorem objectiveIds_apart : ∀ id ∈ objectiveIds, obligationUnknownId id = none
    ∧ notePrefix.toList.isPrefixOf id.toList = false := by
  decide

theorem obligationUnknownId_contextObligationId (unknownId : String) :
    obligationUnknownId (contextObligationId unknownId) = some unknownId := by
  have hlist : (contextObligationId unknownId).toList
      = contextObligationPrefix.toList ++ unknownId.toList := String.toList_append
  unfold obligationUnknownId
  rw [hlist, if_pos, List.drop_left, String.ofList_toList]
  exact List.isPrefixOf_iff_prefix.mpr (List.prefix_append _ _)

theorem unknownNote_toList (sourceRef : String) (entry : String × Nat) :
    (unknownNote sourceRef entry).obligationId.toList
      = notePrefix.toList ++ Nat.toDigits 10 entry.2 := by
  show (notePrefix ++ Nat.repr entry.2).toList = _
  rw [String.toList_append, Nat.toList_repr]

/-- A note's id names no context unknown. -/
theorem obligationUnknownId_note (sourceRef : String) (entry : String × Nat) :
    obligationUnknownId (unknownNote sourceRef entry).obligationId = none := by
  unfold obligationUnknownId
  rw [unknownNote_toList, if_neg]
  have hdiffer : contextObligationPrefix.toList.isPrefixOf
      (notePrefix.toList ++ Nat.toDigits 10 entry.2) = false := rfl
  rw [hdiffer]
  exact Bool.false_ne_true

/-- Notes are told apart by the places of their unknowns. -/
theorem unknownNote_index {sourceRef : String} {entry entry' : String × Nat}
    (h : (unknownNote sourceRef entry).obligationId
      = (unknownNote sourceRef entry').obligationId) : entry.2 = entry'.2 := by
  have hlists := congrArg String.toList h
  rw [unknownNote_toList, unknownNote_toList] at hlists
  exact Json.toDigits_inj (List.append_cancel_left hlists)

variable {context : CompiledTaskContext}

/-- An obligation of the deriver and where it comes from. -/
theorem mem_deriveObligations {o : Obligation}
    (h : o ∈ deriveObligations intent plan kernels context) :
    o ∈ objectiveObligations intent plan kernels
      ∨ (∃ u ∈ context.unresolvedUnknowns, u.materiality = .blocking
        ∧ o = contextObligation ("intent:" ++ intent.intentId) u)
      ∨ ∃ entry, o = unknownNote ("intent:" ++ intent.intentId) entry := by
  unfold deriveObligations at h
  rcases List.mem_append.mp h with h | h
  · rcases List.mem_append.mp h with h | h
    · exact .inl h
    · obtain ⟨u, hu, rfl⟩ := List.mem_map.mp h
      obtain ⟨hmem, hblocking⟩ := List.mem_filter.mp hu
      exact .inr (.inl ⟨u, hmem, of_decide_eq_true hblocking, rfl⟩)
  · obtain ⟨entry, -, rfl⟩ := List.mem_map.mp h
    exact .inr (.inr ⟨entry, rfl⟩)

/-- No obligation id is derived twice. -/
theorem nodup_deriveObligations
    (hunknowns : (context.unresolvedUnknowns.map ContextUnknown.unknownId).Nodup) :
    ((deriveObligations intent plan kernels context).map Obligation.obligationId).Nodup := by
  have hobjective : ((objectiveObligations intent plan kernels).map
      Obligation.obligationId).Nodup := by
    refine List.Nodup.sublist objectiveObligations_sublist ?_
    decide
  have hcontext : (((context.unresolvedUnknowns.filter fun u => u.materiality = .blocking).map
      (contextObligation ("intent:" ++ intent.intentId))).map Obligation.obligationId).Nodup := by
    have hblocking : ((context.unresolvedUnknowns.filter fun u =>
        u.materiality = .blocking).map ContextUnknown.unknownId).Nodup :=
      hunknowns.sublist (List.filter_sublist.map _)
    have hmap := hblocking.map fun a b (hab : contextObligationId a = contextObligationId b) => by
      have hread := congrArg obligationUnknownId hab
      simpa only [obligationUnknownId_contextObligationId, Option.some.injEq] using hread
    rw [List.map_map] at hmap ⊢
    exact hmap
  have hnotes : (((intent.unknowns.zipIdx.filter fun entry =>
      entry.1 ≠ "realization_mode_UNKNOWN").map
      (unknownNote ("intent:" ++ intent.intentId))).map Obligation.obligationId).Nodup := by
    have hindex : ((intent.unknowns.zipIdx.filter fun entry =>
        entry.1 ≠ "realization_mode_UNKNOWN").map Prod.snd).Nodup := by
      refine List.Nodup.sublist (List.filter_sublist.map _) ?_
      rw [List.zipIdx_map_snd]
      exact List.nodup_range'
    rw [List.map_map]
    refine List.Nodup.map_on ?_ (List.Nodup.of_map _ hindex)
    intro a ha b hb hab
    exact List.inj_on_of_nodup_map hindex ha hb (unknownNote_index hab)
  have hmembers : ∀ id ∈ (objectiveObligations intent plan kernels).map
      Obligation.obligationId, id ∈ objectiveIds :=
    fun id hid => objectiveObligations_sublist.subset hid
  unfold deriveObligations
  rw [List.map_append, List.map_append, List.nodup_append, List.nodup_append]
  refine ⟨⟨hobjective, hcontext, ?_⟩, hnotes, ?_⟩
  · intro id hid id' hid' heq
    obtain ⟨o, ho, rfl⟩ := List.mem_map.mp hid'
    obtain ⟨u, -, rfl⟩ := List.mem_map.mp ho
    have hnone := (objectiveIds_apart id (hmembers id hid)).1
    rw [heq] at hnone
    exact absurd ((obligationUnknownId_contextObligationId u.unknownId).symm.trans hnone) nofun
  · intro id hid id' hid' heq
    obtain ⟨o, ho, rfl⟩ := List.mem_map.mp hid'
    obtain ⟨entry, -, rfl⟩ := List.mem_map.mp ho
    rcases List.mem_append.mp hid with hid | hid
    · have hfalse := (objectiveIds_apart id (hmembers id hid)).2
      rw [heq, unknownNote_toList,
        List.isPrefixOf_iff_prefix.mpr (List.prefix_append _ _)] at hfalse
      cases hfalse
    · obtain ⟨o, ho, rfl⟩ := List.mem_map.mp hid
      obtain ⟨u, -, rfl⟩ := List.mem_map.mp ho
      have hread := obligationUnknownId_note ("intent:" ++ intent.intentId) entry
      rw [← heq] at hread
      exact absurd ((obligationUnknownId_contextObligationId u.unknownId).symm.trans hread) nofun

/-! ## What one obligation satisfies -/

/-- What the checks ask of one obligation. -/
structure Obligation.Accountable (plan : ActivationPlan) (kernels : List KernelBinding)
    (o : Obligation) : Prop where
  owned : o.owner ∈ ownerRegistry plan kernels
  consumed : o.consumerRefs ≠ []
  material : o.kind = .architecture → plan.architectureMateriality.required = true
  architecture : o.obligationId = "OBL.ARCHITECTURE" →
    plan.architectureMateriality.required = true ∧ o.required = true

theorem owner_reserved {owner : String} (h : owner ∈ reservedOwners) :
    owner ∈ ownerRegistry plan kernels :=
  List.mem_append_left _ (List.mem_append_left _ (List.mem_append_left _ h))

theorem owner_phase {id : String} (h : id ∈ plan.phaseSequence) :
    "phase:" ++ id ∈ ownerRegistry plan kernels :=
  List.mem_append_left _ (List.mem_append_left _ (List.mem_append_right _
    (List.mem_map_of_mem h)))

theorem owner_kernel {ref : String} (h : ref ∈ kernels.map KernelBinding.sourceRef) :
    ref ∈ ownerRegistry plan kernels :=
  List.mem_append_left _ (List.mem_append_right _ h)

/-- An owner looked up among the kernels is one of them or the fallback. -/
theorem owner_found {p : KernelBinding → Bool} {fallback : String}
    (h : fallback ∈ ownerRegistry plan kernels) :
    ((kernels.find? p).map KernelBinding.sourceRef).getD fallback
      ∈ ownerRegistry plan kernels := by
  cases hfind : kernels.find? p with
  | none => exact h
  | some b => exact owner_kernel (List.mem_map_of_mem (List.mem_of_find?_eq_some hfind))

theorem forall_mem_optional {P : Obligation → Prop} {c : Prop} [Decidable c] {o : Obligation}
    (h : c → P o) : ∀ o' ∈ (if c then [o] else []), P o' := by
  intro o' ho'
  split at ho'
  · next hc =>
      rw [List.mem_singleton.mp ho']
      exact h hc
  · cases ho'

variable {pipeline : PipelineDefinition}

theorem objectiveObligations_accountable (h : Activated plan kernels pipeline) :
    ∀ o ∈ objectiveObligations intent plan kernels, o.Accountable plan kernels := by
  have hterminal : terminalKernel kernels ∈ ownerRegistry plan kernels :=
    owner_found (List.mem_append_right _ (List.mem_singleton_self _))
  have hplain : ∀ {id kind ref owner consumers evidence}, owner ∈ ownerRegistry plan kernels →
      consumers ≠ [] → kind ≠ .architecture → id ≠ "OBL.ARCHITECTURE" →
      (pendingObligation id kind ref true owner consumers evidence).Accountable plan kernels := by
    intro id kind ref owner consumers evidence howner hconsumers hkind hid
    exact ⟨howner, hconsumers, fun h => absurd h hkind, fun h => absurd h hid⟩
  unfold objectiveObligations
  simp only [List.forall_mem_append, List.forall_mem_cons]
  refine ⟨⟨⟨⟨⟨⟨?_, ?_, ?_, fun _ h => absurd h List.not_mem_nil⟩, ?_⟩, ?_⟩, ?_⟩, ?_⟩, ?_⟩
  · exact hplain (owner_kernel h.constitution) nofun nofun (by decide)
  · exact hplain (owner_reserved (by decide)) nofun nofun (by decide)
  · exact hplain (owner_found (owner_phase h.routing)) nofun nofun (by decide)
  · exact forall_mem_optional fun _ =>
      hplain (owner_reserved (by decide)) nofun nofun (by decide)
  · exact forall_mem_optional fun _ => hplain hterminal nofun nofun (by decide)
  · exact forall_mem_optional fun _ => hplain hterminal nofun nofun (by decide)
  · refine forall_mem_optional fun hrequired => ?_
    obtain ⟨gar, hgar, -⟩ := h.architect hrequired
    have howner : gar.sourceRef ∈ ownerRegistry plan kernels :=
      owner_kernel (List.mem_map_of_mem (List.mem_of_find?_eq_some hgar))
    rw [hgar]
    exact ⟨howner, nofun, fun _ => hrequired, fun _ => ⟨hrequired, rfl⟩⟩
  · exact forall_mem_optional fun _ =>
      hplain (owner_reserved (by decide)) nofun nofun (by decide)

/-- Every derived obligation is accountable. -/
theorem deriveObligations_accountable (h : Activated plan kernels pipeline) :
    ∀ o ∈ deriveObligations intent plan kernels context, o.Accountable plan kernels := by
  have hfixed : "OBL.ARCHITECTURE" ∈ objectiveIds := by decide
  have hcompiler : "context_compiler" ∈ reservedOwners := by decide
  have hderiver : "objective_deriver" ∈ reservedOwners := by decide
  obtain ⟨hunknown, hnote⟩ := objectiveIds_apart _ hfixed
  intro o ho
  rcases mem_deriveObligations ho with ho | ⟨u, -, -, rfl⟩ | ⟨entry, rfl⟩
  · exact objectiveObligations_accountable h o ho
  · refine ⟨owner_reserved hcompiler, nofun, nofun, fun hid => ?_⟩
    have hread := congrArg obligationUnknownId hid
    exact absurd ((obligationUnknownId_contextObligationId u.unknownId).symm.trans
      (hread.trans hunknown)) nofun
  · refine ⟨owner_reserved hderiver, nofun, nofun, fun hid => ?_⟩
    rw [← hid, unknownNote_toList,
      List.isPrefixOf_iff_prefix.mpr (List.prefix_append _ _)] at hnote
    cases hnote

/-- The phase of every accountable obligation is in the sequence. -/
theorem Activated.kindPhase_mem (h : Activated plan kernels pipeline) {target : String}
    (htarget : target ∈ plan.phaseSequence) {o : Obligation} (ho : o.Accountable plan kernels) :
    kindPhase plan.phaseSequence target o.kind ∈ plan.phaseSequence := by
  cases hkind : o.kind with
  | authority => exact h.preflight
  | realization => exact h.routing
  | architecture => exact h.decision (ho.material hkind)
  | epistemic => exact h.unpack
  | validation =>
      show (if _ then _ else _) ∈ _
      split
      · next hgate => exact hgate
      · exact h.routing
  | delivery => exact htarget
  | convergence => exact htarget

/-! ## The gates on obligations -/

theorem indexObligations_of_nodup {obligations : List Obligation} :
    ∀ {seen : List String}, (obligations.map Obligation.obligationId).Nodup →
      (∀ o ∈ obligations, o.obligationId ∉ seen) → indexObligations seen obligations = .ok () := by
  induction obligations with
  | nil => intros; rfl
  | cons o rest ih =>
      intro seen hnodup hseen
      obtain ⟨hfresh, hnodup⟩ := List.nodup_cons.mp hnodup
      have hrest : ∀ o' ∈ rest, o'.obligationId ∉ o.obligationId :: seen := by
        intro o' ho' hmem
        rcases List.mem_cons.mp hmem with heq | hmem
        · exact hfresh (List.mem_map.mpr ⟨o', ho', heq⟩)
        · exact hseen o' (List.mem_cons_of_mem _ ho') hmem
      simp only [indexObligations, ensure, hseen o (List.mem_cons_self ..), not_false_eq_true,
        decide_true, if_true, ok_bind]
      exact ih hnodup hrest

variable {obligations : List Obligation}

theorem validateObligations_passes
    (hnodup : (obligations.map Obligation.obligationId).Nodup)
    (haccountable : ∀ o ∈ obligations, o.Accountable plan kernels) (stage : String) :
    validateObligations obligations (ownerRegistry plan kernels) stage = .ok () := by
  unfold validateObligations
  rw [indexObligations_of_nodup hnodup fun _ _ => List.not_mem_nil, ok_bind]
  refine checkEach_eq_ok.mpr fun o ho => ?_
  obtain ⟨howned, hconsumed, -, -⟩ := haccountable o ho
  have hempty : o.consumerRefs.isEmpty = false := List.isEmpty_eq_false_iff.mpr hconsumed
  simp only [ensure, howned, hempty, decide_true, if_true, Bool.and_false, Bool.not_false, ok_bind]

/-- A list of obligations is conserved by itself. -/
theorem conserve_self (hnodup : (obligations.map Obligation.obligationId).Nodup)
    (stage : String) : conserve obligations obligations stage = .ok () := by
  unfold conserve
  rw [indexObligations_of_nodup hnodup fun _ _ => List.not_mem_nil, ok_bind, ok_bind]
  refine checkEach_eq_ok.mpr fun o ho => ?_
  have hmem : o ∈ obligations := (List.mem_filter.mp ho).1
  have hfind : obligations.find? (fun c => c.obligationId = o.obligationId) = some o := by
    obtain ⟨found, hfound⟩ : ∃ found, obligations.find? (fun c =>
        c.obligationId = o.obligationId) = some found :=
      Option.isSome_iff_exists.mp (List.find?_isSome.mpr ⟨o, hmem, by simp⟩)
    have hid : found.obligationId = o.obligationId := by simpa using List.find?_some hfound
    rw [hfound, eq_of_nodup_ids hnodup (List.mem_of_find?_eq_some hfound) hmem hid]
  simp only [hfind, require, ensure, ok_bind, decide_true, if_true]

/-- Ids that are exactly the open ones conserve a list of obligations. -/
theorem conserveIds_passes (hnodup : (obligations.map Obligation.obligationId).Nodup)
    {ids : List String} (hids : ids.Nodup) (hsame : ∀ id, id ∈ ids ↔ id ∈ requiredPendingIds
      obligations) (stage : String) : conserveIds obligations ids stage = .ok () := by
  simp only [conserveIds, bind_eq_ok, ensure_eq_ok, checkEach_eq_ok, decide_eq_true_eq]
  refine ⟨(), hids, (), indexObligations_of_nodup hnodup fun _ _ => List.not_mem_nil, (),
    fun o ho => ?_, fun id hid => ?_⟩
  · exact (hsame _).mpr (List.mem_map_of_mem ho)
  · obtain ⟨o, ho, -, rfl⟩ := mem_requiredPendingIds.mp ((hsame id).mp hid)
    exact List.mem_map_of_mem ho

end Obligations

section Contracts

/-! ## The steps of the contract -/

variable {plan : ActivationPlan} {kernels : List KernelBinding} {pipeline : PipelineDefinition}
  {obligations : List Obligation} {inputs : StepInputs}

/-- What the steps of an activation are built from. -/
def stepInputs (plan : ActivationPlan) (kernels : List KernelBinding)
    (pipeline : PipelineDefinition) (obligations : List Obligation) (target : String) :
    StepInputs :=
  { kernels := kernels, pipeline := pipeline, phaseKernels := phaseKernels plan kernels pipeline
    obligations := obligations, phaseOf := kindPhase plan.phaseSequence target }

theorem map_stepId_steps : ∀ {phases previous : List String},
    (inputs.steps phases previous).map ExecutionStep.stepId = phases.map ("step." ++ ·)
  | [], _ => rfl
  | phase :: rest, previous => by
      rw [StepInputs.steps, List.map_cons, map_stepId_steps]
      rfl

theorem nodup_stepIds {phases previous : List String} (h : phases.Nodup) :
    ((inputs.steps phases previous).map ExecutionStep.stepId).Nodup := by
  rw [map_stepId_steps]
  refine h.map fun a b hab => ?_
  have hlists := congrArg String.toList hab
  rw [String.toList_append, String.toList_append] at hlists
  exact String.toList_inj.mp (List.append_cancel_left hlists)

/-- Every phase has a step with its kernels, outputs and obligations. -/
theorem exists_step {phase : String} : ∀ {phases previous : List String}, phase ∈ phases →
    ∃ before, inputs.step phase before ∈ inputs.steps phases previous
  | first :: rest, previous, h => by
      rw [StepInputs.steps]
      rcases List.mem_cons.mp h with rfl | h
      · exact ⟨previous, List.mem_cons_self ..⟩
      · obtain ⟨before, hstep⟩ := exists_step h
        exact ⟨before, List.mem_cons_of_mem _ hstep⟩

/-- Every step is the step of a phase. -/
theorem step_of_mem {step : ExecutionStep} : ∀ {phases previous : List String},
    step ∈ inputs.steps phases previous → ∃ phase ∈ phases, ∃ before,
      step = inputs.step phase before
  | [], _, h => absurd h List.not_mem_nil
  | first :: rest, previous, h => by
      rw [StepInputs.steps] at h
      rcases List.mem_cons.mp h with rfl | h
      · exact ⟨first, List.mem_cons_self .., previous, rfl⟩
      · obtain ⟨phase, hphase, hstep⟩ := step_of_mem h
        exact ⟨phase, List.mem_cons_of_mem _ hphase, hstep⟩

/-- A phase lists the bound kernels that belong to it. -/
theorem mem_kernelsIn {target phase ref : String} :
    ref ∈ (stepInputs plan kernels pipeline obligations target).kernelsIn phase ↔
      phase ∈ plan.phaseSequence ∧ placedIn pipeline ref phase = true
        ∧ ref ∈ kernels.map KernelBinding.sourceRef := by
  have hpairs : ∀ {l : List (String × String)},
      ref ∈ (((groupBy Prod.fst l).map fun entry =>
        (entry.1, entry.2.map Prod.snd)).lookup phase).getD [] ↔ (phase, ref) ∈ l := by
    intro l
    have hmap : (groupBy Prod.fst l).map (fun entry => (entry.1, entry.2.map Prod.snd))
        = (firstSeen (l.map Prod.fst)).map fun k =>
          (k, (l.filter fun e => e.1 = k).map Prod.snd) := by
      unfold groupBy
      rw [List.map_map]
      rfl
    rw [hmap, lookup_map_pair]
    split
    · simp only [Option.getD_some, List.mem_map, List.mem_filter, decide_eq_true_eq]
      constructor
      · rintro ⟨e, ⟨he, rfl⟩, rfl⟩
        exact he
      · exact fun h => ⟨_, ⟨h, rfl⟩, rfl⟩
    · next hphase =>
        rw [mem_firstSeen] at hphase
        simp only [Option.getD_none, List.not_mem_nil, false_iff]
        exact fun h => hphase (List.mem_map_of_mem h)
  show ref ∈ ((phaseKernels plan kernels pipeline).lookup phase).getD [] ↔ _
  unfold phaseKernels
  rw [hpairs]
  simp only [List.mem_flatMap, List.mem_map, List.mem_filter, Prod.mk.injEq]
  constructor
  · rintro ⟨b, hb, id, ⟨hid, hplaced⟩, rfl, rfl⟩
    exact ⟨hid, hplaced, b, hb, rfl⟩
  · rintro ⟨hphase, hplaced, b, hb, rfl⟩
    exact ⟨b, hb, phase, ⟨hphase, hplaced⟩, rfl, rfl⟩

/-- A phase puts out what its kernels declare. -/
theorem mem_outputsOf {target phase : String} {b : KernelBinding} {o : KernelOutput}
    (hb : b ∈ kernels)
    (hplaced : b.sourceRef ∈ (stepInputs plan kernels pipeline obligations target).kernelsIn phase)
    (ho : o ∈ b.outputs) :
    o.outputId ∈ (stepInputs plan kernels pipeline obligations target).outputsOf phase := by
  unfold StepInputs.outputsOf
  by_cases hrequired : o.outputId ∈ (((stepInputs plan kernels pipeline obligations
      target).pipeline.phaseById phase).map PipelinePhase.requiredOutputs).getD []
  · exact List.mem_append_left _ hrequired
  · refine List.mem_append_right _ (List.mem_filter.mpr ⟨?_, by simpa using hrequired⟩)
    exact List.mem_flatMap.mpr
      ⟨b, List.mem_filter.mpr ⟨hb, decide_eq_true hplaced⟩, List.mem_map_of_mem ho⟩

/-! ## The contracts -/

theorem compileExecution_passes [Sha256] (h : Activated plan kernels pipeline)
    (intent : IntentContract) (obligations : List Obligation) (context : CompiledTaskContext)
    (digest : String) :
    ∃ execution target, compileExecution intent plan kernels pipeline obligations context digest
        = .ok execution
      ∧ target ∈ plan.phaseSequence
      ∧ execution.obligations = obligations
      ∧ execution.executionSteps
        = (stepInputs plan kernels pipeline obligations target).steps plan.phaseSequence [] := by
  obtain ⟨doctrine, hdoctrine⟩ := h.terminalContract
  obtain ⟨pipelineId, hpipeline⟩ := h.pipelineId
  obtain ⟨sequence, hsequence⟩ : ∃ sequence, plan.phaseSequence.mapM (fun id =>
      require (phaseStep id) (RuntimeError.invalidValue "phase has no canonical execution step"
        (some "phase_sequence") (.obj [("phase_id", .str id)]))) = .ok sequence := by
    refine mapM_ok_of_forall fun id hid => ?_
    obtain ⟨step, hstep⟩ := h.stepped id hid
    exact ⟨step, require_eq_ok.mpr hstep⟩
  obtain ⟨target, htarget⟩ : ∃ target, plan.phaseSequence.getLast? = some target :=
    ⟨_, List.getLast?_eq_some_getLast (List.ne_nil_of_mem h.routing)⟩
  have hlast : terminalTargetOf plan.phaseSequence = .ok target := by
    unfold terminalTargetOf
    rw [if_neg h.unfinished, htarget]
    rfl
  unfold compileExecution
  simp only [h.unblocked, decide_true, ensure_true, ok_bind, hdoctrine, hpipeline, require_some,
    hsequence, hlast]
  exact ⟨_, target, rfl, List.mem_of_getLast? htarget, rfl, rfl⟩

/-- A validation contract binds exactly the open obligations. -/
theorem mem_validation_refs {execution : ExecutionContract}
    (hpending : ∀ o ∈ execution.obligations, o.disposition = .pending)
    (haccountable : ∀ o ∈ execution.obligations, o.Accountable plan kernels) (id : String) :
    id ∈ (compileValidation execution plan).validationProperties.map
        ValidationProperty.obligationRef
      ↔ id ∈ requiredPendingIds execution.obligations := by
  have hopen : ∀ {o}, o ∈ execution.obligations → o.required = true →
      o.obligationId ∈ requiredPendingIds execution.obligations := fun ho hrequired =>
    mem_requiredPendingIds.mpr
      ⟨_, ho, isRequiredPending_iff.mpr ⟨hrequired, hpending _ ho⟩, rfl⟩
  unfold compileValidation
  simp only [List.map_append, List.mem_append]
  constructor
  · rintro (hid | hid)
    · rw [List.map_map] at hid
      obtain ⟨o, ho, rfl⟩ := List.mem_map.mp hid
      obtain ⟨hmem, hrequired⟩ := List.mem_filter.mp ho
      exact hopen hmem hrequired
    · split at hid
      · next hcond =>
          obtain ⟨o, ho, heq⟩ := List.any_eq_true.mp hcond.1
          have harchitecture := of_decide_eq_true heq
          have hsame : id = "OBL.ARCHITECTURE" := List.mem_singleton.mp hid
          rw [hsame, ← harchitecture]
          exact hopen ho ((haccountable o ho).architecture harchitecture).2
      · cases hid
  · intro hid
    obtain ⟨o, ho, hrequired, rfl⟩ := mem_requiredPendingIds.mp hid
    refine .inl ?_
    rw [List.map_map]
    exact List.mem_map.mpr
      ⟨o, List.mem_filter.mpr ⟨ho, (isRequiredPending_iff.mp hrequired).1⟩, rfl⟩

/-- The artifacts of a compile whose contracts are all accepted. -/
structure Contracted [Sha256] (prepared : PreparedContextPlan) (taskContext : CompiledTaskContext)
    (report : ContextClosureReport) (a : CompiledArtifacts) : Prop where
  plan : a.plan = prepared.activation
  kernels : a.kernels = prepared.kernels
  obligations : SameObligations a
    (deriveObligations prepared.intent prepared.activation prepared.kernels taskContext)
  steps : ∃ target ∈ prepared.activation.phaseSequence, a.execution.executionSteps
    = (stepInputs prepared.activation prepared.kernels prepared.pipeline
      (deriveObligations prepared.intent prepared.activation prepared.kernels taskContext)
      target).steps prepared.activation.phaseSequence []
  nodes : a.graph.nodes = a.execution.executionSteps.map graphNode
  edges : a.graph.edges = chainEdges (a.execution.executionSteps.map ExecutionStep.stepId)
  last : (a.execution.executionSteps.map ExecutionStep.stepId).getLast?
    = some a.graph.terminalNode
  validation : a.validation = compileValidation a.execution prepared.activation
  context : a.taskContext = taskContext
  contextDigest : a.contextDigest = taskContext.sha256
  report : a.closureReport = report

/-- No contract stage fails on such an activation. -/
theorem compileContracts_passes [Sha256] {prepared : PreparedContextPlan}
    {taskContext : CompiledTaskContext}
    (h : Activated prepared.activation prepared.kernels prepared.pipeline)
    (hunknowns : (taskContext.unresolvedUnknowns.map ContextUnknown.unknownId).Nodup)
    (report : ContextClosureReport) :
    ∃ a, compileContracts prepared taskContext report = .ok a
      ∧ Contracted prepared taskContext report a := by
  have hnodup : ((deriveObligations prepared.intent prepared.activation prepared.kernels
      taskContext).map Obligation.obligationId).Nodup := nodup_deriveObligations hunknowns
  have haccountable : ∀ o ∈ deriveObligations prepared.intent prepared.activation
      prepared.kernels taskContext, o.Accountable prepared.activation prepared.kernels :=
    deriveObligations_accountable h
  have hpending : ∀ o ∈ deriveObligations prepared.intent prepared.activation prepared.kernels
      taskContext, o.disposition = .pending := deriveObligations_pending
  generalize hobligations : deriveObligations prepared.intent prepared.activation
    prepared.kernels taskContext = obligations at hnodup haccountable hpending
  obtain ⟨execution, target, hexecution, htarget, hcarried, hsteps⟩ := compileExecution_passes h
    { prepared.intent with obligations := obligations } obligations taskContext
    taskContext.sha256
  have hstepped : execution.executionSteps ≠ [] := by
    intro hnone
    have hids : ((stepInputs prepared.activation prepared.kernels prepared.pipeline obligations
        target).steps prepared.activation.phaseSequence []).map ExecutionStep.stepId
        = prepared.activation.phaseSequence.map ("step." ++ ·) := map_stepId_steps
    rw [← hsteps, hnone] at hids
    exact List.ne_nil_of_mem h.routing (List.map_eq_nil_iff.mp hids.symm)
  have hstepIds : (execution.executionSteps.map ExecutionStep.stepId).Nodup := by
    rw [hsteps]
    exact nodup_stepIds h.phases_nodup
  obtain ⟨graph, hgraph, hnodes, hedges, hlast, hrefs⟩ :=
    deriveExecutionGraph_chain hstepped hstepIds
  have hopen : graph.obligationRefs = requiredPendingIds obligations := by
    rw [hrefs, hcarried]
    exact openRequired_ids obligations
  have hvalidated : ∀ id, id ∈ sortedUnique ((compileValidation execution
      prepared.activation).validationProperties.map ValidationProperty.obligationRef)
      ↔ id ∈ requiredPendingIds obligations := by
    intro id
    rw [mem_sortedUnique, mem_validation_refs (by rw [hcarried]; exact hpending)
      (by rw [hcarried]; exact haccountable), hcarried]
  have hhandoff : (compileHandoff execution prepared.activation).obligations = obligations :=
    hcarried
  unfold compileContracts
  simp only [hobligations, validateObligations_passes hnodup haccountable, ok_bind, hexecution,
    hcarried, conserve_self hnodup, conserveIds_passes hnodup (nodup_sortedUnique _) hvalidated,
    hhandoff, hgraph, hopen, decide_true, ensure_true]
  refine ⟨_, rfl, ?_⟩
  exact
    { plan := rfl
      kernels := rfl
      obligations := by
        rw [hobligations]
        exact ⟨rfl, hcarried, hhandoff, hopen⟩
      steps := by
        rw [hobligations]
        exact ⟨target, htarget, hsteps⟩
      nodes := hnodes
      edges := hedges
      last := hlast
      validation := rfl
      context := rfl
      contextDigest := rfl
      report := rfl }

end Contracts

section Judged

/-! ## The packet -/

variable [Sha256] {prepared : PreparedContextPlan} {taskContext : CompiledTaskContext}
  {report : ContextClosureReport} {a : CompiledArtifacts}

/-- Each obligation of the artifacts is pending and accountable. -/
theorem Contracted.accountable
    (h : Activated prepared.activation prepared.kernels prepared.pipeline)
    (hc : Contracted prepared taskContext report a) :
    ∀ o ∈ a.execution.obligations, o.disposition = .pending
      ∧ o.Accountable prepared.activation prepared.kernels := by
  rw [hc.obligations.execution]
  exact fun o ho => ⟨deriveObligations_pending o ho, deriveObligations_accountable h o ho⟩

theorem Contracted.refs (h : Activated prepared.activation prepared.kernels prepared.pipeline)
    (hc : Contracted prepared taskContext report a) (id : String) :
    id ∈ a.validation.validationProperties.map ValidationProperty.obligationRef
      ↔ id ∈ requiredPendingIds a.execution.obligations := by
  rw [hc.validation]
  exact mem_validation_refs (fun o ho => (hc.accountable h o ho).1)
    (fun o ho => (hc.accountable h o ho).2) id

/-- The packet of such artifacts is valid. -/
theorem validatePacket_passes
    (h : Activated prepared.activation prepared.kernels prepared.pipeline)
    (hc : Contracted prepared taskContext report a) (digests : PacketDigests) :
    validatePacket (buildExecutionPacket a digests) = .ok () := by
  have hids : (buildExecutionPacket a digests).requiredObligations.map Obligation.obligationId
      = requiredPendingIds a.execution.obligations := openRequired_ids _
  have hopen : ∀ o ∈ a.execution.obligations, o.required = true →
      o.obligationId ∈ requiredPendingIds a.execution.obligations := fun o ho hrequired =>
    mem_requiredPendingIds.mpr
      ⟨o, ho, isRequiredPending_iff.mpr ⟨hrequired, (hc.accountable h o ho).1⟩, rfl⟩
  have hbinding : validateArchitectBinding (buildExecutionPacket a digests) = .ok () := by
    unfold validateArchitectBinding
    rw [hids]
    split
    · next harchitecture =>
        obtain ⟨o, ho, -, hid⟩ := mem_requiredPendingIds.mp harchitecture
        obtain ⟨gar, hgar, houtputs⟩ :=
          h.architect ((hc.accountable h o ho).2.architecture hid).1
        have hfound : (buildExecutionPacket a digests).activeKernelBindings.find?
            (·.sourceRef.endsWith "global_architect_kernel.yaml") = some gar := by
          rw [← hgar, ← hc.kernels]
          rfl
        rw [hfound, require_some, ok_bind]
        simpa using houtputs
    · rfl
  have hbody : sha256Digest (buildExecutionPacket a digests).compiledTaskContext
      = (buildExecutionPacket a digests).compiledTaskContextDigest := by
    have hdocument : (buildExecutionPacket a digests).compiledTaskContext
        = a.taskContext.toJson := rfl
    have hstamp : (buildExecutionPacket a digests).compiledTaskContextDigest
        = a.contextDigest := rfl
    have hdigest : sha256Digest taskContext.toJson = taskContext.sha256 := rfl
    rw [hdocument, hstamp, hc.contextDigest, hc.context, hdigest]
  have hcontext : (buildExecutionPacket a digests).provenance.contextDigest
      = (buildExecutionPacket a digests).compiledTaskContextDigest := rfl
  have hplan : (buildExecutionPacket a digests).provenance.contextPlanId
      = (buildExecutionPacket a digests).contextPlanId := rfl
  have hproperties : (buildExecutionPacket a digests).validationProperties
      = a.validation.validationProperties := rfl
  have hdelivery : (buildExecutionPacket a digests).deliveryObligations
      = a.execution.obligations.filter (·.obligationId = "OBL.DELIVERY") := rfl
  unfold validatePacket
  rw [hbody, hcontext, hplan, hproperties, hdelivery, hids, hbinding]
  simp only [decide_true, ensure_true, ok_bind, bind_eq_ok, ensure_eq_ok, checkEach_eq_ok,
    decide_eq_true_eq, sortedUnique_eq_nil, List.filter_eq_nil_iff, not_not, and_true,
    exists_const]
  refine ⟨fun id hid => (hc.refs h id).mp hid, fun id hid => (hc.refs h id).mpr hid,
    fun o ho => ?_⟩
  obtain ⟨hmem, -⟩ := List.mem_filter.mp ho
  cases hrequired : o.required with
  | false => rfl
  | true => simpa using hopen o hmem hrequired

/-! ## The liveness ladder -/

/-- A phase of the sequence has a node with its kernels, outputs and
obligations. -/
theorem Contracted.exists_node (hc : Contracted prepared taskContext report a) :
    ∃ target ∈ prepared.activation.phaseSequence,
      ∀ phase ∈ prepared.activation.phaseSequence, ∃ step ∈ a.execution.executionSteps,
        graphNode step ∈ a.graph.nodes ∧ ∃ before, step
          = (stepInputs prepared.activation prepared.kernels prepared.pipeline
            a.execution.obligations target).step phase before := by
  obtain ⟨target, htarget, hsteps⟩ := hc.steps
  refine ⟨target, htarget, fun phase hphase => ?_⟩
  have hsome : ∃ before, (stepInputs prepared.activation prepared.kernels prepared.pipeline
      a.execution.obligations target).step phase before
      ∈ (stepInputs prepared.activation prepared.kernels prepared.pipeline
        a.execution.obligations target).steps prepared.activation.phaseSequence [] :=
    exists_step hphase
  obtain ⟨before, hmem⟩ := hsome
  rw [hc.obligations.execution, ← hsteps] at hmem
  refine ⟨_, hmem, ?_, before, by rw [hc.obligations.execution]⟩
  rw [hc.nodes]
  exact List.mem_map_of_mem hmem

/-- Every node invokes bound kernels only. -/
theorem Contracted.node_kernels (hc : Contracted prepared taskContext report a)
    {n : ExecutionGraphNode} (hn : n ∈ a.graph.nodes) {ref : String} (href : ref ∈ n.kernelRefs) :
    ref ∈ prepared.kernels.map KernelBinding.sourceRef := by
  obtain ⟨target, -, hsteps⟩ := hc.steps
  rw [hc.nodes, hsteps] at hn
  obtain ⟨step, hstep, rfl⟩ := List.mem_map.mp hn
  obtain ⟨phase, -, before, rfl⟩ := step_of_mem hstep
  exact (mem_kernelsIn.mp href).2.2

/-- Every bound kernel is invoked with its outputs. -/
theorem Contracted.invoked
    (h : Activated prepared.activation prepared.kernels prepared.pipeline)
    (hc : Contracted prepared taskContext report a) {b : KernelBinding} (hb : b ∈ prepared.kernels) :
    ∃ step ∈ a.execution.executionSteps, graphNode step ∈ a.graph.nodes
      ∧ b.sourceRef ∈ step.kernelRefs ∧ ∀ o ∈ b.outputs, o.outputId ∈ step.outputRefs := by
  obtain ⟨target, -, hnode⟩ := hc.exists_node
  obtain ⟨phase, hphase, hplaced⟩ := h.placed b hb
  obtain ⟨step, hstep, hmem, before, rfl⟩ := hnode phase hphase
  have hin : b.sourceRef ∈ (stepInputs prepared.activation prepared.kernels prepared.pipeline
      a.execution.obligations target).kernelsIn phase :=
    mem_kernelsIn.mpr ⟨hphase, hplaced, List.mem_map_of_mem hb⟩
  exact ⟨_, hstep, hmem, hin, fun o ho => mem_outputsOf hb hin ho⟩

/-- Every obligation is carried by a node. -/
theorem Contracted.carried
    (h : Activated prepared.activation prepared.kernels prepared.pipeline)
    (hc : Contracted prepared taskContext report a) {o : Obligation}
    (ho : o ∈ a.execution.obligations) :
    o.obligationId ∈ a.graph.nodes.flatMap ExecutionGraphNode.obligationRefs := by
  obtain ⟨target, htarget, hnode⟩ := hc.exists_node
  obtain ⟨step, -, hmem, before, rfl⟩ :=
    hnode _ (h.kindPhase_mem htarget (hc.accountable h o ho).2)
  exact List.mem_flatMap.mpr ⟨_, hmem, mem_obligationIds.mpr ⟨o, ho, rfl, rfl⟩⟩

theorem Contracted.realization
    (h : Activated prepared.activation prepared.kernels prepared.pipeline)
    (hc : Contracted prepared taskContext report a) :
    ∀ check ∈ realizationChecks a, check.holds = true := by
  have hintent : a.intent.obligations = a.execution.obligations := by
    rw [hc.obligations.intent, hc.obligations.execution]
  have hhandoff : a.handoff.obligations = a.execution.obligations := by
    rw [hc.obligations.handoff, hc.obligations.execution]
  have hopen : ∀ kinds, ∀ id ∈ openIdsOf a kinds, ∃ o ∈ a.execution.obligations,
      o.isRequiredPending = true ∧ o.obligationId = id := by
    intro kinds id hid
    obtain ⟨o, ho, rfl⟩ := List.mem_map.mp hid
    obtain ⟨hmem, hpending⟩ := mem_openRequired.mp (List.mem_filter.mp ho).1
    exact ⟨o, hmem, hpending, rfl⟩
  have hrealized : unrealizedOutputs a = [] := by
    unfold unrealizedOutputs requiredOutputs
    rw [hc.kernels, List.filterMap_eq_nil_iff]
    rintro ⟨b, o⟩ hentry
    obtain ⟨b', hb, ho⟩ := List.mem_flatMap.mp hentry
    obtain ⟨o', ho', heq⟩ := List.mem_map.mp ho
    obtain ⟨rfl, rfl⟩ := Prod.mk.inj heq
    obtain ⟨step, hstep, hnode, hin, houtputs⟩ := hc.invoked h hb
    have hout := houtputs o' (List.mem_filter.mp ho').1
    have hinSteps : a.execution.executionSteps.any (fun s =>
        decide (b'.sourceRef ∈ s.kernelRefs) && decide (o'.outputId ∈ s.outputRefs)) = true :=
      List.any_eq_true.mpr ⟨step, hstep, by simp [hin, hout]⟩
    have hinGraph : a.graph.nodes.any (fun n =>
        decide (b'.sourceRef ∈ n.kernelRefs) && decide (o'.outputId ∈ n.outputs)) = true :=
      List.any_eq_true.mpr ⟨_, hnode, by simp [graphNode, hin, hout]⟩
    simp only [hinSteps, hinGraph, Bool.not_true, Bool.false_eq_true, if_false]
  unfold realizationChecks
  simp only [List.forall_mem_cons, nothingMissing_holds, hintent, hhandoff, hc.plan, hc.kernels,
    hrealized]
  refine ⟨?_, ?_, ?_, ?_, rfl, ?_, ?_, ?_, ?_, fun _ hnone => absurd hnone List.not_mem_nil⟩
  · rw [List.all_eq_true]
    intro o ho
    have hmem := List.mem_map_of_mem (f := Obligation.obligationId) (List.mem_filter.mp ho).1
    simp [hmem]
  · rw [List.all_eq_true]
    exact fun item hitem => decide_eq_true (h.bound item hitem)
  · rw [List.all_eq_true]
    exact fun b hb => decide_eq_true (h.stamped b hb)
  · intro id hid
    obtain ⟨ref, href, rfl⟩ := List.mem_map.mp hid
    obtain ⟨b, hb, rfl⟩ := List.mem_map.mp href
    obtain ⟨step, -, hnode, hin, -⟩ := hc.invoked h hb
    exact List.mem_flatMap.mpr ⟨graphNode step, hnode, List.mem_map.mpr ⟨b.sourceRef, hin, rfl⟩⟩
  · unfold requiredOutputs
    rw [hc.kernels, List.all_eq_true]
    rintro ⟨b, o⟩ hentry
    obtain ⟨b', hb, ho⟩ := List.mem_flatMap.mp hentry
    obtain ⟨o', ho', heq⟩ := List.mem_map.mp ho
    obtain ⟨rfl, rfl⟩ := Prod.mk.inj heq
    obtain ⟨hmem, hrequired⟩ := List.mem_filter.mp ho'
    simpa using h.consumed b' hb o' hmem hrequired
  · intro id hid
    obtain ⟨o, ho, rfl⟩ := List.mem_map.mp hid
    exact hc.carried h (mem_openRequired.mp ho).1
  · intro id hid
    obtain ⟨o, ho, hpending, rfl⟩ := hopen _ id hid
    exact (hc.refs h _).mpr (mem_requiredPendingIds.mpr ⟨o, ho, hpending, rfl⟩)
  · intro id hid
    obtain ⟨o, ho, -, rfl⟩ := hopen _ id hid
    exact List.mem_map_of_mem ho

theorem Contracted.convergence
    (h : Activated prepared.activation prepared.kernels prepared.pipeline)
    (hc : Contracted prepared taskContext report a) : (convergenceCheck a).holds = true := by
  obtain ⟨target, -, hsteps⟩ := hc.steps
  unfold convergenceCheck
  rw [hc.plan, h.not_terminal, if_neg Bool.false_ne_true, hsteps]
  rw [Bool.not_eq_true', List.any_eq_false]
  intro step hstep hterminal
  obtain ⟨phase, hphase, before, rfl⟩ := step_of_mem hstep
  exact h.unfinished (of_decide_eq_true hterminal ▸ hphase)

theorem Contracted.conservation
    (h : Activated prepared.activation prepared.kernels prepared.pipeline)
    (hc : Contracted prepared taskContext report a) (digests : PacketDigests) :
    ∀ check ∈ conservationChecks a (buildExecutionPacket a digests), check.holds = true := by
  have hhandoff : a.handoff.obligations = a.execution.obligations := by
    rw [hc.obligations.handoff, hc.obligations.execution]
  have hpacket : (buildExecutionPacket a digests).requiredObligations
      = openRequired a.execution.obligations := rfl
  have hblocked : a.execution.obligations.filter (fun o => o.disposition = .validBlock) = [] := by
    rw [List.filter_eq_nil_iff]
    intro o ho hblock
    rw [(hc.accountable h o ho).1] at hblock
    cases of_decide_eq_true hblock
  have hclosed : a.execution.obligations.filter (fun o => o.disposition ≠ .pending) = [] := by
    rw [List.filter_eq_nil_iff]
    exact fun o ho hdone => of_decide_eq_true hdone (hc.accountable h o ho).1
  have horphans : a.graph.nodes.filter (fun n => decide (n.id ≠ a.graph.terminalNode)
      && !a.graph.edges.any fun e => e.fromNode = n.id) = [] := by
    rw [List.filter_eq_nil_iff, hc.nodes, hc.edges]
    intro n hn horphan
    obtain ⟨step, hstep, rfl⟩ := List.mem_map.mp hn
    rw [Bool.and_eq_true, decide_eq_true_eq, Bool.not_eq_true', List.any_eq_false] at horphan
    obtain ⟨hend, hnone⟩ := horphan
    have hid : (graphNode step).id ∈ a.execution.executionSteps.map ExecutionStep.stepId :=
      List.mem_map_of_mem hstep
    obtain ⟨e, he, hfrom⟩ := exists_edge_of_chain hid fun hlast =>
      hend (Option.some.inj (hlast.symm.trans hc.last))
    exact hnone e he (decide_eq_true hfrom)
  unfold conservationChecks
  simp only [List.forall_mem_cons, nothingMissing_holds, hhandoff, hpacket, hblocked, hclosed,
    horphans, hc.kernels]
  refine ⟨rfl, rfl, ?_, ?_, fun _ hid => hid, ?_, fun _ hnone => absurd hnone List.not_mem_nil⟩
  · intro id hid
    obtain ⟨n, hn, hin⟩ := List.mem_flatMap.mp hid
    obtain ⟨ref, href, rfl⟩ := List.mem_map.mp hin
    obtain ⟨b, hb, rfl⟩ := List.mem_map.mp (hc.node_kernels hn href)
    exact List.mem_map.mpr ⟨b, hb, rfl⟩
  · simp
  · intro id hid
    obtain ⟨o, ho, rfl⟩ := List.mem_map.mp hid
    exact List.mem_map_of_mem (mem_openRequired.mp ho).1

/-- The checks on the compiled context follow from closure, but for a
selected item that a reported conflict touches. -/
theorem Contracted.contextual (hc : Contracted prepared taskContext report a)
    (hclosure : validateClosure taskContext prepared.requirementPlan prepared.resolution
      prepared.kernels = .ok report)
    (hquiet : selectedConflicts taskContext = []) (digests : PacketDigests)
    {payload : List (String × Json)}
    (hpayload : Json.field "context_digest" payload = some (.str a.contextDigest)) :
    ∀ check ∈ contextChecksOf a (buildExecutionPacket a digests) payload,
      check.holds = true := by
  obtain ⟨hclosed, hreport⟩ := validateClosure_ok_iff.mp hclosure
  have hprovenance : taskContext.selectedItems.filter (fun item =>
      item.isGoverned && !item.sourceRef.hasImmutableProvenance) = [] := by
    rw [List.filter_eq_nil_iff]
    intro item hitem hbreach
    rw [Bool.and_eq_true, Bool.not_eq_true'] at hbreach
    rw [(hclosed.provenance item hitem).1 hbreach.1] at hbreach
    cases hbreach.2
  have hrelevance : taskContext.selectedItems.filter (fun item =>
      item.selectedBecause.isEmpty) = [] := by
    rw [List.filter_eq_nil_iff]
    intro item hitem hempty
    exact (hclosed.relevance item hitem).1 (List.isEmpty_iff.mp hempty)
  have hdocument : (buildExecutionPacket a digests).compiledTaskContext
      = taskContext.toJson := by
    rw [← hc.context]
    rfl
  have hstamp : (buildExecutionPacket a digests).compiledTaskContextDigest
      = a.contextDigest := rfl
  have hkernels : taskContext.selectedKernels = prepared.kernels.map KernelBinding.toDict :=
    hclosed.kernels
  have hsha : taskContext.sha256 = a.contextDigest := hc.contextDigest.symm
  unfold contextChecksOf
  simp only [List.forall_mem_cons, nothingMissing_holds, hc.context, hc.report, hreport,
    hprovenance, hrelevance, hquiet, hdocument, hstamp, hpayload, hsha, hkernels, hc.kernels]
  refine ⟨by decide, rfl, rfl, by simp, rfl, by simp, by simp, ?_,
    fun _ hnone => absurd hnone List.not_mem_nil⟩
  intro id hid
  obtain ⟨u, hu, rfl⟩ := List.mem_map.mp hid
  obtain ⟨hmem, hblocking⟩ := List.mem_filter.mp hu
  have hderived : contextObligation ("intent:" ++ prepared.intent.intentId) u
      ∈ a.execution.obligations := by
    rw [hc.obligations.execution]
    exact contextObligation_mem hmem (of_decide_eq_true hblocking)
  exact List.mem_filterMap.mpr ⟨contextObligationId u.unknownId,
    List.mem_map.mpr ⟨_, hderived, rfl⟩, obligationUnknownId_contextObligationId _⟩

/-- Every liveness check holds. -/
theorem validateLiveness_passes
    (h : Activated prepared.activation prepared.kernels prepared.pipeline)
    (hc : Contracted prepared taskContext report a)
    (hclosure : validateClosure taskContext prepared.requirementPlan prepared.resolution
      prepared.kernels = .ok report)
    (hquiet : selectedConflicts taskContext = []) (digests : PacketDigests)
    {payload : List (String × Json)}
    (hpayload : Json.field "context_digest" payload = some (.str a.contextDigest)) :
    validateLiveness a (buildExecutionPacket a digests) payload = .ok () := by
  rw [validateLiveness_ok]
  intro check hcheck
  simp only [allLivenessChecks, List.mem_append, List.mem_singleton] at hcheck
  rcases hcheck with ((hcheck | rfl) | hcheck) | hcheck
  · exact hc.realization h check hcheck
  · exact hc.convergence h
  · exact hc.conservation h digests check hcheck
  · exact hc.contextual hclosure hquiet digests hpayload check hcheck

/-! ## The stages together -/

/-- A closed context over such an activation is compiled to a bundle. -/
theorem compileStages_passes (pack : RuntimePack)
    (h : Activated prepared.activation prepared.kernels prepared.pipeline)
    (hcontext : compileContext prepared.compileInputs = .ok taskContext)
    (hclosure : validateClosure taskContext prepared.requirementPlan prepared.resolution
      prepared.kernels = .ok report)
    (hquiet : selectedConflicts taskContext = []) :
    ∃ root, compileStages pack prepared = .ok root := by
  have hunknowns : (taskContext.unresolvedUnknowns.map ContextUnknown.unknownId).Nodup := by
    obtain ⟨selection, unknowns, -, rfl⟩ := compileContext_ok hcontext
    exact nodup_map_key_dedupeLast _
  obtain ⟨a, ha, hc⟩ := compileContracts_passes h hunknowns report
  have hpayload : ∀ rules pipeline id, Json.field "context_digest"
      (semanticPayload a rules pipeline id) = some (.str a.contextDigest) := by
    intro rules pipeline id
    simp [semanticPayload, Json.field]
  unfold compileStages
  rw [hcontext, ok_bind, hclosure, ok_bind, ha, ok_bind]
  dsimp only
  rw [validatePacket_passes h hc, ok_bind,
    validateLiveness_passes h hc hclosure hquiet _ (hpayload _ _ _), ok_bind]
  exact ⟨_, rfl⟩

end Judged

end CognitiveRuntime
