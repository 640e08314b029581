import CognitiveRuntime.Compiler.TaskContext

/-!
# Obligation derivation and conservation

Obligations are derived once from the intent, the activation, the
kernels and the blocking unknowns of the compiled context, and checked
for conservation between each contract and the next.
-/

namespace CognitiveRuntime

open Ordered Fallible

/-! ## Derivation -/

/-- `_terminal_kernel`. -/
def terminalKernel (bindings : List KernelBinding) : String :=
  ((bindings.find? fun b => b.sourceRef.endsWith "flawless_victory.contract.yaml").map
    KernelBinding.sourceRef).getD "terminal:flawless_victory"

/-- An obligation as the deriver creates it: pending. -/
def pendingObligation (id : String) (kind : ObligationKind) (sourceRef : String)
    (required : Bool) (owner : String) (consumers evidence : List String) : Obligation :=
  { obligationId := id, kind := kind, sourceRef := sourceRef, required := required
    owner := owner, consumerRefs := consumers, evidenceRequirements := evidence
    disposition := .pending }

/-- The id of the obligation a blocking context unknown becomes. -/
def contextObligationId (unknownId : String) : String :=
  "OBL.EPISTEMIC.CONTEXT." ++ unknownId

/-- The obligation a blocking context unknown becomes. -/
def contextObligation (sourceRef : String) (u : ContextUnknown) : Obligation :=
  pendingObligation (contextObligationId u.unknownId) .epistemic sourceRef true
    "context_compiler" ["handoff_contract"]
    ["resolution or governed disposition of " ++ u.reasonCode.value]

/-- The non-required note for a remaining intent unknown. -/
def unknownNote (sourceRef : String) (entry : String × Nat) : Obligation :=
  pendingObligation ("OBL.EPISTEMIC.UNKNOWN." ++ toString entry.2) .epistemic sourceRef false
    "objective_deriver" ["handoff_contract"] ["resolution or disposition of: " ++ entry.1]

/-- The obligations of the objective and the activation. -/
def objectiveObligations (intent : IntentContract) (plan : ActivationPlan)
    (kernels : List KernelBinding) : List Obligation :=
  let sourceRef := "intent:" ++ intent.intentId
  let taskKernel := ((kernels.find? fun b => b.sourceRef.startsWith "runtime/kernels/task/").map
    KernelBinding.sourceRef).getD "phase:P2_TASK_ROUTING"
  [ pendingObligation "OBL.AUTHORITY" .authority sourceRef true
      "runtime/kernels/constitutional/K01-platform-architecture-engine.yaml"
      ["execution_contract"] ["authority order respected with evidence"],
    pendingObligation "OBL.RUNTIME_INTEGRITY" .validation sourceRef true "validation_runtime"
      ["validation_contract"] ["command run or blocker reason"],
    pendingObligation "OBL.REALIZATION" .realization sourceRef true taskKernel
      ["execution_graph"]
      ["realization evidence for mode " ++ intent.objective.realizationMode.value] ]
  ++ (if intent.objective.validationRequired then
      [pendingObligation "OBL.VALIDATION" .validation sourceRef true "validation_runtime"
        ["validation_contract"] ["command run or blocker reason"]] else [])
  ++ (if intent.objective.deliveryRequired then
      [pendingObligation "OBL.DELIVERY" .delivery sourceRef true (terminalKernel kernels)
        ["handoff_contract", "validation_contract"]
        ["delivery evidence for mode " ++ intent.objective.deliveryMode.value]] else [])
  ++ (if intent.accountabilityRequired || plan.terminalAllowed then
      [pendingObligation "OBL.CONVERGENCE" .convergence sourceRef true (terminalKernel kernels)
        ["validation_contract"] ["terminal disposition receipt"]] else [])
  ++ (if plan.architectureMateriality.required then
      [pendingObligation "OBL.ARCHITECTURE" .architecture sourceRef true
        (((kernels.find? fun b => b.sourceRef.endsWith "global_architect_kernel.yaml").map
          KernelBinding.sourceRef).getD
          "runtime/kernels/architecture/global_architect_kernel.yaml")
        ["validation_contract", "execution_graph"]
        ["architectural integrity evidence", "plan readiness evidence"]] else [])
  ++ if intent.objective.realizationMode = .unknown then
      [pendingObligation "OBL.EPISTEMIC.REALIZATION_RESOLUTION" .epistemic sourceRef true
        "objective_deriver" ["handoff_contract"] ["deterministic realization resolution"]]
    else []

/-- `ObligationDeriver.derive`. -/
def deriveObligations (intent : IntentContract) (plan : ActivationPlan)
    (kernels : List KernelBinding) (context : CompiledTaskContext) : List Obligation :=
  let sourceRef := "intent:" ++ intent.intentId
  objectiveObligations intent plan kernels
  -- blocking context unknowns are conserved as required obligations
  ++ (context.unresolvedUnknowns.filter fun u => u.materiality = .blocking).map
      (contextObligation sourceRef)
  ++ (intent.unknowns.zipIdx.filter fun entry => entry.1 ≠ "realization_mode_UNKNOWN").map
      (unknownNote sourceRef)

/-! ## Conservation -/

/-- Membership in `_TERMINAL_DISPOSITIONS`. -/
def Obligation.isTerminal (o : Obligation) : Bool :=
  match o.disposition with
  | .pending => false
  | .satisfied | .validBlock | .supersededByHigherAuthority
  | .notApplicableWithDeterministicProof => true

/-- Required and still open. -/
def Obligation.isRequiredPending (o : Obligation) : Bool := o.required && !o.isTerminal

/-- `_index`: no obligation id twice in one list. -/
def indexObligations : List String → List Obligation → Except RuntimeError Unit
  | _, [] => .ok ()
  | seen, o :: rest => do
    ensure (o.obligationId ∉ seen)
      (.invalidValue "duplicate obligation_id in one IR" (some "obligations")
        (.obj [("obligation_id", .str o.obligationId)]))
    indexObligations (o.obligationId :: seen) rest

/-- `conserve`: every open required obligation of the parent exists in
the child with the same kind. -/
def conserve (parent child : List Obligation) (stage : String) : Except RuntimeError Unit := do
  indexObligations [] parent
  indexObligations [] child
  checkEach (fun o => do
      let found ← require (child.find? fun c => c.obligationId = o.obligationId)
        (.invalidValue "required obligation disappeared between IRs" (some stage)
          (.obj [("obligation_id", .str o.obligationId), ("parent", .str stage),
            ("child", .str (stage ++ "+1"))]))
      ensure (found.kind = o.kind)
        (.invalidValue "obligation kind changed without a recorded disposition" (some stage)
          (.obj [("obligation_id", .str o.obligationId), ("parent_kind", .str o.kind.value),
            ("child_kind", .str found.kind.value)])))
    (parent.filter Obligation.isRequiredPending)

/-- `conserve_ids`: conservation where the child carries ids only. -/
def conserveIds (parent : List Obligation) (childIds : List String) (stage : String) :
    Except RuntimeError Unit := do
  ensure childIds.Nodup (.invalidValue "duplicate obligation_id in child IR" (some stage)
    (.obj [("obligation_ids", .ofStrings childIds)]))
  indexObligations [] parent
  checkEach (fun o => ensure (o.obligationId ∈ childIds)
      (.invalidValue "required obligation disappeared between IRs" (some stage)
        (.obj [("obligation_id", .str o.obligationId)])))
    (parent.filter Obligation.isRequiredPending)
  checkEach (fun id => ensure (id ∈ parent.map Obligation.obligationId)
      (.invalidValue "child IR references an obligation absent from the parent IR" (some stage)
        (.obj [("obligation_id", .str id)])))
    childIds

/-- `validate_obligations`: owners resolve, consumers exist. -/
def validateObligations (obligations : List Obligation) (ownerRegistry : List String)
    (stage : String) : Except RuntimeError Unit := do
  indexObligations [] obligations
  checkEach (fun o => do
      ensure (o.owner ∈ ownerRegistry)
        (.invalidValue "obligation owner does not resolve" (some stage)
          (.obj [("obligation_id", .str o.obligationId), ("owner", .str o.owner)]))
      ensure (!(o.required && o.consumerRefs.isEmpty))
        (.invalidValue "required obligation has no consumer" (some stage)
          (.obj [("obligation_id", .str o.obligationId)])))
    obligations

/-- `RESERVED_OWNERS`. -/
def reservedOwners : List String :=
  ["objective_deriver", "validation_runtime", "adapter_renderer", "context_compiler"]

/-- `owner_registry`. -/
def ownerRegistry (plan : ActivationPlan) (kernels : List KernelBinding) : List String :=
  reservedOwners ++ plan.phaseSequence.map (fun id => "phase:" ++ id)
    ++ kernels.map KernelBinding.sourceRef ++ ["terminal:flawless_victory"]

/-- `required_pending_ids`. -/
def requiredPendingIds (obligations : List Obligation) : List String :=
  (obligations.filter Obligation.isRequiredPending).map Obligation.obligationId

/-! ## What the deriver gives -/

theorem indexObligations_ok {obligations : List Obligation} :
    ∀ {seen : List String} {u : Unit}, indexObligations seen obligations = .ok u →
      (obligations.map Obligation.obligationId).Nodup
        ∧ ∀ o ∈ obligations, o.obligationId ∉ seen := by
  induction obligations with
  | nil => intro seen u _; simp
  | cons o rest ih =>
      intro seen u h
      simp only [indexObligations, bind_eq_ok, ensure_eq_ok, decide_eq_true_eq] at h
      obtain ⟨_, hseen, h⟩ := h
      obtain ⟨hnodup, hfresh⟩ := ih h
      refine ⟨?_, ?_⟩
      · rw [List.map_cons, List.nodup_cons]
        refine ⟨?_, hnodup⟩
        intro hmem
        obtain ⟨o', ho', heq⟩ := List.mem_map.mp hmem
        exact hfresh o' ho' (heq ▸ List.mem_cons_self ..)
      · intro o' ho'
        rcases List.mem_cons.mp ho' with rfl | ho'
        · exact hseen
        · exact fun hmem => hfresh o' ho' (List.mem_cons_of_mem _ hmem)

theorem objectiveObligations_pending {intent : IntentContract} {plan : ActivationPlan}
    {kernels : List KernelBinding} :
    ∀ o ∈ objectiveObligations intent plan kernels, o.disposition = .pending := by
  have hoption : ∀ (c : Prop) [Decidable c] (o : Obligation), o.disposition = .pending →
      ∀ o' ∈ (if c then [o] else []), o'.disposition = .pending := by
    intro c _ o ho o' ho'
    split at ho'
    · rw [List.mem_singleton.mp ho']
      exact ho
    · cases ho'
  unfold objectiveObligations
  simp only [List.forall_mem_append]
  refine ⟨⟨⟨⟨⟨?_, hoption _ _ rfl⟩, hoption _ _ rfl⟩, hoption _ _ rfl⟩, hoption _ _ rfl⟩,
    hoption _ _ rfl⟩
  simp [pendingObligation]

/-- Everything the deriver emits is pending. -/
theorem deriveObligations_pending {intent : IntentContract} {plan : ActivationPlan}
    {kernels : List KernelBinding} {context : CompiledTaskContext} :
    ∀ o ∈ deriveObligations intent plan kernels context, o.disposition = .pending := by
  unfold deriveObligations
  simp only [List.forall_mem_append, List.forall_mem_map]
  exact ⟨⟨objectiveObligations_pending, fun _ _ => rfl⟩, fun _ _ => rfl⟩

/-- Every blocking unknown of the context becomes a required, pending
obligation. -/
theorem contextObligation_mem {intent : IntentContract} {plan : ActivationPlan}
    {kernels : List KernelBinding} {context : CompiledTaskContext} {u : ContextUnknown}
    (hu : u ∈ context.unresolvedUnknowns) (hblock : u.materiality = .blocking) :
    contextObligation ("intent:" ++ intent.intentId) u
      ∈ deriveObligations intent plan kernels context := by
  unfold deriveObligations
  refine List.mem_append_left _ (List.mem_append_right _ (List.mem_map_of_mem ?_))
  exact List.mem_filter.mpr ⟨hu, by simpa using hblock⟩

theorem isRequiredPending_iff {o : Obligation} :
    o.isRequiredPending = true ↔ o.required = true ∧ o.disposition = .pending := by
  unfold Obligation.isRequiredPending Obligation.isTerminal
  cases o.disposition <;> simp

theorem mem_requiredPendingIds {obligations : List Obligation} {id : String} :
    id ∈ requiredPendingIds obligations ↔
      ∃ o ∈ obligations, o.isRequiredPending = true ∧ o.obligationId = id := by
  unfold requiredPendingIds
  simp only [List.mem_map, List.mem_filter, and_assoc]

end CognitiveRuntime
