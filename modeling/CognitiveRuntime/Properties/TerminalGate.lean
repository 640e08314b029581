import CognitiveRuntime.Compiler.Convergence

/-!
# Converged is not yet proven closure

The gate looks at the properties it is given and never for one that is
missing: an obligation called satisfied without any property passes it.
It also reads the first delivery obligation only. Beyond these two gaps a
converged report proves closure, and a validation contract that was
compiled from the execution contract closes both.
-/

namespace CognitiveRuntime

/-! ## What a converged report is taken to prove -/

/-- The dispositions that answer an obligation without any evidence. -/
def disposedWithoutEvidence : List ObligationDisposition :=
  [.validBlock, .supersededByHigherAuthority, .notApplicableWithDeterministicProof]

/-- A required property speaks for the obligation. -/
def Obligation.BoundBy (o : Obligation) (validation : ValidationContract) : Prop :=
  ∃ p ∈ validation.validationProperties, p.required = true ∧ p.obligationRef = o.obligationId

/-- Every required obligation that needs evidence has a required property. -/
def EvidenceBound (execution : ExecutionContract) (validation : ValidationContract) : Prop :=
  ∀ o ∈ requiredObligations execution, o.disposition ∉ disposedWithoutEvidence →
    o.BoundBy validation

/-- Every required delivery obligation is satisfied. -/
def Delivered (execution : ExecutionContract) : Prop :=
  ∀ o ∈ requiredObligations execution, o.obligationId = "OBL.DELIVERY" →
    o.disposition = .satisfied

structure ProvenClosure (execution : ExecutionContract) (validation : ValidationContract) :
    Prop where
  legal : ∀ o ∈ requiredObligations execution, o.disposition ∈ legalTerminal
  bound : EvidenceBound execution validation
  unblocked : ∀ p ∈ validation.validationProperties, p.required = true →
    p.status ∉ blockingStatuses
  delivered : Delivered execution
  architecture : ∀ o ∈ requiredObligations execution, o.obligationId = "OBL.ARCHITECTURE" →
    o.disposition = .satisfied → o.BoundBy validation
      ∧ ∀ p ∈ architectureProperties validation, p.status = .passed

/-! ## What it does prove -/

variable {execution : ExecutionContract} {validation : ValidationContract}

theorem firstRequired_isSome {id : String} {o : Obligation}
    (hmem : o ∈ requiredObligations execution) (hid : o.obligationId = id) :
    ∃ first, firstRequired execution id = some first
      ∧ first ∈ requiredObligations execution := by
  have hsome : (firstRequired execution id).isSome := by
    unfold firstRequired
    rw [List.find?_isSome]
    exact ⟨o, hmem, decide_eq_true hid⟩
  obtain ⟨first, hfirst⟩ := Option.isSome_iff_exists.mp hsome
  exact ⟨first, hfirst, List.mem_of_find?_eq_some hfirst⟩

/-- Without an open reason the two gaps are all that is missing. -/
theorem provenClosure_of_not_open (hclosed : ¬OpenReason execution validation)
    (hbound : EvidenceBound execution validation) (hdelivered : Delivered execution) :
    ProvenClosure execution validation := by
  have hdisposed : ∀ o ∈ requiredObligations execution, o.disposition ≠ .pending :=
    fun o hmem hpending => hclosed (.pending o hmem hpending)
  refine ⟨fun o hmem => mem_legalTerminal.mpr (hdisposed o hmem), hbound, ?_, hdelivered, ?_⟩
  · intro p hmem hrequired hstatus
    exact hclosed (.blocking p hmem hrequired hstatus)
  · intro o hmem hid hsatisfied
    refine ⟨hbound o hmem ?_, ?_⟩
    · rw [hsatisfied]
      simp [disposedWithoutEvidence]
    · intro p hp
      obtain ⟨first, hfirst, hfirstmem⟩ := firstRequired_isSome hmem hid
      have hne := hdisposed first hfirstmem
      exact by_contra fun hstatus => hclosed (.architecture first hfirst hne p hp hstatus)

/-- A required obligation is called satisfied, and no required property
speaks for it. -/
def AssertedOnly (execution : ExecutionContract) (validation : ValidationContract) : Prop :=
  ∃ o ∈ requiredObligations execution, o.disposition = .satisfied ∧ ¬o.BoundBy validation

/-- A required delivery that is not satisfied stands behind a first one
that is. -/
def DeliveryBehindFirst (execution : ExecutionContract) : Prop :=
  ∃ first, firstRequired execution "OBL.DELIVERY" = some first ∧ first.disposition = .satisfied
    ∧ ∃ o ∈ requiredObligations execution, o.obligationId = "OBL.DELIVERY"
      ∧ o.disposition ≠ .satisfied

/-- With the gate open, what needs evidence is what is called satisfied. -/
theorem evidenceBound_of_not_asserted (hclosed : ¬OpenReason execution validation)
    (hasserted : ¬AssertedOnly execution validation) : EvidenceBound execution validation := by
  intro o hmem hevidence
  have hsatisfied : o.disposition = .satisfied := by
    have hne : o.disposition ≠ .pending := fun hpending => hclosed (.pending o hmem hpending)
    cases hdisposition : o.disposition <;> rw [hdisposition] at hne hevidence <;>
      first | rfl | exact absurd rfl hne | exact absurd (by decide) hevidence
  exact by_contra fun hunbound => hasserted ⟨o, hmem, hsatisfied, hunbound⟩

/-- With the gate open, the first delivery is satisfied. -/
theorem delivered_of_none_behind (hclosed : ¬OpenReason execution validation)
    (hbehind : ¬DeliveryBehindFirst execution) : Delivered execution := by
  intro o hmem hid
  obtain ⟨first, hfirst, -⟩ := firstRequired_isSome hmem hid
  have hsatisfied : first.disposition = .satisfied :=
    by_contra fun hne => hclosed (.delivery first hfirst hne)
  exact by_contra fun hne => hbehind ⟨first, hfirst, hsatisfied, o, hmem, hid, hne⟩

/-- A converged report proves closure exactly where no required
obligation is called satisfied without a required property that names it,
and no unsatisfied delivery stands behind a satisfied first one. -/
theorem converged_proves_closure_iff (execution : ExecutionContract)
    (validation : ValidationContract)
    (hconverged : (evaluateTerminalSuccess execution validation).converged = true) :
    ProvenClosure execution validation
      ↔ ¬AssertedOnly execution validation ∧ ¬DeliveryBehindFirst execution := by
  have hclosed := converged_iff.mp hconverged
  constructor
  · intro hproven
    refine ⟨?_, ?_⟩
    · rintro ⟨o, hmem, hsatisfied, hunbound⟩
      refine hunbound (hproven.bound o hmem ?_)
      rw [hsatisfied]
      decide
    · rintro ⟨-, -, -, o, hmem, hid, hunsatisfied⟩
      exact hunsatisfied (hproven.delivered o hmem hid)
  · rintro ⟨hasserted, hbehind⟩
    exact provenClosure_of_not_open hclosed (evidenceBound_of_not_asserted hclosed hasserted)
      (delivered_of_none_behind hclosed hbehind)

/-! ## Contracts that nobody verified -/

/-- An execution contract whose only obligation is called satisfied. -/
def assertedExecution : ExecutionContract :=
  { contractId := "UNIVERSAL_EXECUTION_CONTRACT"
    contractType := "universal_execution_contract"
    sourceActivationPlan := activationPlanSource
    terminalDoctrine := "FLAWLESS_VICTORY"
    objective := "ship the greeter"
    authorityOrder := defaultAuthorityOrder
    kernelActivation := []
    executionSequence := []
    validationRequirements := []
    outputContract := []
    adapterTargets := []
    version := "1.0"
    stopConditions := []
    metadata :=
      { compiledBy := "test", pipelineId := "P", matchedRoute := "pack_review"
        confidence := "low", phaseKernels := [], kernelDigests := []
        authorityOrderSource := "test", contextDigest := "" }
    obligations :=
      [{ pendingObligation "OBL.REALIZATION" .realization "intent:I" true "validation_runtime"
          ["execution_graph"] ["realization evidence"] with disposition := .satisfied }]
    executionSteps := [] }

/-- A validation contract that binds nothing. -/
def emptyValidation : ValidationContract :=
  { contractId := "VALIDATION_CONTRACT", contractType := "validation_contract"
    validationLadder := [], evidenceRequired := [], allowedStatuses := ValidationStatus.all
    reportOutputs := [], validationProperties := [] }

/-- A satisfied realization that no property speaks for converges. -/
theorem asserted_realization_converges :
    (evaluateTerminalSuccess assertedExecution emptyValidation).converged = true
      ∧ ¬ProvenClosure assertedExecution emptyValidation := by
  refine ⟨by decide, fun h => ?_⟩
  have hmem : assertedExecution.obligations.head (by decide)
      ∈ requiredObligations assertedExecution := by decide
  obtain ⟨p, hp, -⟩ := h.bound _ hmem (by decide)
  cases hp

/-- A satisfied delivery, and a realization blocked for a reason. -/
def deliveredExecution : ExecutionContract :=
  { assertedExecution with
    obligations :=
      [{ pendingObligation "OBL.DELIVERY" .delivery "intent:I" true "validation_runtime"
          ["execution_graph"] ["delivery evidence"] with disposition := .satisfied },
        { pendingObligation "OBL.REALIZATION" .realization "intent:I" true "validation_runtime"
          ["execution_graph"] ["realization evidence"] with disposition := .validBlock }] }

/-- The delivery alone has a property, and it passed. -/
def deliveryValidation : ValidationContract :=
  { emptyValidation with
    validationProperties :=
      [{ openProperty "PROP.OBL.DELIVERY" "OBL.DELIVERY" "delivery" with status := .passed }] }

/-- A delivery with its property passed closes, beside a blocked
realization that no property speaks for. -/
theorem delivered_closed :
    (evaluateTerminalSuccess deliveredExecution deliveryValidation).converged = true
      ∧ ProvenClosure deliveredExecution deliveryValidation := by
  have hconverged :
      (evaluateTerminalSuccess deliveredExecution deliveryValidation).converged = true := by decide
  refine ⟨hconverged, (converged_proves_closure_iff _ _ hconverged).mpr ⟨?_, ?_⟩⟩
  · rintro ⟨o, hmem, hsatisfied, hunbound⟩
    rcases List.mem_pair.mp hmem with rfl | rfl
    · exact hunbound ⟨_, List.mem_singleton_self _, rfl, rfl⟩
    · cases hsatisfied
  · rintro ⟨-, -, -, o, hmem, hid, hunsatisfied⟩
    rcases List.mem_pair.mp hmem with rfl | rfl
    · exact hunsatisfied rfl
    · exact absurd hid (by decide)

/-! ## Compiled contracts -/

/-- The same obligations, whatever has become of them. -/
def KeptObligations (compiled current : ExecutionContract) : Prop :=
  current.obligations.map (fun o => (o.obligationId, o.required))
    = compiled.obligations.map fun o => (o.obligationId, o.required)

/-- The same properties, whatever has been found about them. -/
def KeptProperties (compiled current : ValidationContract) : Prop :=
  current.validationProperties.map (fun p => (p.obligationRef, p.required))
    = compiled.validationProperties.map fun p => (p.obligationRef, p.required)

theorem mem_requiredObligations {o : Obligation} :
    o ∈ requiredObligations execution ↔ o ∈ execution.obligations ∧ o.required = true :=
  List.mem_filter

/-- Over the obligations and properties of a compiled pair, every
required obligation stays bound. -/
theorem evidenceBound_of_compiled {compiled : ExecutionContract} {plan : ActivationPlan}
    (hobligations : KeptObligations compiled execution)
    (hproperties : KeptProperties (compileValidation compiled plan) validation) :
    EvidenceBound execution validation := by
  intro o hmem _
  obtain ⟨ho, hrequired⟩ := mem_requiredObligations.mp hmem
  have hkey : (o.obligationId, o.required)
      ∈ compiled.obligations.map fun o => (o.obligationId, o.required) :=
    hobligations ▸ List.mem_map_of_mem ho
  obtain ⟨o', ho', heq⟩ := List.mem_map.mp hkey
  obtain ⟨hid, hrequired'⟩ := Prod.mk.injEq .. |>.mp heq
  have hproperty : (o.obligationId, true)
      ∈ (compileValidation compiled plan).validationProperties.map
        fun p => (p.obligationRef, p.required) := by
    refine List.mem_map.mpr ⟨openProperty ("PROP." ++ o'.obligationId) o'.obligationId
      (evaluatorOf o'.kind), List.mem_append_left _ (List.mem_map.mpr ⟨o', ?_, rfl⟩), ?_⟩
    · exact List.mem_filter.mpr ⟨ho', hrequired'.trans hrequired⟩
    · rw [← hid]
      rfl
  rw [← hproperties] at hproperty
  obtain ⟨p, hp, hpair⟩ := List.mem_map.mp hproperty
  obtain ⟨href, hpr⟩ := Prod.mk.injEq .. |>.mp hpair
  exact ⟨p, hp, hpr, href⟩

/-- With one delivery obligation the gate reads all there is to read. -/
theorem delivered_of_unique (hclosed : ¬OpenReason execution validation)
    (hunique : (execution.obligations.map Obligation.obligationId).Nodup) :
    Delivered execution := by
  intro o hmem hid
  obtain ⟨first, hfirst, hfirstmem⟩ := firstRequired_isSome hmem hid
  have hfirstid : first.obligationId = "OBL.DELIVERY" := by
    have h := List.find?_some hfirst
    exact of_decide_eq_true h
  have hsame : first = o :=
    List.inj_on_of_nodup_map hunique (mem_requiredObligations.mp hfirstmem).1
      (mem_requiredObligations.mp hmem).1 (hfirstid.trans hid.symm)
  exact by_contra fun hne => hclosed (.delivery first hfirst (hsame ▸ hne))

/-- A report on compiled contracts that converges proves closure,
whatever dispositions and statuses the run has written into them. -/
theorem compiled_converged_closed {compiled : ExecutionContract} {plan : ActivationPlan}
    (hobligations : KeptObligations compiled execution)
    (hproperties : KeptProperties (compileValidation compiled plan) validation)
    (hunique : (execution.obligations.map Obligation.obligationId).Nodup)
    (hconverged : (evaluateTerminalSuccess execution validation).converged = true) :
    ProvenClosure execution validation := by
  have hclosed := converged_iff.mp hconverged
  exact provenClosure_of_not_open hclosed (evidenceBound_of_compiled hobligations hproperties)
    (delivered_of_unique hclosed hunique)

end CognitiveRuntime
