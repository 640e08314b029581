import CognitiveRuntime.Compiler.Contracts

/-!
# Terminal success gate

The gate joins an execution contract and a validation contract by
obligation id and reports every condition of terminal success it finds
unmet. The run has converged when it finds none.
-/

namespace CognitiveRuntime

/-- `_LEGAL_TERMINAL`. -/
def legalTerminal : List ObligationDisposition :=
  [.satisfied, .validBlock, .supersededByHigherAuthority, .notApplicableWithDeterministicProof]

/-- `_BLOCKING_STATUSES`. A required property that never ran blocks too. -/
def blockingStatuses : List ValidationStatus := [.failed, .blocked, .unknown, .notRun]

structure TerminalGateReport where
  converged : Bool
  unmet : List String
  details : List (String × Json)
  deriving DecidableEq

/-! ## What each condition looks at -/

def requiredObligations (execution : ExecutionContract) : List Obligation :=
  execution.obligations.filter Obligation.required

def pendingObligations (execution : ExecutionContract) : List Obligation :=
  (requiredObligations execution).filter fun o => o.disposition = .pending

def blockingProperties (validation : ValidationContract) : List ValidationProperty :=
  validation.validationProperties.filter fun p => p.required && decide (p.status ∈ blockingStatuses)

/-- The first required obligation with the id. -/
def firstRequired (execution : ExecutionContract) (id : String) : Option Obligation :=
  (requiredObligations execution).find? fun o => o.obligationId = id

def architectureProperties (validation : ValidationContract) : List ValidationProperty :=
  validation.validationProperties.filter fun p =>
    decide (p.obligationRef = "OBL.ARCHITECTURE") && p.required

/-! ## The gate -/

/-- A condition found unmet, and what the report says about it. -/
abbrev UnmetCondition := String × List (String × Json)

def unmetDisposition (execution : ExecutionContract) : List UnmetCondition :=
  if (requiredObligations execution).any fun o => o.disposition ∉ legalTerminal then
    [("all_required_obligations_have_legal_disposition",
      [("pending_obligations",
        .ofStrings ((pendingObligations execution).map Obligation.obligationId))])]
  else []

def unmetUnknown (execution : ExecutionContract) : List UnmetCondition :=
  match pendingObligations execution with
  | [] => []
  | pending => [("no_required_obligation_is_UNKNOWN",
      [("unresolved_obligations", .ofStrings (pending.map Obligation.obligationId))])]

def unmetValidation (validation : ValidationContract) : List UnmetCondition :=
  match blockingProperties validation with
  | [] => []
  | blocking => [("no_blocking_validation_failed",
      [("blocking_properties", .ofStrings (blocking.map ValidationProperty.propertyId))])]

/-- An architecture obligation that is still pending asks nothing of its
properties. -/
def unmetArchitecture (execution : ExecutionContract) (validation : ValidationContract) :
    List UnmetCondition :=
  match firstRequired execution "OBL.ARCHITECTURE" with
  | none => []
  | some architecture =>
      if architecture.disposition ≠ .pending
          ∧ (architectureProperties validation).any (fun p => p.status ≠ .passed) = true then
        [("architectural_integrity_satisfied_when_applicable",
          [("architecture_property_statuses",
            .arr ((architectureProperties validation).map fun p =>
              .arr [.str p.propertyId, .str p.status.value]))])]
      else []

def unmetDelivery (execution : ExecutionContract) : List UnmetCondition :=
  match firstRequired execution "OBL.DELIVERY" with
  | none => []
  | some delivery =>
      if delivery.disposition ≠ .satisfied then
        [("requested_delivery_satisfied",
          [("delivery_disposition", .str delivery.disposition.value)])]
      else []

def unmetConditions (execution : ExecutionContract) (validation : ValidationContract) :
    List UnmetCondition :=
  unmetDisposition execution ++ unmetUnknown execution ++ unmetValidation validation
    ++ unmetArchitecture execution validation ++ unmetDelivery execution

/-- `evaluate_terminal_success`. -/
def evaluateTerminalSuccess (execution : ExecutionContract) (validation : ValidationContract) :
    TerminalGateReport :=
  let conditions := unmetConditions execution validation
  let unmet := conditions.map Prod.fst
  { converged := unmet.isEmpty
    unmet := if unmet.isEmpty then [] else unmet ++ ["no_false_completion_condition"]
    details := conditions.flatMap Prod.snd }

/-! ## When the gate opens -/

/-- A reason the gate finds for not converging. -/
inductive OpenReason (execution : ExecutionContract) (validation : ValidationContract) : Prop where
  | pending (o : Obligation) (hmem : o ∈ requiredObligations execution)
      (hpending : o.disposition = .pending)
  | blocking (p : ValidationProperty) (hmem : p ∈ validation.validationProperties)
      (hrequired : p.required = true) (hstatus : p.status ∈ blockingStatuses)
  | architecture (o : Obligation) (hfirst : firstRequired execution "OBL.ARCHITECTURE" = some o)
      (hdisposed : o.disposition ≠ .pending)
      (p : ValidationProperty) (hmem : p ∈ architectureProperties validation)
      (hstatus : p.status ≠ .passed)
  | delivery (o : Obligation) (hfirst : firstRequired execution "OBL.DELIVERY" = some o)
      (hunsatisfied : o.disposition ≠ .satisfied)

theorem mem_legalTerminal {d : ObligationDisposition} : d ∈ legalTerminal ↔ d ≠ .pending := by
  cases d <;> simp [legalTerminal]

theorem mem_pendingObligations {execution : ExecutionContract} {o : Obligation} :
    o ∈ pendingObligations execution
      ↔ o ∈ requiredObligations execution ∧ o.disposition = .pending := by
  simp [pendingObligations, List.mem_filter]

theorem mem_blockingProperties {validation : ValidationContract} {p : ValidationProperty} :
    p ∈ blockingProperties validation
      ↔ p ∈ validation.validationProperties ∧ p.required = true
        ∧ p.status ∈ blockingStatuses := by
  simp [blockingProperties, List.mem_filter]

theorem unmetDisposition_eq_nil {execution : ExecutionContract} :
    unmetDisposition execution = []
      ↔ ∀ o ∈ requiredObligations execution, o.disposition ≠ .pending := by
  simp [unmetDisposition, mem_legalTerminal]

theorem unmetUnknown_eq_nil {execution : ExecutionContract} :
    unmetUnknown execution = []
      ↔ ∀ o ∈ requiredObligations execution, o.disposition ≠ .pending := by
  have hnil : unmetUnknown execution = [] ↔ pendingObligations execution = [] := by
    unfold unmetUnknown
    split <;> simp_all
  rw [hnil, List.eq_nil_iff_forall_not_mem]
  simp [mem_pendingObligations]

theorem unmetValidation_eq_nil {validation : ValidationContract} :
    unmetValidation validation = []
      ↔ ∀ p ∈ validation.validationProperties, p.required = true →
        p.status ∉ blockingStatuses := by
  have hnil : unmetValidation validation = [] ↔ blockingProperties validation = [] := by
    unfold unmetValidation
    split <;> simp_all
  rw [hnil, List.eq_nil_iff_forall_not_mem]
  simp [mem_blockingProperties]

theorem unmetArchitecture_eq_nil {execution : ExecutionContract}
    {validation : ValidationContract} :
    unmetArchitecture execution validation = []
      ↔ ∀ o, firstRequired execution "OBL.ARCHITECTURE" = some o → o.disposition ≠ .pending →
        ∀ p ∈ architectureProperties validation, p.status = .passed := by
  unfold unmetArchitecture
  cases firstRequired execution "OBL.ARCHITECTURE" with
  | none => simp
  | some o => simp

theorem unmetDelivery_eq_nil {execution : ExecutionContract} :
    unmetDelivery execution = []
      ↔ ∀ o, firstRequired execution "OBL.DELIVERY" = some o → o.disposition = .satisfied := by
  unfold unmetDelivery
  cases firstRequired execution "OBL.DELIVERY" with
  | none => simp
  | some o => simp

/-- The gate reports convergence exactly when it has no open reason. -/
theorem converged_iff {execution : ExecutionContract} {validation : ValidationContract} :
    (evaluateTerminalSuccess execution validation).converged = true
      ↔ ¬OpenReason execution validation := by
  have hnil : (evaluateTerminalSuccess execution validation).converged = true
      ↔ unmetConditions execution validation = [] := by
    simp [evaluateTerminalSuccess]
  rw [hnil]
  unfold unmetConditions
  rw [List.append_eq_nil_iff, List.append_eq_nil_iff, List.append_eq_nil_iff,
    List.append_eq_nil_iff, unmetDisposition_eq_nil, unmetUnknown_eq_nil, unmetValidation_eq_nil,
    unmetArchitecture_eq_nil, unmetDelivery_eq_nil]
  constructor
  · rintro ⟨⟨⟨⟨hdisposed, -⟩, hvalidation⟩, harchitecture⟩, hdelivery⟩ hopen
    cases hopen with
    | pending o hmem hpending => exact hdisposed o hmem hpending
    | blocking p hmem hrequired hstatus => exact hvalidation p hmem hrequired hstatus
    | architecture o hfirst hne p hmem hstatus =>
        exact hstatus (harchitecture o hfirst hne p hmem)
    | delivery o hfirst hne => exact hne (hdelivery o hfirst)
  · intro h
    have hdisposed : ∀ o ∈ requiredObligations execution, o.disposition ≠ .pending :=
      fun o hmem hpending => h (.pending o hmem hpending)
    refine ⟨⟨⟨⟨hdisposed, hdisposed⟩, fun p hmem hrequired hstatus =>
      h (.blocking p hmem hrequired hstatus)⟩, fun o hfirst hne p hmem => ?_⟩,
      fun o hfirst => ?_⟩
    · exact by_contra fun hstatus => h (.architecture o hfirst hne p hmem hstatus)
    · exact by_contra fun hne => h (.delivery o hfirst hne)

end CognitiveRuntime
