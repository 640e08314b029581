import CognitiveRuntime.Compiler.Providers

/-!
# Partial acceptance

Validation looks at the required obligations twice: once for those the
provider declares unsupported, once for those it does not declare at all.
The second look comes after the return of the block, so a block says
nothing of what was never declared. Leave to execute and the receipt
check have no such gap.
-/

namespace CognitiveRuntime

open Ordered

variable {hash : String → String} {packet : PacketDocument} {acceptance : ProviderAcceptance}

/-- A partial acceptance is never silent. -/
structure NeverSilent (hash : String → String) (packet : PacketDocument)
    (acceptance : ProviderAcceptance) : Prop where
  /-- Every required obligation is accepted or named in the block. -/
  accounted : ∀ result, validateProviderAcceptance packet acceptance hash = .ok result →
    ∀ id ∈ packet.requiredIds, id ∈ acceptance.acceptedObligationIds ∨ id ∈ result.blocked
  /-- Leave to execute needs every required obligation. -/
  executable : ∀ ids digest,
    validateProviderAcceptance packet acceptance hash = .ok (.executable ids digest) →
    ∀ id ∈ packet.requiredIds,
      id ∈ acceptance.acceptedObligationIds ∧ id ∉ acceptance.unsupportedObligationIds
  /-- A receipt computed over other sets is refused. -/
  refused : ∀ issuedFor issued,
    acceptance.receiptDigest = acceptanceReceiptDigest hash issuedFor issued →
    ¬ SameDeclarations issued acceptance →
    ∃ e, validateProviderAcceptance packet acceptance hash = .error e

/-- Validation raises before it looks at the packet, or the packet has no
obligation left for it to miss. -/
def NothingHidden (hash : String → String) (packet : PacketDocument)
    (acceptance : ProviderAcceptance) : Prop :=
  (∃ id ∈ acceptance.acceptedObligationIds, id ∈ acceptance.unsupportedObligationIds)
    ∨ acceptance.receiptDigest ≠ acceptanceReceiptDigest hash packet acceptance
    ∨ (∀ id ∈ packet.requiredIds, id ∉ acceptance.unsupportedObligationIds)
    ∨ ∀ id ∈ packet.requiredIds,
      id ∈ acceptance.acceptedObligationIds ∨ id ∈ acceptance.unsupportedObligationIds

/-! ## What always holds -/

theorem executable_accepted {ids : List String} {digest : String}
    (h : validateProviderAcceptance packet acceptance hash = .ok (.executable ids digest)) :
    ∀ id ∈ packet.requiredIds,
      id ∈ acceptance.acceptedObligationIds ∧ id ∉ acceptance.unsupportedObligationIds := by
  obtain ⟨-, -, ⟨-, hblock⟩ | ⟨hblocking, hunaccepted, -⟩⟩ := validateProviderAcceptance_eq_ok.mp h
  · cases hblock
  · intro id hid
    have hunsupported := blockingIds_eq_nil.mp hblocking id hid
    exact ⟨(unacceptedIds_eq_nil.mp hunaccepted id hid).resolve_right hunsupported, hunsupported⟩

/-- Whatever is returned was signed for the sets it was returned for. -/
theorem tampering_refused (hhash : Function.Injective hash) {issuedFor : PacketDocument}
    {issued : ProviderAcceptance}
    (hreceipt : acceptance.receiptDigest = acceptanceReceiptDigest hash issuedFor issued)
    (hsets : ¬ SameDeclarations issued acceptance) :
    ∃ e, validateProviderAcceptance packet acceptance hash = .error e := by
  cases h : validateProviderAcceptance packet acceptance hash with
  | error e => exact ⟨e, rfl⟩
  | ok result =>
      obtain ⟨-, hdigest, -⟩ := validateProviderAcceptance_eq_ok.mp h
      exact absurd (sameDeclarations_of_receipt hhash (hreceipt.symm.trans hdigest)) hsets

/-! ## The hidden obligations -/

theorem accounted_of_nothingHidden (hcond : NothingHidden hash packet acceptance)
    {result : AcceptanceResult}
    (h : validateProviderAcceptance packet acceptance hash = .ok result) :
    ∀ id ∈ packet.requiredIds, id ∈ acceptance.acceptedObligationIds ∨ id ∈ result.blocked := by
  intro id hid
  obtain ⟨hoverlap, hdigest, ⟨hblocking, rfl⟩ | ⟨hblocking, hunaccepted, rfl⟩⟩ :=
    validateProviderAcceptance_eq_ok.mp h
  · rcases hcond with ⟨both, haccepted, hunsupported⟩ | hmismatch | hnone | hdeclared
    · exact absurd hunsupported (overlap_eq_nil.mp hoverlap both haccepted)
    · exact absurd hdigest hmismatch
    · exact absurd (blockingIds_eq_nil.mpr hnone) hblocking
    · rcases hdeclared id hid with haccepted | hunsupported
      · exact .inl haccepted
      · exact .inr (mem_blockingIds.mpr ⟨hid, hunsupported⟩)
  · exact .inl ((unacceptedIds_eq_nil.mp hunaccepted id hid).resolve_right
      (blockingIds_eq_nil.mp hblocking id hid))

/-- A block that was returned next to an undeclared obligation leaves it
out. -/
theorem nothingHidden_of_accounted
    (h : ∀ result, validateProviderAcceptance packet acceptance hash = .ok result →
      ∀ id ∈ packet.requiredIds, id ∈ acceptance.acceptedObligationIds ∨ id ∈ result.blocked) :
    NothingHidden hash packet acceptance := by
  by_cases hoverlap : overlap acceptance = []
  · by_cases hdigest : acceptance.receiptDigest = acceptanceReceiptDigest hash packet acceptance
    · by_cases hblocking : blockingIds packet acceptance = []
      · exact .inr (.inr (.inl (blockingIds_eq_nil.mp hblocking)))
      · have hblock := validateProviderAcceptance_eq_ok.mpr
          ⟨hoverlap, hdigest, .inl ⟨hblocking, rfl⟩⟩
        refine .inr (.inr (.inr fun id hid => ?_))
        rcases h _ hblock id hid with haccepted | hnamed
        · exact .inl haccepted
        · exact .inr (mem_blockingIds.mp hnamed).2
    · exact .inr (.inl hdigest)
  · rw [overlap_eq_nil] at hoverlap
    push Not at hoverlap
    exact .inl hoverlap

/-- An acceptance is never silent exactly when no block is returned next
to an undeclared obligation. -/
theorem never_silent_iff (hhash : Function.Injective hash) :
    NeverSilent hash packet acceptance ↔ NothingHidden hash packet acceptance where
  mp h := nothingHidden_of_accounted h.accounted
  mpr h :=
    { accounted := fun _ hresult => accounted_of_nothingHidden h hresult
      executable := fun _ _ hresult => executable_accepted hresult
      refused := fun _ _ hreceipt hsets => tampering_refused hhash hreceipt hsets }

/-! ## A provider that declares one of two obligations -/

def realizationObligation : Obligation :=
  pendingObligation "OBL.REALIZATION" .realization "intent:I" true "validation_runtime"
    ["execution_graph"] ["realization evidence"]

def deliveryObligation : Obligation :=
  pendingObligation "OBL.DELIVERY" .delivery "intent:I" true "validation_runtime"
    ["handoff_contract"] ["delivery evidence"]

def deliveryPacket : ExecutionPacket where
  intent := .obj [("mission", .str "deliver the greeting")]
  compiledTaskContext := .obj []
  compiledTaskContextDigest := "d0"
  contextPlanId := "ctxplan.sha256:p0"
  activeKernelBindings := []
  executionSteps := []
  requiredObligations := [realizationObligation, deliveryObligation]
  validationProperties := []
  deliveryObligations := [deliveryObligation]
  unknowns := []
  blockSemantics := blockSemantics
  convergenceContract := convergenceContract
  provenance :=
    { semanticDigest := "s0", routingRulesDigest := "r0", pipelineDigest := "l0"
      kernelDigests := [], graphDigest := "g0", handoffDigest := "h0", contextDigest := "d0"
      contextPlanId := "ctxplan.sha256:p0" }

/-- An acceptance under the receipt computed over it. -/
def ProviderAcceptance.signed (acceptance : ProviderAcceptance) (hash : String → String)
    (packet : PacketDocument) : ProviderAcceptance :=
  { acceptance with receiptDigest := acceptanceReceiptDigest hash packet acceptance }

/-- The receipt is not part of what it signs. -/
theorem signed_receipt (acceptance : ProviderAcceptance) (hash : String → String)
    (packet : PacketDocument) : (acceptance.signed hash packet).receiptDigest
      = acceptanceReceiptDigest hash packet (acceptance.signed hash packet) := rfl

/-- A signed acceptance of nothing. -/
def refusalOf (unsupported : List String) : ProviderAcceptance :=
  ProviderAcceptance.signed
    { providerId := "host", acceptedObligationIds := [], unsupportedObligationIds := unsupported
      capabilities := [], authorityLimits := [], receiptDigest := "" } id deliveryPacket.document

/-- The block names the delivery and not the realization. -/
theorem undeclared_obligation_hidden :
    Function.Injective (id : String → String)
      ∧ ¬ NeverSilent id deliveryPacket.document (refusalOf ["OBL.DELIVERY"]) := by
  have hdelivery : "OBL.DELIVERY"
      ∈ blockingIds deliveryPacket.document (refusalOf ["OBL.DELIVERY"]) :=
    mem_blockingIds.mpr ⟨by decide, by decide⟩
  have hoverlap : overlap (refusalOf ["OBL.DELIVERY"]) = [] :=
    overlap_eq_nil.mpr fun _ hid => by cases hid
  have hblock := validateProviderAcceptance_eq_ok.mpr
    ⟨hoverlap, signed_receipt _ id deliveryPacket.document,
      .inl ⟨List.ne_nil_of_mem hdelivery, rfl⟩⟩
  refine ⟨Function.injective_id, fun h => ?_⟩
  rcases h.accounted _ hblock "OBL.REALIZATION" (by decide) with haccepted | hnamed
  · cases haccepted
  · have hunsupported : "OBL.REALIZATION" ∈ ["OBL.DELIVERY"] := (mem_blockingIds.mp hnamed).2
    revert hunsupported
    decide

/-- A provider that declares both is told of both. -/
theorem declared_obligations_named :
    NeverSilent id deliveryPacket.document (refusalOf ["OBL.DELIVERY", "OBL.REALIZATION"]) := by
  have hdeclared : ∀ id ∈ deliveryPacket.document.requiredIds,
      id ∈ ["OBL.DELIVERY", "OBL.REALIZATION"] := by decide
  exact (never_silent_iff Function.injective_id).mpr
    (.inr (.inr (.inr fun id hid => .inr (hdeclared id hid))))

end CognitiveRuntime
