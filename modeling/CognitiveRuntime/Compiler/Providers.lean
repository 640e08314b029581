import CognitiveRuntime.Compiler.Packet

/-!
# Provider acceptance

A downstream host accepts the obligations of a packet, or declares them
unsupported, and signs what it declares with a receipt digest. Validation
checks the receipt and then answers with a block, an error, or leave to
execute.
-/

namespace CognitiveRuntime

open Ordered Fallible

structure ProviderAcceptance where
  providerId : String
  acceptedObligationIds : List String
  unsupportedObligationIds : List String
  capabilities : List String
  authorityLimits : List String
  receiptDigest : String
  deriving DecidableEq

/-! ## The packet as validation reads it -/

/-- An obligation of the packet with its identifier; nothing where it has
no text under `obligation_id`. -/
def obligationRecord (record : Json) : Option (String × Json) :=
  match record.get? "obligation_id" with
  | some (.str id) => some (id, record)
  | _ => none

/-- `packet.get("required_obligations") or []`. -/
def requiredRecords (fields : List (String × Json)) : Option (List (String × Json)) :=
  match (Json.field "required_obligations" fields).filter truthy with
  | none => some []
  | some (.arr records) => records.mapM obligationRecord
  | some _ => none

/-- A packet whose required obligations, where it has any, are records
with identifiers. -/
structure PacketDocument where
  fields : List (String × Json)
  required : List (String × Json)
  reads : requiredRecords fields = some required

def PacketDocument.requiredIds (packet : PacketDocument) : List String :=
  packet.required.map Prod.fst

theorem mapM_obligationRecord (l : List Obligation) :
    (l.map Obligation.toJson).mapM obligationRecord
      = some (l.map fun o => (o.obligationId, o.toJson)) := by
  induction l with
  | nil => rfl
  | cons o l ih =>
      have hrecord : obligationRecord o.toJson = some (o.obligationId, o.toJson) := rfl
      rw [List.map_cons, List.mapM_cons, hrecord, ih]
      rfl

theorem requiredRecords_toDict (p : ExecutionPacket) : requiredRecords p.toDict
    = some (p.requiredObligations.map fun o => (o.obligationId, o.toJson)) := by
  have hfield : Json.field "required_obligations" p.toDict
      = some (.arr (p.requiredObligations.map Obligation.toJson)) := rfl
  unfold requiredRecords
  rw [hfield]
  cases hl : p.requiredObligations with
  | nil => rfl
  | cons o l => exact mapM_obligationRecord (o :: l)

/-- What the compiler builds is such a packet. -/
def ExecutionPacket.document (p : ExecutionPacket) : PacketDocument where
  fields := p.toDict
  required := p.requiredObligations.map fun o => (o.obligationId, o.toJson)
  reads := requiredRecords_toDict p

/-! ## Receipts -/

/-- The payload of `acceptance_receipt_digest`. -/
def receiptPayload (packetDigest : String) (acceptance : ProviderAcceptance) : Json :=
  .obj [("packet_digest", .str packetDigest), ("provider_id", .str acceptance.providerId),
    ("accepted_obligation_ids", .ofStrings (sortedBy id acceptance.acceptedObligationIds)),
    ("unsupported_obligation_ids", .ofStrings (sortedBy id acceptance.unsupportedObligationIds)),
    ("capabilities", .ofStrings (sortedBy id acceptance.capabilities)),
    ("authority_limits", .ofStrings (sortedBy id acceptance.authorityLimits))]

/-- `acceptance_receipt_digest`. -/
def acceptanceReceiptDigest (hash : String → String) (packet : PacketDocument)
    (acceptance : ProviderAcceptance) : String :=
  hash (dumpsSorted (receiptPayload (packetDigest hash (.obj packet.fields)) acceptance))

/-- Acceptances that declare the same sets. -/
structure SameDeclarations (a b : ProviderAcceptance) : Prop where
  accepted : SameMembers a.acceptedObligationIds b.acceptedObligationIds
  unsupported : SameMembers a.unsupportedObligationIds b.unsupportedObligationIds
  capabilities : SameMembers a.capabilities b.capabilities
  authorityLimits : SameMembers a.authorityLimits b.authorityLimits

/-- Sorted copies of the same strings list the same strings. -/
theorem sameMembers_of_ofStrings {l m : List String}
    (h : Json.ofStrings (sortedBy id l) = Json.ofStrings (sortedBy id m)) : SameMembers l m := by
  have hsorted : sortedBy id l = sortedBy id m := Json.ofStrings_inj.mp h
  intro x
  rw [← mem_sortedBy id (l := l), hsorted, mem_sortedBy]

/-- A receipt fixes the sets it was computed over. -/
theorem sameDeclarations_of_receipt {hash : String → String} (hhash : Function.Injective hash)
    {p q : PacketDocument} {a b : ProviderAcceptance}
    (h : acceptanceReceiptDigest hash p a = acceptanceReceiptDigest hash q b) :
    SameDeclarations a b := by
  have hpayload := normalize_of_dumpsSorted (hhash h)
  have hvalues := Json.values_eq_of_normalize_eq hpayload rfl (by
    simp only [List.map_cons, List.map_nil]
    decide)
  simp only [List.map_cons, List.map_nil, Json.normalize_ofStrings, List.cons.injEq] at hvalues
  obtain ⟨-, -, haccepted, hunsupported, hcapabilities, hlimits, -⟩ := hvalues
  exact ⟨sameMembers_of_ofStrings haccepted, sameMembers_of_ofStrings hunsupported,
    sameMembers_of_ofStrings hcapabilities, sameMembers_of_ofStrings hlimits⟩

/-! ## Validation -/

/-- What `validate_provider_acceptance` returns. -/
inductive AcceptanceResult where
  | block (unsupportedRequiredObligationIds : List String) (governedHandoff : List Json)
  | executable (acceptedObligationIds : List String) (receiptDigest : String)
  deriving DecidableEq

def AcceptanceResult.toDict : AcceptanceResult → Json
  | .block ids handoff =>
      .obj [("executable", .bool false),
        ("block", .obj [("type", .str "CAPABILITY"),
          ("unsupported_required_obligation_ids", .ofStrings ids),
          ("governed_handoff", .arr handoff),
          ("disposition", .str ObligationDisposition.validBlock.value)])]
  | .executable ids digest =>
      .obj [("executable", .bool true), ("accepted_obligation_ids", .ofStrings ids),
        ("receipt_digest", .str digest)]

/-- The obligations a returned block names. -/
def AcceptanceResult.blocked : AcceptanceResult → List String
  | .block ids _ => ids
  | .executable _ _ => []

section Validation

variable (packet : PacketDocument) (acceptance : ProviderAcceptance)

/-- `accepted & unsupported`, sorted. -/
def overlap : List String :=
  sortedUnique (acceptance.acceptedObligationIds.filter
    (· ∈ acceptance.unsupportedObligationIds))

/-- `sorted(required_ids & unsupported)`. -/
def blockingIds : List String :=
  sortedUnique (packet.requiredIds.filter (· ∈ acceptance.unsupportedObligationIds))

/-- `sorted(required_ids - accepted - unsupported)`. -/
def unacceptedIds : List String :=
  sortedUnique (packet.requiredIds.filter fun id =>
    id ∉ acceptance.acceptedObligationIds ∧ id ∉ acceptance.unsupportedObligationIds)

def governedHandoff : List Json :=
  (packet.required.filter (·.1 ∈ blockingIds packet acceptance)).map Prod.snd

/-- `validate_provider_acceptance`. -/
def validateProviderAcceptance (hash : String → String) :
    Except RuntimeError AcceptanceResult := do
  ensure (overlap acceptance = [])
    (.invalidValue "obligation both accepted and unsupported" (some "provider_acceptance")
      (.obj [("obligation_ids", .ofStrings (overlap acceptance))]))
  let expected := acceptanceReceiptDigest hash packet acceptance
  ensure (acceptance.receiptDigest = expected)
    (.invalidValue "provider acceptance receipt digest mismatch" (some "provider_acceptance")
      (.obj [("expected", .str expected), ("got", .str acceptance.receiptDigest)]))
  let blocking := blockingIds packet acceptance
  -- the block is returned before the undeclared obligations are looked for
  if blocking ≠ [] then
    .ok (.block blocking (governedHandoff packet acceptance))
  else
    let unaccepted := unacceptedIds packet acceptance
    ensure (unaccepted = [])
      (.invalidValue "required obligations neither accepted nor declared unsupported"
        (some "provider_acceptance") (.obj [("obligation_ids", .ofStrings unaccepted)]))
    .ok (.executable (sortedUnique acceptance.acceptedObligationIds) acceptance.receiptDigest)

end Validation

section Outcomes

variable {hash : String → String} {packet : PacketDocument} {acceptance : ProviderAcceptance}

theorem mem_blockingIds {id : String} : id ∈ blockingIds packet acceptance
    ↔ id ∈ packet.requiredIds ∧ id ∈ acceptance.unsupportedObligationIds := by
  simp [blockingIds]

theorem blockingIds_eq_nil : blockingIds packet acceptance = []
    ↔ ∀ id ∈ packet.requiredIds, id ∉ acceptance.unsupportedObligationIds := by
  simp [blockingIds, List.filter_eq_nil_iff]

theorem unacceptedIds_eq_nil : unacceptedIds packet acceptance = []
    ↔ ∀ id ∈ packet.requiredIds,
      id ∈ acceptance.acceptedObligationIds ∨ id ∈ acceptance.unsupportedObligationIds := by
  simp only [unacceptedIds, sortedUnique_eq_nil, List.filter_eq_nil_iff, decide_eq_true_eq]
  exact forall₂_congr fun id _ => by tauto

theorem overlap_eq_nil : overlap acceptance = []
    ↔ ∀ id ∈ acceptance.acceptedObligationIds, id ∉ acceptance.unsupportedObligationIds := by
  simp [overlap, List.filter_eq_nil_iff]

/-- Everything validation can return, and when. -/
theorem validateProviderAcceptance_eq_ok {result : AcceptanceResult} :
    validateProviderAcceptance packet acceptance hash = .ok result
      ↔ overlap acceptance = []
        ∧ acceptance.receiptDigest = acceptanceReceiptDigest hash packet acceptance
        ∧ ((blockingIds packet acceptance ≠ []
            ∧ result = .block (blockingIds packet acceptance) (governedHandoff packet acceptance))
          ∨ (blockingIds packet acceptance = [] ∧ unacceptedIds packet acceptance = []
            ∧ result = .executable (sortedUnique acceptance.acceptedObligationIds)
              acceptance.receiptDigest)) := by
  simp only [validateProviderAcceptance, bind_eq_ok, ensure_eq_ok, decide_eq_true_eq,
    exists_const]
  refine and_congr_right fun _ => and_congr_right fun _ => ?_
  by_cases hblocking : blockingIds packet acceptance = []
  · rw [if_neg (not_not.mpr hblocking)]
    simp only [bind_eq_ok, ensure_eq_ok, decide_eq_true_eq, exists_const, hblocking, ne_eq,
      not_true_eq_false, false_and, false_or, true_and, Except.ok.injEq]
    rw [eq_comm (b := result)]
  · rw [if_pos hblocking]
    simp [hblocking, eq_comm]

end Outcomes

end CognitiveRuntime
