import CognitiveRuntime.Properties.Views

/-!
# What an item id covers

The id of an item covers its kind, key, claim, applicability and source.
Items that share one may still differ in authority, and in nothing else
that a compile reads.
-/

namespace CognitiveRuntime

open Ordered

/-! ## The same claim -/

/-- Two items assert the same claim: equal dictionaries. -/
def SameClaim (a b : ContextItem) : Prop := a.claimPayload.normalize = b.claimPayload.normalize

theorem SameClaim.field {a b : ContextItem} (h : SameClaim a b) (key : String) :
    (Json.field key a.claim.payload).map Json.normalize
      = (Json.field key b.claim.payload).map Json.normalize :=
  Json.field_of_normalize_eq h key

theorem sameClaim_of_claim_eq {a b : ContextItem} (h : a.claim = b.claim) : SameClaim a b := by
  unfold SameClaim ContextItem.claimPayload
  rw [h]

/-! ## Claims and where they apply -/

section Identity

variable [Sha256]

omit [Sha256] in
/-- Where items apply is read off their normalized applicability. -/
theorem applicability_inj {a b : ContextItem}
    (h : a.applicabilityPayload.normalize = b.applicabilityPayload.normalize) :
    a.applicabilityPayload = b.applicabilityPayload := by
  have hmode := Json.field_of_normalize_eq h "scope_mode"
  have hrefs := Json.field_of_normalize_eq h "scope_refs"
  simp [Json.field] at hmode hrefs
  unfold ContextItem.applicabilityPayload
  rw [hmode, hrefs]

/-- Representatives are kept apart by claim and applicability. -/
theorem claimDigest_eq_iff (hsha : Sha256.Injective) {a b : ContextItem} :
    claimDigest a = claimDigest b ↔
      SameClaim a b ∧ a.applicabilityPayload = b.applicabilityPayload := by
  constructor
  · intro h
    have hpayload := hsha (claimDigestPayload a) (claimDigestPayload b) h
    have hclaim := Json.field_of_normalize_eq hpayload "claim"
    have happly := Json.field_of_normalize_eq hpayload "applicability"
    simp [Json.field] at hclaim happly
    exact ⟨hclaim, applicability_inj happly⟩
  · rintro ⟨hclaim, happly⟩
    have hpayload : (claimDigestPayload a).normalize = (claimDigestPayload b).normalize := by
      unfold SameClaim at hclaim
      unfold claimDigestPayload
      rw [Json.normalize_obj, Json.normalize_obj, happly]
      simp only [List.map_cons, List.map_nil, hclaim]
    unfold claimDigest sha256Digest
    rw [hpayload]

/-! ## Item ids -/

/-- Two items share everything an item id covers. -/
structure SameItem (a b : ContextItem) : Prop where
  contextKind : a.contextKind = b.contextKind
  semanticKey : a.semanticKey = b.semanticKey
  claim : SameClaim a b
  applicability : a.applicabilityPayload = b.applicabilityPayload
  sourceRef : a.sourceRef = b.sourceRef

omit [Sha256] in
theorem sourceRef_inj {r s : ContextSourceRef}
    (h : r.identityPayload.normalize = s.identityPayload.normalize) : r = s := by
  have hid := Json.field_of_normalize_eq h "source_id"
  have hkind := Json.field_of_normalize_eq h "source_kind"
  have hlocator := Json.field_of_normalize_eq h "locator"
  have hcoordinate := Json.field_of_normalize_eq h "immutable_coordinate"
  have hdigest := Json.field_of_normalize_eq h "content_digest"
  simp [Json.field, Json.ofOption_inj] at hid hkind hlocator hcoordinate hdigest
  cases r
  cases s
  simp only at hid hkind hlocator hcoordinate hdigest
  subst hid hkind hlocator hcoordinate hdigest
  rfl

theorem sameItem_of_id (hsha : Sha256.Injective) {a b : ContextItem}
    (ha : a.itemId = a.expectedItemId) (hb : b.itemId = b.expectedItemId)
    (h : a.itemId = b.itemId) : SameItem a b := by
  have hpayload := deriveId_inj hsha (ha.symm.trans (h.trans hb))
  have hkind := Json.field_of_normalize_eq hpayload "context_kind"
  have hkey := Json.field_of_normalize_eq hpayload "semantic_key"
  have hclaim := Json.field_of_normalize_eq hpayload "claim"
  have happly := Json.field_of_normalize_eq hpayload "applicability"
  have hsource := Json.field_of_normalize_eq hpayload "source_identity"
  simp [Json.field, ContextKind.value_inj] at hkind hkey hclaim happly hsource
  exact ⟨hkind, hkey, hclaim, applicability_inj happly, sourceRef_inj hsource⟩

/-- A derived id is no word with another first letter. -/
theorem itemId_ne_of_recipe {item : ContextItem} (h : item.itemId = item.expectedItemId)
    {s : String} (hs : s.toList.head? ≠ some 'c') : item.itemId ≠ s := by
  rintro rfl
  refine hs ?_
  rw [h]
  unfold ContextItem.expectedItemId deriveId
  rw [String.toList_append]
  rfl

theorem claimDigest_eq_of_id (hsha : Sha256.Injective) {a b : ContextItem}
    (ha : a.itemId = a.expectedItemId) (hb : b.itemId = b.expectedItemId)
    (h : a.itemId = b.itemId) : claimDigest a = claimDigest b :=
  have hsame := sameItem_of_id hsha ha hb h
  (claimDigest_eq_iff hsha).mpr ⟨hsame.claim, hsame.applicability⟩

end Identity

end CognitiveRuntime
