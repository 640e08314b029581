import CognitiveRuntime.Compiler.Resolution
import CognitiveRuntime.Models.SnapshotMapping

/-!
# Snapshot ingress

`parse_context_snapshot`: a raw payload is counted, measured, and only
then typed. Both ceilings are the ones the compiler preflight applies to
the typed snapshot.
-/

namespace CognitiveRuntime

open Fallible

/-- `SNAPSHOT_BUCKETS`. -/
def snapshotBuckets : List String :=
  ["relevant_entities", "repository_state", "architecture_constraints", "applicable_law",
    "prior_decisions", "dependency_context", "evidence_refs", "memory_context",
    "capability_facts", "authority_facts"]

/-- The candidates under a bucket name: those of a list, and none of
anything else. -/
def bucketLength : Option PyJson → Nat
  | some (.arr items) => items.length
  | _ => 0

/-- `payload_item_count`. -/
def payloadItemCount (payload : Payload) : Nat :=
  (snapshotBuckets.map fun key => bucketLength (payload.get? key)).sum

/-- `payload_canonical_byte_size`. -/
def payloadCanonicalByteSize (payload : Payload) : Except Raised Nat := do
  let bytes ← canonicalJsonBytes (.obj payload)
  .ok bytes.size

/-- `InvalidValueError(message, path="context_snapshot", ...)`. -/
def refusedSnapshot (message : String) (details : Json) : Raised :=
  .model (.invalidValue message (some "context_snapshot") details)

/-- The ceilings of `parse_context_snapshot`, on the untyped payload. -/
def checkIngressCeilings (payload : Payload) : Except Raised Unit := do
  let count := payloadItemCount payload
  ensure (decide (count ≤ snapshotMaxItems))
    (refusedSnapshot "context_snapshot exceeds the maximum item count"
      (.obj [("items", .int count), ("max_items", .int snapshotMaxItems)]))
  let size ← payloadCanonicalByteSize payload
  ensure (decide (size ≤ snapshotMaxBytes))
    (refusedSnapshot "context_snapshot exceeds the maximum canonical byte size"
      (.obj [("bytes", .int size), ("max_bytes", .int snapshotMaxBytes)]))

section Parse

variable [Sha256] [LaxInput]

/-- `ContextSnapshot.from_mapping`, with its model errors wrapped. -/
def readSnapshot (doc : Json) : Except Raised (Option ContextSnapshot) :=
  match ContextSnapshot.fromMapping doc with
  | .ok snapshot => .ok (some snapshot)
  | .error e =>
    if (Raised.model e).isModelValidation then
      .error (refusedSnapshot
        ("context_snapshot is not a valid governed snapshot: " ++ e.text) .null)
    else .error (.model e)

/-- `parse_context_snapshot`. -/
def parseContextSnapshot : PyJson → Except Raised (Option ContextSnapshot)
  | .null => .ok none
  | .obj payload => do
    checkIngressCeilings payload
    -- what has been measured holds no surrogate, so this never fails
    let doc ← require (PyJson.scalar? (.obj payload)) .unicodeEncode
    readSnapshot doc
  | _ => .error (refusedSnapshot "context_snapshot must be an object" .null)

end Parse

/-! ## The measures on a serialized snapshot -/

theorem Payload.get?_toPyEntries (key : String) (entries : Entries) :
    Payload.get? (Json.toPyEntries entries) key = (Json.field key entries).map Json.toPy := by
  unfold Payload.get?
  induction entries with
  | nil => rfl
  | cons e entries ih =>
      obtain ⟨k, j⟩ := e
      rw [Json.toPyEntries, List.find?_cons, Json.field]
      by_cases hk : k = key
      · rw [if_pos hk, hk]
        simp
      · have hne : PyStr.ofString k ≠ PyStr.ofString key := fun h => hk (PyStr.ofString_inj h)
        rw [if_neg hk, ← ih]
        simp [hne]

theorem field_of_mem {key : String} {j : Json} : ∀ {entries : Entries},
    (entries.map Prod.fst).Nodup → (key, j) ∈ entries → Json.field key entries = some j
  | (k, i) :: rest, hnodup, hmem => by
      rw [List.map_cons, List.nodup_cons] at hnodup
      rcases List.mem_cons.mp hmem with heq | hrest
      · obtain ⟨rfl, rfl⟩ := Prod.mk.inj heq
        exact if_pos rfl
      · have hne : k ≠ key := by
          rintro rfl
          exact hnodup.1 (List.mem_map.mpr ⟨(k, j), hrest, rfl⟩)
        rw [Json.field, if_neg hne, field_of_mem hnodup.2 hrest]

/-- The entries of the document of a snapshot. -/
def SnapshotBuckets.entries (s : SnapshotBuckets) : Entries :=
  s.named.map fun bucket => (bucket.1, .arr (bucket.2.2.map ContextItem.toJson))

theorem payloadItemCount_toPyEntries (s : SnapshotBuckets) :
    payloadItemCount (Json.toPyEntries s.entries) = s.itemCount := by
  have hnames : snapshotBuckets = s.named.map Prod.fst := rfl
  have hkeys : s.entries.map Prod.fst = snapshotBuckets := rfl
  have hnodup : snapshotBuckets.Nodup := by decide
  unfold payloadItemCount SnapshotBuckets.itemCount
  rw [hnames, List.map_map]
  refine congrArg List.sum (List.map_congr_left fun bucket hbucket => ?_)
  have hfield : Json.field bucket.1 s.entries
      = some (.arr (bucket.2.2.map ContextItem.toJson)) :=
    field_of_mem (hkeys ▸ hnodup) (List.mem_map.mpr ⟨bucket, hbucket, rfl⟩)
  show bucketLength (Payload.get? (Json.toPyEntries s.entries) bucket.1) = bucket.2.2.length
  rw [Payload.get?_toPyEntries, hfield, Option.map_some, Json.toPy, Json.toPyItems_eq,
    bucketLength, List.length_map, List.length_map]

/-! ## What the ceilings accept -/

theorem checkIngressCeilings_eq_ok {payload : Payload} :
    checkIngressCeilings payload = .ok () ↔
      payloadItemCount payload ≤ snapshotMaxItems
        ∧ ∃ bytes, canonicalJsonBytes (.obj payload) = .ok bytes
          ∧ bytes.size ≤ snapshotMaxBytes := by
  unfold checkIngressCeilings payloadCanonicalByteSize
  simp only [bind_eq_ok, ensure_eq_ok, decide_eq_true_eq]
  constructor
  · rintro ⟨_, hcount, size, ⟨bytes, hbytes, hsize⟩, hle⟩
    obtain rfl := Except.ok.inj hsize
    exact ⟨hcount, bytes, hbytes, hle⟩
  · rintro ⟨hcount, bytes, hbytes, hle⟩
    exact ⟨(), hcount, bytes.size, ⟨bytes, hbytes, rfl⟩, hle⟩

end CognitiveRuntime
