import CognitiveRuntime.Mcp.Ingress

/-!
# Snapshots at the ingress

A serialized snapshot is read back item for item, and the counters of the
raw payload agree with those of the typed snapshot; so the ingress
refuses it exactly when the preflight would.

An arbitrary payload ends in a snapshot or a typed error, except one that
is measured while it holds a surrogate: encoding its text fails with an
error nothing catches.
-/

namespace CognitiveRuntime

open Fallible

/-! ## Round trip -/

section Snapshots

variable [Sha256] [LaxInput]

/-- The payload a snapshot serializes to. -/
def SnapshotBuckets.payload (s : SnapshotBuckets) : Payload := Json.toPyEntries s.entries

omit [Sha256] [LaxInput] in
theorem SnapshotBuckets.toPy_toJson (s : SnapshotBuckets) : s.toJson.toPy = .obj s.payload := rfl

omit [Sha256] [LaxInput] in
theorem payloadCanonicalByteSize_payload (s : SnapshotBuckets) :
    payloadCanonicalByteSize s.payload = .ok s.canonicalByteSize := by
  unfold payloadCanonicalByteSize SnapshotBuckets.canonicalByteSize
  rw [← SnapshotBuckets.toPy_toJson, canonicalJsonBytes_toPy, ok_bind, size_canonicalText,
    Json.size_normalize]

omit [Sha256] [LaxInput] in
/-- The ingress ceilings are the ones of the preflight. -/
theorem checkIngressCeilings_payload (s : SnapshotBuckets) :
    checkIngressCeilings s.payload = .ok () ↔ preflightSnapshot s = .ok () := by
  have hsize := payloadCanonicalByteSize_payload s
  unfold payloadCanonicalByteSize at hsize
  obtain ⟨bytes, hbytes, heq⟩ := bind_eq_ok.mp hsize
  have hbytesize : bytes.size = s.canonicalByteSize := Except.ok.inj heq
  rw [checkIngressCeilings_eq_ok, preflightSnapshot_ok_iff, WithinCeilings,
    show payloadItemCount s.payload = s.itemCount from payloadItemCount_toPyEntries s]
  constructor
  · rintro ⟨hcount, bytes', hbytes', hle⟩
    obtain rfl := Except.ok.inj (hbytes.symm.trans hbytes')
    exact ⟨hcount, hbytesize ▸ hle⟩
  · rintro ⟨hcount, hle⟩
    exact ⟨hcount, bytes, hbytes, hbytesize ▸ hle⟩

theorem parseContextSnapshot_payload {s : ContextSnapshot}
    (hceilings : checkIngressCeilings s.payload = .ok ()) :
    parseContextSnapshot (.obj s.payload) = .ok (some s) := by
  have hscalar : PyJson.scalar? (.obj s.payload) = some s.toSnapshotBuckets.toJson :=
    PyJson.scalar?_toPy s.toSnapshotBuckets.toJson
  unfold parseContextSnapshot readSnapshot
  dsimp only
  rw [hceilings, ok_bind, hscalar, require_some, ok_bind, ContextSnapshot.fromMapping_toJson]

omit [Sha256] [LaxInput] in
theorem ok_or_error {ε α : Type} (x : Except ε α) : (∃ a, x = .ok a) ∨ ∃ e, x = .error e := by
  cases x with
  | ok a => exact .inl ⟨a, rfl⟩
  | error e => exact .inr ⟨e, rfl⟩

omit [Sha256] [LaxInput] in
/-- Checks that pass together fail together. -/
theorem error_iff_of_ok_iff {ε ε' : Type} {x : Except ε Unit} {y : Except ε' Unit}
    (h : x = .ok () ↔ y = .ok ()) : (∃ e, x = .error e) ↔ ∃ e, y = .error e := by
  rcases ok_or_error x with ⟨_, rfl⟩ | ⟨e, rfl⟩ <;> rcases ok_or_error y with ⟨_, rfl⟩ | ⟨e', rfl⟩
  · simp
  · cases h.mp rfl
  · cases h.mpr rfl
  · exact ⟨fun _ => ⟨e', rfl⟩, fun _ => ⟨e, rfl⟩⟩

/-- A snapshot is read back from its document, the payload measures what
the snapshot measures, and the ingress refuses the payload exactly when
the preflight refuses the snapshot. -/
theorem snapshot_round_trips (s : ContextSnapshot) :
    ContextSnapshot.fromMapping s.toSnapshotBuckets.toJson = .ok s
      ∧ payloadItemCount s.payload = s.itemCount
      ∧ payloadCanonicalByteSize s.payload = .ok s.canonicalByteSize
      ∧ ((∃ e, checkIngressCeilings s.payload = .error e)
        ↔ ∃ e, preflightSnapshot s.toSnapshotBuckets = .error e)
      ∧ (preflightSnapshot s.toSnapshotBuckets = .ok () →
        parseContextSnapshot (.obj s.payload) = .ok (some s)) := by
  have hceilings := checkIngressCeilings_payload s.toSnapshotBuckets
  exact ⟨ContextSnapshot.fromMapping_toJson s,
    payloadItemCount_toPyEntries s.toSnapshotBuckets,
    payloadCanonicalByteSize_payload s.toSnapshotBuckets,
    error_iff_of_ok_iff hceilings,
    fun h => parseContextSnapshot_payload (hceilings.mpr h)⟩

/-! ## Arbitrary payloads -/

theorem readSnapshot_typed (doc : Json) :
    (∃ s, readSnapshot doc = .ok (some s))
      ∨ ∃ e, readSnapshot doc = .error e ∧ e.isModelValidation = true := by
  unfold readSnapshot
  cases hread : ContextSnapshot.fromMapping doc with
  | ok s => exact .inl ⟨s, rfl⟩
  | error e =>
      dsimp only
      rw [if_pos (ContextSnapshot.fromMapping_error hread)]
      exact .inr ⟨_, rfl, rfl⟩

omit [Sha256] [LaxInput] in
/-- A payload with too many candidates is refused before it is measured. -/
theorem checkIngressCeilings_count {payload : Payload}
    (h : snapshotMaxItems < payloadItemCount payload) :
    ∃ e, checkIngressCeilings payload = .error e ∧ e.isModelValidation = true := by
  unfold checkIngressCeilings
  exact ⟨_, ensure_bind_of_not (decide_eq_false (by omega)), rfl⟩

omit [Sha256] [LaxInput] in
theorem checkIngressCeilings_error {payload : Payload} {e : Raised}
    (h : payloadItemCount payload ≤ snapshotMaxItems)
    (hbytes : canonicalJsonBytes (.obj payload) = .error e) :
    checkIngressCeilings payload = .error e := by
  unfold checkIngressCeilings payloadCanonicalByteSize
  dsimp only
  rw [decide_eq_true h, ensure_true, ok_bind, hbytes]
  rfl

theorem parseContextSnapshot_of_error {payload : Payload} {e : Raised}
    (h : checkIngressCeilings payload = .error e) :
    parseContextSnapshot (.obj payload) = .error e := by
  unfold parseContextSnapshot
  dsimp only
  rw [h]
  rfl

/-- What is small enough and measured ends typed. -/
theorem parseContextSnapshot_measured {payload : Payload} {doc : Json}
    (hdoc : PyJson.obj payload = doc.toPy) :
    (∃ s, parseContextSnapshot (.obj payload) = .ok (some s))
      ∨ ∃ e, parseContextSnapshot (.obj payload) = .error e ∧ e.isModelValidation = true := by
  by_cases hcount : snapshotMaxItems < payloadItemCount payload
  · obtain ⟨e, he, htyped⟩ := checkIngressCeilings_count hcount
    exact .inr ⟨e, parseContextSnapshot_of_error he, htyped⟩
  · have hbytes : canonicalJsonBytes (.obj payload) = .ok doc.canonicalText.toUTF8 :=
      hdoc ▸ canonicalJsonBytes_toPy doc
    by_cases hsize : doc.canonicalText.toUTF8.size ≤ snapshotMaxBytes
    · have hceilings := checkIngressCeilings_eq_ok.mpr ⟨by omega, _, hbytes, hsize⟩
      have hparse : parseContextSnapshot (.obj payload) = readSnapshot doc := by
        have hscalar : PyJson.scalar? (.obj payload) = some doc := by
          rw [hdoc, PyJson.scalar?_toPy]
        unfold parseContextSnapshot
        dsimp only
        rw [hceilings, ok_bind, hscalar, require_some, ok_bind]
      rw [hparse]
      exact readSnapshot_typed doc
    · have hceilings : checkIngressCeilings payload
          = .error (refusedSnapshot "context_snapshot exceeds the maximum canonical byte size"
            (.obj [("bytes", .int doc.canonicalText.toUTF8.size),
              ("max_bytes", .int snapshotMaxBytes)])) := by
        unfold checkIngressCeilings payloadCanonicalByteSize
        dsimp only
        rw [decide_eq_true (Nat.le_of_not_lt hcount), ensure_true, ok_bind, hbytes, ok_bind,
          ok_bind, decide_eq_false hsize]
        rfl
      exact .inr ⟨_, parseContextSnapshot_of_error hceilings, rfl⟩

omit [Sha256] [LaxInput] in
/-- Bytes or a canonicalization error come out unless a surrogate is met
and no number stops the encoding before it. -/
theorem canonicalJsonBytes_typed_iff (v : PyJson) :
    ((∃ bytes, canonicalJsonBytes v = .ok bytes)
        ∨ ∃ message, canonicalJsonBytes v = .error (.canonicalization message))
      ↔ v.hasNonFinite = true ∨ v.hasSurrogate = false := by
  rcases canonicalJsonBytes_cases v with ⟨hfinite, message, h⟩ | ⟨hfinite, hsurrogate, h⟩ | ⟨j, rfl, h⟩
  · exact ⟨fun _ => .inl hfinite, fun _ => .inr ⟨message, h⟩⟩
  · rw [h, hfinite, hsurrogate]
    simp
  · refine ⟨fun _ => .inr ?_, fun _ => .inl ⟨_, h⟩⟩
    have hscalar := PyJson.scalar?_isSome j.toPy
    rw [PyJson.scalar?_toPy, hasNonFinite_toPy] at hscalar
    simpa using hscalar

/-- Canonicalization fails closed exactly where no surrogate is met, and
the ingress exactly where it does or the candidates are too many. -/
theorem ingress_fails_closed_iff (v : PyJson) (payload : Payload) :
    (((∃ bytes, canonicalJsonBytes v = .ok bytes)
        ∨ ∃ message, canonicalJsonBytes v = .error (.canonicalization message))
      ↔ v.hasNonFinite = true ∨ v.hasSurrogate = false)
      ∧ (((∃ s, parseContextSnapshot (.obj payload) = .ok (some s))
          ∨ ∃ e, parseContextSnapshot (.obj payload) = .error e ∧ e.isModelValidation = true)
        ↔ snapshotMaxItems < payloadItemCount payload
          ∨ (PyJson.obj payload).hasNonFinite = true
          ∨ (PyJson.obj payload).hasSurrogate = false) := by
  refine ⟨canonicalJsonBytes_typed_iff v, ?_⟩
  have htyped := canonicalJsonBytes_typed_iff (.obj payload)
  rw [← htyped]
  by_cases hcount : snapshotMaxItems < payloadItemCount payload
  · obtain ⟨e, he, hmodel⟩ := checkIngressCeilings_count hcount
    exact ⟨fun _ => .inl hcount,
      fun _ => .inr ⟨e, parseContextSnapshot_of_error he, hmodel⟩⟩
  · rcases canonicalJsonBytes_cases (.obj payload) with
      ⟨-, message, h⟩ | ⟨-, -, h⟩ | ⟨doc, hdoc, h⟩
    · have hparse := parseContextSnapshot_of_error (checkIngressCeilings_error (by omega) h)
      exact ⟨fun _ => .inr (.inr ⟨message, h⟩), fun _ => .inr ⟨_, hparse, rfl⟩⟩
    · have hparse := parseContextSnapshot_of_error (checkIngressCeilings_error (by omega) h)
      rw [hparse, h]
      simp [hcount, Raised.isModelValidation]
    · exact ⟨fun _ => .inr (.inl ⟨_, h⟩), fun _ => parseContextSnapshot_measured hdoc⟩

end Snapshots

/-- A note with half of a surrogate pair in it, as escaped text and as
what `json.loads` makes of it. -/
def tornText : List Char :=
  ['\x7b', '"', 'n', '"', ':', '"', '\\', 'u', 'd', '8', '3', 'd', '"', '\x7d']

def tornPayload : Payload := [([CodePoint.ofChar 'n'], .str [CodePoint.ofNat 0xd83d])]

open JsonReader in
theorem loads_tornText [DecimalFloat] : loads tornText = some (.obj tornPayload) := by
  have hkey : PyStr.scanString ['n', '"', ':', '"', '\\', 'u', 'd', '8', '3', 'd', '"', '\x7d']
      = some ([CodePoint.ofChar 'n'],
        ':' :: ['"', '\\', 'u', 'd', '8', '3', 'd', '"', '\x7d']) := by
    decide
  have hbody : PyStr.scanString ['\\', 'u', 'd', '8', '3', 'd', '"', '\x7d']
      = some ([0xd83d], ['\x7d']) := by
    decide
  have hvalue : value 12 (skip ['"', '\\', 'u', 'd', '8', '3', 'd', '"', '\x7d'])
      = some (.str [0xd83d], ['\x7d']) := by
    rw [skip_cons rfl, value, if_pos rfl, hbody]
    rfl
  have hentries := entries_last hkey hvalue
  unfold loads tornText
  rw [skip_cons rfl]
  show (value 14 _).bind _ = _
  rw [value, if_neg (by decide), if_neg (by decide), if_pos rfl, skip_cons rfl]
  dsimp only
  rw [if_neg (by decide), hentries]
  rfl

theorem canonicalJsonBytes_surrogate {v : PyJson} (hfinite : v.hasNonFinite = false)
    (hsurrogate : v.hasSurrogate = true) : canonicalJsonBytes v = .error .unicodeEncode := by
  rcases canonicalJsonBytes_cases v with ⟨h, -⟩ | ⟨-, -, h⟩ | ⟨j, rfl, -⟩
  · cases hfinite.symm.trans h
  · exact h
  · have hscalar := PyJson.scalar?_isSome j.toPy
    rw [PyJson.scalar?_toPy, hfinite, hsurrogate] at hscalar
    cases hscalar

/-- Neither function ends typed on the torn note. -/
theorem torn_payload_escapes :
    let _ := Sha256.transparent
    let _ := LaxInput.strict
    let _ : DecimalFloat := ⟨fun _ => .nan⟩
    JsonReader.loads tornText = some (.obj tornPayload)
      ∧ canonicalJsonBytes (.obj tornPayload) = .error .unicodeEncode
      ∧ parseContextSnapshot (.obj tornPayload) = .error .unicodeEncode
      ∧ Raised.unicodeEncode.isModelValidation = false := by
  intro _ _ _
  have hbytes : canonicalJsonBytes (.obj tornPayload) = .error .unicodeEncode :=
    canonicalJsonBytes_surrogate (by decide) (by decide)
  have hceilings := checkIngressCeilings_error (e := .unicodeEncode) (show payloadItemCount tornPayload ≤ _ by decide) hbytes
  exact ⟨loads_tornText, hbytes, parseContextSnapshot_of_error hceilings, rfl⟩

section Coverage

attribute [local instance] Sha256.transparent LaxInput.strict

/-- A repository fact with a nested value and a floating-point number. -/
def coverageFact : ContextItem :=
  .create .unverified
    { sourceId := "ci", sourceKind := "report", locator := "run/7"
      immutableCoordinate := none, contentDigest := some "d7" }
    .scoped ["src", "tests"]
    (.repositoryState
      { repositoryId := "greeter", revision := "r1", subjectRef := "src", factType := "coverage"
        value := .obj [("dirty", .bool false), ("percent", .float ⟨"87.5", by decide⟩)] })

def coverageSnapshot : ContextSnapshot where
  toSnapshotBuckets := { SnapshotBuckets.empty with repositoryState := [coverageFact] }
  kinds := by
    simp [SnapshotBuckets.named, SnapshotBuckets.empty, coverageFact, ContextItem.create,
      ContextItem.contextKind, Claim.kind]
  valid := by
    have hvalid : coverageFact.Valid := ContextItem.create_valid (by decide) (by decide)
      (by decide) ⟨by decide, by decide, by decide, (by show Json.normalize _ = _; decide)⟩ (by decide)
      (by decide)
    simpa [SnapshotBuckets.allItems, SnapshotBuckets.named, SnapshotBuckets.empty] using hvalid
  unselected := by
    simp [SnapshotBuckets.allItems, SnapshotBuckets.named, SnapshotBuckets.empty, coverageFact,
      ContextItem.create]

/-- The fact survives its own document. -/
theorem coverage_round_trips :
    ContextSnapshot.fromMapping coverageSnapshot.toSnapshotBuckets.toJson = .ok coverageSnapshot :=
  (snapshot_round_trips coverageSnapshot).1

end Coverage

end CognitiveRuntime
