import CognitiveRuntime.Data.JsonOrder
import CognitiveRuntime.Data.JsonPrefix
import CognitiveRuntime.Models.Context

/-!
# Canonical JSON bytes

`canonical_json_bytes` over whatever `json.loads` yields. A number that
is not finite is refused with the typed error. A surrogate is not: the
text is written without escaping it, and encoding that text as UTF-8
fails outside the guarded block.

On JSON values the bytes are those of the canonical text, and
`Sha256.ofBytes` is the digest that hashes them.
-/

namespace CognitiveRuntime

open PyJson (ofChars)

/-- A Python dictionary with string keys. -/
abbrev Payload := List (PyStr × PyJson)

/-- `payload.get(key)`. -/
def Payload.get? (payload : Payload) (key : String) : Option PyJson :=
  (payload.find? fun e => e.1 = PyStr.ofString key).map Prod.snd

/-- A string under a key. -/
def Payload.string? (payload : Payload) (key : String) : Option PyStr :=
  match payload.get? key with
  | some (.str s) => some s
  | _ => none

/-- What a call raises: an error of the models, the one of
canonicalization, or the codec's own. -/
inductive Raised where
  | model (error : RuntimeError)
  | canonicalization (message : String)
  | unicodeEncode
  deriving DecidableEq

/-- A subclass of `ModelValidationError`. -/
def Raised.isModelValidation : Raised → Bool
  | .model (.missingKey _) => false
  | .model _ => true
  | .canonicalization _ => true
  | .unicodeEncode => false

/-- `canonical_json_bytes`. -/
def canonicalJsonBytes (value : PyJson) : Except Raised ByteArray :=
  if value.hasNonFinite then
    .error (.canonicalization "Out of range float values are not JSON compliant")
  else
    -- `text.encode("utf-8")` stands after the `try` block
    match value.normalize.text.encode with
    | some bytes => .ok bytes
    | none => .error .unicodeEncode

/-- `json.loads` of UTF-8 bytes. -/
def loadsBytes [DecimalFloat] (bytes : ByteArray) : Option PyJson :=
  (String.fromUTF8? bytes).bind fun text => JsonReader.loads text.toList

/-! ## Values without surrogates -/

theorem fromUTF8?_toUTF8 (s : String) : String.fromUTF8? s.toUTF8 = some s := by
  unfold String.fromUTF8?
  exact dif_pos s.isValidUTF8

theorem encode_ofChars (l : List Char) :
    PyStr.encode (ofChars l) = some (String.ofList l).toUTF8 := by
  have htext : ofChars l = PyStr.ofString (String.ofList l) := by
    unfold PyStr.ofString
    rw [String.toList_ofList]
    rfl
  unfold PyStr.encode
  rw [htext, PyStr.text?_ofString]
  rfl

theorem hasNonFinite_toPy (j : Json) : j.toPy.hasNonFinite = false := by
  have h := PyJson.scalar?_isSome j.toPy
  rw [PyJson.scalar?_toPy] at h
  cases hfinite : j.toPy.hasNonFinite with
  | false => rfl
  | true => rw [hfinite] at h; cases h

/-- The bytes of a JSON value are those of its canonical text. -/
theorem canonicalJsonBytes_toPy (j : Json) :
    canonicalJsonBytes j.toPy = .ok j.canonicalText.toUTF8 := by
  unfold canonicalJsonBytes
  rw [hasNonFinite_toPy, if_neg Bool.false_ne_true, PyJson.normalize_toPy, PyJson.text_toPy,
    encode_ofChars]
  rfl

/-- Its number is the size of the value. -/
theorem size_canonicalText (j : Json) : j.canonicalText.toUTF8.size = j.size := by
  unfold Json.canonicalText
  rw [Json.size_toUTF8, Json.utf8Size_chars, Json.size_normalize]

/-! ## Surrogates -/

section Surrogates

open PyJson

theorem hasSurrogate_append (s t : PyStr) :
    PyStr.hasSurrogate (s ++ t) = (s.hasSurrogate || t.hasSurrogate) :=
  List.any_append

theorem hasSurrogate_ofChars (l : List Char) : PyStr.hasSurrogate (ofChars l) = false := by
  have h := PyStr.hasSurrogate_ofString (String.ofList l)
  unfold PyStr.ofString at h
  rwa [String.toList_ofList] at h

theorem hasSurrogate_escapePoint (c : CodePoint) :
    PyStr.hasSurrogate (escapePoint c) = c.isSurrogate := by
  unfold escapePoint
  cases hc : c.isSurrogate with
  | true =>
      have hnone : c.char? = none := by rw [CodePoint.char?, if_pos hc]
      rw [hnone]
      simp [PyStr.hasSurrogate, hc]
  | false =>
      have hsome : c.char? = some (Char.ofNat c.val) := by
        rw [CodePoint.char?, hc]
        rfl
      rw [hsome]
      exact hasSurrogate_ofChars _

theorem hasSurrogate_quotePoints (s : PyStr) :
    PyStr.hasSurrogate (quotePoints s) = s.hasSurrogate := by
  have hbody : PyStr.hasSurrogate (s.flatMap escapePoint) = s.hasSurrogate := by
    induction s with
    | nil => rfl
    | cons c s ih =>
        rw [List.flatMap_cons, hasSurrogate_append, hasSurrogate_escapePoint, ih]
        rfl
  unfold quotePoints
  rw [hasSurrogate_append, hasSurrogate_append, hbody, hasSurrogate_ofChars, Bool.false_or,
    Bool.or_false]

mutual
/-- The text holds a surrogate exactly when the value does. -/
theorem hasSurrogate_text : ∀ v : PyJson, PyStr.hasSurrogate v.text = v.hasSurrogate
  | .null => hasSurrogate_ofChars _
  | .bool true => hasSurrogate_ofChars _
  | .bool false => hasSurrogate_ofChars _
  | .int _ => hasSurrogate_ofChars _
  | .float _ => hasSurrogate_ofChars _
  | .str s => hasSurrogate_quotePoints s
  | .arr l => by
      rw [text, hasSurrogate_append, hasSurrogate_append, hasSurrogate_ofChars,
        hasSurrogate_ofChars, hasSurrogate_textItems l, PyJson.hasSurrogate, Bool.false_or,
        Bool.or_false]
  | .obj l => by
      rw [text, hasSurrogate_append, hasSurrogate_append, hasSurrogate_ofChars,
        hasSurrogate_ofChars, hasSurrogate_textEntries l, PyJson.hasSurrogate, Bool.false_or,
        Bool.or_false]
theorem hasSurrogate_textItems : ∀ l : List PyJson,
    PyStr.hasSurrogate (textItems l) = hasSurrogateItems l
  | [] => rfl
  | [v] => by
      rw [textItems, hasSurrogate_text v, hasSurrogateItems, hasSurrogateItems, Bool.or_false]
  | v :: w :: l => by
      rw [textItems, hasSurrogate_append, hasSurrogate_append, hasSurrogate_ofChars,
        hasSurrogate_text v, hasSurrogate_textItems (w :: l), Bool.false_or]
      · rfl
      · simp
theorem hasSurrogate_textEntries : ∀ l : List (PyStr × PyJson),
    PyStr.hasSurrogate (textEntries l) = hasSurrogateEntries l
  | [] => rfl
  | [(k, v)] => by
      rw [textEntries, hasSurrogate_append, hasSurrogate_append, hasSurrogate_ofChars,
        hasSurrogate_quotePoints, hasSurrogate_text v, Bool.false_or, hasSurrogateEntries,
        hasSurrogateEntries, Bool.or_false]
  | (k, v) :: e :: l => by
      rw [textEntries, hasSurrogate_append, hasSurrogate_append, hasSurrogate_append,
        hasSurrogate_append, hasSurrogate_ofChars, hasSurrogate_ofChars, hasSurrogate_quotePoints,
        hasSurrogate_text v, hasSurrogate_textEntries (e :: l), Bool.false_or, Bool.false_or,
        ← Bool.or_assoc]
      · rfl
      · simp
end

theorem hasSurrogateEntries_iff {l : List (PyStr × PyJson)} :
    hasSurrogateEntries l = true ↔
      ∃ e ∈ l, e.1.hasSurrogate = true ∨ e.2.hasSurrogate = true := by
  induction l with
  | nil => simp [hasSurrogateEntries]
  | cons e l ih =>
      obtain ⟨k, v⟩ := e
      simp [hasSurrogateEntries, ih, or_assoc]

mutual
theorem hasSurrogate_normalize : ∀ v : PyJson, v.normalize.hasSurrogate = v.hasSurrogate
  | .null => rfl
  | .bool _ => rfl
  | .int _ => rfl
  | .float _ => rfl
  | .str _ => rfl
  | .arr l => by
      rw [PyJson.normalize, PyJson.hasSurrogate, PyJson.hasSurrogate, hasSurrogateItems_normalize l]
  | .obj l => by
      have hsort : hasSurrogateEntries (Ordered.sortedBy Prod.fst (normalizeEntries l))
          = hasSurrogateEntries (normalizeEntries l) := by
        rw [Bool.eq_iff_iff, hasSurrogateEntries_iff, hasSurrogateEntries_iff]
        simp only [Ordered.mem_sortedBy]
      rw [PyJson.normalize, PyJson.hasSurrogate, PyJson.hasSurrogate, hsort,
        hasSurrogateEntries_normalize l]
theorem hasSurrogateItems_normalize : ∀ l : List PyJson,
    hasSurrogateItems (normalizeItems l) = hasSurrogateItems l
  | [] => rfl
  | v :: l => by
      rw [normalizeItems, hasSurrogateItems, hasSurrogateItems, hasSurrogate_normalize v,
        hasSurrogateItems_normalize l]
theorem hasSurrogateEntries_normalize : ∀ l : List (PyStr × PyJson),
    hasSurrogateEntries (normalizeEntries l) = hasSurrogateEntries l
  | [] => rfl
  | (k, v) :: l => by
      rw [normalizeEntries, hasSurrogateEntries, hasSurrogateEntries, hasSurrogate_normalize v,
        hasSurrogateEntries_normalize l]
end

end Surrogates

/-- What `canonical_json_bytes` does, by what the value holds: a number
that is not finite is refused first. -/
theorem canonicalJsonBytes_cases (v : PyJson) :
    (v.hasNonFinite = true
        ∧ ∃ message, canonicalJsonBytes v = .error (.canonicalization message))
      ∨ (v.hasNonFinite = false ∧ v.hasSurrogate = true
        ∧ canonicalJsonBytes v = .error .unicodeEncode)
      ∨ ∃ j : Json, v = j.toPy ∧ canonicalJsonBytes v = .ok j.canonicalText.toUTF8 := by
  cases hfinite : v.hasNonFinite with
  | true =>
      refine .inl ⟨rfl, "Out of range float values are not JSON compliant", ?_⟩
      unfold canonicalJsonBytes
      rw [hfinite]
      rfl
  | false =>
      cases hsurrogate : v.hasSurrogate with
      | true =>
          refine .inr (.inl ⟨rfl, rfl, ?_⟩)
          have htext : PyStr.text? v.normalize.text = none :=
            PyStr.text?_eq_none (by rw [hasSurrogate_text, hasSurrogate_normalize, hsurrogate])
          unfold canonicalJsonBytes PyStr.encode
          rw [hfinite, htext]
          rfl
      | false =>
          have hsome := PyJson.scalar?_isSome v
          rw [hfinite, hsurrogate] at hsome
          obtain ⟨j, hj⟩ := Option.isSome_iff_exists.mp hsome
          obtain rfl := PyJson.toPy_of_scalar? hj
          exact .inr (.inr ⟨j, rfl, canonicalJsonBytes_toPy j⟩)

/-! ## The digest of the bytes -/

/-- `hashlib.sha256(canonical_json_bytes(value)).hexdigest()`, for a hash
of bytes. -/
abbrev Sha256.ofBytes (hash : ByteArray → String) : Sha256 where
  hexdigest j := hash (String.ofList j.chars).toUTF8

/-- Where no two byte strings share a hash no two canonical values share a
digest. -/
theorem Sha256.ofBytes_injective {hash : ByteArray → String} (h : Function.Injective hash) :
    @Sha256.Injective (Sha256.ofBytes hash) := fun _ _ hdigest =>
  Json.normalize_of_canonicalText (String.toByteArray_inj.mp (h hdigest))

theorem sha256Digest_ofBytes (hash : ByteArray → String) (j : Json) :
    @sha256Digest (Sha256.ofBytes hash) j = hash j.canonicalText.toUTF8 := rfl

end CognitiveRuntime
