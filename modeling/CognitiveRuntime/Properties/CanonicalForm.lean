import CognitiveRuntime.Models.Canonical

/-!
# The canonical form is injective

No two normal forms have one text, so two values share their canonical
bytes only where they are equal up to key order, and reading the bytes of
a plain value gives its normal form back. A digest or a derived id then
separates them too, unless SHA-256 itself collides on the two byte
strings.
-/

namespace CognitiveRuntime

/-- A value of null, booleans, integers, strings, arrays and
dictionaries. -/
structure PlainJson (j : Json) : Prop where
  floatFree : j.floatFree = true
  distinctKeys : j.distinctKeys = true

/-- The canonical bytes of a value. -/
def canonicalBytes (j : Json) : ByteArray := j.canonicalText.toUTF8

/-- Two byte strings with one hash. -/
def Collision (hash : ByteArray → String) (x y : ByteArray) : Prop := x ≠ y ∧ hash x = hash y

theorem PlainJson.normalize {j : Json} (h : PlainJson j) : PlainJson j.normalize where
  floatFree := (Json.floatsAll_normalize _ j).trans h.floatFree
  distinctKeys := Json.distinctKeys_normalize h.distinctKeys

/-- Canonical bytes read back as the normal form. -/
theorem loadsBytes_canonicalBytes [DecimalFloat] {j : Json} (h : PlainJson j) :
    loadsBytes (canonicalBytes j) = some j.normalize.toPy := by
  have hloads := JsonReader.loads_render .plain h.normalize.floatFree h.normalize.distinctKeys
  unfold loadsBytes canonicalBytes
  rw [fromUTF8?_toUTF8, Option.bind_some, Json.canonicalText, String.toList_ofList,
    Json.chars_eq_render]
  exact hloads

theorem canonicalBytes_eq_iff {a b : Json} (ha : PlainJson a) :
    canonicalBytes a = canonicalBytes b ↔ a.Same b := by
  rw [Json.same_iff_normalize ha.distinctKeys]
  constructor
  · exact fun h => Json.normalize_of_canonicalText (String.toByteArray_inj.mp h)
  · intro h
    unfold canonicalBytes Json.canonicalText
    rw [h]

/-- A digest of the bytes separates what the bytes separate, up to
collisions. -/
theorem digest_eq_iff {hash : ByteArray → String} {a b : Json} (ha : PlainJson a) :
    @sha256Digest (Sha256.ofBytes hash) a = @sha256Digest (Sha256.ofBytes hash) b
      ↔ a.Same b ∨ Collision hash (canonicalBytes a) (canonicalBytes b) := by
  rw [sha256Digest_ofBytes, sha256Digest_ofBytes, ← canonicalBytes_eq_iff ha]
  constructor
  · intro h
    by_cases hbytes : canonicalBytes a = canonicalBytes b
    · exact .inl hbytes
    · exact .inr ⟨hbytes, h⟩
  · rintro (h | h)
    · exact congrArg hash h
    · exact h.2

/-- A plain value and any other have the same canonical bytes exactly when
they are equal up to key order; the bytes, parsed, have the same bytes
again; and digests and derived ids tell the values apart but for
collisions. -/
theorem canonical_form_injective [DecimalFloat] (hash : ByteArray → String) (family : String)
    {a b : Json} (ha : PlainJson a) :
    (canonicalJsonBytes a.toPy = canonicalJsonBytes b.toPy ↔ a.Same b)
      ∧ (∃ bytes, canonicalJsonBytes a.toPy = .ok bytes
        ∧ (loadsBytes bytes).map canonicalJsonBytes = some (.ok bytes))
      ∧ (@sha256Digest (Sha256.ofBytes hash) a = @sha256Digest (Sha256.ofBytes hash) b
        ↔ a.Same b ∨ Collision hash (canonicalBytes a) (canonicalBytes b))
      ∧ (@deriveId (Sha256.ofBytes hash) family a = @deriveId (Sha256.ofBytes hash) family b
        ↔ a.Same b ∨ Collision hash (canonicalBytes a) (canonicalBytes b)) := by
  refine ⟨?_, ⟨canonicalBytes a, canonicalJsonBytes_toPy a, ?_⟩, digest_eq_iff ha, ?_⟩
  · rw [canonicalJsonBytes_toPy, canonicalJsonBytes_toPy, ← canonicalBytes_eq_iff ha]
    constructor
    · exact Except.ok.inj
    · exact congrArg Except.ok
  · have hidem : canonicalBytes a.normalize = canonicalBytes a := by
      unfold canonicalBytes Json.canonicalText
      rw [Json.normalize_idem]
    rw [loadsBytes_canonicalBytes ha, Option.map_some, canonicalJsonBytes_toPy]
    exact congrArg (fun bytes => some (Except.ok bytes)) hidem
  · rw [← digest_eq_iff ha]
    constructor
    · exact fun h => append_left_cancel (append_left_cancel h)
    · intro h
      unfold deriveId
      rw [h]

/-- Two orders of one document. -/
def greeting : Json := .obj [("name", .str "é\n"), ("flags", .arr [.bool true, .null, .int (-3)])]

def greetingReordered : Json :=
  .obj [("flags", .arr [.bool true, .null, .int (-3)]), ("name", .str "é\n")]

/-- Both orders of the document have the same bytes. -/
theorem greeting_canonical :
    PlainJson greeting ∧ PlainJson greetingReordered
      ∧ canonicalJsonBytes greeting.toPy = canonicalJsonBytes greetingReordered.toPy := by
  let _ : DecimalFloat := ⟨fun _ => .nan⟩
  have ha : PlainJson greeting := ⟨by decide, by decide⟩
  have hb : PlainJson greetingReordered := ⟨by decide, by decide⟩
  refine ⟨ha, hb, (canonical_form_injective (fun _ => "") "ctxitem" ha).1.mpr ?_⟩
  rw [Json.same_iff_normalize ha.distinctKeys]
  decide

end CognitiveRuntime
