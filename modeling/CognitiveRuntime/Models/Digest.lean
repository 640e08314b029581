import CognitiveRuntime.Data.Json

/-!
# Canonical digests

`sha256_digest` hashes the canonical JSON text of a value, so it sees a
value only up to object key order. SHA-256 itself is a parameter: any
function of the canonical form. Where a result rests on two different
values having two different digests it says so with `Sha256.Injective`.
A hash of the canonical bytes meets it as long as no two byte strings
share a hash: see `Sha256.ofBytes_injective`.

`Sha256.transparent` is an injective instance for concrete inputs. It
spells the whole value out in unary instead of hashing it; nothing
evaluates it.
-/

namespace CognitiveRuntime

/-- `hashlib.sha256` over canonical JSON bytes, as lowercase hex. -/
class Sha256 where
  hexdigest : Json → String

/-- Lowercase hex SHA-256 of the canonical JSON encoding. -/
def sha256Digest [Sha256] (value : Json) : String :=
  Sha256.hexdigest value.normalize

/-- `<prefix>.sha256:<64 hex>` over the canonical JSON payload. -/
def deriveId [Sha256] (family : String) (payload : Json) : String :=
  family ++ (".sha256:" ++ sha256Digest payload)

/-- No two canonical values share a digest. -/
def Sha256.Injective [Sha256] : Prop :=
  ∀ a b : Json, sha256Digest a = sha256Digest b → a.normalize = b.normalize

theorem append_left_cancel {p a b : String} (h : p ++ a = p ++ b) : a = b := by
  have h' := congrArg String.toList h
  rw [String.toList_append, String.toList_append] at h'
  exact String.toList_injective (List.append_cancel_left h')

section Injective

variable [Sha256]

theorem deriveId_inj (hsha : Sha256.Injective) {family : String} {a b : Json}
    (h : deriveId family a = deriveId family b) : a.normalize = b.normalize :=
  hsha a b (append_left_cancel (append_left_cancel h))

end Injective

/-! ## An injective instance -/

namespace Sha256

def codeString (s : String) : List Nat :=
  s.toList.length :: s.toList.map Char.toNat

mutual
/-- A prefix code: the head names the constructor, lengths come before
the elements they count. -/
def code : Json → List Nat
  | .null => [0]
  | .bool b => [1, b.toNat]
  | .int i => [2, if i < 0 then 1 else 0, i.natAbs]
  | .float f => 3 :: codeString f.text
  | .str s => 4 :: codeString s
  | .arr items => 5 :: items.length :: codeItems items
  | .obj entries => 6 :: entries.length :: codeEntries entries
def codeItems : List Json → List Nat
  | [] => []
  | j :: rest => code j ++ codeItems rest
def codeEntries : List (String × Json) → List Nat
  | [] => []
  | (k, j) :: rest => codeString k ++ (code j ++ codeEntries rest)
end

theorem codeString_append_inj {s t : String} {r r' : List Nat}
    (h : codeString s ++ r = codeString t ++ r') : s = t ∧ r = r' := by
  simp only [codeString, List.cons_append, List.cons.injEq] at h
  obtain ⟨hlen, h⟩ := h
  obtain ⟨hmap, hr⟩ := List.append_inj h (by simpa using hlen)
  refine ⟨String.toList_injective ?_, hr⟩
  exact List.map_injective_iff.mpr (fun a b hab => Char.toNat_inj.mp hab) hmap

theorem toNat_inj : ∀ {b c : Bool}, b.toNat = c.toNat → b = c
  | false, false, _ => rfl
  | true, true, _ => rfl

theorem int_eq_of_code {i k : Int}
    (hsign : (if i < 0 then 1 else 0 : Nat) = if k < 0 then 1 else 0)
    (habs : i.natAbs = k.natAbs) : i = k := by
  split at hsign <;> split at hsign <;> omega

mutual
/-- The code of a value can be read off the front of a longer list. -/
theorem code_append_inj : ∀ {a b : Json} {r r' : List Nat},
    code a ++ r = code b ++ r' → a = b ∧ r = r'
  | .null, b, r, r', h => by
      cases b <;> simp_all [code]
  | .bool x, b, r, r', h => by
      cases b <;> simp only [code, List.cons_append, List.nil_append, List.cons.injEq,
        Nat.reduceEqDiff, false_and, reduceCtorEq, true_and] at h
      obtain ⟨hb, hr⟩ := h
      exact ⟨congrArg Json.bool (toNat_inj hb), hr⟩
  | .int i, b, r, r', h => by
      cases b <;> simp only [code, List.cons_append, List.nil_append, List.cons.injEq,
        Nat.reduceEqDiff, false_and, reduceCtorEq, true_and] at h
      obtain ⟨hs, ha, hr⟩ := h
      exact ⟨congrArg Json.int (int_eq_of_code hs ha), hr⟩
  | .float x, b, r, r', h => by
      cases b <;> simp only [code, List.cons_append, List.nil_append, List.cons.injEq,
        Nat.reduceEqDiff, false_and, reduceCtorEq, true_and] at h
      obtain ⟨hs, hr⟩ := codeString_append_inj h
      exact ⟨congrArg Json.float (FloatText.ext hs), hr⟩
  | .str x, b, r, r', h => by
      cases b <;> simp only [code, List.cons_append, List.nil_append, List.cons.injEq,
        Nat.reduceEqDiff, false_and, reduceCtorEq, true_and] at h
      obtain ⟨hs, hr⟩ := codeString_append_inj h
      exact ⟨congrArg Json.str hs, hr⟩
  | .arr l, b, r, r', h => by
      cases b <;> simp only [code, List.cons_append, List.nil_append, List.cons.injEq,
        Nat.reduceEqDiff, false_and, reduceCtorEq, true_and] at h
      obtain ⟨hlen, h⟩ := h
      obtain ⟨hl, hr⟩ := codeItems_append_inj hlen h
      exact ⟨congrArg Json.arr hl, hr⟩
  | .obj l, b, r, r', h => by
      cases b <;> simp only [code, List.cons_append, List.nil_append, List.cons.injEq,
        Nat.reduceEqDiff, false_and, reduceCtorEq, true_and] at h
      obtain ⟨hlen, h⟩ := h
      obtain ⟨hl, hr⟩ := codeEntries_append_inj hlen h
      exact ⟨congrArg Json.obj hl, hr⟩
theorem codeItems_append_inj : ∀ {l l' : List Json} {r r' : List Nat},
    l.length = l'.length → codeItems l ++ r = codeItems l' ++ r' → l = l' ∧ r = r'
  | [], [], _, _, _, h => ⟨rfl, h⟩
  | a :: l, b :: l', r, r', hlen, h => by
      rw [codeItems, codeItems, List.append_assoc, List.append_assoc] at h
      obtain ⟨hab, htail⟩ := code_append_inj h
      obtain ⟨hl, hr⟩ := codeItems_append_inj (Nat.succ.inj hlen) htail
      exact ⟨by rw [hab, hl], hr⟩
theorem codeEntries_append_inj : ∀ {l l' : List (String × Json)} {r r' : List Nat},
    l.length = l'.length → codeEntries l ++ r = codeEntries l' ++ r' → l = l' ∧ r = r'
  | [], [], _, _, _, h => ⟨rfl, h⟩
  | (k, a) :: l, (k', b) :: l', r, r', hlen, h => by
      rw [codeEntries, codeEntries, List.append_assoc, List.append_assoc,
        List.append_assoc, List.append_assoc] at h
      obtain ⟨hk, hvalue⟩ := codeString_append_inj h
      obtain ⟨hab, htail⟩ := code_append_inj hvalue
      obtain ⟨hl, hr⟩ := codeEntries_append_inj (Nat.succ.inj hlen) htail
      exact ⟨by rw [hk, hab, hl], hr⟩
end

theorem code_injective {a b : Json} (h : code a = code b) : a = b := by
  have h' : code a ++ [] = code b ++ [] := by rw [h]
  exact (code_append_inj h').1

/-- A list of numbers in unary, each closed by a `0`. -/
def unary : List Nat → List Char
  | [] => []
  | n :: rest => List.replicate n '1' ++ '0' :: unary rest

theorem unary_injective : ∀ {l l' : List Nat}, unary l = unary l' → l = l'
  | [], [], _ => rfl
  | [], n :: l', h => by simp [unary] at h
  | n :: l, [], h => by simp [unary] at h
  | n :: l, m :: l', h => by
      have hnm : n = m := by
        have hcount := congrArg (fun cs => (cs.takeWhile (· == '1')).length) h
        simpa [unary, List.takeWhile_append, List.takeWhile_replicate] using hcount
      subst hnm
      simp only [unary, List.append_cancel_left_eq, List.cons.injEq, true_and] at h
      rw [unary_injective h]

/-- The digest that keeps everything. -/
abbrev transparent : Sha256 where
  hexdigest j := String.ofList (unary (code j))

theorem transparent_injective : @Sha256.Injective transparent := by
  intro a b h
  change String.ofList (unary (code a.normalize))
    = String.ofList (unary (code b.normalize)) at h
  have h' : unary (code a.normalize) = unary (code b.normalize) := by
    have htext := congrArg String.toList h
    rwa [String.toList_ofList, String.toList_ofList] at htext
  exact code_injective (unary_injective h')

/-- The size of a transparent digest in canonical text: its characters
are digits. -/
theorem stringSize_transparent (j : Json) :
    Json.stringSize (transparent.hexdigest j) = 2 + ((code j).map (· + 1)).sum := by
  have hunary : ∀ l : List Nat, ((unary l).map Json.charSize).sum = (l.map (· + 1)).sum := by
    intro l
    induction l with
    | nil => rfl
    | cons n l ih =>
        have hone : Json.charSize '1' = 1 := by decide
        have hzero : Json.charSize '0' = 1 := by decide
        simp only [unary, List.map_append, List.map_cons, List.map_replicate, List.sum_append,
          List.sum_cons, List.sum_replicate_nat, ih, hone, hzero, Nat.mul_one]
        omega
  show 2 + ((String.ofList (unary (code j))).toList.map Json.charSize).sum = _
  rw [String.toList_ofList, hunary]

end Sha256

end CognitiveRuntime
