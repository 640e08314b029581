import CognitiveRuntime.Data.JsonText

/-!
# Key order

`Json.Same` is equality up to the order of object keys. Values whose
objects repeat no key are the same exactly when their normal forms are
equal.

Code points are ordered as characters are, so embedding a value among
those with surrogates commutes with putting it in key order. The number
of UTF-8 bytes of the normal form is the size of the value.
-/

namespace Json

/-! ## Equality up to key order -/

mutual
/-- Equal up to the order of object keys. -/
def Same : Json → Json → Prop
  | .arr l, j => ∃ l', j = .arr l' ∧ SameItems l l'
  | .obj l, j => ∃ l' m, j = .obj l' ∧ l'.Perm m ∧ SameEntries l m
  | i, j => i = j
def SameItems : List Json → List Json → Prop
  | [], l => l = []
  | i :: rest, l => ∃ j rest', l = j :: rest' ∧ Same i j ∧ SameItems rest rest'
def SameEntries : List (String × Json) → List (String × Json) → Prop
  | [], l => l = []
  | (k, i) :: rest, l => ∃ j rest', l = (k, j) :: rest' ∧ Same i j ∧ SameEntries rest rest'
end

theorem map_fst_normalizeEntries (l : List (String × Json)) :
    (normalizeEntries l).map Prod.fst = l.map Prod.fst := by
  rw [normalizeEntries_eq, List.map_map]
  rfl

/-- Entries without a repeated key, in any order, sort to one list. -/
theorem sortedBy_perm {l m : List (String × Json)} (hkeys : (l.map Prod.fst).Nodup)
    (h : l.Perm m) : Ordered.sortedBy Prod.fst l = Ordered.sortedBy Prod.fst m := by
  have hperm : (Ordered.sortedBy Prod.fst l).Perm (Ordered.sortedBy Prod.fst m) :=
    (Ordered.perm_sortedBy Prod.fst l).trans (h.trans (Ordered.perm_sortedBy Prod.fst m).symm)
  refine hperm.eq_of_pairwise ?_ (Ordered.pairwise_sortedBy Prod.fst l)
    (Ordered.pairwise_sortedBy Prod.fst m)
  intro a b ha hb hab hba
  have ha' : a ∈ l := (Ordered.mem_sortedBy Prod.fst).mp ha
  have hb' : b ∈ l := h.mem_iff.mpr ((Ordered.mem_sortedBy Prod.fst).mp hb)
  exact List.inj_on_of_nodup_map hkeys ha' hb' (le_antisymm hab hba)

theorem perm_of_sortedBy_eq {l m : List (String × Json)}
    (h : Ordered.sortedBy Prod.fst l = Ordered.sortedBy Prod.fst m) : l.Perm m :=
  (Ordered.perm_sortedBy Prod.fst l).symm.trans (h ▸ Ordered.perm_sortedBy Prod.fst m)

mutual
/-- Values that are the same have one normal form. -/
theorem normalize_of_same : ∀ {i j : Json}, i.distinctKeys = true → Same i j →
    i.normalize = j.normalize
  | .null, _, _, h => by rw [← (show Json.null = _ from h)]
  | .bool b, _, _, h => by rw [← (show Json.bool b = _ from h)]
  | .int i, _, _, h => by rw [← (show Json.int i = _ from h)]
  | .float text, _, _, h => by rw [← (show Json.float text = _ from h)]
  | .str s, _, _, h => by rw [← (show Json.str s = _ from h)]
  | .arr l, _, hkeys, h => by
      obtain ⟨l', rfl, hitems⟩ := h
      rw [normalize, normalize, normalizeItems_of_same hkeys hitems]
  | .obj l, _, hkeys, h => by
      obtain ⟨l', m, rfl, hperm, hentries⟩ := h
      rw [distinctKeys, Bool.and_eq_true] at hkeys
      have heq := normalizeEntries_of_same hkeys.2 hentries
      have hnodup : ((normalizeEntries m).map Prod.fst).Nodup := by
        rw [← heq, map_fst_normalizeEntries]
        exact of_decide_eq_true hkeys.1
      have hm : (normalizeEntries m).Perm (normalizeEntries l') := by
        rw [normalizeEntries_eq, normalizeEntries_eq]
        exact hperm.symm.map _
      rw [normalize, normalize, heq, sortedBy_perm hnodup hm]
theorem normalizeItems_of_same : ∀ {l l' : List Json}, distinctKeysItems l = true →
    SameItems l l' → normalizeItems l = normalizeItems l'
  | [], _, _, h => by rw [show _ = [] from h]
  | i :: l, _, hkeys, h => by
      obtain ⟨j, rest, rfl, hij, hrest⟩ := h
      rw [distinctKeysItems, Bool.and_eq_true] at hkeys
      rw [normalizeItems, normalizeItems, normalize_of_same hkeys.1 hij,
        normalizeItems_of_same hkeys.2 hrest]
theorem normalizeEntries_of_same : ∀ {l l' : List (String × Json)},
    distinctKeysEntries l = true → SameEntries l l' → normalizeEntries l = normalizeEntries l'
  | [], _, _, h => by rw [show _ = [] from h]
  | (k, i) :: l, _, hkeys, h => by
      obtain ⟨j, rest, rfl, hij, hrest⟩ := h
      rw [distinctKeysEntries, Bool.and_eq_true] at hkeys
      rw [normalizeEntries, normalizeEntries, normalize_of_same hkeys.1 hij,
        normalizeEntries_of_same hkeys.2 hrest]
end

/-- A permutation of an image is the image of a permutation. -/
theorem exists_perm_map {α β : Type} {f : α → β} : ∀ {l : List α} {m : List β},
    (l.map f).Perm m → ∃ l', l.Perm l' ∧ l'.map f = m := by
  intro l m h
  generalize hl : l.map f = lf at h
  induction h generalizing l with
  | nil => exact ⟨l, .refl l, hl⟩
  | cons b h ih =>
      obtain ⟨a, l, rfl, ha, hl'⟩ := List.map_eq_cons_iff.mp hl
      obtain ⟨l', hperm, hmap⟩ := ih hl'
      exact ⟨a :: l', hperm.cons a, by rw [List.map_cons, ha, hmap]⟩
  | swap b c m =>
      obtain ⟨a, l, rfl, ha, hl'⟩ := List.map_eq_cons_iff.mp hl
      obtain ⟨a', l, rfl, ha', hl'⟩ := List.map_eq_cons_iff.mp hl'
      exact ⟨a' :: a :: l, .swap a' a l, by rw [List.map_cons, List.map_cons, ha, ha', hl']⟩
  | trans h h' ih ih' =>
      obtain ⟨l', hperm, hmap⟩ := ih hl
      obtain ⟨l'', hperm', hmap'⟩ := ih' hmap
      exact ⟨l'', hperm.trans hperm', hmap'⟩

mutual
/-- Values with one normal form are the same. -/
theorem same_of_normalize : ∀ {i j : Json}, i.normalize = j.normalize → Same i j
  | .null, j, h => by cases j <;> first | rfl | (simp [normalize] at h)
  | .bool b, j, h => by
      cases j <;> simp only [normalize, Json.bool.injEq, reduceCtorEq] at h
      rw [h]
      rfl
  | .int i, j, h => by
      cases j <;> simp only [normalize, Json.int.injEq, reduceCtorEq] at h
      rw [h]
      rfl
  | .float t, j, h => by
      cases j <;> simp only [normalize, Json.float.injEq, reduceCtorEq] at h
      rw [h]
      rfl
  | .str s, j, h => by
      cases j <;> simp only [normalize, Json.str.injEq, reduceCtorEq] at h
      rw [h]
      rfl
  | .arr l, j, h => by
      cases j <;> simp only [normalize, Json.arr.injEq, reduceCtorEq] at h
      exact ⟨_, rfl, sameItems_of_normalize h⟩
  | .obj l, j, h => by
      cases j <;> simp only [normalize, Json.obj.injEq, reduceCtorEq] at h
      next l' =>
        have hperm := (perm_of_sortedBy_eq h).symm
        rw [normalizeEntries_eq l'] at hperm
        obtain ⟨m, hm, heq⟩ := exists_perm_map hperm
        rw [← normalizeEntries_eq] at heq
        exact ⟨l', m, rfl, hm, sameEntries_of_normalize heq.symm⟩
theorem sameItems_of_normalize : ∀ {l l' : List Json},
    normalizeItems l = normalizeItems l' → SameItems l l'
  | [], l', h => by
      cases l' with
      | nil => rfl
      | cons j l' => cases h
  | i :: l, l', h => by
      cases l' with
      | nil => cases h
      | cons j l' =>
          rw [normalizeItems, normalizeItems, List.cons.injEq] at h
          exact ⟨j, l', rfl, same_of_normalize h.1, sameItems_of_normalize h.2⟩
theorem sameEntries_of_normalize : ∀ {l l' : List (String × Json)},
    normalizeEntries l = normalizeEntries l' → SameEntries l l'
  | [], l', h => by
      cases l' with
      | nil => rfl
      | cons e l' => cases h
  | (k, i) :: l, l', h => by
      cases l' with
      | nil => cases h
      | cons e l' =>
          obtain ⟨k', j⟩ := e
          rw [normalizeEntries, normalizeEntries, List.cons.injEq, Prod.mk.injEq] at h
          obtain ⟨⟨rfl, hij⟩, hrest⟩ := h
          exact ⟨j, l', rfl, same_of_normalize hij, sameEntries_of_normalize hrest⟩
end

theorem same_iff_normalize {i j : Json} (hkeys : i.distinctKeys = true) :
    Same i j ↔ i.normalize = j.normalize :=
  ⟨normalize_of_same hkeys, same_of_normalize⟩

/-! ## What the normal form keeps -/

theorem floatsAllItems_iff {p : String → Bool} {l : List Json} :
    floatsAllItems p l = true ↔ ∀ j ∈ l, j.floatsAll p = true := by
  induction l with
  | nil => simp [floatsAllItems]
  | cons j l ih => simp [floatsAllItems, ih]

theorem floatsAllEntries_iff {p : String → Bool} {l : List (String × Json)} :
    floatsAllEntries p l = true ↔ ∀ e ∈ l, e.2.floatsAll p = true := by
  induction l with
  | nil => simp [floatsAllEntries]
  | cons e l ih =>
      obtain ⟨k, j⟩ := e
      simp only [floatsAllEntries, Bool.and_eq_true, ih, List.forall_mem_cons]

theorem distinctKeysEntries_iff {l : List (String × Json)} :
    distinctKeysEntries l = true ↔ ∀ e ∈ l, e.2.distinctKeys = true := by
  induction l with
  | nil => simp [distinctKeysEntries]
  | cons e l ih =>
      obtain ⟨k, j⟩ := e
      simp only [distinctKeysEntries, Bool.and_eq_true, ih, List.forall_mem_cons]

mutual
theorem floatsAll_normalize (p : String → Bool) : ∀ j : Json,
    j.normalize.floatsAll p = j.floatsAll p
  | .null => rfl
  | .bool _ => rfl
  | .int _ => rfl
  | .float _ => rfl
  | .str _ => rfl
  | .arr l => by rw [normalize, floatsAll, floatsAll, floatsAllItems_normalize p l]
  | .obj l => by
      have hsort : floatsAllEntries p (Ordered.sortedBy Prod.fst (normalizeEntries l))
          = floatsAllEntries p (normalizeEntries l) := by
        rw [Bool.eq_iff_iff, floatsAllEntries_iff, floatsAllEntries_iff]
        simp only [Ordered.mem_sortedBy]
      rw [normalize, floatsAll, floatsAll, hsort, floatsAllEntries_normalize p l]
theorem floatsAllItems_normalize (p : String → Bool) : ∀ l : List Json,
    floatsAllItems p (normalizeItems l) = floatsAllItems p l
  | [] => rfl
  | j :: l => by
      rw [normalizeItems, floatsAllItems, floatsAllItems, floatsAll_normalize p j,
        floatsAllItems_normalize p l]
theorem floatsAllEntries_normalize (p : String → Bool) : ∀ l : List (String × Json),
    floatsAllEntries p (normalizeEntries l) = floatsAllEntries p l
  | [] => rfl
  | (k, j) :: l => by
      rw [normalizeEntries, floatsAllEntries, floatsAllEntries, floatsAll_normalize p j,
        floatsAllEntries_normalize p l]
end

mutual
theorem distinctKeys_normalize : ∀ {j : Json}, j.distinctKeys = true →
    j.normalize.distinctKeys = true
  | .null, _ => rfl
  | .bool _, _ => rfl
  | .int _, _ => rfl
  | .float _, _ => rfl
  | .str _, _ => rfl
  | .arr l, h => by
      rw [normalize, distinctKeys]
      exact distinctKeysItems_normalize h
  | .obj l, h => by
      rw [distinctKeys, Bool.and_eq_true] at h
      have hsort : distinctKeysEntries (Ordered.sortedBy Prod.fst (normalizeEntries l)) = true := by
        have hentries := distinctKeysEntries_iff.mp (distinctKeysEntries_normalize h.2)
        exact distinctKeysEntries_iff.mpr fun e he =>
          hentries e ((Ordered.mem_sortedBy Prod.fst).mp he)
      have hnodup : ((Ordered.sortedBy Prod.fst (normalizeEntries l)).map Prod.fst).Nodup := by
        rw [((Ordered.perm_sortedBy Prod.fst _).map Prod.fst).nodup_iff, map_fst_normalizeEntries]
        exact of_decide_eq_true h.1
      rw [normalize, distinctKeys, Bool.and_eq_true]
      exact ⟨decide_eq_true hnodup, hsort⟩
theorem distinctKeysItems_normalize : ∀ {l : List Json}, distinctKeysItems l = true →
    distinctKeysItems (normalizeItems l) = true
  | [], _ => rfl
  | j :: l, h => by
      rw [distinctKeysItems, Bool.and_eq_true] at h
      rw [normalizeItems, distinctKeysItems, Bool.and_eq_true]
      exact ⟨distinctKeys_normalize h.1, distinctKeysItems_normalize h.2⟩
theorem distinctKeysEntries_normalize : ∀ {l : List (String × Json)},
    distinctKeysEntries l = true → distinctKeysEntries (normalizeEntries l) = true
  | [], _ => rfl
  | (k, j) :: l, h => by
      rw [distinctKeysEntries, Bool.and_eq_true] at h
      rw [normalizeEntries, distinctKeysEntries, Bool.and_eq_true]
      exact ⟨distinctKeys_normalize h.1, distinctKeysEntries_normalize h.2⟩
end

mutual
/-- Putting a value in key order twice changes nothing. -/
theorem normalize_idem : ∀ j : Json, j.normalize.normalize = j.normalize
  | .null => rfl
  | .bool _ => rfl
  | .int _ => rfl
  | .float _ => rfl
  | .str _ => rfl
  | .arr l => by rw [normalize, normalize, normalizeItems_idem l]
  | .obj l => by
      have hentries : normalizeEntries (Ordered.sortedBy Prod.fst (normalizeEntries l))
          = Ordered.sortedBy Prod.fst (normalizeEntries l) := by
        rw [normalizeEntries_eq, ← List.map_id (Ordered.sortedBy Prod.fst (normalizeEntries l)),
          List.map_map]
        refine List.map_congr_left fun e he => ?_
        have hmem := (Ordered.mem_sortedBy Prod.fst).mp he
        have hidem := normalizeEntries_idem l e hmem
        exact Prod.ext rfl hidem
      have hsorted : Ordered.sortedBy Prod.fst (Ordered.sortedBy Prod.fst (normalizeEntries l))
          = Ordered.sortedBy Prod.fst (normalizeEntries l) :=
        (Ordered.pairwise_sortedBy Prod.fst _).insertionSort_eq
      rw [normalize, normalize, hentries, hsorted]
theorem normalizeItems_idem : ∀ l : List Json,
    normalizeItems (normalizeItems l) = normalizeItems l
  | [] => rfl
  | j :: l => by
      rw [normalizeItems, normalizeItems, normalize_idem j, normalizeItems_idem l]
theorem normalizeEntries_idem : ∀ l : List (String × Json),
    ∀ e ∈ normalizeEntries l, e.2.normalize = e.2
  | [], e, he => by cases he
  | (k, j) :: l, e, he => by
      rw [normalizeEntries] at he
      rcases List.mem_cons.mp he with rfl | he
      · exact normalize_idem j
      · exact normalizeEntries_idem l e he
end

end Json

/-! ## Code points and characters -/

namespace PyStr

open CodePoint

theorem ofChar_lt_iff {a b : Char} : ofChar a < ofChar b ↔ a < b := Iff.rfl

theorem map_ofChar_lt_iff : ∀ {l m : List Char}, l.map ofChar < m.map ofChar ↔ l < m
  | [], [] => by simp
  | [], b :: m => by simp
  | a :: l, [] => by simp
  | a :: l, b :: m => by
      have heq : ofChar a = ofChar b ↔ a = b := ⟨ofChar_inj, congrArg ofChar⟩
      rw [List.map_cons, List.map_cons, List.cons_lt_cons_iff, List.cons_lt_cons_iff,
        map_ofChar_lt_iff, ofChar_lt_iff, heq]

theorem ofString_le_iff {s t : String} : ofString s ≤ ofString t ↔ s ≤ t := by
  rw [← not_lt, ← not_lt, String.lt_iff_toList_lt]
  exact not_congr map_ofChar_lt_iff

end PyStr

namespace PyJson

theorem sortedBy_toPyEntries (l : List (String × Json)) :
    Ordered.sortedBy Prod.fst (Json.toPyEntries l)
      = Json.toPyEntries (Ordered.sortedBy Prod.fst l) := by
  rw [Json.toPyEntries_eq, Json.toPyEntries_eq]
  exact (List.map_insertionSort (fun a b : String × Json => a.1 ≤ b.1)
    (fun a b : PyStr × PyJson => a.1 ≤ b.1) _ l fun a _ b _ => PyStr.ofString_le_iff.symm).symm

mutual
/-- Key order is the same with and without surrogates around. -/
theorem normalize_toPy : ∀ j : Json, j.toPy.normalize = j.normalize.toPy
  | .null => rfl
  | .bool _ => rfl
  | .int _ => rfl
  | .float _ => rfl
  | .str _ => rfl
  | .arr l => by
      rw [Json.toPy, normalize, Json.normalize, Json.toPy, normalizeItems_toPy l]
  | .obj l => by
      rw [Json.toPy, normalize, Json.normalize, Json.toPy, normalizeEntries_toPy l,
        sortedBy_toPyEntries]
theorem normalizeItems_toPy : ∀ l : List Json,
    normalizeItems (Json.toPyItems l) = Json.toPyItems (Json.normalizeItems l)
  | [] => rfl
  | j :: l => by
      rw [Json.toPyItems, normalizeItems, Json.normalizeItems, Json.toPyItems, normalize_toPy j,
        normalizeItems_toPy l]
theorem normalizeEntries_toPy : ∀ l : List (String × Json),
    normalizeEntries (Json.toPyEntries l) = Json.toPyEntries (Json.normalizeEntries l)
  | [] => rfl
  | (k, j) :: l => by
      rw [Json.toPyEntries, normalizeEntries, Json.normalizeEntries, Json.toPyEntries,
        normalize_toPy j, normalizeEntries_toPy l]
end

theorem ofChars_append (l m : List Char) : ofChars (l ++ m) = ofChars l ++ ofChars m :=
  List.map_append ..

theorem quotePoints_ofString (s : String) :
    quotePoints (PyStr.ofString s) = ofChars (Json.stringChars s) := by
  have hbody : ∀ l : List Char, (l.map CodePoint.ofChar).flatMap escapePoint
      = ofChars (l.flatMap Json.escapeChar) := by
    intro l
    induction l with
    | nil => rfl
    | cons c l ih =>
        rw [List.map_cons, List.flatMap_cons, List.flatMap_cons, ih, ofChars_append, escapePoint,
          CodePoint.char?_ofChar]
  unfold quotePoints PyStr.ofString
  rw [hbody, ← ofChars_append, ← ofChars_append]
  rfl

mutual
/-- The text of a value without surrogates is its JSON text. -/
theorem text_toPy : ∀ j : Json, text j.toPy = ofChars (Json.chars j)
  | .null => rfl
  | .bool true => rfl
  | .bool false => rfl
  | .int _ => rfl
  | .float _ => rfl
  | .str s => quotePoints_ofString s
  | .arr l => by
      rw [Json.toPy, text, Json.chars, textItems_toPy l, ← ofChars_append, ← ofChars_append]
      rfl
  | .obj l => by
      rw [Json.toPy, text, Json.chars, textEntries_toPy l, ← ofChars_append, ← ofChars_append]
      rfl
theorem textItems_toPy : ∀ l : List Json,
    textItems (Json.toPyItems l) = ofChars (Json.charsItems l)
  | [] => rfl
  | [j] => by rw [Json.toPyItems, Json.toPyItems, textItems, Json.charsItems, text_toPy j]
  | j :: k :: l => by
      have hl := textItems_toPy (k :: l)
      rw [Json.toPyItems] at hl
      rw [Json.toPyItems, Json.toPyItems, textItems, Json.charsItems, text_toPy j, hl,
        ← ofChars_append, ← ofChars_append]
      · rfl
      all_goals simp
theorem textEntries_toPy : ∀ l : List (String × Json),
    textEntries (Json.toPyEntries l) = ofChars (Json.charsEntries l)
  | [] => rfl
  | [(k, j)] => by
      rw [Json.toPyEntries, Json.toPyEntries, textEntries, Json.charsEntries, text_toPy j,
        quotePoints_ofString, ← ofChars_append, ← ofChars_append]
      rfl
  | (k, j) :: (k', j') :: l => by
      have hl := textEntries_toPy ((k', j') :: l)
      rw [Json.toPyEntries] at hl
      rw [Json.toPyEntries, Json.toPyEntries, textEntries, Json.charsEntries, text_toPy j, hl,
        quotePoints_ofString, ← ofChars_append, ← ofChars_append, ← ofChars_append,
        ← ofChars_append]
      · simp
      all_goals simp
end

end PyJson

/-! ## Bytes of the canonical text -/

namespace Json

/-- UTF-8 bytes of a list of characters. -/
def utf8Size (l : List Char) : Nat := (l.map Char.utf8Size).sum

@[simp] theorem utf8Size_nil : utf8Size [] = 0 := rfl

@[simp] theorem utf8Size_cons (c : Char) (l : List Char) :
    utf8Size (c :: l) = c.utf8Size + utf8Size l := by
  unfold utf8Size
  rw [List.map_cons, List.sum_cons]

@[simp] theorem utf8Size_append (l m : List Char) :
    utf8Size (l ++ m) = utf8Size l + utf8Size m := by
  unfold utf8Size
  rw [List.map_append, List.sum_append]

theorem size_toUTF8 (l : List Char) : (String.ofList l).toUTF8.size = utf8Size l := by
  show (String.ofList l).utf8ByteSize = utf8Size l
  induction l with
  | nil => rfl
  | cons c l ih =>
      have happend : String.ofList (c :: l) = String.singleton c ++ String.ofList l := by
        rw [String.singleton_eq_ofList, ← String.ofList_append]
        rfl
      rw [happend, String.utf8ByteSize_append, String.utf8ByteSize_singleton, ih, utf8Size_cons]

theorem utf8Size_digitChar : ∀ d < 16, (Nat.digitChar d).utf8Size = 1 := by decide

theorem utf8Size_escapeChar (c : Char) : utf8Size (escapeChar c) = charSize c := by
  have hcontrol : c.toNat < 32 → utf8Size ['\\', 'u', '0', '0', Nat.digitChar (c.toNat / 16),
      Nat.digitChar (c.toNat % 16)] = 6 := by
    intro hlow
    simp only [utf8Size_cons, utf8Size_nil, utf8Size_digitChar (c.toNat / 16) (by omega),
      utf8Size_digitChar (c.toNat % 16) (by omega)]
    decide
  unfold escapeChar charSize
  by_cases hquote : c = '"' ∨ c = '\\'
  · rw [if_pos hquote]
    rcases hquote with rfl | rfl <;> decide
  · rw [not_or] at hquote
    rw [if_neg hquote.1, if_neg hquote.2, if_neg (not_or.mpr hquote)]
    split_ifs <;> first | decide | omega | exact hcontrol ‹_› | simp_all

theorem utf8Size_of_ones {l : List Char} (h : ∀ c ∈ l, c.utf8Size = 1) :
    utf8Size l = l.length := by
  unfold utf8Size
  rw [List.map_congr_left h, List.map_const', List.sum_replicate_nat, Nat.mul_one]

theorem utf8Size_digit {c : Char} (h : c.isDigit = true) : c.utf8Size = 1 := by
  have hle : c.toNat ≤ 57 := (Char.isDigit_iff_toNat.mp h).2
  refine Char.utf8Size_eq_one_iff.mpr ?_
  rw [UInt32.le_iff_toNat_le]
  exact hle.trans (by decide)

theorem utf8Size_floatText (f : FloatText) :
    utf8Size f.text.toList = f.text.toList.length := by
  refine utf8Size_of_ones fun c hc => ?_
  have hcase := f.numeric.chars c hc
  simp only [numberChar, Bool.or_eq_true, decide_eq_true_eq] at hcase
  rcases hcase with (((hdigit | rfl) | rfl) | rfl) | rfl
  · exact utf8Size_digit hdigit
  all_goals decide

theorem utf8Size_stringChars (s : String) : utf8Size (stringChars s) = stringSize s := by
  have hbody : ∀ l : List Char, utf8Size (l.flatMap escapeChar) = (l.map charSize).sum := by
    intro l
    induction l with
    | nil => rfl
    | cons c l ih =>
        rw [List.flatMap_cons, utf8Size_append, utf8Size_escapeChar, ih, List.map_cons,
          List.sum_cons]
  have hquote : Char.utf8Size '"' = 1 := by decide
  unfold stringChars stringSize
  rw [List.cons_append, utf8Size_cons, utf8Size_append, hbody, utf8Size_cons, utf8Size_nil, hquote]
  omega

theorem utf8Size_intChars (i : Int) :
    utf8Size ((if i < 0 then ['-'] else []) ++ Nat.toDigits 10 i.natAbs) = intSize i := by
  have hdigits : utf8Size (Nat.toDigits 10 i.natAbs) = (Nat.toDigits 10 i.natAbs).length :=
    utf8Size_of_ones fun c hc =>
      utf8Size_digit (Nat.isDigit_of_mem_toDigits (by decide) (by decide) hc)
  rw [utf8Size_append, hdigits]
  unfold intSize
  split <;> rfl

theorem utf8Size_comma : Char.utf8Size ',' = 1 := by decide

theorem utf8Size_colon : Char.utf8Size ':' = 1 := by decide

mutual
/-- The text of a value takes as many bytes as its size says. -/
theorem utf8Size_chars : ∀ j : Json, utf8Size (chars j) = size j
  | .null => by decide
  | .bool true => by decide
  | .bool false => by decide
  | .int i => utf8Size_intChars i
  | .float f => utf8Size_floatText f
  | .str s => utf8Size_stringChars s
  | .arr l => by
      have hitems := utf8Size_charsItems l
      have hopen : Char.utf8Size '[' = 1 := by decide
      have hclose : Char.utf8Size ']' = 1 := by decide
      rw [chars, size, List.cons_append, utf8Size_cons, utf8Size_append, utf8Size_cons,
        utf8Size_nil]
      omega
  | .obj l => by
      have hentries := utf8Size_charsEntries l
      have hopen : Char.utf8Size '\x7b' = 1 := by decide
      have hclose : Char.utf8Size '\x7d' = 1 := by decide
      rw [chars, size, List.cons_append, utf8Size_cons, utf8Size_append, utf8Size_cons,
        utf8Size_nil]
      omega
theorem utf8Size_charsItems : ∀ l : List Json,
    utf8Size (charsItems l) = (l.length - 1) + sizeItems l
  | [] => rfl
  | [j] => by
      have hj := utf8Size_chars j
      rw [charsItems, sizeItems, sizeItems, List.length_singleton]
      omega
  | j :: k :: l => by
      have hj := utf8Size_chars j
      have hl := utf8Size_charsItems (k :: l)
      have hcomma := utf8Size_comma
      rw [List.length_cons] at hl
      rw [charsItems, utf8Size_append, utf8Size_cons, sizeItems, List.length_cons,
        List.length_cons]
      · omega
      · simp
theorem utf8Size_charsEntries : ∀ l : List (String × Json),
    utf8Size (charsEntries l) = (l.length - 1) + sizeEntries l
  | [] => rfl
  | [(k, j)] => by
      have hj := utf8Size_chars j
      have hk := utf8Size_stringChars k
      have hcolon := utf8Size_colon
      rw [charsEntries, utf8Size_append, utf8Size_cons, sizeEntries, sizeEntries,
        List.length_singleton]
      omega
  | (k, j) :: e :: l => by
      have hj := utf8Size_chars j
      have hk := utf8Size_stringChars k
      have hl := utf8Size_charsEntries (e :: l)
      have hcomma := utf8Size_comma
      have hcolon := utf8Size_colon
      rw [List.length_cons] at hl
      rw [charsEntries, utf8Size_append, utf8Size_append, utf8Size_cons, utf8Size_cons,
        sizeEntries, List.length_cons, List.length_cons]
      · omega
      · simp
end

end Json
