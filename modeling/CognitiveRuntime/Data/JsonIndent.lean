import CognitiveRuntime.Data.JsonOrder

/-!
# Indented JSON text

The text `json.dumps` writes with `indent=2`: the members of a container
stand on lines of their own and a key is followed by a colon and a space.
The reader skips that space, so the text reads back as its value, as the
compact one does.
-/

namespace Json

/-- A line break and the indentation of a level. -/
def newline (level : Nat) : List Char := '\n' :: List.replicate (2 * level) ' '

mutual
/-- The text of a value whose opening bracket stands on a line of the
level. -/
def indented (q : Quoting) (level : Nat) : Json → List Char
  | .arr items =>
      '[' :: (if items.isEmpty then []
        else newline (level + 1) ++ indentedItems q (level + 1) items ++ newline level) ++ [']']
  | .obj entries =>
      '\x7b' :: (if entries.isEmpty then []
        else newline (level + 1) ++ indentedEntries q (level + 1) entries ++ newline level)
        ++ ['\x7d']
  | .null => ['n', 'u', 'l', 'l']
  | .bool true => ['t', 'r', 'u', 'e']
  | .bool false => ['f', 'a', 'l', 's', 'e']
  | .int i => intChars i
  | .float f => f.text.toList
  | .str s => q.literal s
def indentedItems (q : Quoting) (level : Nat) : List Json → List Char
  | [] => []
  | [j] => indented q level j
  | j :: rest => indented q level j ++ ',' :: newline level ++ indentedItems q level rest
def indentedEntries (q : Quoting) (level : Nat) : List (String × Json) → List Char
  | [] => []
  | [(k, j)] => q.literal k ++ ':' :: ' ' :: indented q level j
  | (k, j) :: rest =>
      q.literal k ++ ':' :: ' ' :: indented q level j ++ ',' :: newline level
        ++ indentedEntries q level rest
end

/-- `json.dumps(value, indent=2, sort_keys=True)`. -/
def dumpsIndented (value : Json) : String :=
  String.ofList (value.normalize.indented .ascii 0)

/-! ## Lines

An escaped text holds no carriage return, so its line breaks are the ones
it was laid out with. -/

theorem return_not_mem_escapeUnit (u : Nat) : '\r' ∉ PyStr.escapeUnit u := by
  have hdigit : ∀ n, '\r' ≠ Nat.digitChar n := fun n =>
    (Nat.digitChar_ne '\r' (by decide)).symm
  have hplain : 32 ≤ u ∧ u < 127 → '\r' ≠ Char.ofNat u := by
    rintro ⟨hlow, hhigh⟩ h
    have hval : (Char.ofNat u).toNat = u := by
      unfold Char.ofNat
      rw [dif_pos (.inl (by omega))]
      rfl
    rw [← h] at hval
    have hreturn : '\r'.toNat = 13 := rfl
    omega
  unfold PyStr.escapeUnit PyStr.hex4
  split_ifs with h₁ h₂ h₃ h₄ h₅ h₆ h₇ h₈
  · decide
  · decide
  · decide
  · decide
  · decide
  · decide
  · decide
  · simpa using hplain h₈
  · simp [hdigit]

theorem return_not_mem_literal (s : String) : '\r' ∉ Quoting.ascii.literal s := by
  have hbody : '\r' ∉ Quoting.ascii.body s := by
    show '\r' ∉ (PyStr.units (PyStr.ofString s)).flatMap PyStr.escapeUnit
    rw [List.mem_flatMap]
    rintro ⟨u, -, hu⟩
    exact return_not_mem_escapeUnit u hu
  simp [Quoting.literal, hbody]

theorem return_not_mem_newline (level : Nat) : '\r' ∉ newline level := by
  simp [newline, List.mem_replicate]

theorem return_not_mem_intChars (i : Int) : '\r' ∉ intChars i := by
  have hdigits : '\r' ∉ Nat.toDigits 10 i.natAbs := by
    intro h
    have hdigit := Nat.isDigit_of_mem_toDigits (by decide) (by decide) h
    revert hdigit
    decide
  unfold intChars
  split <;> simp [hdigits]

mutual
theorem return_not_mem_indented : ∀ (level : Nat) (j : Json), j.floatFree = true →
    '\r' ∉ j.indented .ascii level
  | _, .null, _ => by simp [indented]
  | _, .bool true, _ => by simp [indented]
  | _, .bool false, _ => by simp [indented]
  | _, .int i, _ => return_not_mem_intChars i
  | _, .str s, _ => return_not_mem_literal s
  | _, .arr [], _ => by simp [indented]
  | level, .arr (j :: l), hfloat => by
      have hitems := return_not_mem_items (level + 1) (j :: l) hfloat
      simp [indented, hitems, return_not_mem_newline]
  | _, .obj [], _ => by simp [indented]
  | level, .obj (e :: l), hfloat => by
      have hentries := return_not_mem_entries (level + 1) (e :: l) hfloat
      simp [indented, hentries, return_not_mem_newline]
theorem return_not_mem_items : ∀ (level : Nat) (l : List Json),
    floatsAllItems noFloat l = true → '\r' ∉ indentedItems .ascii level l
  | _, [], _ => by simp [indentedItems]
  | level, [j], hfloat => by
      rw [floatsAllItems, Bool.and_eq_true] at hfloat
      exact return_not_mem_indented level j hfloat.1
  | level, j :: k :: l, hfloat => by
      rw [floatsAllItems, Bool.and_eq_true] at hfloat
      have hj := return_not_mem_indented level j hfloat.1
      have hl := return_not_mem_items level (k :: l) hfloat.2
      simp [indentedItems, hj, hl, return_not_mem_newline]
theorem return_not_mem_entries : ∀ (level : Nat) (l : List (String × Json)),
    floatsAllEntries noFloat l = true → '\r' ∉ indentedEntries .ascii level l
  | _, [], _ => by simp [indentedEntries]
  | level, [(k, j)], hfloat => by
      rw [floatsAllEntries, Bool.and_eq_true] at hfloat
      have hj := return_not_mem_indented level j hfloat.1
      simp [indentedEntries, hj, return_not_mem_literal]
  | level, (k, j) :: e :: l, hfloat => by
      rw [floatsAllEntries, Bool.and_eq_true] at hfloat
      have hj := return_not_mem_indented level j hfloat.1
      have hl := return_not_mem_entries level (e :: l) hfloat.2
      simp [indentedEntries, hj, hl, return_not_mem_literal, return_not_mem_newline]
end

theorem return_not_mem_dumpsIndented {j : Json} (hfloat : j.floatFree = true) :
    '\r' ∉ j.dumpsIndented.toList := by
  unfold dumpsIndented
  rw [String.toList_ofList]
  exact return_not_mem_indented 0 _ ((floatsAll_normalize _ j).trans hfloat)

end Json

namespace JsonReader

open PyStr (scanString)

/-! ## Space -/

theorem skip_newline (level : Nat) (r : List Char) : skip (Json.newline level ++ r) = skip r := by
  unfold skip Json.newline
  refine List.dropWhile_append_of_pos fun c hc => ?_
  rcases List.mem_cons.mp hc with rfl | hc
  · rfl
  · rw [List.eq_of_mem_replicate hc]
    rfl

theorem skip_space (r : List Char) : skip (' ' :: r) = skip r := by
  unfold skip
  exact List.dropWhile_cons_of_pos rfl

theorem endsNumber_newline (level : Nat) (r : List Char) : EndsNumber (Json.newline level ++ r) :=
  endsNumber_cons rfl (by decide) (by decide) (by decide)

/-- The text of a value opens with neither space nor a closing bracket. -/
theorem indented_start (q : Json.Quoting) (level : Nat) {j : Json} (hfloat : j.floatFree = true) :
    ∃ c t, j.indented q level = c :: t ∧ isSpace c = false ∧ c ≠ ']' := by
  cases j with
  | arr items => exact ⟨'[', _, rfl, by decide, by decide⟩
  | obj entries => exact ⟨'\x7b', _, rfl, by decide, by decide⟩
  | bool b => cases b with
    | true => exact ⟨'t', _, rfl, by decide, by decide⟩
    | false => exact ⟨'f', _, rfl, by decide, by decide⟩
  | null => exact ⟨'n', _, rfl, by decide, by decide⟩
  | int i =>
      obtain ⟨c, t, hc, hstart⟩ := intChars_start i
      exact ⟨c, t, hc, hstart.space, hstart.closing⟩
  | float text => cases hfloat
  | str s => exact ⟨'"', _, rfl, by decide, by decide⟩

theorem indentedItems_start (q : Json.Quoting) (level : Nat) {j : Json} (l : List Json)
    (hfloat : j.floatFree = true) :
    ∃ c t, Json.indentedItems q level (j :: l) = c :: t ∧ isSpace c = false ∧ c ≠ ']' := by
  obtain ⟨c, t, hc, hspace, hclosing⟩ := indented_start q level hfloat
  cases l with
  | nil => exact ⟨c, t, hc, hspace, hclosing⟩
  | cons k l =>
      refine ⟨c, t ++ ',' :: Json.newline level ++ Json.indentedItems q level (k :: l), ?_, hspace,
        hclosing⟩
      rw [Json.indentedItems, hc]
      · simp
      · simp

theorem indentedEntries_start (q : Json.Quoting) (level : Nat) (e : String × Json)
    (l : List (String × Json)) : ∃ t, Json.indentedEntries q level (e :: l) = '"' :: t := by
  obtain ⟨k, j⟩ := e
  cases l with
  | nil => exact ⟨_, rfl⟩
  | cons e l => exact ⟨_, rfl⟩

theorem skip_indented (q : Json.Quoting) (level : Nat) {j : Json} (hfloat : j.floatFree = true)
    (r : List Char) : skip (j.indented q level ++ r) = j.indented q level ++ r := by
  obtain ⟨c, t, hc, hspace, -⟩ := indented_start q level hfloat
  rw [hc]
  exact skip_cons hspace _

/-! ## Fuel -/

mutual
theorem weight_le_indented (q : Json.Quoting) : ∀ (level : Nat) (j : Json), j.floatFree = true →
    j.weight ≤ (j.indented q level).length
  | _, .null, _ => by simp [Json.weight, Json.indented]
  | _, .bool true, _ => by simp [Json.weight, Json.indented]
  | _, .bool false, _ => by simp [Json.weight, Json.indented]
  | _, .int i, _ => by
      obtain ⟨c, t, hc, -⟩ := intChars_start i
      simp [Json.weight, Json.indented, hc]
  | _, .str s, _ => by simp [Json.weight, Json.indented, Json.Quoting.literal]
  | level, .arr [], _ => by simp [Json.weight, Json.weightItems, Json.indented]
  | level, .arr (j :: l), hfloat => by
      have hitems := weightItems_le_indented q (level + 1) (j :: l) hfloat
      simp only [Json.weight, Json.indented, List.isEmpty_cons, Bool.false_eq_true, if_false,
        List.length_append, List.length_cons, List.length_nil, Json.newline] at hitems ⊢
      omega
  | level, .obj [], _ => by simp [Json.weight, Json.weightEntries, Json.indented]
  | level, .obj (e :: l), hfloat => by
      have hentries := weightEntries_le_indented q (level + 1) (e :: l) hfloat
      simp only [Json.weight, Json.indented, List.isEmpty_cons, Bool.false_eq_true, if_false,
        List.length_append, List.length_cons, List.length_nil, Json.newline] at hentries ⊢
      omega
theorem weightItems_le_indented (q : Json.Quoting) : ∀ (level : Nat) (l : List Json),
    Json.floatsAllItems Json.noFloat l = true →
      Json.weightItems l ≤ (Json.indentedItems q level l).length + 1
  | _, [], _ => by simp [Json.weightItems]
  | level, [j], hfloat => by
      rw [Json.floatsAllItems, Bool.and_eq_true] at hfloat
      have hj := weight_le_indented q level j hfloat.1
      rw [Json.weightItems, Json.weightItems, Json.indentedItems]
      omega
  | level, j :: k :: l, hfloat => by
      rw [Json.floatsAllItems, Bool.and_eq_true] at hfloat
      have hj := weight_le_indented q level j hfloat.1
      have hl := weightItems_le_indented q level (k :: l) hfloat.2
      rw [Json.weightItems, Json.indentedItems]
      · simp only [List.length_append, List.length_cons]
        omega
      · simp
theorem weightEntries_le_indented (q : Json.Quoting) : ∀ (level : Nat) (l : List (String × Json)),
    Json.floatsAllEntries Json.noFloat l = true →
      Json.weightEntries l ≤ (Json.indentedEntries q level l).length + 1
  | _, [], _ => by simp [Json.weightEntries]
  | level, [(k, j)], hfloat => by
      rw [Json.floatsAllEntries, Bool.and_eq_true] at hfloat
      have hj := weight_le_indented q level j hfloat.1
      rw [Json.weightEntries, Json.weightEntries, Json.indentedEntries]
      simp only [List.length_append, List.length_cons]
      omega
  | level, (k, j) :: e :: l, hfloat => by
      rw [Json.floatsAllEntries, Bool.and_eq_true] at hfloat
      have hj := weight_le_indented q level j hfloat.1
      have hl := weightEntries_le_indented q level (e :: l) hfloat.2
      rw [Json.weightEntries, Json.indentedEntries]
      · simp only [List.length_append, List.length_cons]
        omega
      · simp
end

/-! ## Reading back -/

section ReadBack

variable [DecimalFloat]

/-- After an item and space the reader sees the bracket, and stops. -/
theorem items_last_spaced {n : Nat} {s t r : List Char} {v : PyJson}
    (hvalue : value n s = some (v, t)) (ht : skip t = ']' :: r) :
    items (n + 1) s = some ([v], r) := by
  rw [items, hvalue, Option.bind_some]
  dsimp only
  rw [ht]
  exact if_pos rfl

/-- After an entry and space the reader sees the brace, and stops. -/
theorem entries_last_spaced {n : Nat} {s s' t r : List Char} {k : PyStr} {v : PyJson}
    (hkey : scanString s = some (k, ':' :: s')) (hvalue : value n (skip s') = some (v, t))
    (ht : skip t = '\x7d' :: r) : entries (n + 1) ('"' :: s) = some ([(k, v)], r) := by
  rw [entries, if_pos rfl, hkey, Option.bind_some]
  dsimp only
  rw [skip_cons rfl]
  dsimp only
  rw [if_pos rfl, hvalue, Option.bind_some]
  dsimp only
  rw [ht]
  exact if_pos rfl

mutual
/-- With enough fuel a value reads back from the front of a text. -/
theorem value_indented (q : Json.Quoting) : ∀ (level : Nat) (j : Json) {n : Nat} {r : List Char},
    j.floatFree = true → j.distinctKeys = true → j.weight ≤ n → EndsNumber r →
      value n (j.indented q level ++ r) = some (j.toPy, r)
  | _, j, 0, _, _, _, hn, _ => absurd hn (Nat.not_le_of_lt (weight_pos j))
  | _, .null, n + 1, r, _, _, _, _ => by
      simp [Json.indented, value, word, List.isPrefixOf, Json.toPy]
  | _, .bool true, n + 1, r, _, _, _, _ => by
      simp [Json.indented, value, word, List.isPrefixOf, Json.toPy]
  | _, .bool false, n + 1, r, _, _, _, _ => by
      simp [Json.indented, value, word, List.isPrefixOf, Json.toPy]
  | _, .int i, n + 1, r, _, _, _, hr => by
      obtain ⟨c, t, hc, hstart⟩ := intChars_start i
      have hnumber := number_intChars i hr
      rw [hc] at hnumber
      rw [Json.indented, hc]
      exact value_number hstart hnumber
  | _, .str s, n + 1, r, _, _, _, _ => by
      rw [Json.indented, Json.Quoting.literal, List.cons_append, List.cons_append, value,
        if_pos rfl, scanString_literal]
      rfl
  | _, .arr [], n + 1, r, _, _, _, _ => by
      simp [Json.indented, value, skip, isSpace, Json.toPy, Json.toPyItems]
  | level, .arr (j :: l), n + 1, r, hfloat, hkeys, hn, _ => by
      have hfloats : Json.floatsAllItems Json.noFloat (j :: l) = true := hfloat
      rw [Json.floatsAllItems, Bool.and_eq_true] at hfloats
      have hlist := items_indented q (level + 1) level (j :: l) (n := n) (r := r) (by simp) hfloat
        hkeys (by rw [Json.weight] at hn; omega)
      obtain ⟨c, t, hc, hspace, hclosing⟩ := indentedItems_start q (level + 1) l hfloats.1
      rw [Json.indented, if_neg (by simp), List.cons_append, List.cons_append, List.append_assoc,
        List.append_assoc, List.append_assoc, value, if_neg (by decide), if_pos rfl, skip_newline,
        hc, List.cons_append, skip_cons hspace]
      dsimp only
      rw [hc, List.cons_append] at hlist
      rw [if_neg hclosing, List.singleton_append, hlist]
      rfl
  | _, .obj [], n + 1, r, _, _, _, _ => by
      simp [Json.indented, value, skip, isSpace, Json.toPy, Json.toPyEntries]
  | level, .obj (e :: l), n + 1, r, hfloat, hkeys, hn, _ => by
      rw [Json.distinctKeys, Bool.and_eq_true] at hkeys
      have hlist := entries_indented q (level + 1) level (e :: l) (n := n) (r := r) (by simp)
        hfloat hkeys.2 (by rw [Json.weight] at hn; omega)
      obtain ⟨t, ht⟩ := indentedEntries_start q (level + 1) e l
      have hdict := dictOfPairs_nodup (toPyEntries_nodup (of_decide_eq_true hkeys.1))
      rw [Json.indented, if_neg (by simp), List.cons_append, List.cons_append, List.append_assoc,
        List.append_assoc, List.append_assoc, value, if_neg (by decide), if_neg (by decide),
        if_pos rfl, skip_newline, ht, List.cons_append, skip_cons rfl]
      dsimp only
      rw [ht, List.cons_append] at hlist
      rw [if_neg (by decide), List.singleton_append, hlist, Option.map_some, hdict]
      rfl
theorem items_indented (q : Json.Quoting) : ∀ (level outer : Nat) (l : List Json) {n : Nat}
    {r : List Char}, l ≠ [] → Json.floatsAllItems Json.noFloat l = true →
      Json.distinctKeysItems l = true → Json.weightItems l ≤ n →
        items n (Json.indentedItems q level l ++ (Json.newline outer ++ ']' :: r))
          = some (Json.toPyItems l, r)
  | _, _, j :: l, 0, _, _, _, _, hn => by
      rw [Json.weightItems] at hn
      omega
  | level, outer, [j], n + 1, r, _, hfloat, hkeys, hn => by
      simp only [Json.floatsAllItems, Json.distinctKeysItems, Bool.and_true, Json.weightItems]
        at hfloat hkeys hn
      have hvalue := value_indented q level j hfloat hkeys (n := n) (by omega)
        (endsNumber_newline outer (']' :: r))
      rw [Json.indentedItems]
      exact items_last_spaced hvalue ((skip_newline outer _).trans (skip_cons rfl r))
  | level, outer, j :: k :: l, n + 1, r, _, hfloat, hkeys, hn => by
      rw [Json.floatsAllItems, Bool.and_eq_true] at hfloat
      rw [Json.distinctKeysItems, Bool.and_eq_true] at hkeys
      rw [Json.weightItems] at hn
      have hvalue := value_indented q level j hfloat.1 hkeys.1 (n := n) (by omega)
        (endsNumber_comma (Json.newline level ++ (Json.indentedItems q level (k :: l)
          ++ (Json.newline outer ++ ']' :: r))))
      have hrest := items_indented q level outer (k :: l) (n := n) (r := r) (by simp) hfloat.2
        hkeys.2 (by omega)
      have hfloats := hfloat.2
      rw [Json.floatsAllItems, Bool.and_eq_true] at hfloats
      obtain ⟨c, t, hc, hspace, -⟩ := indentedItems_start q level l hfloats.1
      have hskip : skip (Json.newline level ++ (Json.indentedItems q level (k :: l)
          ++ (Json.newline outer ++ ']' :: r)))
          = Json.indentedItems q level (k :: l) ++ (Json.newline outer ++ ']' :: r) := by
        rw [skip_newline, hc, List.cons_append, skip_cons hspace]
      rw [Json.indentedItems, List.append_assoc, List.append_assoc, List.cons_append]
      · exact items_next hvalue ((congrArg (items n) hskip).trans hrest)
      · simp
theorem entries_indented (q : Json.Quoting) : ∀ (level outer : Nat) (l : List (String × Json))
    {n : Nat} {r : List Char}, l ≠ [] → Json.floatsAllEntries Json.noFloat l = true →
      Json.distinctKeysEntries l = true → Json.weightEntries l ≤ n →
        entries n (Json.indentedEntries q level l ++ (Json.newline outer ++ '\x7d' :: r))
          = some (Json.toPyEntries l, r)
  | _, _, (k, j) :: l, 0, _, _, _, _, hn => by
      rw [Json.weightEntries] at hn
      omega
  | level, outer, [(k, j)], n + 1, r, _, hfloat, hkeys, hn => by
      simp only [Json.floatsAllEntries, Json.distinctKeysEntries, Bool.and_true,
        Json.weightEntries] at hfloat hkeys hn
      have hvalue := value_indented q level j hfloat hkeys (n := n) (by omega)
        (endsNumber_newline outer ('\x7d' :: r))
      rw [← skip_indented q level hfloat, ← skip_space] at hvalue
      rw [Json.indentedEntries, List.append_assoc, Json.Quoting.literal, List.cons_append,
        List.cons_append, List.cons_append, List.cons_append]
      exact entries_last_spaced (scanString_literal q k _) hvalue
        ((skip_newline outer _).trans (skip_cons rfl r))
  | level, outer, (k, j) :: e :: l, n + 1, r, _, hfloat, hkeys, hn => by
      rw [Json.floatsAllEntries, Bool.and_eq_true] at hfloat
      rw [Json.distinctKeysEntries, Bool.and_eq_true] at hkeys
      rw [Json.weightEntries] at hn
      have hvalue := value_indented q level j hfloat.1 hkeys.1 (n := n) (by omega)
        (endsNumber_comma (Json.newline level ++ (Json.indentedEntries q level (e :: l)
          ++ (Json.newline outer ++ '\x7d' :: r))))
      have hrest := entries_indented q level outer (e :: l) (n := n) (r := r) (by simp) hfloat.2
        hkeys.2 (by omega)
      obtain ⟨t, ht⟩ := indentedEntries_start q level e l
      have hskip : skip (Json.newline level ++ (Json.indentedEntries q level (e :: l)
          ++ (Json.newline outer ++ '\x7d' :: r)))
          = Json.indentedEntries q level (e :: l) ++ (Json.newline outer ++ '\x7d' :: r) := by
        rw [skip_newline, ht, List.cons_append, skip_cons rfl]
      rw [← skip_indented q level hfloat.1, ← skip_space] at hvalue
      rw [Json.indentedEntries, Json.Quoting.literal]
      · simp only [List.append_assoc, List.cons_append, List.nil_append]
        exact entries_next (q.reads k _) hvalue ((congrArg (entries n) hskip).trans hrest)
      · simp
end

/-- The indented text of a value reads back as the value, with space or
without after it. -/
theorem loads_indented (q : Json.Quoting) {j : Json} (hfloat : j.floatFree = true)
    (hkeys : j.distinctKeys = true) {r : List Char} (hr : EndsNumber r) (hspace : skip r = []) :
    loads (j.indented q 0 ++ r) = some j.toPy := by
  have hweight : j.weight ≤ (j.indented q 0 ++ r).length := by
    rw [List.length_append]
    exact Nat.le_add_right_of_le (weight_le_indented q 0 j hfloat)
  rw [loads, skip_indented q 0 hfloat r, value_indented q 0 j hfloat hkeys hweight hr,
    Option.bind_some]
  dsimp only
  rw [if_pos hspace]

theorem loads_dumpsIndented_append {j : Json} (hfloat : j.floatFree = true)
    (hkeys : j.distinctKeys = true) {r : List Char} (hr : EndsNumber r) (hspace : skip r = []) :
    loads (j.dumpsIndented.toList ++ r) = some j.normalize.toPy := by
  unfold Json.dumpsIndented
  rw [String.toList_ofList]
  exact loads_indented .ascii ((Json.floatsAll_normalize _ j).trans hfloat)
    (Json.distinctKeys_normalize hkeys) hr hspace

/-- What `dumpsIndented` writes reads back as the value, in key order. -/
theorem loads_dumpsIndented {j : Json} (hfloat : j.floatFree = true)
    (hkeys : j.distinctKeys = true) : loads j.dumpsIndented.toList = some j.normalize.toPy := by
  have h := loads_dumpsIndented_append hfloat hkeys endsNumber_nil rfl
  rwa [List.append_nil] at h

end ReadBack

end JsonReader
