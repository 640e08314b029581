import Mathlib.Algebra.BigOperators.Group.List.Basic
import Mathlib.Algebra.GroupWithZero.Nat
import Mathlib.Data.List.Sort
import Mathlib.Data.String.Basic
import CognitiveRuntime.Data.FloatText
import CognitiveRuntime.Data.Ordered

/-!
# JSON values and their canonical form

A JSON value with objects as entry lists. Two values denote the same
document when they agree up to the order of object keys; `normalize`
puts every object in key order and so picks one representative. `size`
is the number of UTF-8 bytes of the canonical text: keys sorted,
separators `,` and `:`, non-ASCII characters unescaped.

A finite floating-point number is carried as its text; nothing here
computes with it.
-/

inductive Json where
  | null
  | bool (b : Bool)
  | int (i : Int)
  | float (f : FloatText)
  | str (s : String)
  | arr (items : List Json)
  | obj (entries : List (String × Json))

namespace Json

/-! ## Equality -/

mutual
def beq : Json → Json → Bool
  | .null, .null => true
  | .bool a, .bool b => a == b
  | .int a, .int b => a == b
  | .float a, .float b => a == b
  | .str a, .str b => a == b
  | .arr a, .arr b => beqItems a b
  | .obj a, .obj b => beqEntries a b
  | _, _ => false
def beqItems : List Json → List Json → Bool
  | [], [] => true
  | a :: as, b :: bs => beq a b && beqItems as bs
  | _, _ => false
def beqEntries : List (String × Json) → List (String × Json) → Bool
  | [], [] => true
  | (k, a) :: as, (l, b) :: bs => k == l && beq a b && beqEntries as bs
  | _, _ => false
end

mutual
theorem beq_iff : ∀ a b : Json, beq a b = true ↔ a = b
  | .null, b => by cases b <;> simp [beq]
  | .bool a, b => by cases b <;> simp [beq]
  | .int a, b => by cases b <;> simp [beq]
  | .float a, b => by cases b <;> simp [beq]
  | .str a, b => by cases b <;> simp [beq]
  | .arr a, b => by cases b <;> simp [beq, beqItems_iff a]
  | .obj a, b => by cases b <;> simp [beq, beqEntries_iff a]
theorem beqItems_iff : ∀ a b : List Json, beqItems a b = true ↔ a = b
  | [], b => by cases b <;> simp [beqItems]
  | a :: as, b => by cases b <;> simp [beqItems, beq_iff a, beqItems_iff as]
theorem beqEntries_iff :
    ∀ a b : List (String × Json), beqEntries a b = true ↔ a = b
  | [], b => by cases b <;> simp [beqEntries]
  | (k, a) :: as, b => by
      cases b with
      | nil => simp [beqEntries]
      | cons e bs =>
          obtain ⟨l, b⟩ := e
          simp [beqEntries, beq_iff a, beqEntries_iff as, and_assoc]
end

instance : DecidableEq Json := fun a b => decidable_of_iff _ (beq_iff a b)

/-! ## Key order -/

mutual
/-- Every object in key order. -/
def normalize : Json → Json
  | .arr items => .arr (normalizeItems items)
  | .obj entries => .obj (Ordered.sortedBy Prod.fst (normalizeEntries entries))
  | j => j
def normalizeItems : List Json → List Json
  | [] => []
  | j :: rest => normalize j :: normalizeItems rest
def normalizeEntries : List (String × Json) → List (String × Json)
  | [] => []
  | (k, j) :: rest => (k, normalize j) :: normalizeEntries rest
end

/-- A value already in key order. -/
def Canonical (j : Json) : Prop := j.normalize = j

theorem normalizeItems_eq (l : List Json) :
    normalizeItems l = l.map normalize := by
  induction l with
  | nil => rfl
  | cons j l ih => rw [normalizeItems, ih]; rfl

theorem normalizeEntries_eq (l : List (String × Json)) :
    normalizeEntries l = l.map fun e => (e.1, normalize e.2) := by
  induction l with
  | nil => rfl
  | cons e l ih =>
      obtain ⟨k, j⟩ := e
      rw [normalizeEntries, ih]
      rfl

@[simp] theorem normalize_null : normalize .null = .null := rfl
@[simp] theorem normalize_bool (b : Bool) : normalize (.bool b) = .bool b := rfl
@[simp] theorem normalize_int (i : Int) : normalize (.int i) = .int i := rfl
@[simp] theorem normalize_str (s : String) : normalize (.str s) = .str s := rfl
@[simp] theorem normalize_arr (l : List Json) :
    normalize (.arr l) = .arr (l.map normalize) := by
  rw [normalize, normalizeItems_eq]

theorem normalize_obj (l : List (String × Json)) :
    normalize (.obj l)
      = .obj (Ordered.sortedBy Prod.fst (l.map fun e => (e.1, normalize e.2))) := by
  rw [normalize, normalizeEntries_eq]

/-! ## Fields -/

/-- The value a dictionary holds under a key. -/
def field (k : String) : List (String × Json) → Option Json
  | [] => none
  | (l, j) :: rest => if l = k then some j else field k rest

/-- `j.get(k)` of a dictionary; nothing on any other value. -/
def get? (j : Json) (k : String) : Option Json :=
  match j with
  | .obj entries => field k entries
  | _ => none

theorem field_eq_find? (k : String) (l : List (String × Json)) :
    field k l = ((l.filter fun e => e.1 = k).head?).map Prod.snd := by
  induction l with
  | nil => rfl
  | cons e l ih =>
      obtain ⟨l', j⟩ := e
      rw [field]
      by_cases h : l' = k
      · simp [h]
      · rw [if_neg h, ih, List.filter_cons_of_neg (by simpa using h)]

theorem field_map (f : Json → Json) (k : String) (l : List (String × Json)) :
    field k (l.map fun e => (e.1, f e.2)) = (field k l).map f := by
  induction l with
  | nil => rfl
  | cons e l ih =>
      obtain ⟨l', j⟩ := e
      simp only [List.map_cons, field]
      by_cases h : l' = k
      · simp [h]
      · rw [if_neg h, if_neg h, ih]

theorem filter_key_sortedBy (k : String) (l : List (String × Json)) :
    (Ordered.sortedBy Prod.fst l).filter (fun e => e.1 = k)
      = l.filter fun e => e.1 = k := by
  rw [Ordered.filter_sortedBy]
  unfold Ordered.sortedBy
  refine List.Pairwise.insertionSort_eq ?_
  refine List.pairwise_of_forall_mem_list fun a ha b hb => ?_
  have ha' : a.1 = k := by simpa using (List.mem_filter.mp ha).2
  have hb' : b.1 = k := by simpa using (List.mem_filter.mp hb).2
  rw [ha', hb']

/-- Putting an object in key order keeps what it holds under each key. -/
theorem field_sortedBy (k : String) (l : List (String × Json)) :
    field k (Ordered.sortedBy Prod.fst l) = field k l := by
  rw [field_eq_find?, field_eq_find?, filter_key_sortedBy]

/-- Objects equal up to key order hold equal values under each key. -/
theorem field_of_normalize_eq {l l' : List (String × Json)}
    (h : normalize (.obj l) = normalize (.obj l')) (k : String) :
    (field k l).map normalize = (field k l').map normalize := by
  rw [normalize_obj, normalize_obj] at h
  have h' := congrArg (field k) (Json.obj.inj h)
  rwa [field_sortedBy, field_sortedBy, field_map, field_map] at h'

theorem field_eq_none {k : String} {l : List (String × Json)} (h : k ∉ l.map Prod.fst) :
    field k l = none := by
  induction l with
  | nil => rfl
  | cons e l ih =>
      obtain ⟨l', j⟩ := e
      simp only [List.map_cons, List.mem_cons, not_or] at h
      rw [field, if_neg (Ne.symm h.1), ih h.2]

theorem values_eq_of_fields : ∀ {l l' : List (String × Json)},
    l.map Prod.fst = l'.map Prod.fst → (l.map Prod.fst).Nodup →
    (∀ k, (field k l).map normalize = (field k l').map normalize) →
    l.map (fun e => normalize e.2) = l'.map fun e => normalize e.2
  | [], [], _, _, _ => rfl
  | (k, v) :: l, (k', v') :: l', hkeys, hnodup, h => by
      simp only [List.map_cons, List.cons.injEq] at hkeys
      obtain ⟨rfl, hkeys⟩ := hkeys
      obtain ⟨hk, hnodup⟩ := List.nodup_cons.mp hnodup
      have hhead : normalize v = normalize v' := by
        have := h k
        rw [field, field, if_pos rfl, if_pos rfl] at this
        exact Option.some.inj this
      have htail : ∀ m, (field m l).map normalize = (field m l').map normalize := by
        intro m
        by_cases hm : k = m
        · subst hm
          rw [field_eq_none hk, field_eq_none (hkeys ▸ hk)]
        · have := h m
          rwa [field, field, if_neg hm, if_neg hm] at this
      rw [List.map_cons, List.map_cons, hhead, values_eq_of_fields hkeys hnodup htail]

/-- Objects with the same keys in the same order, equal up to key order,
hold equal values position by position. -/
theorem values_eq_of_normalize_eq {l l' : List (String × Json)}
    (h : normalize (.obj l) = normalize (.obj l'))
    (hkeys : l.map Prod.fst = l'.map Prod.fst) (hnodup : (l.map Prod.fst).Nodup) :
    l.map (fun e => normalize e.2) = l'.map fun e => normalize e.2 :=
  values_eq_of_fields hkeys hnodup (field_of_normalize_eq h)

/-- A list of strings as a JSON array. -/
def ofStrings (l : List String) : Json := .arr (l.map .str)

/-- An optional string: absent is `null`. -/
def ofOption : Option String → Json
  | none => .null
  | some s => .str s

@[simp] theorem normalize_ofStrings (l : List String) :
    normalize (ofStrings l) = ofStrings l := by
  simp [ofStrings, Function.comp_def]

@[simp] theorem normalize_ofOption (o : Option String) :
    normalize (ofOption o) = ofOption o := by
  cases o <;> rfl

theorem ofStrings_inj {l l' : List String} : ofStrings l = ofStrings l' ↔ l = l' := by
  constructor
  · intro h
    exact List.map_injective_iff.mpr (fun a b hab => Json.str.inj hab) (Json.arr.inj h)
  · rintro rfl
    rfl

theorem ofOption_inj {o o' : Option String} : ofOption o = ofOption o' ↔ o = o' := by
  cases o <;> cases o' <;> simp [ofOption]

/-! ## Canonical text -/

/-- One character inside a JSON string literal. -/
def escapeChar (c : Char) : List Char :=
  if c = '"' then ['\\', '"']
  else if c = '\\' then ['\\', '\\']
  else if c.toNat = 8 then ['\\', 'b']
  else if c.toNat = 9 then ['\\', 't']
  else if c.toNat = 10 then ['\\', 'n']
  else if c.toNat = 12 then ['\\', 'f']
  else if c.toNat = 13 then ['\\', 'r']
  else if c.toNat < 32 then
    ['\\', 'u', '0', '0', Nat.digitChar (c.toNat / 16), Nat.digitChar (c.toNat % 16)]
  else [c]

def stringChars (s : String) : List Char := '"' :: s.toList.flatMap escapeChar ++ ['"']

mutual
/-- The text with separators `,` and `:`, in the order the value has. -/
def chars : Json → List Char
  | .null => ['n', 'u', 'l', 'l']
  | .bool true => ['t', 'r', 'u', 'e']
  | .bool false => ['f', 'a', 'l', 's', 'e']
  | .int i => (if i < 0 then ['-'] else []) ++ Nat.toDigits 10 i.natAbs
  | .float f => f.text.toList
  | .str s => stringChars s
  | .arr items => '[' :: charsItems items ++ [']']
  | .obj entries => '\x7b' :: charsEntries entries ++ ['\x7d']
def charsItems : List Json → List Char
  | [] => []
  | [j] => chars j
  | j :: rest => chars j ++ ',' :: charsItems rest
def charsEntries : List (String × Json) → List Char
  | [] => []
  | [(k, j)] => stringChars k ++ ':' :: chars j
  | (k, j) :: rest => stringChars k ++ ':' :: chars j ++ ',' :: charsEntries rest
end

/-- `canonical_json`. -/
def canonicalText (j : Json) : String := String.ofList (chars j.normalize)

/-! ## Canonical byte size -/

/-- UTF-8 bytes of one character inside a JSON string literal. -/
def charSize (c : Char) : Nat :=
  if c = '"' ∨ c = '\\' then 2
  else if c.toNat = 8 ∨ c.toNat = 9 ∨ c.toNat = 10 ∨ c.toNat = 12 ∨ c.toNat = 13 then 2
  else if c.toNat < 32 then 6
  else c.utf8Size

/-- UTF-8 bytes of a JSON string literal, quotes included. -/
def stringSize (s : String) : Nat := 2 + (s.toList.map charSize).sum

/-- Decimal digits of an integer, with its sign. -/
def intSize (i : Int) : Nat :=
  (if i < 0 then 1 else 0) + (Nat.toDigits 10 i.natAbs).length

mutual
/-- UTF-8 bytes of the canonical text. -/
def size : Json → Nat
  | .null => 4
  | .bool true => 4
  | .bool false => 5
  | .int i => intSize i
  | .float f => f.text.toList.length
  | .str s => stringSize s
  | .arr items => 2 + (items.length - 1) + sizeItems items
  | .obj entries => 2 + (entries.length - 1) + sizeEntries entries
def sizeItems : List Json → Nat
  | [] => 0
  | j :: rest => size j + sizeItems rest
def sizeEntries : List (String × Json) → Nat
  | [] => 0
  | (k, j) :: rest => stringSize k + 1 + size j + sizeEntries rest
end

theorem sizeItems_eq (l : List Json) : sizeItems l = (l.map size).sum := by
  induction l with
  | nil => rfl
  | cons j l ih => rw [sizeItems, ih, List.map_cons, List.sum_cons]

theorem sizeEntries_eq (l : List (String × Json)) :
    sizeEntries l = (l.map fun e => stringSize e.1 + 1 + size e.2).sum := by
  induction l with
  | nil => rfl
  | cons e l ih =>
      obtain ⟨k, j⟩ := e
      rw [sizeEntries, ih, List.map_cons, List.sum_cons]

theorem size_str (s : String) : size (.str s) = stringSize s := rfl

theorem size_arr (l : List Json) :
    size (.arr l) = 2 + (l.length - 1) + (l.map size).sum := by
  rw [size, sizeItems_eq]

theorem size_obj (l : List (String × Json)) :
    size (.obj l)
      = 2 + (l.length - 1) + (l.map fun e => stringSize e.1 + 1 + size e.2).sum := by
  rw [size, sizeEntries_eq]

theorem stringSize_append (s t : String) :
    stringSize (s ++ t) + 2 = stringSize s + stringSize t := by
  unfold stringSize
  rw [String.toList_append, List.map_append, List.sum_append]
  omega

mutual
/-- Key order does not change the size. -/
theorem size_normalize : ∀ j : Json, size (normalize j) = size j
  | .null => rfl
  | .bool _ => rfl
  | .int _ => rfl
  | .float _ => rfl
  | .str _ => rfl
  | .arr items => by
      have hitems := size_normalize_items items
      rw [normalize_arr, size_arr, size_arr, List.length_map, List.map_map, hitems]
  | .obj entries => by
      have hentries := size_normalize_entries entries
      have hperm := Ordered.perm_sortedBy Prod.fst (entries.map fun e => (e.1, normalize e.2))
      rw [normalize_obj, size_obj, size_obj, hperm.length_eq, (hperm.map _).sum_eq,
        List.length_map, List.map_map, hentries]
theorem size_normalize_items : ∀ l : List Json,
    (l.map (size ∘ normalize)).sum = (l.map size).sum
  | [] => rfl
  | j :: l => by
      rw [List.map_cons, List.map_cons, List.sum_cons, List.sum_cons, size_normalize_items l,
        Function.comp_apply, size_normalize j]
theorem size_normalize_entries : ∀ l : List (String × Json),
    (l.map ((fun e : String × Json => stringSize e.1 + 1 + size e.2) ∘
        fun e => (e.1, normalize e.2))).sum
      = (l.map fun e => stringSize e.1 + 1 + size e.2).sum
  | [] => rfl
  | (k, j) :: l => by
      rw [List.map_cons, List.map_cons, List.sum_cons, List.sum_cons, size_normalize_entries l,
        Function.comp_apply, size_normalize j]
end

end Json
