import CognitiveRuntime.Data.Json
import CognitiveRuntime.Data.PyStr

/-!
# What `json.loads` yields

JSON values whose strings may hold unpaired surrogates and whose numbers
may be no number at all: `json.loads` accepts `NaN` and the infinities,
and a decimal literal beyond the floating-point range reads as one.

The values that hold neither are the `Json` values. `toPy` embeds them,
and `scalar?` takes them out again.
-/

open PyStr (ofString)

/-- A floating-point number: the text of a finite one, or none of them. -/
inductive PyFloat where
  | finite (f : FloatText)
  | nan
  | infinity (negative : Bool)
  deriving DecidableEq

inductive PyJson where
  | null
  | bool (b : Bool)
  | int (i : Int)
  | float (f : PyFloat)
  | str (s : PyStr)
  | arr (items : List PyJson)
  | obj (entries : List (PyStr × PyJson))

namespace Json

mutual
def toPy : Json → PyJson
  | .null => .null
  | .bool b => .bool b
  | .int i => .int i
  | .float f => .float (.finite f)
  | .str s => .str (ofString s)
  | .arr items => .arr (toPyItems items)
  | .obj entries => .obj (toPyEntries entries)
def toPyItems : List Json → List PyJson
  | [] => []
  | j :: rest => toPy j :: toPyItems rest
def toPyEntries : List (String × Json) → List (PyStr × PyJson)
  | [] => []
  | (k, j) :: rest => (ofString k, toPy j) :: toPyEntries rest
end

theorem toPyItems_eq (l : List Json) : toPyItems l = l.map toPy := by
  induction l with
  | nil => rfl
  | cons j l ih => rw [toPyItems, ih, List.map_cons]

theorem toPyEntries_eq (l : List (String × Json)) :
    toPyEntries l = l.map fun e => (ofString e.1, toPy e.2) := by
  induction l with
  | nil => rfl
  | cons e l ih =>
      obtain ⟨k, j⟩ := e
      rw [toPyEntries, ih, List.map_cons]

end Json

namespace PyJson

/-! ## The values without surrogates and without special floats -/

def scalarFloat? : PyFloat → Option Json
  | .finite f => some (.float f)
  | .nan => none
  | .infinity _ => none

mutual
/-- The value as JSON, where it is one. -/
def scalar? : PyJson → Option Json
  | .null => some .null
  | .bool b => some (.bool b)
  | .int i => some (.int i)
  | .float f => scalarFloat? f
  | .str s => s.text?.map .str
  | .arr items => (scalarItems? items).map .arr
  | .obj entries => (scalarEntries? entries).map .obj
def scalarItems? : List PyJson → Option (List Json)
  | [] => some []
  | v :: rest => (scalar? v).bind fun j => (scalarItems? rest).map (j :: ·)
def scalarEntries? : List (PyStr × PyJson) → Option (List (String × Json))
  | [] => some []
  | (k, v) :: rest => k.text?.bind fun l => (scalar? v).bind fun j =>
      (scalarEntries? rest).map ((l, j) :: ·)
end

mutual
@[simp] theorem scalar?_toPy : ∀ j : Json, scalar? j.toPy = some j
  | .null => rfl
  | .bool _ => rfl
  | .int _ => rfl
  | .float _ => rfl
  | .str s => by simp [Json.toPy, scalar?]
  | .arr items => by simp [Json.toPy, scalar?, scalarItems?_toPy items]
  | .obj entries => by simp [Json.toPy, scalar?, scalarEntries?_toPy entries]
theorem scalarItems?_toPy : ∀ l : List Json, scalarItems? (Json.toPyItems l) = some l
  | [] => rfl
  | j :: l => by simp [Json.toPyItems, scalarItems?, scalar?_toPy j, scalarItems?_toPy l]
theorem scalarEntries?_toPy : ∀ l : List (String × Json),
    scalarEntries? (Json.toPyEntries l) = some l
  | [] => rfl
  | (k, j) :: l => by
      simp [Json.toPyEntries, scalarEntries?, scalar?_toPy j, scalarEntries?_toPy l]
end

mutual
theorem toPy_of_scalar? : ∀ {v : PyJson} {j : Json}, scalar? v = some j → j.toPy = v
  | .null, j, h => by obtain rfl := Option.some.inj h; rfl
  | .bool b, j, h => by obtain rfl := Option.some.inj h; rfl
  | .int i, j, h => by obtain rfl := Option.some.inj h; rfl
  | .float f, j, h => by
      cases f with
      | finite text => obtain rfl := Option.some.inj h; rfl
      | nan => cases h
      | infinity b => cases h
  | .str s, j, h => by
      obtain ⟨t, ht, rfl⟩ := Option.map_eq_some_iff.mp h
      rw [Json.toPy, PyStr.ofString_of_text? ht]
  | .arr items, j, h => by
      obtain ⟨l, hl, rfl⟩ := Option.map_eq_some_iff.mp h
      rw [Json.toPy, toPy_of_scalarItems? hl]
  | .obj entries, j, h => by
      obtain ⟨l, hl, rfl⟩ := Option.map_eq_some_iff.mp h
      rw [Json.toPy, toPy_of_scalarEntries? hl]
theorem toPy_of_scalarItems? : ∀ {l : List PyJson} {items : List Json},
    scalarItems? l = some items → Json.toPyItems items = l
  | [], items, h => by obtain rfl := Option.some.inj h; rfl
  | v :: l, items, h => by
      obtain ⟨j, hj, h⟩ := Option.bind_eq_some_iff.mp h
      obtain ⟨rest, hrest, rfl⟩ := Option.map_eq_some_iff.mp h
      rw [Json.toPyItems, toPy_of_scalar? hj, toPy_of_scalarItems? hrest]
theorem toPy_of_scalarEntries? : ∀ {l : List (PyStr × PyJson)} {entries : List (String × Json)},
    scalarEntries? l = some entries → Json.toPyEntries entries = l
  | [], entries, h => by obtain rfl := Option.some.inj h; rfl
  | (k, v) :: l, entries, h => by
      obtain ⟨t, ht, h⟩ := Option.bind_eq_some_iff.mp h
      obtain ⟨j, hj, h⟩ := Option.bind_eq_some_iff.mp h
      obtain ⟨rest, hrest, rfl⟩ := Option.map_eq_some_iff.mp h
      rw [Json.toPyEntries, PyStr.ofString_of_text? ht, toPy_of_scalar? hj,
        toPy_of_scalarEntries? hrest]
end

mutual
/-- A number that is not finite occurs in the value. -/
def hasNonFinite : PyJson → Bool
  | .float (.finite _) => false
  | .float _ => true
  | .arr items => hasNonFiniteItems items
  | .obj entries => hasNonFiniteEntries entries
  | _ => false
def hasNonFiniteItems : List PyJson → Bool
  | [] => false
  | v :: rest => hasNonFinite v || hasNonFiniteItems rest
def hasNonFiniteEntries : List (PyStr × PyJson) → Bool
  | [] => false
  | (_, v) :: rest => hasNonFinite v || hasNonFiniteEntries rest
end

mutual
/-- A surrogate occurs in a string or a key of the value. -/
def hasSurrogate : PyJson → Bool
  | .str s => s.hasSurrogate
  | .arr items => hasSurrogateItems items
  | .obj entries => hasSurrogateEntries entries
  | _ => false
def hasSurrogateItems : List PyJson → Bool
  | [] => false
  | v :: rest => hasSurrogate v || hasSurrogateItems rest
def hasSurrogateEntries : List (PyStr × PyJson) → Bool
  | [] => false
  | (k, v) :: rest => k.hasSurrogate || hasSurrogate v || hasSurrogateEntries rest
end

mutual
/-- The JSON values are those without a surrogate and without a number
that is not finite. -/
theorem scalar?_isSome : ∀ v : PyJson, (scalar? v).isSome = (!hasNonFinite v && !hasSurrogate v)
  | .null => rfl
  | .bool _ => rfl
  | .int _ => rfl
  | .float f => by cases f <;> rfl
  | .str s => by simp [scalar?, hasNonFinite, hasSurrogate, PyStr.text?_isSome]
  | .arr items => by simp [scalar?, hasNonFinite, hasSurrogate, scalarItems?_isSome items]
  | .obj entries => by simp [scalar?, hasNonFinite, hasSurrogate, scalarEntries?_isSome entries]
theorem scalarItems?_isSome : ∀ l : List PyJson,
    (scalarItems? l).isSome = (!hasNonFiniteItems l && !hasSurrogateItems l)
  | [] => rfl
  | v :: l => by
      have hv := scalar?_isSome v
      have hl := scalarItems?_isSome l
      rw [scalarItems?, hasNonFiniteItems, hasSurrogateItems]
      cases h : scalar? v with
      | none => rw [h] at hv; revert hv; cases hasNonFinite v <;> cases hasSurrogate v <;> simp
      | some j =>
          rw [h] at hv
          rw [Option.bind_some, Option.isSome_map, hl]
          revert hv
          cases hasNonFinite v <;> cases hasSurrogate v <;> simp
theorem scalarEntries?_isSome : ∀ l : List (PyStr × PyJson),
    (scalarEntries? l).isSome = (!hasNonFiniteEntries l && !hasSurrogateEntries l)
  | [] => rfl
  | (k, v) :: l => by
      have hk := PyStr.text?_isSome (s := k)
      have hv := scalar?_isSome v
      have hl := scalarEntries?_isSome l
      rw [scalarEntries?, hasNonFiniteEntries, hasSurrogateEntries]
      cases hkt : k.text? with
      | none => rw [hkt] at hk; revert hk; cases k.hasSurrogate <;> simp
      | some t =>
          rw [hkt] at hk
          rw [Option.bind_some]
          cases h : scalar? v with
          | none =>
              rw [h] at hv
              revert hv
              cases hasNonFinite v <;> cases hasSurrogate v <;> simp
          | some j =>
              rw [h] at hv
              rw [Option.bind_some, Option.isSome_map, hl]
              revert hk hv
              cases k.hasSurrogate <;> cases hasNonFinite v <;> cases hasSurrogate v <;> simp
end

/-! ## Key order and text -/

mutual
/-- Every object in key order. -/
def normalize : PyJson → PyJson
  | .arr items => .arr (normalizeItems items)
  | .obj entries => .obj (Ordered.sortedBy Prod.fst (normalizeEntries entries))
  | v => v
def normalizeItems : List PyJson → List PyJson
  | [] => []
  | v :: rest => normalize v :: normalizeItems rest
def normalizeEntries : List (PyStr × PyJson) → List (PyStr × PyJson)
  | [] => []
  | (k, v) :: rest => (k, normalize v) :: normalizeEntries rest
end

/-- Characters as code points. -/
def ofChars (l : List Char) : PyStr := l.map CodePoint.ofChar

/-- One code point inside a string literal: a surrogate stands for
itself. -/
def escapePoint (c : CodePoint) : PyStr :=
  match c.char? with
  | some ch => ofChars (Json.escapeChar ch)
  | none => [c]

def quotePoints (s : PyStr) : PyStr := ofChars ['"'] ++ s.flatMap escapePoint ++ ofChars ['"']

def floatText : PyFloat → String
  | .finite f => f.text
  | .nan => "NaN"
  | .infinity false => "Infinity"
  | .infinity true => "-Infinity"

mutual
/-- `json.dumps` with `ensure_ascii=False` and separators `,` and `:`, in
the order the value has. -/
def text : PyJson → PyStr
  | .null => ofChars ['n', 'u', 'l', 'l']
  | .bool true => ofChars ['t', 'r', 'u', 'e']
  | .bool false => ofChars ['f', 'a', 'l', 's', 'e']
  | .int i => ofChars ((if i < 0 then ['-'] else []) ++ Nat.toDigits 10 i.natAbs)
  | .float f => ofChars (floatText f).toList
  | .str s => quotePoints s
  | .arr items => ofChars ['['] ++ textItems items ++ ofChars [']']
  | .obj entries => ofChars ['\x7b'] ++ textEntries entries ++ ofChars ['\x7d']
def textItems : List PyJson → PyStr
  | [] => []
  | [v] => text v
  | v :: rest => text v ++ (ofChars [','] ++ textItems rest)
def textEntries : List (PyStr × PyJson) → PyStr
  | [] => []
  | [(k, v)] => quotePoints k ++ (ofChars [':'] ++ text v)
  | (k, v) :: rest => quotePoints k ++ (ofChars [':'] ++ (text v ++ (ofChars [','] ++ textEntries rest)))
end

end PyJson
