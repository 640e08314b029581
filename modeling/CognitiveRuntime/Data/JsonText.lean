import CognitiveRuntime.Data.JsonString

/-!
# JSON text and its reader

The compact text `json.dumps` writes, for either way of quoting strings,
and the reader `json.loads`. A value without floating-point numbers whose
objects repeat no key reads back from its text.

How a decimal literal with a fraction or an exponent rounds is a
parameter of the reader. Fuel bounds its recursion; a text of length `n`
never needs more than `n`.
-/

/-- `float(literal)`. -/
class DecimalFloat where
  ofLiteral : List Char → PyFloat

namespace Json

/-! ## Text -/

/-- A way to quote strings: the literal without its quotes, which reads
back as the string. -/
structure Quoting where
  body : String → List Char
  reads : ∀ (s : String) (r : List Char),
    PyStr.scanString (body s ++ '"' :: r) = some (PyStr.ofString s, r)

/-- `ensure_ascii=False`. -/
def Quoting.plain : Quoting where
  body s := s.toList.flatMap escapeChar
  reads := PyStr.scanString_stringChars

/-- `ensure_ascii=True`. -/
def Quoting.ascii : Quoting where
  body s := (PyStr.units (PyStr.ofString s)).flatMap PyStr.escapeUnit
  reads := PyStr.scanString_quoteAscii

def Quoting.literal (q : Quoting) (s : String) : List Char := '"' :: q.body s ++ ['"']

def intChars (i : Int) : List Char := (if i < 0 then ['-'] else []) ++ Nat.toDigits 10 i.natAbs

mutual
/-- The text with separators `,` and `:`, in the order the value has. -/
def render (q : Quoting) : Json → List Char
  | .null => ['n', 'u', 'l', 'l']
  | .bool true => ['t', 'r', 'u', 'e']
  | .bool false => ['f', 'a', 'l', 's', 'e']
  | .int i => intChars i
  | .float f => f.text.toList
  | .str s => q.literal s
  | .arr items => '[' :: renderItems q items ++ [']']
  | .obj entries => '\x7b' :: renderEntries q entries ++ ['\x7d']
def renderItems (q : Quoting) : List Json → List Char
  | [] => []
  | [j] => render q j
  | j :: rest => render q j ++ ',' :: renderItems q rest
def renderEntries (q : Quoting) : List (String × Json) → List Char
  | [] => []
  | [(k, j)] => q.literal k ++ ':' :: render q j
  | (k, j) :: rest => q.literal k ++ ':' :: render q j ++ ',' :: renderEntries q rest
end

mutual
/-- The canonical text is the one of the plain quoting. -/
theorem chars_eq_render : ∀ j : Json, chars j = render .plain j
  | .null => rfl
  | .bool true => rfl
  | .bool false => rfl
  | .int _ => rfl
  | .float _ => rfl
  | .str _ => rfl
  | .arr items => by rw [chars, render, charsItems_eq_render items]
  | .obj entries => by rw [chars, render, charsEntries_eq_render entries]
theorem charsItems_eq_render : ∀ l : List Json, charsItems l = renderItems .plain l
  | [] => rfl
  | [j] => by rw [charsItems, renderItems, chars_eq_render j]
  | j :: k :: l => by
      rw [charsItems, renderItems, chars_eq_render j, charsItems_eq_render (k :: l)]
      all_goals simp
theorem charsEntries_eq_render :
    ∀ l : List (String × Json), charsEntries l = renderEntries .plain l
  | [] => rfl
  | [(k, j)] => by
      rw [charsEntries, renderEntries, chars_eq_render j]
      rfl
  | (k, j) :: e :: l => by
      rw [charsEntries, renderEntries, chars_eq_render j, charsEntries_eq_render (e :: l)]
      · rfl
      all_goals simp
end

/-! ## Which values read back -/

mutual
/-- Every floating-point number in the value has the property. -/
def floatsAll (p : String → Bool) : Json → Bool
  | .float f => p f.text
  | .arr items => floatsAllItems p items
  | .obj entries => floatsAllEntries p entries
  | _ => true
def floatsAllItems (p : String → Bool) : List Json → Bool
  | [] => true
  | j :: rest => floatsAll p j && floatsAllItems p rest
def floatsAllEntries (p : String → Bool) : List (String × Json) → Bool
  | [] => true
  | (_, j) :: rest => floatsAll p j && floatsAllEntries p rest
end

abbrev noFloat : String → Bool := fun _ => false

/-- No floating-point number occurs in the value. -/
abbrev floatFree (j : Json) : Bool := floatsAll noFloat j

mutual
/-- No object in the value repeats a key: every object is a dictionary. -/
def distinctKeys : Json → Bool
  | .arr items => distinctKeysItems items
  | .obj entries => decide (entries.map Prod.fst).Nodup && distinctKeysEntries entries
  | _ => true
def distinctKeysItems : List Json → Bool
  | [] => true
  | j :: rest => distinctKeys j && distinctKeysItems rest
def distinctKeysEntries : List (String × Json) → Bool
  | [] => true
  | (_, j) :: rest => distinctKeys j && distinctKeysEntries rest
end

mutual
/-- The fuel the reader needs for the text of a value. -/
def weight : Json → Nat
  | .arr items => 1 + weightItems items
  | .obj entries => 1 + weightEntries entries
  | _ => 1
def weightItems : List Json → Nat
  | [] => 0
  | j :: rest => 1 + weight j + weightItems rest
def weightEntries : List (String × Json) → Nat
  | [] => 0
  | (_, j) :: rest => 1 + weight j + weightEntries rest
end

end Json

/-! ## The reader -/

namespace JsonReader

open PyStr (scanString)

def isSpace (c : Char) : Bool := c = ' ' || c = '\t' || c = '\n' || c = '\r'

def skip (s : List Char) : List Char := s.dropWhile isSpace

/-- A fixed word. -/
def word (text : List Char) (v : PyJson) (s : List Char) : Option (PyJson × List Char) :=
  if text.isPrefixOf s then some (v, s.drop text.length) else none

/-- The digits before the point: a leading zero stands alone. -/
def intPart : List Char → Option (List Char × List Char)
  | [] => none
  | c :: r =>
      if c = '0' then some (['0'], r)
      else if c.isDigit then some (c :: r.takeWhile Char.isDigit, r.dropWhile Char.isDigit)
      else none

/-- A point with at least one digit after it. -/
def fracPart : List Char → List Char × List Char
  | c :: d :: r =>
      if c = '.' ∧ d.isDigit = true then
        (c :: d :: r.takeWhile Char.isDigit, r.dropWhile Char.isDigit)
      else ([], c :: d :: r)
  | s => ([], s)

/-- The digits of an exponent after its `e`. -/
def expDigits (sign : List Char) (s : List Char) : Option (List Char × List Char) :=
  match s.takeWhile Char.isDigit with
  | [] => none
  | digits => some (sign ++ digits, s.dropWhile Char.isDigit)

def expPart : List Char → List Char × List Char
  | [] => ([], [])
  | c :: r =>
      if c = 'e' ∨ c = 'E' then
        match r with
        | [] => ([], c :: r)
        | d :: r' =>
            match (if d = '+' ∨ d = '-' then expDigits [d] r' else expDigits [] r) with
            | some p => (c :: p.1, p.2)
            | none => ([], c :: r)
      else ([], c :: r)

/-! ### Where a number ends -/

/-- A text that cannot continue a number. -/
def EndsNumber (r : List Char) : Prop :=
  ∀ c, r.head? = some c → c.isDigit = false ∧ c ≠ '.' ∧ c ≠ 'e' ∧ c ≠ 'E'

theorem endsNumber_nil : EndsNumber [] := by
  intro c hc
  cases hc

theorem endsNumber_cons {c : Char} {r : List Char} (hdigit : c.isDigit = false)
    (hpoint : c ≠ '.') (he : c ≠ 'e') (hE : c ≠ 'E') : EndsNumber (c :: r) := by
  intro d hd
  obtain rfl := Option.some.inj hd
  exact ⟨hdigit, hpoint, he, hE⟩

theorem takeWhile_digits {ds r : List Char} (hds : ∀ d ∈ ds, d.isDigit = true)
    (hr : EndsNumber r) :
    (ds ++ r).takeWhile Char.isDigit = ds ∧ (ds ++ r).dropWhile Char.isDigit = r := by
  have hend : r.takeWhile Char.isDigit = [] ∧ r.dropWhile Char.isDigit = r := by
    cases r with
    | nil => exact ⟨rfl, rfl⟩
    | cons c r =>
        have hc := (hr c rfl).1
        simp [hc]
  rw [List.takeWhile_append_of_pos hds, List.dropWhile_append_of_pos hds, hend.1, hend.2]
  exact ⟨List.append_nil _, rfl⟩

/-- A number other than zero starts with a digit other than zero. -/
theorem toDigits_head {n : Nat} (hn : 0 < n) :
    ∃ d ds, Nat.toDigits 10 n = d :: ds ∧ d ≠ '0' := by
  induction n using Nat.strong_induction_on with
  | h n ih =>
      by_cases hlt : n < 10
      · rw [Nat.toDigits_of_lt_base hlt]
        refine ⟨_, _, rfl, ?_⟩
        have hdigit : ∀ m < 10, 0 < m → Nat.digitChar m ≠ '0' := by decide
        exact hdigit n hlt hn
      · obtain ⟨d, ds, hds, hd⟩ := ih (n / 10) (by omega) (by omega)
        rw [Nat.toDigits_of_base_le (by decide) (by omega), hds]
        exact ⟨d, _, rfl, hd⟩

theorem intPart_toDigits (n : Nat) {r : List Char} (hr : EndsNumber r) :
    intPart (Nat.toDigits 10 n ++ r) = some (Nat.toDigits 10 n, r) := by
  rcases Nat.eq_zero_or_pos n with rfl | hn
  · rfl
  · obtain ⟨d, ds, hds, hd⟩ := toDigits_head hn
    have hall : ∀ c ∈ d :: ds, c.isDigit = true := fun c hc =>
      Nat.isDigit_of_mem_toDigits (by decide) (by decide) (hds ▸ hc)
    obtain ⟨htake, hdrop⟩ := takeWhile_digits
      (fun c hc => hall c (List.mem_cons_of_mem _ hc)) hr
    rw [hds, List.cons_append, intPart, if_neg hd, if_pos (hall d (List.mem_cons_self ..)),
      htake, hdrop]

theorem fracPart_ends {r : List Char} (hr : EndsNumber r) : fracPart r = ([], r) := by
  match r with
  | [] => rfl
  | [c] => rfl
  | c :: d :: r =>
      rw [fracPart, if_neg]
      exact fun h => (hr c rfl).2.1 h.1

theorem expPart_ends {r : List Char} (hr : EndsNumber r) : expPart r = ([], r) := by
  match r with
  | [] => rfl
  | c :: r =>
      have hc : ¬(c = 'e' ∨ c = 'E') := by
        rintro (h | h)
        · exact (hr c rfl).2.2.1 h
        · exact (hr c rfl).2.2.2 h
      unfold expPart
      exact if_neg hc

/-- Digits are none of the characters the reader decides on. -/
theorem toDigits_first (n : Nat) : ∃ d ds, Nat.toDigits 10 n = d :: ds ∧ d.isDigit = true := by
  cases hds : Nat.toDigits 10 n with
  | nil => exact absurd hds Nat.toDigits_ne_nil
  | cons d ds =>
      exact ⟨d, ds, rfl, Nat.isDigit_of_mem_toDigits (by decide) (by decide)
        (hds ▸ List.mem_cons_self ..)⟩

/-! ### Values -/

section Reader

variable [DecimalFloat]

/-- The number after its sign. -/
def unsigned (negative : Bool) (s : List Char) : Option (PyJson × List Char) :=
  (intPart s).map fun p =>
    let frac := fracPart p.2
    let exp := expPart frac.2
    if frac.1 = [] ∧ exp.1 = [] then
      let value : Int := Nat.ofDigitChars 10 p.1 0
      (.int (if negative then -value else value), p.2)
    else
      (.float (DecimalFloat.ofLiteral
        ((if negative then ['-'] else []) ++ p.1 ++ frac.1 ++ exp.1)), exp.2)

def number : List Char → Option (PyJson × List Char)
  | [] => none
  | c :: r => if c = '-' then unsigned true r else unsigned false (c :: r)

/-- Write an entry into a dictionary: a key keeps its first place. -/
def dictSet (k : PyStr) (v : PyJson) : List (PyStr × PyJson) → List (PyStr × PyJson)
  | [] => [(k, v)]
  | e :: rest => if e.1 = k then (k, v) :: rest else e :: dictSet k v rest

def dictOfPairs (l : List (PyStr × PyJson)) : List (PyStr × PyJson) :=
  l.foldl (fun d e => dictSet e.1 e.2 d) []

mutual
/-- One value at the start of the text, and what follows it. -/
def value : Nat → List Char → Option (PyJson × List Char)
  | 0, _ => none
  | _ + 1, [] => none
  | n + 1, c :: r =>
      if c = '"' then (scanString r).map fun p => (.str p.1, p.2)
      else if c = '[' then
        match skip r with
        | [] => none
        | d :: r' =>
            if d = ']' then some (.arr [], r')
            else (items n (d :: r')).map fun p => (.arr p.1, p.2)
      else if c = '\x7b' then
        match skip r with
        | [] => none
        | d :: r' =>
            if d = '\x7d' then some (.obj [], r')
            else (entries n (d :: r')).map fun p => (.obj (dictOfPairs p.1), p.2)
      else if c = 'n' then word ['n', 'u', 'l', 'l'] .null (c :: r)
      else if c = 't' then word ['t', 'r', 'u', 'e'] (.bool true) (c :: r)
      else if c = 'f' then word ['f', 'a', 'l', 's', 'e'] (.bool false) (c :: r)
      else if c = 'N' then word ['N', 'a', 'N'] (.float .nan) (c :: r)
      else if c = 'I' then
        word ['I', 'n', 'f', 'i', 'n', 'i', 't', 'y'] (.float (.infinity false)) (c :: r)
      else (number (c :: r)).or
        (word ['-', 'I', 'n', 'f', 'i', 'n', 'i', 't', 'y'] (.float (.infinity true)) (c :: r))
/-- The items of an array up to its closing bracket. -/
def items : Nat → List Char → Option (List PyJson × List Char)
  | 0, _ => none
  | n + 1, s =>
      (value n s).bind fun p =>
        match skip p.2 with
        | [] => none
        | c :: r =>
            if c = ']' then some ([p.1], r)
            else if c = ',' then (items n (skip r)).map fun q => (p.1 :: q.1, q.2)
            else none
/-- The entries of an object up to its closing brace. -/
def entries : Nat → List Char → Option (List (PyStr × PyJson) × List Char)
  | 0, _ => none
  | _ + 1, [] => none
  | n + 1, c :: r =>
      if c = '"' then
        (scanString r).bind fun k =>
          match skip k.2 with
          | [] => none
          | d :: r =>
              if d = ':' then
                (value n (skip r)).bind fun p =>
                  match skip p.2 with
                  | [] => none
                  | c :: r =>
                      if c = '\x7d' then some ([(k.1, p.1)], r)
                      else if c = ',' then
                        (entries n (skip r)).map fun q => ((k.1, p.1) :: q.1, q.2)
                      else none
              else none
      else none
end

/-- `json.loads`: one value and nothing after it but space. -/
def loads (s : List Char) : Option PyJson :=
  (value s.length (skip s)).bind fun p => if skip p.2 = [] then some p.1 else none

/-! ## Integers read back -/

theorem unsigned_toDigits (negative : Bool) (n : Nat) {r : List Char} (hr : EndsNumber r) :
    unsigned negative (Nat.toDigits 10 n ++ r)
      = some (.int (if negative then -(n : Int) else n), r) := by
  rw [unsigned, intPart_toDigits n hr, Option.map_some]
  simp only [fracPart_ends hr, expPart_ends hr, Nat.ofDigitChars_ten_toDigits, and_self, if_true]

theorem number_intChars (i : Int) {r : List Char} (hr : EndsNumber r) :
    number (Json.intChars i ++ r) = some (.int i, r) := by
  unfold Json.intChars
  by_cases hneg : i < 0
  · rw [if_pos hneg, List.singleton_append, List.cons_append, number, if_pos rfl,
      unsigned_toDigits true _ hr]
    have hi : -(i.natAbs : Int) = i := by omega
    rw [if_pos rfl, hi]
  · rw [if_neg hneg, List.nil_append]
    obtain ⟨d, ds, hds, hd⟩ := toDigits_first i.natAbs
    have hminus : d ≠ '-' := by
      rintro rfl
      cases hd
    have hi : (i.natAbs : Int) = i := by omega
    have hread := unsigned_toDigits false i.natAbs hr
    rw [if_neg Bool.false_ne_true, hi, hds] at hread
    rw [hds, List.cons_append, number, if_neg hminus]
    exact hread

end Reader

/-! ## Dictionaries without repeated keys -/

theorem dictSet_fresh {k : PyStr} {v : PyJson} : ∀ {d : List (PyStr × PyJson)},
    k ∉ d.map Prod.fst → dictSet k v d = d ++ [(k, v)]
  | [], _ => rfl
  | e :: d, h => by
      rw [List.map_cons, List.mem_cons, not_or] at h
      rw [dictSet, if_neg (Ne.symm h.1), dictSet_fresh h.2, List.cons_append]

theorem foldl_dictSet : ∀ {l d : List (PyStr × PyJson)}, ((d ++ l).map Prod.fst).Nodup →
    l.foldl (fun d e => dictSet e.1 e.2 d) d = d ++ l
  | [], d, _ => (List.append_nil d).symm
  | e :: l, d, h => by
      have hfresh : e.1 ∉ d.map Prod.fst := by
        rw [List.map_append, List.map_cons] at h
        exact fun hmem => (List.nodup_append.mp h).2.2 _ hmem _ (List.mem_cons_self ..) rfl
      have hnext : d ++ e :: l = (d ++ [(e.1, e.2)]) ++ l := by simp
      rw [List.foldl_cons, dictSet_fresh hfresh, foldl_dictSet (hnext ▸ h), ← hnext]

/-- Entries without a repeated key are a dictionary already. -/
theorem dictOfPairs_nodup {l : List (PyStr × PyJson)} (h : (l.map Prod.fst).Nodup) :
    dictOfPairs l = l :=
  foldl_dictSet h

theorem toPyEntries_nodup {l : List (String × Json)} (h : (l.map Prod.fst).Nodup) :
    ((Json.toPyEntries l).map Prod.fst).Nodup := by
  have hkeys : (Json.toPyEntries l).map Prod.fst = (l.map Prod.fst).map PyStr.ofString := by
    rw [Json.toPyEntries_eq, List.map_map, List.map_map]
    rfl
  rw [hkeys]
  exact h.map fun _ _ => PyStr.ofString_inj

/-! ## Values read back -/

theorem skip_cons {c : Char} (h : isSpace c = false) (r : List Char) : skip (c :: r) = c :: r := by
  unfold skip
  rw [List.dropWhile_cons_of_neg]
  simp [h]

/-- What the first character of a number is not. -/
structure NumberStart (c : Char) : Prop where
  quote : c ≠ '"'
  bracket : c ≠ '['
  closing : c ≠ ']'
  brace : c ≠ '\x7b'
  letters : c ≠ 'n' ∧ c ≠ 't' ∧ c ≠ 'f' ∧ c ≠ 'N' ∧ c ≠ 'I'
  space : isSpace c = false

theorem numberStart_digit {c : Char} (h : c.isDigit = true) : NumberStart c := by
  have hother : ∀ d : Char, d.isDigit = false → c ≠ d := by
    rintro d hd rfl
    rw [h] at hd
    cases hd
  refine ⟨hother _ rfl, hother _ rfl, hother _ rfl, hother _ rfl,
    ⟨hother _ rfl, hother _ rfl, hother _ rfl, hother _ rfl, hother _ rfl⟩, ?_⟩
  simp [isSpace, hother ' ' rfl, hother '\t' rfl, hother '\n' rfl, hother '\r' rfl]

theorem intChars_start (i : Int) : ∃ c t, Json.intChars i = c :: t ∧ NumberStart c := by
  obtain ⟨d, ds, hds, hd⟩ := toDigits_first i.natAbs
  unfold Json.intChars
  by_cases hneg : i < 0
  · refine ⟨'-', Nat.toDigits 10 i.natAbs, by rw [if_pos hneg]; rfl, ?_⟩
    constructor <;> decide
  · exact ⟨d, ds, by rw [if_neg hneg, hds]; rfl, numberStart_digit hd⟩

/-- The text of a value opens with neither space nor a closing bracket. -/
theorem render_start (q : Json.Quoting) {j : Json} (hfloat : j.floatFree = true) :
    ∃ c t, j.render q = c :: t ∧ isSpace c = false ∧ c ≠ ']' := by
  cases j with
  | null => exact ⟨'n', _, rfl, by decide, by decide⟩
  | bool b => cases b with
    | true => exact ⟨'t', _, rfl, by decide, by decide⟩
    | false => exact ⟨'f', _, rfl, by decide, by decide⟩
  | int i =>
      obtain ⟨c, t, hc, hstart⟩ := intChars_start i
      exact ⟨c, t, hc, hstart.space, hstart.closing⟩
  | float text => cases hfloat
  | str s => exact ⟨'"', _, rfl, by decide, by decide⟩
  | arr items => exact ⟨'[', _, rfl, by decide, by decide⟩
  | obj entries => exact ⟨'\x7b', _, rfl, by decide, by decide⟩

theorem renderItems_start (q : Json.Quoting) {j : Json} (l : List Json)
    (hfloat : j.floatFree = true) :
    ∃ c t, Json.renderItems q (j :: l) = c :: t ∧ isSpace c = false ∧ c ≠ ']' := by
  obtain ⟨c, t, hc, hspace, hclosing⟩ := render_start q hfloat
  cases l with
  | nil => exact ⟨c, t, hc, hspace, hclosing⟩
  | cons k l =>
      refine ⟨c, t ++ ',' :: Json.renderItems q (k :: l), ?_, hspace, hclosing⟩
      rw [Json.renderItems, hc]
      · rfl
      · simp

theorem renderEntries_start (q : Json.Quoting) (e : String × Json) (l : List (String × Json)) :
    ∃ t, Json.renderEntries q (e :: l) = '"' :: t := by
  obtain ⟨k, j⟩ := e
  cases l with
  | nil => exact ⟨_, rfl⟩
  | cons e l => exact ⟨_, rfl⟩

theorem scanString_literal (q : Json.Quoting) (s : String) (r : List Char) :
    scanString (q.body s ++ ['"'] ++ r) = some (PyStr.ofString s, r) := by
  rw [List.append_assoc]
  exact q.reads s r

theorem endsNumber_bracket (r : List Char) : EndsNumber (']' :: r) :=
  endsNumber_cons rfl (by decide) (by decide) (by decide)

theorem endsNumber_brace (r : List Char) : EndsNumber ('\x7d' :: r) :=
  endsNumber_cons rfl (by decide) (by decide) (by decide)

theorem endsNumber_comma (r : List Char) : EndsNumber (',' :: r) :=
  endsNumber_cons rfl (by decide) (by decide) (by decide)

theorem skip_render (q : Json.Quoting) {j : Json} (hfloat : j.floatFree = true) (r : List Char) :
    skip (j.render q ++ r) = j.render q ++ r := by
  obtain ⟨c, t, hc, hspace, -⟩ := render_start q hfloat
  rw [hc]
  exact skip_cons hspace _

theorem weight_pos (j : Json) : 0 < j.weight := by
  cases j <;> simp only [Json.weight] <;> omega

mutual
theorem weight_le_render (q : Json.Quoting) : ∀ j : Json, j.floatFree = true →
    j.weight ≤ (j.render q).length
  | .null, _ => by simp [Json.weight, Json.render]
  | .bool true, _ => by simp [Json.weight, Json.render]
  | .bool false, _ => by simp [Json.weight, Json.render]
  | .int i, _ => by
      obtain ⟨c, t, hc, -⟩ := intChars_start i
      simp [Json.weight, Json.render, hc]
  | .str s, _ => by simp [Json.weight, Json.render, Json.Quoting.literal]
  | .arr l, hfloat => by
      have hitems := weightItems_le_render q l hfloat
      rw [Json.weight, Json.render, List.length_append, List.length_cons, List.length_singleton]
      omega
  | .obj l, hfloat => by
      have hentries := weightEntries_le_render q l hfloat
      rw [Json.weight, Json.render, List.length_append, List.length_cons, List.length_singleton]
      omega
theorem weightItems_le_render (q : Json.Quoting) : ∀ l : List Json,
    Json.floatsAllItems Json.noFloat l = true → Json.weightItems l ≤ (Json.renderItems q l).length + 1
  | [], _ => by simp [Json.weightItems]
  | [j], hfloat => by
      rw [Json.floatsAllItems, Bool.and_eq_true] at hfloat
      have hj := weight_le_render q j hfloat.1
      rw [Json.weightItems, Json.weightItems, Json.renderItems]
      omega
  | j :: k :: l, hfloat => by
      rw [Json.floatsAllItems, Bool.and_eq_true] at hfloat
      have hj := weight_le_render q j hfloat.1
      have hl := weightItems_le_render q (k :: l) hfloat.2
      rw [Json.weightItems, Json.renderItems, List.length_append, List.length_cons]
      · omega
      · simp
theorem weightEntries_le_render (q : Json.Quoting) : ∀ l : List (String × Json),
    Json.floatsAllEntries Json.noFloat l = true → Json.weightEntries l ≤ (Json.renderEntries q l).length + 1
  | [], _ => by simp [Json.weightEntries]
  | [(k, j)], hfloat => by
      rw [Json.floatsAllEntries, Bool.and_eq_true] at hfloat
      have hj := weight_le_render q j hfloat.1
      rw [Json.weightEntries, Json.weightEntries, Json.renderEntries, List.length_append,
        List.length_cons]
      omega
  | (k, j) :: e :: l, hfloat => by
      rw [Json.floatsAllEntries, Bool.and_eq_true] at hfloat
      have hj := weight_le_render q j hfloat.1
      have hl := weightEntries_le_render q (e :: l) hfloat.2
      rw [Json.weightEntries, Json.renderEntries, List.length_append, List.length_append,
        List.length_cons, List.length_cons]
      · omega
      · simp
end

section ReadBack

variable [DecimalFloat]

theorem value_number {c : Char} {r : List Char} {p : PyJson × List Char} {n : Nat}
    (hc : NumberStart c) (hnumber : number (c :: r) = some p) : value (n + 1) (c :: r) = some p := by
  obtain ⟨hn, ht, hf, hN, hI⟩ := hc.letters
  rw [value, if_neg hc.quote, if_neg hc.bracket, if_neg hc.brace, if_neg hn, if_neg ht, if_neg hf,
    if_neg hN, if_neg hI, hnumber]
  rfl

/-- After an item the reader sees the bracket, and stops. -/
theorem items_last {n : Nat} {s r : List Char} {v : PyJson}
    (hvalue : value n s = some (v, ']' :: r)) : items (n + 1) s = some ([v], r) := by
  rw [items, hvalue, Option.bind_some]
  dsimp only
  rw [skip_cons rfl]
  exact if_pos rfl

/-- After an item the reader sees a comma, and goes on. -/
theorem items_next {n : Nat} {s r : List Char} {v : PyJson} {q : List PyJson × List Char}
    (hvalue : value n s = some (v, ',' :: r)) (hrest : items n (skip r) = some q) :
    items (n + 1) s = some (v :: q.1, q.2) := by
  rw [items, hvalue, Option.bind_some]
  dsimp only
  rw [skip_cons rfl]
  dsimp only
  rw [if_neg (by decide), if_pos rfl, hrest]
  rfl

theorem entries_last {n : Nat} {s s' r : List Char} {k : PyStr} {v : PyJson}
    (hkey : scanString s = some (k, ':' :: s')) (hvalue : value n (skip s') = some (v, '\x7d' :: r)) :
    entries (n + 1) ('"' :: s) = some ([(k, v)], r) := by
  rw [entries, if_pos rfl, hkey, Option.bind_some]
  dsimp only
  rw [skip_cons rfl]
  dsimp only
  rw [if_pos rfl, hvalue, Option.bind_some]
  dsimp only
  rw [skip_cons rfl]
  exact if_pos rfl

theorem entries_next {n : Nat} {s s' r : List Char} {k : PyStr} {v : PyJson}
    {q : List (PyStr × PyJson) × List Char} (hkey : scanString s = some (k, ':' :: s'))
    (hvalue : value n (skip s') = some (v, ',' :: r)) (hrest : entries n (skip r) = some q) :
    entries (n + 1) ('"' :: s) = some ((k, v) :: q.1, q.2) := by
  rw [entries, if_pos rfl, hkey, Option.bind_some]
  dsimp only
  rw [skip_cons rfl]
  dsimp only
  rw [if_pos rfl, hvalue, Option.bind_some]
  dsimp only
  rw [skip_cons rfl]
  dsimp only
  rw [if_neg (by decide), if_pos rfl, hrest]
  rfl

mutual
/-- With enough fuel a value reads back from the front of a text. -/
theorem value_render (q : Json.Quoting) : ∀ (j : Json) {n : Nat} {r : List Char},
    j.floatFree = true → j.distinctKeys = true → j.weight ≤ n → EndsNumber r →
      value n (j.render q ++ r) = some (j.toPy, r)
  | j, 0, _, _, _, hn, _ => absurd hn (Nat.not_le_of_lt (weight_pos j))
  | .null, n + 1, r, _, _, _, _ => by
      simp [Json.render, value, word, List.isPrefixOf, Json.toPy]
  | .bool true, n + 1, r, _, _, _, _ => by
      simp [Json.render, value, word, List.isPrefixOf, Json.toPy]
  | .bool false, n + 1, r, _, _, _, _ => by
      simp [Json.render, value, word, List.isPrefixOf, Json.toPy]
  | .int i, n + 1, r, _, _, _, hr => by
      obtain ⟨c, t, hc, hstart⟩ := intChars_start i
      have hnumber := number_intChars i hr
      rw [hc] at hnumber
      rw [Json.render, hc]
      exact value_number hstart hnumber
  | .str s, n + 1, r, _, _, _, _ => by
      rw [Json.render, Json.Quoting.literal, List.cons_append, List.cons_append, value, if_pos rfl,
        scanString_literal]
      rfl
  | .arr [], n + 1, r, _, _, _, _ => by
      simp [Json.render, Json.renderItems, value, skip, isSpace, Json.toPy, Json.toPyItems]
  | .arr (j :: l), n + 1, r, hfloat, hkeys, hn, _ => by
      have hfloats : Json.floatsAllItems Json.noFloat (j :: l) = true := hfloat
      rw [Json.floatsAllItems, Bool.and_eq_true] at hfloats
      have hlist := items_render q (j :: l) (n := n) (r := r) (by simp) hfloat hkeys
        (by rw [Json.weight] at hn; omega)
      obtain ⟨c, t, hc, hspace, hclosing⟩ := renderItems_start q l hfloats.1
      rw [hc, List.cons_append] at hlist
      rw [Json.render, hc, List.cons_append, List.cons_append, List.append_assoc, value,
        if_neg (by decide), if_pos rfl, List.cons_append, skip_cons hspace]
      dsimp only
      rw [if_neg hclosing]
      rw [List.singleton_append, hlist]
      rfl
  | .obj [], n + 1, r, _, _, _, _ => by
      simp [Json.render, Json.renderEntries, value, skip, isSpace, Json.toPy, Json.toPyEntries]
  | .obj (e :: l), n + 1, r, hfloat, hkeys, hn, _ => by
      rw [Json.distinctKeys, Bool.and_eq_true] at hkeys
      have hlist := entries_render q (e :: l) (n := n) (r := r) (by simp) hfloat hkeys.2
        (by rw [Json.weight] at hn; omega)
      obtain ⟨t, ht⟩ := renderEntries_start q e l
      have hdict := dictOfPairs_nodup (toPyEntries_nodup (of_decide_eq_true hkeys.1))
      rw [ht, List.cons_append] at hlist
      rw [Json.render, ht, List.cons_append, List.cons_append, List.append_assoc, value,
        if_neg (by decide), if_neg (by decide), if_pos rfl, List.cons_append, skip_cons rfl]
      dsimp only
      rw [if_neg (by decide), List.singleton_append, hlist, Option.map_some, hdict]
      rfl
theorem items_render (q : Json.Quoting) : ∀ (l : List Json) {n : Nat} {r : List Char}, l ≠ [] →
    Json.floatsAllItems Json.noFloat l = true → Json.distinctKeysItems l = true → Json.weightItems l ≤ n →
      items n (Json.renderItems q l ++ ']' :: r) = some (Json.toPyItems l, r)
  | j :: l, 0, _, _, _, _, hn => by
      rw [Json.weightItems] at hn
      omega
  | [j], n + 1, r, _, hfloat, hkeys, hn => by
      simp only [Json.floatsAllItems, Json.distinctKeysItems, Bool.and_true, Json.weightItems]
        at hfloat hkeys hn
      have hvalue := value_render q j hfloat hkeys (n := n) (by omega) (endsNumber_bracket r)
      rw [Json.renderItems]
      exact items_last hvalue
  | j :: k :: l, n + 1, r, _, hfloat, hkeys, hn => by
      rw [Json.floatsAllItems, Bool.and_eq_true] at hfloat
      rw [Json.distinctKeysItems, Bool.and_eq_true] at hkeys
      rw [Json.weightItems] at hn
      have hvalue := value_render q j hfloat.1 hkeys.1 (n := n) (by omega)
        (endsNumber_comma (Json.renderItems q (k :: l) ++ ']' :: r))
      have hrest := items_render q (k :: l) (n := n) (r := r) (by simp) hfloat.2 hkeys.2
        (by omega)
      have hfloats := hfloat.2
      rw [Json.floatsAllItems, Bool.and_eq_true] at hfloats
      obtain ⟨c, t, hc, hspace, -⟩ := renderItems_start q l hfloats.1
      rw [hc, List.cons_append] at hvalue hrest
      rw [Json.renderItems, List.append_assoc, List.cons_append, hc, List.cons_append]
      · exact items_next hvalue ((congrArg (items n) (skip_cons hspace _)).trans hrest)
      · simp
theorem entries_render (q : Json.Quoting) : ∀ (l : List (String × Json)) {n : Nat} {r : List Char},
    l ≠ [] → Json.floatsAllEntries Json.noFloat l = true → Json.distinctKeysEntries l = true →
      Json.weightEntries l ≤ n →
        entries n (Json.renderEntries q l ++ '\x7d' :: r) = some (Json.toPyEntries l, r)
  | (k, j) :: l, 0, _, _, _, _, hn => by
      rw [Json.weightEntries] at hn
      omega
  | [(k, j)], n + 1, r, _, hfloat, hkeys, hn => by
      simp only [Json.floatsAllEntries, Json.distinctKeysEntries, Bool.and_true,
        Json.weightEntries] at hfloat hkeys hn
      have hvalue := value_render q j hfloat hkeys (n := n) (by omega) (endsNumber_brace r)
      rw [← skip_render q hfloat] at hvalue
      rw [Json.renderEntries, List.append_assoc, Json.Quoting.literal, List.cons_append,
        List.cons_append]
      exact entries_last (scanString_literal q k _) hvalue
  | (k, j) :: e :: l, n + 1, r, _, hfloat, hkeys, hn => by
      rw [Json.floatsAllEntries, Bool.and_eq_true] at hfloat
      rw [Json.distinctKeysEntries, Bool.and_eq_true] at hkeys
      rw [Json.weightEntries] at hn
      have hvalue := value_render q j hfloat.1 hkeys.1 (n := n) (by omega)
        (endsNumber_comma (Json.renderEntries q (e :: l) ++ '\x7d' :: r))
      have hrest := entries_render q (e :: l) (n := n) (r := r) (by simp) hfloat.2
        hkeys.2 (by omega)
      rw [← skip_render q hfloat.1] at hvalue
      obtain ⟨t, ht⟩ := renderEntries_start q e l
      rw [ht, List.cons_append] at hvalue hrest
      rw [Json.renderEntries, List.append_assoc, List.append_assoc, Json.Quoting.literal,
        List.cons_append, List.cons_append, List.cons_append, List.cons_append, ht]
      · exact entries_next (scanString_literal q k _) hvalue ((congrArg (entries n) (skip_cons rfl _)).trans hrest)
      · simp
end

/-! ## Whole texts -/

/-- The text of a value reads back as the value. -/
theorem loads_render (q : Json.Quoting) {j : Json} (hfloat : j.floatFree = true)
    (hkeys : j.distinctKeys = true) : loads (j.render q) = some j.toPy := by
  have hvalue := value_render q j hfloat hkeys (weight_le_render q j hfloat) endsNumber_nil
  have hskip := skip_render q hfloat []
  rw [List.append_nil] at hvalue hskip
  rw [loads, hskip, hvalue]
  rfl

end ReadBack

end JsonReader
