import CognitiveRuntime.Data.PyJson

/-!
# JSON string literals

How `json.dumps` quotes a string, with and without `ensure_ascii`, and
how `json.loads` reads the literal back. The reader first yields one code
point for every character and every `\u` escape, and then joins the
surrogate pairs among them.
-/

namespace PyStr

open CodePoint

/-! ## Quoting -/

/-- Four hexadecimal digits. -/
def hex4 (u : Nat) : List Char :=
  [Nat.digitChar (u / 4096), Nat.digitChar (u / 256 % 16), Nat.digitChar (u / 16 % 16),
    Nat.digitChar (u % 16)]

/-- One UTF-16 code unit inside an ASCII string literal. -/
def escapeUnit (u : Nat) : List Char :=
  if u = 0x22 then ['\\', '"']
  else if u = 0x5c then ['\\', '\\']
  else if u = 8 then ['\\', 'b']
  else if u = 9 then ['\\', 't']
  else if u = 10 then ['\\', 'n']
  else if u = 12 then ['\\', 'f']
  else if u = 13 then ['\\', 'r']
  else if 32 ≤ u ∧ u < 127 then [Char.ofNat u]
  else '\\' :: 'u' :: hex4 u

/-- The literal of a string with `ensure_ascii`. -/
def quoteAscii (s : PyStr) : List Char := '"' :: (units s).flatMap escapeUnit ++ ['"']

/-! ## Reading -/

def hexVal (c : Char) : Option Nat :=
  if 48 ≤ c.toNat ∧ c.toNat < 58 then some (c.toNat - 48)
  else if 97 ≤ c.toNat ∧ c.toNat < 103 then some (c.toNat - 87)
  else if 65 ≤ c.toNat ∧ c.toNat < 71 then some (c.toNat - 55)
  else none

/-- The code point of a `\u` escape. -/
def unit4 (a b c d : Char) : Option CodePoint :=
  (hexVal a).bind fun w => (hexVal b).bind fun x => (hexVal c).bind fun y => (hexVal d).map
    fun z => CodePoint.ofNat (w * 4096 + x * 256 + y * 16 + z)

/-- The character a one-letter escape stands for. -/
def escaped (c : Char) : Option Char :=
  if c = '"' ∨ c = '\\' ∨ c = '/' then some c
  else if c = 'b' then some (Char.ofNat 8)
  else if c = 't' then some (Char.ofNat 9)
  else if c = 'n' then some (Char.ofNat 10)
  else if c = 'f' then some (Char.ofNat 12)
  else if c = 'r' then some (Char.ofNat 13)
  else none

/-- The code points of a literal after its opening quote, and what follows
the closing one. A control character ends the reading. -/
def scanBody : List Char → Option (List CodePoint × List Char)
  | [] => none
  | c :: r =>
      if c = '"' then some ([], r)
      else if c = '\\' then
        match r with
        | [] => none
        | e :: r =>
            if e = 'u' then
              match r with
              | a :: b :: x :: y :: r =>
                  (unit4 a b x y).bind fun u => (scanBody r).map fun p => (u :: p.1, p.2)
              | _ => none
            else (escaped e).bind fun u => (scanBody r).map fun p => (ofChar u :: p.1, p.2)
      else if c.toNat < 32 then none
      else (scanBody r).map fun p => (ofChar c :: p.1, p.2)

def isHigh (c : CodePoint) : Bool := decide (0xd800 ≤ c.val ∧ c.val ≤ 0xdbff)

def isLow (c : CodePoint) : Bool := decide (0xdc00 ≤ c.val ∧ c.val ≤ 0xdfff)

/-- The code point a surrogate pair encodes. -/
def joinPair (h l : CodePoint) : CodePoint :=
  CodePoint.ofNat (0x10000 + (h.val - 0xd800) * 0x400 + (l.val - 0xdc00))

/-- Every surrogate pair as the code point it encodes. -/
def joinPairs : List CodePoint → PyStr
  | [] => []
  | [c] => [c]
  | h :: l :: r =>
      if isHigh h && isLow l then joinPair h l :: joinPairs r else h :: joinPairs (l :: r)

/-- The string of a literal after its opening quote. -/
def scanString (l : List Char) : Option (PyStr × List Char) :=
  (scanBody l).map fun p => (joinPairs p.1, p.2)

/-! ## Reading back what was quoted -/

theorem hexVal_digitChar : ∀ d < 16, hexVal (Nat.digitChar d) = some d := by decide

theorem unit4_hex4 {u : Nat} (h : u < 0x10000) :
    unit4 (Nat.digitChar (u / 4096)) (Nat.digitChar (u / 256 % 16))
      (Nat.digitChar (u / 16 % 16)) (Nat.digitChar (u % 16))
      = some (CodePoint.ofNat u) := by
  unfold unit4
  rw [hexVal_digitChar _ (by omega), hexVal_digitChar _ (by omega), hexVal_digitChar _ (by omega),
    hexVal_digitChar _ (by omega)]
  have hsum : u / 4096 * 4096 + u / 256 % 16 * 256 + u / 16 % 16 * 16 + u % 16 = u := by omega
  simp only [Option.bind_some, Option.map_some, hsum]

/-- An escape of one letter is read as its character. -/
theorem scanBody_escaped {e u : Char} (he : e ≠ 'u') (hu : escaped e = some u) (r : List Char) :
    scanBody ('\\' :: e :: r) = (scanBody r).map fun p => (ofChar u :: p.1, p.2) := by
  conv_lhs => unfold scanBody
  rw [if_neg (by decide), if_pos rfl]
  simp only [if_neg he, hu, Option.bind_some]

theorem scanBody_unit {u : Nat} (h : u < 0x10000) (r : List Char) :
    scanBody ('\\' :: 'u' :: hex4 u ++ r)
      = (scanBody r).map fun p => (CodePoint.ofNat u :: p.1, p.2) := by
  unfold hex4
  simp only [List.cons_append, List.nil_append]
  conv_lhs => unfold scanBody
  rw [if_neg (by decide), if_pos rfl]
  simp only [if_true, unit4_hex4 h, Option.bind_some]

theorem scanBody_plain {c : Char} (hquote : c ≠ '"') (hslash : c ≠ '\\') (hlow : 32 ≤ c.toNat)
    (r : List Char) :
    scanBody (c :: r) = (scanBody r).map fun p => (ofChar c :: p.1, p.2) := by
  conv_lhs => unfold scanBody
  rw [if_neg hquote, if_neg hslash, if_neg (by omega)]

theorem scanBody_close (r : List Char) : scanBody ('"' :: r) = some ([], r) := by
  unfold scanBody
  exact if_pos rfl

theorem scanBody_escapeUnit {u : Nat} (h : u < 0x10000) (r : List Char) :
    scanBody (escapeUnit u ++ r)
      = (scanBody r).map fun p => (CodePoint.ofNat u :: p.1, p.2) := by
  have hletter : ∀ {e c : Char}, e ≠ 'u' → escaped e = some c → ofChar c = CodePoint.ofNat u →
      scanBody (['\\', e] ++ r)
        = (scanBody r).map fun p => (CodePoint.ofNat u :: p.1, p.2) := by
    intro e c he hc hu
    rw [← hu]
    exact scanBody_escaped he hc r
  unfold escapeUnit
  split
  · next hu => subst hu; exact hletter (by decide) rfl rfl
  split
  · next hu => subst hu; exact hletter (by decide) rfl rfl
  split
  · next hu => subst hu; exact hletter (by decide) rfl rfl
  split
  · next hu => subst hu; exact hletter (by decide) rfl rfl
  split
  · next hu => subst hu; exact hletter (by decide) rfl rfl
  split
  · next hu => subst hu; exact hletter (by decide) rfl rfl
  split
  · next hu => subst hu; exact hletter (by decide) rfl rfl
  split
  · next hquote hslash _ _ _ _ _ hplain =>
      have hto : (Char.ofNat u).toNat = u := by
        unfold Char.ofNat
        rw [dif_pos (.inl (by omega))]
        rfl
      have hpoint : ofChar (Char.ofNat u) = CodePoint.ofNat u := by
        refine Fin.ext ?_
        show (Char.ofNat u).toNat = u % 0x110000
        omega
      rw [← hpoint]
      refine scanBody_plain ?_ ?_ (by omega) r
      · intro heq
        rw [heq] at hto
        exact hquote hto.symm
      · intro heq
        rw [heq] at hto
        exact hslash hto.symm
  · exact scanBody_unit h r

theorem scanBody_escapeChar (c : Char) (r : List Char) :
    scanBody (Json.escapeChar c ++ r) = (scanBody r).map fun p => (ofChar c :: p.1, p.2) := by
  have hletter : ∀ {e u : Char}, e ≠ 'u' → escaped e = some u → u.toNat = c.toNat →
      scanBody (['\\', e] ++ r) = (scanBody r).map fun p => (ofChar c :: p.1, p.2) := by
    intro e u he hu hto
    rw [← Char.toNat_inj.mp hto]
    exact scanBody_escaped he hu r
  unfold Json.escapeChar
  split
  · next hc => subst hc; exact hletter (by decide) rfl rfl
  split
  · next hc => subst hc; exact hletter (by decide) rfl rfl
  split
  · next hc => exact hletter (by decide) rfl hc.symm
  split
  · next hc => exact hletter (by decide) rfl hc.symm
  split
  · next hc => exact hletter (by decide) rfl hc.symm
  split
  · next hc => exact hletter (by decide) rfl hc.symm
  split
  · next hc => exact hletter (by decide) rfl hc.symm
  split
  · next hlow =>
      have hdigits : (['\\', 'u', '0', '0', Nat.digitChar (c.toNat / 16),
          Nat.digitChar (c.toNat % 16)] : List Char) = '\\' :: 'u' :: hex4 c.toNat := by
        have h0 : c.toNat / 4096 = 0 := by omega
        have h1 : c.toNat / 256 % 16 = 0 := by omega
        have h2 : c.toNat / 16 % 16 = c.toNat / 16 := by omega
        rw [hex4, h0, h1, h2]
        rfl
      have hpoint : CodePoint.ofNat c.toNat = ofChar c := Fin.ext (Nat.mod_eq_of_lt (val_lt c))
      rw [hdigits, ← hpoint]
      exact scanBody_unit (by omega) r
  · next hquote hslash _ _ _ _ _ hlow => exact scanBody_plain hquote hslash (by omega) r

/-! ## Whole literals -/

/-- A code unit as a code point. -/
def unitPoint (u : Nat) : CodePoint := CodePoint.ofNat u

theorem scanBody_units {us : List Nat} (h : ∀ u ∈ us, u < 0x10000) (r : List Char) :
    scanBody (us.flatMap escapeUnit ++ '"' :: r) = some (us.map unitPoint, r) := by
  induction us with
  | nil => exact scanBody_close r
  | cons u us ih =>
      rw [List.flatMap_cons, List.append_assoc, scanBody_escapeUnit (h u (List.mem_cons_self ..)),
        ih fun v hv => h v (List.mem_cons_of_mem _ hv)]
      rfl

theorem scanBody_chars (l : List Char) (r : List Char) :
    scanBody (l.flatMap Json.escapeChar ++ '"' :: r) = some (l.map ofChar, r) := by
  induction l with
  | nil => exact scanBody_close r
  | cons c l ih =>
      rw [List.flatMap_cons, List.append_assoc, scanBody_escapeChar, ih]
      rfl

theorem joinPairs_ofChar : ∀ l : List Char, joinPairs (l.map ofChar) = l.map ofChar
  | [] => rfl
  | [c] => rfl
  | c :: d :: l => by
      have hlow : isHigh (ofChar c) = false := by
        have h : ¬(0xd800 ≤ (ofChar c).val ∧ (ofChar c).val ≤ 0xdfff) :=
          of_decide_eq_false (not_surrogate_ofChar c)
        exact decide_eq_false (by omega)
      have ih := joinPairs_ofChar (d :: l)
      rw [List.map_cons] at ih
      rw [List.map_cons, List.map_cons, joinPairs, hlow, ih]
      rfl

/-- A literal without `ensure_ascii` reads back as its text. -/
theorem scanString_stringChars (s : String) (r : List Char) :
    scanString (s.toList.flatMap Json.escapeChar ++ '"' :: r) = some (ofString s, r) := by
  unfold scanString
  rw [scanBody_chars, Option.map_some, joinPairs_ofChar]
  rfl

theorem unitsOf_lt (c : CodePoint) : ∀ u ∈ unitsOf c, u < 0x10000 := by
  intro u hu
  have hc := c.isLt
  unfold unitsOf at hu
  split at hu
  · have hunit := List.mem_singleton.mp hu
    omega
  · rcases List.mem_cons.mp hu with hunit | hu
    · omega
    · have hunit := List.mem_singleton.mp hu
      omega

theorem units_lt {s : PyStr} : ∀ u ∈ units s, u < 0x10000 := by
  intro u hu
  obtain ⟨c, -, hu⟩ := List.mem_flatMap.mp hu
  exact unitsOf_lt c u hu

/-- The units of a text, joined again, are the text. -/
theorem joinPairs_units (l : List Char) :
    joinPairs ((units (l.map ofChar)).map unitPoint) = l.map ofChar := by
  induction l with
  | nil => rfl
  | cons c l ih =>
      have hsurrogate : ¬(0xd800 ≤ (ofChar c).val ∧ (ofChar c).val ≤ 0xdfff) :=
        of_decide_eq_false (not_surrogate_ofChar c)
      have hlt := (ofChar c).isLt
      rw [List.map_cons]
      unfold units at ih ⊢
      rw [List.flatMap_cons]
      by_cases hplane : (ofChar c).val < 0x10000
      · rw [unitsOf, if_pos hplane]
        have hpoint : unitPoint (ofChar c).val = ofChar c := Fin.ext (Nat.mod_eq_of_lt hlt)
        have hhigh : isHigh (ofChar c) = false := decide_eq_false (by omega)
        rw [List.singleton_append, List.map_cons, hpoint]
        cases htail : ((l.map ofChar).flatMap unitsOf).map unitPoint with
        | nil =>
            rw [htail] at ih
            rw [← ih]
            rfl
        | cons d rest => rw [joinPairs, hhigh, ← htail, ih]; rfl
      · rw [unitsOf, if_neg hplane]
        have hhigh : isHigh (unitPoint (0xd800 + ((ofChar c).val - 0x10000) / 0x400)) = true := by
          refine decide_eq_true ?_
          simp only [unitPoint, Fin.ofNat]
          omega
        have hlow : isLow (unitPoint (0xdc00 + ((ofChar c).val - 0x10000) % 0x400)) = true := by
          refine decide_eq_true ?_
          simp only [unitPoint, Fin.ofNat]
          omega
        have hpair : joinPair (unitPoint (0xd800 + ((ofChar c).val - 0x10000) / 0x400))
            (unitPoint (0xdc00 + ((ofChar c).val - 0x10000) % 0x400)) = ofChar c := by
          refine Fin.ext ?_
          simp only [joinPair, unitPoint, Fin.ofNat]
          omega
        rw [List.cons_append, List.singleton_append, List.map_cons, List.map_cons, joinPairs,
          hhigh, hlow, hpair, ih]
        rfl

/-- An ASCII literal reads back as its text. -/
theorem scanString_quoteAscii (s : String) (r : List Char) :
    scanString ((units (ofString s)).flatMap escapeUnit ++ '"' :: r) = some (ofString s, r) := by
  unfold scanString
  rw [scanBody_units units_lt, Option.map_some]
  exact congrArg (fun p => some (p, r)) (joinPairs_units s.toList)

theorem unitPoint_inj {u v : Nat} (hu : u < 0x10000) (hv : v < 0x10000)
    (h : unitPoint u = unitPoint v) : u = v := by
  have h' := congrArg Fin.val h
  simp only [unitPoint, Fin.ofNat] at h'
  omega

theorem map_unitPoint_inj : ∀ {us vs : List Nat}, (∀ u ∈ us, u < 0x10000) →
    (∀ v ∈ vs, v < 0x10000) → us.map unitPoint = vs.map unitPoint → us = vs
  | [], [], _, _, _ => rfl
  | u :: us, v :: vs, hus, hvs, h => by
      rw [List.map_cons, List.map_cons, List.cons.injEq] at h
      have hhead := unitPoint_inj (hus u (List.mem_cons_self ..)) (hvs v (List.mem_cons_self ..)) h.1
      have htail := map_unitPoint_inj (fun w hw => hus w (List.mem_cons_of_mem _ hw))
        (fun w hw => hvs w (List.mem_cons_of_mem _ hw)) h.2
      rw [hhead, htail]

/-- Two ASCII literals at the front of one text hold the same units. -/
theorem quoteAscii_append_inj {s t : PyStr} {r r' : List Char}
    (h : quoteAscii s ++ r = quoteAscii t ++ r') : units s = units t ∧ r = r' := by
  have hbody : (units s).flatMap escapeUnit ++ '"' :: r
      = (units t).flatMap escapeUnit ++ '"' :: r' := by
    simpa [quoteAscii] using h
  have hscan := congrArg scanBody hbody
  rw [scanBody_units units_lt, scanBody_units units_lt] at hscan
  obtain ⟨hunits, hrest⟩ := Prod.mk.inj (Option.some.inj hscan)
  exact ⟨map_unitPoint_inj units_lt units_lt hunits, hrest⟩

end PyStr
