import Mathlib.Data.List.Lex
import Mathlib.Data.String.Basic

/-!
# Text with surrogates

A Python string is a list of code points, and unlike a Unicode text it
may hold a surrogate on its own. Text comes out of it, and UTF-8 bytes
with it, exactly when it holds none.

In UTF-16 a code point beyond the basic plane is two surrogate units. So
two strings can have the same units and still differ: a pair of lone
surrogates reads as the one code point they would encode.
-/

/-- A Unicode code point, surrogates included. -/
abbrev CodePoint := Fin 0x110000

/-- A Python string. -/
abbrev PyStr := List CodePoint

namespace CodePoint

def isSurrogate (c : CodePoint) : Bool := decide (0xd800 ≤ c.val ∧ c.val ≤ 0xdfff)

theorem val_lt (c : Char) : c.toNat < 0x110000 := by
  have h := c.valid
  rcases h with h | ⟨-, h⟩
  · exact Nat.lt_trans h (by decide)
  · exact h

def ofChar (c : Char) : CodePoint := ⟨c.toNat, val_lt c⟩

abbrev ofNat (n : Nat) : CodePoint := Fin.ofNat 0x110000 n

/-- The character of a code point that is no surrogate. -/
def char? (c : CodePoint) : Option Char :=
  if c.isSurrogate then none else some (Char.ofNat c.val)

theorem not_surrogate_ofChar (c : Char) : (ofChar c).isSurrogate = false := by
  have h := c.valid
  refine decide_eq_false fun hs => ?_
  obtain ⟨hlow, hhigh⟩ : 0xd800 ≤ c.toNat ∧ c.toNat ≤ 0xdfff := hs
  rcases h with h | ⟨h, -⟩
  · exact absurd (show c.toNat < 0xd800 from h) (by omega)
  · exact absurd (show 0xdfff < c.toNat from h) (by omega)

@[simp] theorem char?_ofChar (c : Char) : (ofChar c).char? = some c := by
  unfold char?
  rw [not_surrogate_ofChar, if_neg Bool.false_ne_true]
  exact congrArg some (Char.ofNat_toNat c)

theorem ofChar_inj {a b : Char} (h : ofChar a = ofChar b) : a = b := by
  have h' := congrArg char? h
  rw [char?_ofChar, char?_ofChar] at h'
  exact Option.some.inj h'

/-- A code point that is no surrogate is a character. -/
theorem ofChar_of_char? {c : CodePoint} {ch : Char} (h : c.char? = some ch) : ofChar ch = c := by
  unfold char? at h
  cases hs : c.isSurrogate with
  | true => rw [hs] at h; cases h
  | false =>
      rw [hs, if_neg Bool.false_ne_true] at h
      obtain rfl := Option.some.inj h
      have hvalid : Nat.isValidChar c.val := by
        have hs' : ¬(0xd800 ≤ c.val ∧ c.val ≤ 0xdfff) := of_decide_eq_false hs
        have hlt := c.isLt
        rcases Nat.lt_or_ge c.val 0xd800 with hlow | hlow
        · exact .inl hlow
        · exact .inr ⟨by omega, hlt⟩
      have hto : (Char.ofNat c.val).toNat = c.val := by
        unfold Char.ofNat
        rw [dif_pos hvalid]
        rfl
      exact Fin.ext hto

end CodePoint

namespace PyStr

open CodePoint

/-- The code points of a text. -/
def ofString (s : String) : PyStr := s.toList.map ofChar

/-- The text of a string without surrogates. -/
def text? (s : PyStr) : Option String := (s.mapM char?).map String.ofList

def hasSurrogate (s : PyStr) : Bool := s.any CodePoint.isSurrogate

theorem mapM_char?_ofChar (l : List Char) : (l.map ofChar).mapM char? = some l := by
  induction l with
  | nil => rfl
  | cons c l ih => simp [ih]

@[simp] theorem text?_ofString (s : String) : text? (ofString s) = some s := by
  unfold text? ofString
  rw [mapM_char?_ofChar]
  exact congrArg some String.ofList_toList

theorem ofString_inj {s t : String} (h : ofString s = ofString t) : s = t := by
  have h' := congrArg text? h
  rw [text?_ofString, text?_ofString] at h'
  exact Option.some.inj h'

theorem ofString_of_text? {s : PyStr} {t : String} (h : text? s = some t) : ofString t = s := by
  obtain ⟨l, hl, rfl⟩ := Option.map_eq_some_iff.mp h
  unfold ofString
  rw [String.toList_ofList]
  clear h
  induction s generalizing l with
  | nil => obtain rfl := Option.some.inj hl; rfl
  | cons c s ih =>
      rw [List.mapM_cons] at hl
      obtain ⟨ch, hch, rest, hrest, heq⟩ : ∃ ch, c.char? = some ch ∧ ∃ rest,
          s.mapM char? = some rest ∧ ch :: rest = l := by
        simpa [Option.bind_eq_some_iff] using hl
      rw [← heq, List.map_cons, ih rest hrest, ofChar_of_char? hch]

/-- A string has a text exactly when it holds no surrogate. -/
theorem text?_isSome {s : PyStr} : (text? s).isSome = !hasSurrogate s := by
  unfold text? hasSurrogate
  rw [Option.isSome_map]
  induction s with
  | nil => rfl
  | cons c s ih =>
      rw [List.mapM_cons, List.any_cons, Bool.not_or, ← ih]
      cases hc : c.isSurrogate <;> cases hs : s.mapM char? <;> simp [char?, hc]

theorem text?_eq_none {s : PyStr} (h : hasSurrogate s = true) : text? s = none := by
  rw [← Option.not_isSome_iff_eq_none, text?_isSome, h]
  simp

theorem hasSurrogate_ofString (s : String) : hasSurrogate (ofString s) = false := by
  have h := text?_isSome (s := ofString s)
  rw [text?_ofString] at h
  simpa using h

/-- `s.encode("utf-8")`: nothing where it raises. -/
def encode (s : PyStr) : Option ByteArray := (text? s).map String.toUTF8

/-! ## UTF-16 -/

/-- The UTF-16 code units of a code point. -/
def unitsOf (c : CodePoint) : List Nat :=
  if c.val < 0x10000 then [c.val]
  else [0xd800 + (c.val - 0x10000) / 0x400, 0xdc00 + (c.val - 0x10000) % 0x400]

def units (s : PyStr) : List Nat := s.flatMap unitsOf

end PyStr
