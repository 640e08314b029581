import Mathlib.Data.List.TakeDrop
import Mathlib.Data.String.Basic

/-!
# The texts of finite floating-point numbers

`repr` gives a finite number its shortest decimal representation: a whole
part, and a fraction or an exponent or both. It is therefore never the
text of an integer.
-/

/-- A character of the text of a number. -/
def numberChar (c : Char) : Bool := c.isDigit || c = '.' || c = '-' || c = '+' || c = 'e'

namespace FloatText

/-- `e`, a sign and digits. -/
def exponentPart : List Char → Bool
  | c :: sign :: digits =>
      c = 'e' && (sign = '+' || sign = '-') && !digits.isEmpty && digits.all Char.isDigit
  | _ => false

/-- What stands after the whole part. -/
def tailPart : List Char → Bool
  | [] => false
  | c :: rest =>
      if c = '.' then
        !(rest.takeWhile Char.isDigit).isEmpty
          && (rest.dropWhile Char.isDigit = [] || exponentPart (rest.dropWhile Char.isDigit))
      else exponentPart (c :: rest)

def unsignedPart (l : List Char) : Bool :=
  !(l.takeWhile Char.isDigit).isEmpty && tailPart (l.dropWhile Char.isDigit)

/-- The text of a finite floating-point number. -/
def isFloat : List Char → Bool
  | [] => false
  | c :: rest => if c = '-' then unsignedPart rest else unsignedPart (c :: rest)

end FloatText

/-- A finite floating-point number, as its text. -/
@[ext] structure FloatText where
  text : String
  wellFormed : FloatText.isFloat text.toList = true
  deriving DecidableEq

namespace FloatText

example : isFloat "87.5".toList = true ∧ isFloat "-1e-05".toList = true
    ∧ isFloat "1.5e+300".toList = true := by decide

/-- An integer is written differently. -/
example : isFloat "87".toList = false ∧ isFloat "".toList = false := by decide

/-- The characters are those of a number, and one of them no integer has. -/
structure Numeric (l : List Char) : Prop where
  chars : ∀ c ∈ l, numberChar c = true
  apart : '.' ∈ l ∨ 'e' ∈ l

theorem numberChar_of_digit {c : Char} (h : c.isDigit = true) : numberChar c = true := by
  simp [numberChar, h]

theorem digit_of_mem_takeWhile {l : List Char} {c : Char} (h : c ∈ l.takeWhile Char.isDigit) :
    c.isDigit = true :=
  List.all_eq_true.mp List.all_takeWhile c h

theorem numeric_of_exponentPart {l : List Char} (h : exponentPart l = true) : Numeric l := by
  match l, h with
  | c :: sign :: digits, h =>
      simp only [exponentPart, Bool.and_eq_true, Bool.or_eq_true, decide_eq_true_eq,
        List.all_eq_true] at h
      obtain ⟨⟨⟨rfl, hsign⟩, -⟩, hdigits⟩ := h
      refine ⟨fun d hd => ?_, .inr List.mem_cons_self⟩
      rcases List.mem_cons.mp hd with rfl | hd
      · decide
      rcases List.mem_cons.mp hd with rfl | hd
      · rcases hsign with rfl | rfl <;> decide
      · exact numberChar_of_digit (hdigits d hd)

/-- Digits in front change nothing. -/
theorem Numeric.prepend {l : List Char} (h : Numeric (l.dropWhile Char.isDigit)) : Numeric l := by
  have hsplit := List.takeWhile_append_dropWhile (p := Char.isDigit) (l := l)
  rw [← hsplit]
  refine ⟨fun c hc => ?_, h.apart.imp (List.mem_append_right _) (List.mem_append_right _)⟩
  rcases List.mem_append.mp hc with hc | hc
  · exact numberChar_of_digit (digit_of_mem_takeWhile hc)
  · exact h.chars c hc

theorem numeric_of_tailPart {l : List Char} (h : tailPart l = true) : Numeric l := by
  cases l with
  | nil => cases h
  | cons c rest =>
      rw [tailPart] at h
      split at h
      · next hpoint =>
          subst hpoint
          simp only [Bool.and_eq_true, Bool.or_eq_true, decide_eq_true_eq] at h
          have hrest : ∀ d ∈ rest, numberChar d = true := by
            intro d hd
            rw [← List.takeWhile_append_dropWhile (p := Char.isDigit) (l := rest)] at hd
            rcases List.mem_append.mp hd with hd | hd
            · exact numberChar_of_digit (digit_of_mem_takeWhile hd)
            · rcases h.2 with hnone | hexponent
              · rw [hnone] at hd
                cases hd
              · exact (numeric_of_exponentPart hexponent).chars d hd
          refine ⟨fun d hd => ?_, .inl List.mem_cons_self⟩
          rcases List.mem_cons.mp hd with rfl | hd
          · decide
          · exact hrest d hd
      · exact numeric_of_exponentPart h

theorem numeric_of_unsignedPart {l : List Char} (h : unsignedPart l = true) : Numeric l := by
  rw [unsignedPart, Bool.and_eq_true] at h
  exact (numeric_of_tailPart h.2).prepend

theorem numeric (f : FloatText) : Numeric f.text.toList := by
  have h := f.wellFormed
  cases hl : f.text.toList with
  | nil => rw [hl] at h; cases h
  | cons c rest =>
      rw [hl, isFloat] at h
      split at h
      · next hsign =>
          have hrest := numeric_of_unsignedPart h
          refine ⟨fun d hd => ?_,
            hrest.apart.imp (List.mem_cons_of_mem _) (List.mem_cons_of_mem _)⟩
          rcases List.mem_cons.mp hd with rfl | hd
          · rw [hsign]
            decide
          · exact hrest.chars d hd
      · exact numeric_of_unsignedPart h

end FloatText
