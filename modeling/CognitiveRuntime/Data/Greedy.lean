import Mathlib.Data.List.Basic

/-!
# Greedy walks

A greedy walk takes the members of a list in order for as long as each
one fits after those before it. What it takes is the longest prefix whose
members all fit, and there is only one.
-/

namespace Greedy

variable {α : Type*}

/-- The longest prefix of a list whose every member fits after the ones
before it. -/
structure LongestFit (fits : List α → α → Prop) (xs taken : List α) : Prop where
  begins : taken <+: xs
  fit : ∀ first x, first ++ [x] <+: taken → fits first x
  stops : ∀ x, taken ++ [x] <+: xs → ¬fits taken x

variable {fits : List α → α → Prop} {xs taken taken' : List α} {x : α}

theorem concat_prefix_cons {y : α} {first ys : List α} (h : first ++ [x] <+: y :: ys) :
    (first = [] ∧ x = y) ∨ ∃ first', first = y :: first' ∧ first' ++ [x] <+: ys := by
  cases first with
  | nil =>
      obtain ⟨hxy, -⟩ := List.cons_prefix_cons.mp h
      exact .inl ⟨rfl, hxy⟩
  | cons z first' =>
      obtain ⟨rfl, hrest⟩ := List.cons_prefix_cons.mp h
      exact .inr ⟨first', rfl, hrest⟩

namespace LongestFit

theorem nil : LongestFit fits [] ([] : List α) where
  begins := List.nil_prefix
  fit first x h := absurd h.length_le (by simp)
  stops x h := absurd h.length_le (by simp)

/-- A first member that does not fit ends the walk at once. -/
theorem blocked (h : ¬fits [] x) : LongestFit fits (x :: xs) [] where
  begins := List.nil_prefix
  fit first y h := absurd h.length_le (by simp)
  stops y hy := by
    obtain ⟨rfl, -⟩ := List.cons_prefix_cons.mp hy
    exact h

theorem cons (hx : fits [] x) (h : LongestFit (fun first => fits (x :: first)) xs taken) :
    LongestFit fits (x :: xs) (x :: taken) where
  begins := List.cons_prefix_cons.mpr ⟨rfl, h.begins⟩
  fit first y hy := by
    obtain ⟨rfl, rfl⟩ | ⟨first', rfl, hrest⟩ := concat_prefix_cons hy
    · exact hx
    · exact h.fit first' y hrest
  stops y hy := h.stops y (List.cons_prefix_cons.mp hy).2

theorem tail (h : LongestFit fits (x :: xs) (x :: taken)) :
    LongestFit (fun first => fits (x :: first)) xs taken where
  begins := (List.cons_prefix_cons.mp h.begins).2
  fit first y hy := h.fit (x :: first) y (List.cons_prefix_cons.mpr ⟨rfl, hy⟩)
  stops y hy := h.stops y (List.cons_prefix_cons.mpr ⟨rfl, hy⟩)

/-- The walk says where it ends. -/
theorem unique : ∀ {xs taken taken' : List α} {fits : List α → α → Prop},
    LongestFit fits xs taken → LongestFit fits xs taken' → taken = taken'
  | _, [], [], _, _, _ => rfl
  | _, [], y :: taken', _, h, h' => by
      have hfirst : [y] <+: y :: taken' := List.cons_prefix_cons.mpr ⟨rfl, List.nil_prefix⟩
      exact absurd (h'.fit [] y hfirst) (h.stops y (hfirst.trans h'.begins))
  | _, y :: taken, [], _, h, h' => by
      have hfirst : [y] <+: y :: taken := List.cons_prefix_cons.mpr ⟨rfl, List.nil_prefix⟩
      exact absurd (h.fit [] y hfirst) (h'.stops y (hfirst.trans h.begins))
  | [], y :: taken, _, _, h, _ => absurd h.begins.length_le (by simp)
  | z :: xs, y :: taken, y' :: taken', fits, h, h' => by
      obtain ⟨rfl, -⟩ := List.cons_prefix_cons.mp h.begins
      obtain ⟨rfl, -⟩ := List.cons_prefix_cons.mp h'.begins
      rw [unique h.tail h'.tail]

/-- Only what fits after a prefix of the list matters. -/
theorem congr {fits' : List α → α → Prop} (h : LongestFit fits xs taken)
    (hfits : ∀ first x, first ++ [x] <+: xs → (fits first x ↔ fits' first x)) :
    LongestFit fits' xs taken where
  begins := h.begins
  fit first x hx := (hfits first x (hx.trans h.begins)).mp (h.fit first x hx)
  stops x hx hfit := h.stops x hx ((hfits taken x hx).mpr hfit)

/-- A walk either takes everything or is stopped by the next member. -/
theorem ends (h : LongestFit fits xs taken) :
    taken = xs ∨ ∃ x after, xs = taken ++ x :: after ∧ ¬fits taken x := by
  obtain ⟨rest, rfl⟩ := h.begins
  cases rest with
  | nil => exact .inl (List.append_nil _).symm
  | cons x after =>
      refine .inr ⟨x, after, rfl, h.stops x ⟨after, ?_⟩⟩
      rw [List.append_assoc, List.singleton_append]

end LongestFit

end Greedy
