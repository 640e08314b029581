import Mathlib.Order.Lattice
import Mathlib.Data.List.Basic

/-!
# The first of the best

A scan that replaces its candidate only by a strictly better one ends at
the first of the members that no other member beats.
-/

namespace Ordered

variable {α κ : Type*} [LinearOrder κ] {score : α → κ} {xs : List α} {x y : α}

/-- Everything before the member scores less, and nothing after it scores
more. -/
def FirstBest (score : α → κ) (xs : List α) (x : α) : Prop :=
  ∃ before after, xs = before ++ x :: after ∧ (∀ y ∈ before, score y < score x)
    ∧ ∀ y ∈ after, score y ≤ score x

namespace FirstBest

theorem singleton : FirstBest score [x] x :=
  ⟨[], [], rfl, fun _ h => absurd h List.not_mem_nil, fun _ h => absurd h List.not_mem_nil⟩

theorem mem (h : FirstBest score xs x) : x ∈ xs := by
  obtain ⟨before, after, rfl, -, -⟩ := h
  exact List.mem_append_right _ (List.mem_cons_self ..)

theorem le (h : FirstBest score xs x) (hy : y ∈ xs) : score y ≤ score x := by
  obtain ⟨before, after, rfl, hbefore, hafter⟩ := h
  rcases List.mem_append.mp hy with hy | hy
  · exact le_of_lt (hbefore y hy)
  · rcases List.mem_cons.mp hy with rfl | hy
    · exact le_refl _
    · exact hafter y hy

/-- A worse member in front changes nothing. -/
theorem cons_of_lt (h : FirstBest score xs x) (hy : score y < score x) :
    FirstBest score (y :: xs) x := by
  obtain ⟨before, after, rfl, hbefore, hafter⟩ := h
  exact ⟨y :: before, after, rfl, List.forall_mem_cons.mpr ⟨hy, hbefore⟩, hafter⟩

/-- The head wins unless something in the tail beats it. -/
theorem head_of_forall_le (h : ∀ y ∈ xs, score y ≤ score x) : FirstBest score (x :: xs) x :=
  ⟨[], xs, rfl, fun _ hy => absurd hy List.not_mem_nil, h⟩

/-- The winner is the head, or it beats the head from the tail. -/
theorem cons_cases (h : FirstBest score (y :: xs) x) :
    (x = y ∧ ∀ z ∈ xs, score z ≤ score y) ∨ (FirstBest score xs x ∧ score y < score x) := by
  obtain ⟨before, after, hsplit, hbefore, hafter⟩ := h
  cases before with
  | nil =>
      obtain ⟨rfl, rfl⟩ := List.cons.inj hsplit
      exact .inl ⟨rfl, hafter⟩
  | cons b before =>
      obtain ⟨rfl, rfl⟩ := List.cons.inj hsplit
      obtain ⟨hy, hrest⟩ := List.forall_mem_cons.mp hbefore
      exact .inr ⟨⟨before, after, rfl, hrest, hafter⟩, hy⟩

/-- A second member that does not beat the first can be passed over. -/
theorem insert {a b : α} (h : FirstBest score (a :: xs) x) (hb : score b ≤ score a) :
    FirstBest score (a :: b :: xs) x := by
  rcases h.cons_cases with ⟨rfl, hxs⟩ | ⟨hx, ha⟩
  · exact head_of_forall_le (List.forall_mem_cons.mpr ⟨hb, hxs⟩)
  · exact (hx.cons_of_lt (lt_of_le_of_lt hb ha)).cons_of_lt ha

end FirstBest

end Ordered
