import Mathlib.Data.List.Nodup

/-!
# Recency

A log of uses orders the keys it names: one key was last used before
another when the log splits into a part with every use of the first and
a part with a use of the second. A list kept by moving a key to its end
at each use is in that order, and so is any part of it.
-/

namespace Recency

variable {α : Type}

/-- The last use of `a` comes before the last use of `b`. -/
def LastUsedBefore (uses : List α) (a b : α) : Prop :=
  ∃ early late, uses = early ++ late ∧ a ∉ late ∧ b ∈ late

/-- The list names used keys, from the least to the most recently used. -/
structure InRecencyOrder (uses order : List α) : Prop where
  used : ∀ a ∈ order, a ∈ uses
  sorted : order.Pairwise (LastUsedBefore uses)

theorem LastUsedBefore.append {uses : List α} {a b : α} (h : LastUsedBefore uses a b)
    {later : List α} (ha : a ∉ later) : LastUsedBefore (uses ++ later) a b := by
  obtain ⟨early, late, rfl, halate, hb⟩ := h
  refine ⟨early, late ++ later, (List.append_assoc ..), ?_, List.mem_append_left _ hb⟩
  rw [List.mem_append, not_or]
  exact ⟨halate, ha⟩

/-- A use that is logged now comes after every use of another key. -/
theorem lastUsedBefore_append_singleton {uses : List α} {a b : α} (h : a ≠ b) :
    LastUsedBefore (uses ++ [b]) a b :=
  ⟨uses, [b], rfl, by simpa using h, List.mem_singleton_self b⟩

namespace InRecencyOrder

theorem nil (uses : List α) : InRecencyOrder uses [] :=
  ⟨fun _ h => absurd h List.not_mem_nil, .nil⟩

theorem sublist {uses order order' : List α} (h : InRecencyOrder uses order)
    (hsub : order'.Sublist order) : InRecencyOrder uses order' :=
  ⟨fun a ha => h.used a (hsub.subset ha), h.sorted.sublist hsub⟩

/-- Logging the use of a key that is not listed, and listing it last. -/
theorem append {uses order : List α} (h : InRecencyOrder uses order) {a : α} (ha : a ∉ order) :
    InRecencyOrder (uses ++ [a]) (order ++ [a]) := by
  have hne : ∀ b ∈ order, b ≠ a := fun b hb hba => ha (hba ▸ hb)
  refine ⟨?_, List.pairwise_append.mpr ⟨?_, List.pairwise_singleton _ _, ?_⟩⟩
  · intro b hb
    rw [List.mem_append] at hb ⊢
    exact hb.imp (h.used b) id
  · refine h.sorted.imp_of_mem fun {b c} hb _ hbc => hbc.append ?_
    rw [List.mem_singleton]
    exact hne b hb
  · intro b hb c hc
    obtain rfl := List.mem_singleton.mp hc
    exact lastUsedBefore_append_singleton (hne b hb)

/-- Logging the use of a listed key, and moving it to the end. -/
theorem touch [DecidableEq α] {uses order : List α} (h : InRecencyOrder uses order)
    (hnodup : order.Nodup) (a : α) : InRecencyOrder (uses ++ [a]) (order.erase a ++ [a]) :=
  (h.sublist List.erase_sublist).append hnodup.not_mem_erase

/-- A listed key was last used before the keys listed after it. -/
theorem of_split {uses early late : List α} {a b : α}
    (h : InRecencyOrder uses (early ++ a :: late)) (hb : b ∈ late) :
    LastUsedBefore uses a b := by
  have htail := (List.pairwise_append.mp h.sorted).2.1
  exact (List.pairwise_cons.mp htail).1 b hb

end InRecencyOrder

end Recency
