import Mathlib.Data.List.Nodup

/-!
# The classes of an equivalence, assigned in one pass

A pass over the nodes opens a class at each node that has none yet: all
nodes related to it. The invariant is that the nodes assigned so far are
whole classes (`Whole`), so that the next class shares no node with them.
-/

namespace Classes

variable {α : Type*} [DecidableEq α]

section Pass

variable (r : α → α → Prop) [DecidableRel r] (nodes : List α)

/-- The nodes related to one of them. -/
def classOf (a : α) : List α := nodes.filter fun b => r a b

/-- The pass over the nodes left, with those that have a class. -/
def classesFrom : List α → List α → List (List α)
  | [], _ => []
  | a :: rest, assigned =>
    if a ∈ assigned then classesFrom rest assigned
    else classOf r nodes a :: classesFrom rest (classOf r nodes a ++ assigned)

def classes : List (List α) := classesFrom r nodes nodes []

/-- An equivalence, reflexive on the nodes. -/
structure EquivalenceOn : Prop where
  refl : ∀ a ∈ nodes, r a a
  symm : ∀ {a b}, r a b → r b a
  trans : ∀ {a b c}, r a b → r b c → r a c

/-- Nodes that are assigned with all they are related to. -/
def Whole (assigned : List α) : Prop := ∀ a ∈ assigned, ∀ b ∈ nodes, r a b → b ∈ assigned

end Pass

variable {r : α → α → Prop} [DecidableRel r] {nodes : List α} {a b : α}

omit [DecidableEq α] in
@[simp] theorem mem_classOf : b ∈ classOf r nodes a ↔ b ∈ nodes ∧ r a b := by
  rw [classOf, List.mem_filter, decide_eq_true_eq]

omit [DecidableEq α] in
theorem Whole.append_classOf (h : EquivalenceOn r nodes) {assigned : List α}
    (hwhole : Whole r nodes assigned) : Whole r nodes (classOf r nodes a ++ assigned) := by
  intro x hx b hb hxb
  rcases List.mem_append.mp hx with hx | hx
  · exact List.mem_append_left _ (mem_classOf.mpr ⟨hb, h.trans (mem_classOf.mp hx).2 hxb⟩)
  · exact List.mem_append_right _ (hwhole x hx b hb hxb)

omit [DecidableEq α] in
/-- The class of a node without one shares nothing with whole classes. -/
theorem Whole.fresh (h : EquivalenceOn r nodes) {assigned : List α}
    (hwhole : Whole r nodes assigned) (ha : a ∈ nodes) (hnone : a ∉ assigned)
    (hb : b ∈ classOf r nodes a) : b ∉ assigned := fun hassigned =>
  hnone (hwhole b hassigned a ha (h.symm (mem_classOf.mp hb).2))

theorem exists_of_mem_classesFrom {c : List α} :
    ∀ {work assigned : List α}, c ∈ classesFrom r nodes work assigned →
      ∃ a ∈ work, c = classOf r nodes a
  | x :: rest, assigned, hc => by
      rw [classesFrom] at hc
      split at hc
      · obtain ⟨a, ha, rfl⟩ := exists_of_mem_classesFrom hc
        exact ⟨a, List.mem_cons_of_mem _ ha, rfl⟩
      · rcases List.mem_cons.mp hc with rfl | hc
        · exact ⟨x, List.mem_cons_self, rfl⟩
        · obtain ⟨a, ha, rfl⟩ := exists_of_mem_classesFrom hc
          exact ⟨a, List.mem_cons_of_mem _ ha, rfl⟩

theorem ne_nil_of_mem_classes (h : EquivalenceOn r nodes) {c : List α}
    (hc : c ∈ classes r nodes) : c ≠ [] := by
  obtain ⟨a, ha, rfl⟩ := exists_of_mem_classesFrom hc
  exact List.ne_nil_of_mem (mem_classOf.mpr ⟨ha, h.refl a ha⟩)

/-- Every node passed has a class. -/
theorem covered (h : EquivalenceOn r nodes) :
    ∀ {work : List α} (assigned : List α), (∀ x ∈ work, x ∈ nodes) → a ∈ work →
      a ∈ (classesFrom r nodes work assigned).flatten ∨ a ∈ assigned
  | x :: rest, assigned, hwork, ha => by
      have hrest : ∀ y ∈ rest, y ∈ nodes := fun y hy => hwork y (List.mem_cons_of_mem _ hy)
      rw [classesFrom]
      split
      · next hassigned =>
        rcases List.mem_cons.mp ha with rfl | ha
        · exact .inr hassigned
        · exact covered h _ hrest ha
      · rw [List.flatten_cons]
        rcases List.mem_cons.mp ha with rfl | ha
        · have hself := hwork a List.mem_cons_self
          exact .inl (List.mem_append_left _ (mem_classOf.mpr ⟨hself, h.refl a hself⟩))
        · rcases covered h (classOf r nodes x ++ assigned) hrest ha with hin | hin
          · exact .inl (List.mem_append_right _ hin)
          · exact (List.mem_append.mp hin).imp_left (List.mem_append_left _)

/-- No node is in two classes, nor in one of those assigned before. -/
theorem nodup_flatten_classesFrom (h : EquivalenceOn r nodes) (hnodup : nodes.Nodup) :
    ∀ {work assigned : List α}, (∀ x ∈ work, x ∈ nodes) → Whole r nodes assigned →
      (classesFrom r nodes work assigned).flatten.Nodup
        ∧ ∀ b ∈ (classesFrom r nodes work assigned).flatten, b ∉ assigned
  | [], _, _, _ => ⟨List.nodup_nil, fun _ hb => absurd hb List.not_mem_nil⟩
  | x :: rest, assigned, hwork, hwhole => by
      have hrest : ∀ y ∈ rest, y ∈ nodes := fun y hy => hwork y (List.mem_cons_of_mem _ hy)
      rw [classesFrom]
      split
      · exact nodup_flatten_classesFrom h hnodup hrest hwhole
      · next hnone =>
        obtain ⟨hothers, hapart⟩ :=
          nodup_flatten_classesFrom h hnodup hrest (hwhole.append_classOf h (a := x))
        rw [List.flatten_cons]
        constructor
        · refine List.nodup_append'.mpr ⟨hnodup.filter _, hothers, fun b hb hin => ?_⟩
          exact hapart b hin (List.mem_append_left _ hb)
        · intro b hb
          rcases List.mem_append.mp hb with hb | hb
          · exact hwhole.fresh h (hwork x List.mem_cons_self) hnone hb
          · exact fun hassigned => hapart b hb (List.mem_append_right _ hassigned)

theorem mem_flatten_classes (h : EquivalenceOn r nodes) :
    a ∈ (classes r nodes).flatten ↔ a ∈ nodes := by
  constructor
  · intro ha
    obtain ⟨c, hc, ha⟩ := List.mem_flatten.mp ha
    obtain ⟨x, -, rfl⟩ := exists_of_mem_classesFrom hc
    exact (mem_classOf.mp ha).1
  · intro ha
    exact (covered h [] (fun _ hx => hx) ha).resolve_right List.not_mem_nil

theorem nodup_flatten_classes (h : EquivalenceOn r nodes) (hnodup : nodes.Nodup) :
    (classes r nodes).flatten.Nodup :=
  (nodup_flatten_classesFrom h hnodup (fun _ hx => hx)
    fun _ ha => absurd ha List.not_mem_nil).1

/-- A class is what any of its nodes is related to. -/
theorem mem_class_iff (h : EquivalenceOn r nodes) {c : List α} (hc : c ∈ classes r nodes)
    (ha : a ∈ c) : b ∈ c ↔ b ∈ nodes ∧ r a b := by
  obtain ⟨x, -, rfl⟩ := exists_of_mem_classesFrom hc
  have hxa := (mem_classOf.mp ha).2
  rw [mem_classOf]
  exact and_congr_right fun _ => ⟨h.trans (h.symm hxa), h.trans hxa⟩

/-- Two nodes share a class exactly where they are related. -/
theorem share_class_iff (h : EquivalenceOn r nodes) :
    (∃ c ∈ classes r nodes, a ∈ c ∧ b ∈ c) ↔ a ∈ nodes ∧ b ∈ nodes ∧ r a b := by
  constructor
  · rintro ⟨c, hc, ha, hb⟩
    have hin := (mem_flatten_classes h).mp (List.mem_flatten.mpr ⟨c, hc, ha⟩)
    exact ⟨hin, (mem_class_iff h hc ha).mp hb⟩
  · rintro ⟨ha, hb⟩
    obtain ⟨c, hc, hac⟩ := List.mem_flatten.mp ((mem_flatten_classes h).mpr ha)
    exact ⟨c, hc, hac, (mem_class_iff h hc hac).mpr hb⟩

theorem classes_congr {r' : α → α → Prop} [DecidableRel r'] (h : ∀ a b, r a b ↔ r' a b) :
    classes r nodes = classes r' nodes := by
  have hclass : ∀ a, classOf r nodes a = classOf r' nodes a := fun a =>
    List.filter_congr fun b _ => decide_eq_decide.mpr (h a b)
  have hfrom : ∀ work assigned,
      classesFrom r nodes work assigned = classesFrom r' nodes work assigned := by
    intro work
    induction work with
    | nil => exact fun _ => rfl
    | cons a rest ih =>
        intro assigned
        rw [classesFrom, classesFrom, hclass, ih, ih]
  exact hfrom nodes []

end Classes
