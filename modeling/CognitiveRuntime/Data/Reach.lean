import Mathlib.Data.Set.Finite.Basic
import Mathlib.Logic.Relation
import Mathlib.Order.WellFoundedSet
import Mathlib.Data.List.Basic
import Mathlib.Algebra.BigOperators.Group.List.Basic
import Mathlib.Algebra.GroupWithZero.Nat

/-!
# Worklist reachability and the acyclic remainder of a finite graph

A graph is a successor function `adj : α → List α`. The worklist loop
pops a node, skips it when it was seen, and otherwise pushes its
successors, in any order. `Pass` is one turn of it: no run goes on for
ever (`pass_wellFounded`), and a run that ends has seen exactly the nodes
one or more edges away from the start (`Explored.mem_seen`). `reach` is
the end of one such run.

A node is *off-cycle* when no non-empty path leads from it to itself.
On a finite graph the off-cycle nodes carry an induction principle: to
prove a property of every off-cycle node it is enough to derive it from
the property of its off-cycle predecessors (`offCycle_induction`).
-/

namespace Reach

open Relation

variable {α : Type*}

/-- One edge of the graph. -/
def Edge (adj : α → List α) (a b : α) : Prop := b ∈ adj a

/-! ## The worklist loop -/

section Loop

variable [DecidableEq α] (adj : α → List α)

/-- The worklist loop: pop, skip if seen, else push the successors. -/
def loop : Nat → List α → List α → List α
  | 0, _, seen => seen
  | _ + 1, [], seen => seen
  | fuel + 1, current :: stack, seen =>
    if current ∈ seen then loop fuel stack seen
    else loop fuel (adj current ++ stack) (current :: seen)

/-- Successor slots of the listed nodes that were not seen yet. -/
def pending (nodes seen : List α) : Nat :=
  ((nodes.filter (· ∉ seen)).map fun n => (adj n).length).sum

/-- Everything reachable from `start` by one or more edges, for a graph
whose nodes with successors are listed in `nodes`. -/
def reach (nodes : List α) (start : α) : List α :=
  loop adj ((adj start).length + pending adj nodes []) (adj start) []

/-- Seeing more nodes never adds pending slots. -/
theorem pending_le {seen seen' : List α} (h : ∀ x ∈ seen, x ∈ seen') :
    ∀ nodes : List α, pending adj nodes seen' ≤ pending adj nodes seen
  | [] => le_refl _
  | n :: rest => by
      have ih := pending_le h rest
      unfold pending at ih ⊢
      by_cases hs' : n ∈ seen'
      · rw [List.filter_cons_of_neg (by simpa using hs')]
        by_cases hs : n ∈ seen
        · rwa [List.filter_cons_of_neg (by simpa using hs)]
        · rw [List.filter_cons_of_pos (by simpa using hs), List.map_cons, List.sum_cons]
          omega
      · have hs : n ∉ seen := fun hs => hs' (h n hs)
        rw [List.filter_cons_of_pos (by simpa using hs'),
          List.filter_cons_of_pos (by simpa using hs), List.map_cons, List.map_cons,
          List.sum_cons, List.sum_cons]
        omega

/-- Seeing a node for the first time pays for its successors. -/
theorem pending_cons_le {seen : List α} {a : α} (ha : a ∉ seen) :
    ∀ {nodes : List α}, a ∈ nodes →
      (adj a).length + pending adj nodes (a :: seen) ≤ pending adj nodes seen
  | n :: rest, hmem => by
      by_cases hn : n = a
      · subst hn
        have := pending_le adj (fun x (hx : x ∈ seen) => List.mem_cons_of_mem n hx) rest
        unfold pending at this ⊢
        rw [List.filter_cons_of_neg (by simp), List.filter_cons_of_pos (by simpa using ha),
          List.map_cons, List.sum_cons]
        omega
      · have ih := pending_cons_le ha ((List.mem_cons.mp hmem).resolve_left (Ne.symm hn))
        unfold pending at ih ⊢
        by_cases hs : n ∈ seen
        · rwa [List.filter_cons_of_neg (by simp [hs]), List.filter_cons_of_neg (by simp [hs])]
        · rw [List.filter_cons_of_pos (by simp [hs, hn]),
            List.filter_cons_of_pos (by simpa using hs), List.map_cons, List.map_cons,
            List.sum_cons, List.sum_cons]
          omega

theorem pending_pop {nodes seen : List α} {a : α}
    (hnodes : ∀ x, adj x ≠ [] → x ∈ nodes) (ha : a ∉ seen) :
    (adj a).length + pending adj nodes (a :: seen) ≤ pending adj nodes seen := by
  by_cases hmem : a ∈ nodes
  · exact pending_cons_le adj ha hmem
  · have hnil : adj a = [] := by
      by_contra h
      exact hmem (hnodes a h)
    rw [hnil, List.length_nil, Nat.zero_add]
    exact pending_le adj (fun x hx => List.mem_cons_of_mem a hx) nodes

end Loop

/-! ## Runs of the loop -/

/-- What the loop holds: the nodes left to look at, the next one first,
and the nodes seen. -/
structure Worklist (α : Type*) where
  stack : List α
  seen : List α

/-- One turn of the loop. The successors of a node that was not seen are
pushed in any order. -/
inductive Pass (adj : α → List α) : Worklist α → Worklist α → Prop
  | skip {current : α} {stack seen : List α} (h : current ∈ seen) :
      Pass adj ⟨current :: stack, seen⟩ ⟨stack, seen⟩
  | visit {current : α} {stack seen pushed : List α} (h : current ∉ seen)
      (hpushed : pushed.Perm (adj current)) :
      Pass adj ⟨current :: stack, seen⟩ ⟨pushed ++ stack, current :: seen⟩

/-- A run of the loop. -/
abbrev Runs (adj : α → List α) : Worklist α → Worklist α → Prop := ReflTransGen (Pass adj)

/-- Of a search from `start`: only what can be reached is listed, and
every edge out of the start or a node seen leads to a listed node. -/
structure Explored (adj : α → List α) (start : α) (w : Worklist α) : Prop where
  seen_reached : ∀ z ∈ w.seen, TransGen (Edge adj) start z
  stack_reached : ∀ z ∈ w.stack, TransGen (Edge adj) start z
  begun : ∀ z ∈ adj start, z ∈ w.seen ∨ z ∈ w.stack
  closed : ∀ x ∈ w.seen, ∀ z ∈ adj x, z ∈ w.seen ∨ z ∈ w.stack

section Runs

variable {adj : α → List α} {start : α} {w w' : Worklist α}

theorem explored_start {listing : List α} (h : listing.Perm (adj start)) :
    Explored adj start ⟨listing, []⟩ where
  seen_reached _ hz := absurd hz List.not_mem_nil
  stack_reached _ hz := .single (h.mem_iff.mp hz)
  begun _ hz := .inr (h.mem_iff.mpr hz)
  closed _ hx := absurd hx List.not_mem_nil

/-- Whatever was listed stays listed. -/
theorem Pass.listed (h : Pass adj w w') {z : α} (hz : z ∈ w.seen ∨ z ∈ w.stack) :
    z ∈ w'.seen ∨ z ∈ w'.stack := by
  cases h with
  | skip hseen =>
      refine hz.elim .inl fun hz => ?_
      rcases List.mem_cons.mp hz with rfl | hz
      · exact .inl hseen
      · exact .inr hz
  | visit _ _ =>
      refine hz.elim (fun hz => .inl (List.mem_cons_of_mem _ hz)) fun hz => ?_
      rcases List.mem_cons.mp hz with rfl | hz
      · exact .inl List.mem_cons_self
      · exact .inr (List.mem_append_right _ hz)

theorem Explored.pass (h : Explored adj start w) (hpass : Pass adj w w') :
    Explored adj start w' := by
  have hbegun : ∀ z ∈ adj start, z ∈ w'.seen ∨ z ∈ w'.stack := fun z hz =>
    hpass.listed (h.begun z hz)
  have hclosed : ∀ x ∈ w.seen, ∀ z ∈ adj x, z ∈ w'.seen ∨ z ∈ w'.stack := fun x hx z hz =>
    hpass.listed (h.closed x hx z hz)
  cases hpass with
  | skip _ =>
      exact ⟨h.seen_reached, fun z hz => h.stack_reached z (List.mem_cons_of_mem _ hz), hbegun,
        hclosed⟩
  | @visit current _ _ _ _ hpushed =>
      have hcurrent : TransGen (Edge adj) start current := h.stack_reached _ List.mem_cons_self
      refine ⟨fun z hz => ?_, fun z hz => ?_, hbegun, fun x hx z hz => ?_⟩
      · rcases List.mem_cons.mp hz with rfl | hz
        · exact hcurrent
        · exact h.seen_reached z hz
      · rcases List.mem_append.mp hz with hz | hz
        · exact hcurrent.tail (hpushed.mem_iff.mp hz)
        · exact h.stack_reached z (List.mem_cons_of_mem _ hz)
      · rcases List.mem_cons.mp hx with rfl | hx
        · exact .inr (List.mem_append_left _ (hpushed.mem_iff.mpr hz))
        · exact hclosed x hx z hz

theorem Explored.run (h : Explored adj start w) (hrun : Runs adj w w') :
    Explored adj start w' := by
  induction hrun with
  | refl => exact h
  | tail _ hpass ih => exact ih.pass hpass

/-- A search that ran dry has seen exactly what can be reached. -/
theorem Explored.mem_seen (h : Explored adj start w) (hdry : w.stack = []) {z : α} :
    z ∈ w.seen ↔ TransGen (Edge adj) start z := by
  have hlisted : ∀ {z}, z ∈ w.seen ∨ z ∈ w.stack → z ∈ w.seen := fun hz =>
    hz.resolve_right (by simp [hdry])
  refine ⟨h.seen_reached z, fun hz => ?_⟩
  induction hz with
  | single hz => exact hlisted (h.begun _ hz)
  | tail _ hz ih => exact hlisted (h.closed _ ih _ hz)

end Runs

/-! ## Termination -/

section Termination

variable [DecidableEq α] {adj : α → List α} {nodes : List α}

/-- The nodes left on the stack and those that may still be pushed. -/
def slots (adj : α → List α) (nodes : List α) (w : Worklist α) : Nat :=
  w.stack.length + pending adj nodes w.seen

/-- Every pass uses up a slot. -/
theorem Pass.slots_lt (hnodes : ∀ x, adj x ≠ [] → x ∈ nodes) {w w' : Worklist α}
    (h : Pass adj w w') : slots adj nodes w' < slots adj nodes w := by
  unfold slots
  cases h with
  | skip _ => simp
  | visit hseen hpushed =>
      have hpop := pending_pop adj hnodes hseen
      have hlength := hpushed.length_eq
      simp only [List.length_append, List.length_cons]
      omega

/-- No run of the loop goes on for ever. -/
theorem pass_wellFounded (hnodes : ∀ x, adj x ≠ [] → x ∈ nodes) :
    WellFounded fun w' w : Worklist α => Pass adj w w' :=
  (InvImage.wf (slots adj nodes) wellFounded_lt).mono fun _ _ h => h.slots_lt hnodes

/-- With a unit of fuel for every slot the loop runs until it is dry. -/
theorem runs_loop (hnodes : ∀ x, adj x ≠ [] → x ∈ nodes) :
    ∀ {fuel : Nat} {stack seen : List α}, slots adj nodes ⟨stack, seen⟩ ≤ fuel →
      Runs adj ⟨stack, seen⟩ ⟨[], loop adj fuel stack seen⟩
  | 0, [], _, _ => .refl
  | 0, _ :: _, _, h => by simp [slots] at h
  | _ + 1, [], _, _ => .refl
  | fuel + 1, current :: stack, seen, h => by
      rw [loop]
      by_cases hseen : current ∈ seen
      · have hpass : Pass adj ⟨current :: stack, seen⟩ ⟨stack, seen⟩ := .skip hseen
        have hslots := hpass.slots_lt hnodes
        rw [if_pos hseen]
        exact .head hpass (runs_loop hnodes (by omega))
      · have hpass : Pass adj ⟨current :: stack, seen⟩ ⟨adj current ++ stack, current :: seen⟩ :=
          .visit hseen (.refl _)
        have hslots := hpass.slots_lt hnodes
        rw [if_neg hseen]
        exact .head hpass (runs_loop hnodes (by omega))

/-- `reach` is what a whole run of the loop has seen. -/
theorem runs_reach (hnodes : ∀ x, adj x ≠ [] → x ∈ nodes) (start : α) :
    Runs adj ⟨adj start, []⟩ ⟨[], reach adj nodes start⟩ :=
  runs_loop hnodes (le_refl _)

theorem mem_reach (hnodes : ∀ x, adj x ≠ [] → x ∈ nodes) {start z : α} :
    z ∈ reach adj nodes start ↔ TransGen (Edge adj) start z :=
  ((explored_start (.refl _)).run (runs_reach hnodes start)).mem_seen rfl

end Termination

/-! ## The acyclic remainder -/

/-- No non-empty path leads from the node back to itself. -/
def OffCycle (E : α → α → Prop) (a : α) : Prop := ¬TransGen E a a

/-- Reachability between off-cycle nodes. -/
def Below (E : α → α → Prop) (a b : α) : Prop :=
  OffCycle E a ∧ OffCycle E b ∧ TransGen E a b

instance below_strictOrder (E : α → α → Prop) : IsStrictOrder α (Below E) where
  irrefl _ h := h.1 h.2.2
  trans _ _ _ hab hbc := ⟨hab.1, hbc.2.1, hab.2.2.trans hbc.2.2⟩

/-- Induction along the off-cycle predecessors of a finite graph. -/
theorem offCycle_induction {E : α → α → Prop} {support : Set α}
    (hfin : support.Finite) (hsrc : ∀ a b, E a b → a ∈ support)
    {P : α → Prop}
    (step : ∀ t, OffCycle E t →
      (∀ s, OffCycle E s → E s t → P s) → P t) :
    ∀ t, OffCycle E t → P t := by
  have hwf : support.WellFoundedOn (Below E) := hfin.wellFoundedOn
  have hin : ∀ t ∈ support, OffCycle E t → P t := by
    intro t ht
    refine hwf.induction (P := fun t => OffCycle E t → P t) ht fun b _ ih hb => ?_
    exact step b hb fun s hs hst => ih s (hsrc s b hst) ⟨hs, hb, .single hst⟩ hs
  intro t ht
  exact step t ht fun s hs hst => hin s (hsrc s t hst) hs

/-! ## Labelled nodes -/

section Labels

variable {β : Type*} (label : α → β) {E : α → α → Prop} {a b : α}

/-- A path changes its label along some edge, or keeps it all the way. -/
theorem crosses_or_stays (h : TransGen E a b) :
    (∃ x y, ReflTransGen E a x ∧ E x y ∧ label x ≠ label y ∧ ReflTransGen E y b)
      ∨ TransGen (fun x y => E x y ∧ label x = label y) a b := by
  induction h with
  | @single c hac =>
      by_cases heq : label a = label c
      · exact Or.inr (.single ⟨hac, heq⟩)
      · exact Or.inl ⟨a, c, .refl, hac, heq, .refl⟩
  | @tail b c hab hbc ih =>
      rcases ih with ⟨x, y, hax, hxy, hne, hyb⟩ | hstays
      · exact Or.inl ⟨x, y, hax, hxy, hne, hyb.tail hbc⟩
      · by_cases heq : label b = label c
        · exact Or.inr (hstays.tail ⟨hbc, heq⟩)
        · exact Or.inl ⟨b, c, hab.to_reflTransGen, hbc, heq, .refl⟩

theorem label_eq_of_stays (h : TransGen (fun x y => E x y ∧ label x = label y) a b) :
    label a = label b := by
  induction h with
  | single hab => exact hab.2
  | tail _ hbc ih => exact ih.trans hbc.2

/-- A path between two labels crosses from one label to another. -/
theorem crosses_of_label_ne (h : TransGen E a b) (hne : label a ≠ label b) :
    ∃ x y, ReflTransGen E a x ∧ E x y ∧ label x ≠ label y ∧ ReflTransGen E y b := by
  rcases crosses_or_stays label h with hcross | hstays
  · exact hcross
  · exact absurd (label_eq_of_stays label hstays) hne

end Labels

/-- Along a path no label falls that falls along no edge. -/
theorem label_le_of_path {β : Type*} [Preorder β] (label : α → β) {E : α → α → Prop}
    (hedge : ∀ a b, E a b → label a ≤ label b) {a b : α} (h : TransGen E a b) :
    label a ≤ label b := by
  induction h with
  | single hab => exact hedge _ _ hab
  | tail _ hbc ih => exact ih.trans (hedge _ _ hbc)

theorem transGen_congr {E E' : α → α → Prop} (h : ∀ a b, E a b ↔ E' a b) {a b : α} :
    TransGen E a b ↔ TransGen E' a b := by
  have : E = E' := funext fun a => funext fun b => propext (h a b)
  rw [this]

end Reach
