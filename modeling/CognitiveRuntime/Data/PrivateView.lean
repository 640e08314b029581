import Mathlib.Data.List.Basic

/-!
# Private views of a shared system

A system answers the calls of many parties from one state. A party has a
private view of it when some machine, given that party's calls alone,
makes the same replies. Two conditions on single steps are enough, and
`View.ownReplies_eq` is the induction over a run that joins them: a step
of someone else leaves what the party sees as it was, and a step of its
own moves both sides alike.
-/

namespace PrivateView

variable {S A C R : Type}

/-- A run of a system: its calls, each with the reply it got. -/
inductive Trace (step : S → C → S → R → Prop) : S → List (C × R) → S → Prop
  | nil (s : S) : Trace step s [] s
  | cons {s s' s'' : S} {c : C} {r : R} {t : List (C × R)} :
      step s c s' r → Trace step s' t s'' → Trace step s ((c, r) :: t) s''

/-- The replies of a machine to calls made one after the other. -/
def served (serve : A → C → A × R) : A → List C → List R
  | _, [] => []
  | a, c :: cs => (serve a c).2 :: served serve (serve a c).1 cs

section Own

variable (own : C → Bool)

def ownCalls (t : List (C × R)) : List C := (t.map Prod.fst).filter own

def ownReplies (t : List (C × R)) : List R := (t.filter fun e => own e.1).map Prod.snd

variable {own}

theorem ownCalls_cons_of_own {c : C} (h : own c = true) (r : R) (t : List (C × R)) :
    ownCalls own ((c, r) :: t) = c :: ownCalls own t :=
  List.filter_cons_of_pos h

theorem ownReplies_cons_of_own {c : C} (h : own c = true) (r : R) (t : List (C × R)) :
    ownReplies own ((c, r) :: t) = r :: ownReplies own t :=
  congrArg (List.map Prod.snd) (List.filter_cons_of_pos h)

theorem ownCalls_cons_of_other {c : C} (h : own c = false) (r : R) (t : List (C × R)) :
    ownCalls own ((c, r) :: t) = ownCalls own t :=
  List.filter_cons_of_neg (by simp [h])

theorem ownReplies_cons_of_other {c : C} (h : own c = false) (r : R) (t : List (C × R)) :
    ownReplies own ((c, r) :: t) = ownReplies own t :=
  congrArg (List.map Prod.snd) (List.filter_cons_of_neg (by simp [h]))

variable (own)

/-- A party's view of a system: its calls are served by a machine of its
own, whose states are what it sees of the system's. -/
structure View (step : S → C → S → R → Prop) (serve : A → C → A × R)
    (sees : S → A → Prop) : Prop where
  others : ∀ {s s' : S} {c : C} {r : R} {a : A}, step s c s' r → own c = false → sees s a →
    sees s' a
  self : ∀ {s s' : S} {c : C} {r : R} {a : A}, step s c s' r → own c = true → sees s a →
    (serve a c).2 = r ∧ sees s' (serve a c).1

variable {own} {step : S → C → S → R → Prop} {serve : A → C → A × R} {sees : S → A → Prop}

/-- What the party is told in a run is what its own machine tells it. -/
theorem View.ownReplies_eq (h : View own step serve sees) {s s' : S} {t : List (C × R)}
    (ht : Trace step s t s') {a : A} (hs : sees s a) :
    ownReplies own t = served serve a (ownCalls own t) := by
  induction ht generalizing a with
  | nil => rfl
  | @cons s s' s'' c r t hstep _ ih =>
      cases hown : own c with
      | false =>
          rw [ownReplies_cons_of_other hown, ownCalls_cons_of_other hown]
          exact ih (h.others hstep hown hs)
      | true =>
          obtain ⟨hreply, hsees⟩ := h.self hstep hown hs
          rw [ownReplies_cons_of_own hown, ownCalls_cons_of_own hown, served, hreply, ih hsees]

/-- Runs with the same calls of the party tell it the same, whatever the
others do. -/
theorem View.noninterference (h : View own step serve sees) {s₁ s₁' s₂ s₂' : S}
    {t₁ t₂ : List (C × R)} (h₁ : Trace step s₁ t₁ s₁') (h₂ : Trace step s₂ t₂ s₂') {a : A}
    (hs₁ : sees s₁ a) (hs₂ : sees s₂ a) (hcalls : ownCalls own t₁ = ownCalls own t₂) :
    ownReplies own t₁ = ownReplies own t₂ := by
  rw [h.ownReplies_eq h₁ hs₁, h.ownReplies_eq h₂ hs₂, hcalls]

end Own

end PrivateView
