import Mathlib.Logic.Basic
import Mathlib.Data.List.Forall2

/-!
# Fallible steps

Checks and lookups that either pass or fail with an error, and what it
means for a sequence of them to succeed. A sequence succeeds exactly
when each step succeeds, so a run is taken apart by rewriting with
`bind_eq_ok` and the step lemmas.
-/

namespace Fallible

variable {ε α β : Type}

/-- Fail unless the condition holds. -/
def ensure (cond : Bool) (error : ε) : Except ε Unit :=
  if cond then .ok () else .error error

/-- The value of an option, or the error. -/
def require (value : Option α) (error : ε) : Except ε α :=
  match value with
  | some a => .ok a
  | none => .error error

@[simp] theorem bind_eq_ok {x : Except ε α} {f : α → Except ε β} {b : β} :
    x >>= f = .ok b ↔ ∃ a, x = .ok a ∧ f a = .ok b := by
  cases x with
  | error e =>
      constructor
      · intro h
        cases h
      · rintro ⟨a, h, -⟩
        cases h
  | ok a =>
      constructor
      · intro h
        exact ⟨a, rfl, h⟩
      · rintro ⟨a', h, h'⟩
        cases h
        exact h'

@[simp] theorem ensure_eq_ok {cond : Bool} {error : ε} {u : Unit} :
    ensure cond error = .ok u ↔ cond = true := by
  unfold ensure
  cases cond <;> simp

@[simp] theorem require_eq_ok {value : Option α} {error : ε} {a : α} :
    require value error = .ok a ↔ value = some a := by
  cases value <;> simp [require]

/-- Errors are renamed, results are kept. -/
theorem mapError_eq_ok {ε' : Type} {f : ε → ε'} {x : Except ε α} {a : α} :
    x.mapError f = .ok a ↔ x = .ok a := by
  cases x <;> simp [Except.mapError]

theorem mapError_bind {ε' : Type} (g : ε → ε') (x : Except ε α) (f : α → Except ε β) :
    (x >>= f).mapError g = x.mapError g >>= fun a => (f a).mapError g := by
  cases x <;> rfl

theorem mapError_ensure {ε' : Type} (g : ε → ε') (cond : Bool) (error : ε) :
    (ensure cond error).mapError g = ensure cond (g error) := by
  cases cond <;> rfl

theorem mapError_require {ε' : Type} (g : ε → ε') (value : Option α) (error : ε) :
    (require value error).mapError g = require value (g error) := by
  cases value <;> rfl

theorem ensure_true (error : ε) : ensure true error = .ok () := rfl

theorem require_some (a : α) (error : ε) : require (some a) error = .ok a := rfl

/-- A check that fails decides the run, whatever comes after it. -/
theorem ensure_bind_of_not {cond : Bool} {error : ε} {f : Unit → Except ε β}
    (h : cond = false) : ensure cond error >>= f = .error error := by
  subst h
  rfl

theorem ok_bind (a : α) (f : α → Except ε β) : (Except.ok a : Except ε α) >>= f = f a := rfl

theorem error_bind (e : ε) (f : α → Except ε β) :
    (Except.error e : Except ε α) >>= f = .error e := rfl

/-- Run a check over a list, stopping at the first failure. -/
def checkEach (check : α → Except ε Unit) : List α → Except ε Unit
  | [] => .ok ()
  | a :: rest => check a >>= fun _ => checkEach check rest

@[simp] theorem checkEach_eq_ok {check : α → Except ε Unit} {l : List α} {u : Unit} :
    checkEach check l = .ok u ↔ ∀ a ∈ l, check a = .ok () := by
  induction l with
  | nil => simp [checkEach]
  | cons a l ih =>
      simp only [checkEach, bind_eq_ok, ih, List.forall_mem_cons]
      constructor
      · rintro ⟨_, ha, hl⟩
        exact ⟨ha, hl⟩
      · rintro ⟨ha, hl⟩
        exact ⟨(), ha, hl⟩

/-- A property each step establishes of its result holds of all results. -/
theorem mapM_forall {f : α → Except ε β} {P : β → Prop} (hf : ∀ a b, f a = .ok b → P b) :
    ∀ {l : List α} {bs : List β}, l.mapM f = .ok bs → ∀ b ∈ bs, P b
  | [], bs, h, b, hb => by
      rw [List.mapM_nil] at h
      cases h
      cases hb
  | a :: l, bs, h, b, hb => by
      rw [List.mapM_cons] at h
      simp only [bind_eq_ok] at h
      obtain ⟨b', hb', bs', hbs', h⟩ := h
      cases h
      rcases List.mem_cons.mp hb with rfl | hb
      · exact hf a b hb'
      · exact mapM_forall hf hbs' b hb

/-- A traversal succeeds with exactly the results of its steps. -/
theorem mapM_eq_ok {f : α → Except ε β} :
    ∀ {l : List α} {bs : List β},
      l.mapM f = .ok bs ↔ List.Forall₂ (fun a b => f a = .ok b) l bs
  | [], bs => by
      rw [List.mapM_nil, List.forall₂_nil_left_iff]
      constructor
      · intro h
        cases h
        rfl
      · rintro rfl
        rfl
  | a :: l, bs => by
      rw [List.mapM_cons]
      simp only [bind_eq_ok, List.forall₂_cons_left_iff]
      constructor
      · rintro ⟨b, hb, bs', hbs', h⟩
        cases h
        exact ⟨b, bs', hb, mapM_eq_ok.mp hbs', rfl⟩
      · rintro ⟨b, bs', hb, hbs', rfl⟩
        exact ⟨b, hb, bs', mapM_eq_ok.mpr hbs', rfl⟩

theorem exists_of_mapM {f : α → Except ε β} {l : List α} {bs : List β}
    (h : l.mapM f = .ok bs) {b : β} (hb : b ∈ bs) : ∃ a ∈ l, f a = .ok b := by
  have hall := mapM_eq_ok.mp h
  induction hall with
  | nil => cases hb
  | cons hstep htail ih =>
      rcases List.mem_cons.mp hb with rfl | hb
      · exact ⟨_, List.mem_cons_self .., hstep⟩
      · obtain ⟨a, ha, hab⟩ := ih (mapM_eq_ok.mpr htail) hb
        exact ⟨a, List.mem_cons_of_mem _ ha, hab⟩

theorem exists_result_of_mapM {f : α → Except ε β} {l : List α} {bs : List β}
    (h : l.mapM f = .ok bs) {a : α} (ha : a ∈ l) : ∃ b, f a = .ok b := by
  have hall := mapM_eq_ok.mp h
  induction hall with
  | nil => cases ha
  | cons hstep htail ih =>
      rcases List.mem_cons.mp ha with rfl | ha
      · exact ⟨_, hstep⟩
      · exact ih (mapM_eq_ok.mpr htail) ha

/-- A traversal of steps that all succeed succeeds. -/
theorem mapM_ok_of_forall {f : α → Except ε β} {l : List α}
    (h : ∀ a ∈ l, ∃ b, f a = .ok b) : ∃ bs, l.mapM f = .ok bs := by
  induction l with
  | nil => exact ⟨[], mapM_eq_ok.mpr .nil⟩
  | cons a l ih =>
      obtain ⟨b, hb⟩ := h a (List.mem_cons_self ..)
      obtain ⟨bs, hbs⟩ := ih fun a' ha' => h a' (List.mem_cons_of_mem _ ha')
      exact ⟨b :: bs, mapM_eq_ok.mpr (.cons hb (mapM_eq_ok.mp hbs))⟩

/-! ## Runs that agree -/

/-- Runs that fail with one error, or succeed with related results. -/
inductive Agree (R : α → β → Prop) : Except ε α → Except ε β → Prop where
  | ok {a : α} {b : β} (h : R a b) : Agree R (.ok a) (.ok b)
  | error (e : ε) : Agree R (.error e) (.error e)

namespace Agree

variable {γ δ : Type} {R : α → β → Prop} {S : γ → δ → Prop} {x : Except ε α} {y : Except ε β}

/-- Related results go on alike. -/
theorem bind (h : Agree R x y) {f : α → Except ε γ} {g : β → Except ε δ}
    (hfg : ∀ a b, R a b → Agree S (f a) (g b)) : Agree S (x >>= f) (y >>= g) := by
  cases h with
  | ok hab => exact hfg _ _ hab
  | error e => exact .error e

/-- Runs that take a step in common go on alike. -/
theorem bind_same {x : Except ε α} {f : α → Except ε γ} {g : α → Except ε δ}
    (hfg : ∀ a, Agree S (f a) (g a)) : Agree S (x >>= f) (x >>= g) := by
  cases x with
  | error e => exact .error e
  | ok a => exact hfg a

/-- A value and its image are there together. -/
theorem require_map (value : Option α) (f : α → β) (error : ε) :
    Agree (fun a b => b = f a) (require value error) (require (value.map f) error) := by
  cases value with
  | none => exact .error error
  | some a => exact .ok rfl

theorem mapError {ε' : Type} (h : Agree R x y) (f : ε → ε') :
    Agree R (x.mapError f) (y.mapError f) := by
  cases h with
  | ok hab => exact .ok hab
  | error e => exact .error (f e)

/-- Related results with one outcome make the runs equal. -/
theorem bind_eq (h : Agree R x y) {f : α → Except ε γ} {g : β → Except ε γ}
    (hfg : ∀ a b, R a b → f a = g b) : x >>= f = y >>= g := by
  cases h with
  | ok hab => exact hfg _ _ hab
  | error e => rfl

/-- What else is known of the results of two runs that agree. -/
theorem imp {S : α → β → Prop} (h : Agree R x y)
    (himp : ∀ a b, x = .ok a → y = .ok b → R a b → S a b) : Agree S x y := by
  cases h with
  | ok hab => exact .ok (himp _ _ rfl rfl hab)
  | error e => exact .error e

theorem exists_ok (h : Agree R x y) {a : α} (hx : x = .ok a) : ∃ b, y = .ok b ∧ R a b := by
  subst hx
  cases h with
  | ok hab => exact ⟨_, rfl, hab⟩

end Agree

end Fallible
