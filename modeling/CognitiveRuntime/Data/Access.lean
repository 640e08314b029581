import Mathlib.Control.Monad.Basic

/-!
# Programs over a changing environment

A program that looks at an environment others may change in the meantime.
The environment is one state for each access, so two accesses have
nothing in common but what the two states have. A run starts at some
access and gives its result with the number of the next one.
-/

/-- A computation that looks at the environment in turn and may fail. -/
abbrev Access (ε α : Type) := StateT Nat (Except ε) α

namespace Access

variable {ε σ α β : Type}

/-- Look something up. -/
def ask (env : Nat → σ) (f : σ → α) : Access ε α := fun t => .ok (f (env t), t + 1)

/-- Look something up that may be refused. -/
def demand (env : Nat → σ) (f : σ → Option α) (error : ε) : Access ε α := fun t =>
  match f (env t) with
  | some a => .ok (a, t + 1)
  | none => .error error

def raise (error : ε) : Access ε α := fun _ => .error error

/-- Fail unless the condition holds. -/
def check (cond : Bool) (error : ε) : Access ε Unit := if cond then pure () else raise error

/-- The value of an option, or the error. -/
def found (value : Option α) (error : ε) : Access ε α :=
  match value with
  | some a => pure a
  | none => raise error

/-- The same computation with its error in another vocabulary. -/
def mapError {ε' : Type} (f : ε → ε') (x : Access ε α) : Access ε' α := fun t =>
  match x t with
  | .ok p => .ok p
  | .error e => .error (f e)

/-- A computation without any access. -/
def lift (x : Except ε α) : Access ε α := fun t =>
  match x with
  | .ok a => .ok (a, t)
  | .error e => .error e

variable {t u : Nat}

@[simp] theorem bind_eq_ok {x : Access ε α} {f : α → Access ε β} {b : β} :
    (x >>= f) t = .ok (b, u) ↔ ∃ a s, x t = .ok (a, s) ∧ f a s = .ok (b, u) := by
  have hbind : (x >>= f) t = x t >>= fun p => f p.1 p.2 := rfl
  rw [hbind]
  cases x t with
  | error e =>
      constructor
      · intro h
        cases h
      · rintro ⟨a, s, h, -⟩
        cases h
  | ok p =>
      obtain ⟨a, s⟩ := p
      constructor
      · intro h
        exact ⟨a, s, rfl, h⟩
      · rintro ⟨a', s', h, h'⟩
        cases h
        exact h'

@[simp] theorem pure_eq_ok {a b : α} : (pure a : Access ε α) t = .ok (b, u) ↔ a = b ∧ t = u := by
  have hpure : (pure a : Access ε α) t = .ok (a, t) := rfl
  rw [hpure, Except.ok.injEq, Prod.mk.injEq]

@[simp] theorem raise_eq_ok {error : ε} {b : α} :
    (raise error : Access ε α) t = .ok (b, u) ↔ False := by
  constructor
  · intro h
    cases h
  · exact False.elim

@[simp] theorem ask_eq_ok {env : Nat → σ} {f : σ → α} {a : α} :
    (ask env f : Access ε α) t = .ok (a, u) ↔ f (env t) = a ∧ t + 1 = u := by
  rw [ask, Except.ok.injEq, Prod.mk.injEq]

@[simp] theorem demand_eq_ok {env : Nat → σ} {f : σ → Option α} {error : ε} {a : α} :
    demand env f error t = .ok (a, u) ↔ f (env t) = some a ∧ t + 1 = u := by
  unfold demand
  cases f (env t) <;> simp

@[simp] theorem check_eq_ok {cond : Bool} {error : ε} {v : Unit} :
    check cond error t = .ok (v, u) ↔ cond = true ∧ t = u := by
  cases cond <;> simp [check]

@[simp] theorem found_eq_ok {value : Option α} {error : ε} {a : α} :
    found value error t = .ok (a, u) ↔ value = some a ∧ t = u := by
  cases value <;> simp [found]

@[simp] theorem mapError_eq_ok {ε' : Type} {f : ε → ε'} {x : Access ε α} {a : α} :
    mapError f x t = .ok (a, u) ↔ x t = .ok (a, u) := by
  unfold mapError
  cases x t <;> simp

@[simp] theorem lift_eq_ok {x : Except ε α} {a : α} :
    lift x t = .ok (a, u) ↔ x = .ok a ∧ t = u := by
  cases x <;> simp [lift]

end Access
