import Mathlib

/-!
# Chains of checks

A validator throws at its first failing check. `require` is one check and `found` one lookup;
a chain of them succeeds exactly when every check holds.
-/

namespace Checks

universe u

variable {ε α β : Type u}

/-- Throw `e` unless `c` holds. -/
def require (c : Prop) [Decidable c] (e : ε) : Except ε PUnit.{u + 1} :=
  if c then .ok ⟨⟩ else .error e

/-- The value, or throw `e`. -/
def found (x : Option α) (e : ε) : Except ε α :=
  match x with
  | some a => .ok a
  | none => .error e

@[simp] theorem require_eq_ok {c : Prop} [Decidable c] {e : ε} {u : PUnit.{u + 1}} :
    require c e = .ok u ↔ c := by
  unfold require
  split_ifs with h <;> simp [h]

@[simp] theorem found_eq_ok {x : Option α} {e : ε} {a : α} : found x e = .ok a ↔ x = some a := by
  cases x <;> simp [found]

@[simp] theorem bind_eq_ok {x : Except ε α} {f : α → Except ε β} {b : β} :
    (x >>= f) = .ok b ↔ ∃ a, x = .ok a ∧ f a = .ok b := by
  cases x <;> simp [bind, Except.bind]

@[simp] theorem pure_eq_ok {a b : α} : (pure a : Except ε α) = .ok b ↔ a = b := by
  simp [pure, Except.pure]

@[simp] theorem throw_ne_ok {e : ε} {a : α} : (throw e : Except ε α) = .ok a ↔ False := by
  simp [throw, throwThe, MonadExceptOf.throw]

theorem ok_bind (a : α) (f : α → Except ε β) : (Except.ok a >>= f) = f a := rfl

theorem require_of {c : Prop} [Decidable c] {e : ε} (h : c) :
    (require c e : Except ε PUnit.{u + 1}) = .ok ⟨⟩ :=
  if_pos h

theorem require_of_not {c : Prop} [Decidable c] {e : ε} (h : ¬ c) :
    (require c e : Except ε PUnit.{u + 1}) = .error e :=
  if_neg h

/-- A list of checked values: each check succeeds. -/
theorem mapM_eq_ok {f : α → Except ε β} {xs : List α} {ys : List β} :
    xs.mapM f = .ok ys ↔ List.Forall₂ (fun x y => f x = .ok y) xs ys := by
  induction xs generalizing ys with
  | nil => rw [List.mapM_nil, pure_eq_ok, List.forall₂_nil_left_iff, eq_comm]
  | cons x xs ih =>
    simp only [List.mapM_cons, bind_eq_ok, pure_eq_ok, List.forall₂_cons_left_iff, ih]
    constructor
    · rintro ⟨y, hy, ys', hys, rfl⟩
      exact ⟨y, ys', hy, hys, rfl⟩
    · rintro ⟨y, ys', hy, hys, rfl⟩
      exact ⟨y, hy, ys', hys, rfl⟩

theorem exists_mapM_eq_ok {f : α → Except ε β} {xs : List α} :
    (∃ ys, xs.mapM f = .ok ys) ↔ ∀ x ∈ xs, ∃ y, f x = .ok y := by
  induction xs with
  | nil => simp [mapM_eq_ok]
  | cons x xs ih =>
    rw [List.forall_mem_cons, ← ih]
    simp only [mapM_eq_ok, List.forall₂_cons_left_iff]
    constructor
    · rintro ⟨_, y, ys, hy, hys, -⟩
      exact ⟨⟨y, hy⟩, ys, hys⟩
    · rintro ⟨⟨y, hy⟩, ys, hys⟩
      exact ⟨y :: ys, y, ys, hy, hys, rfl⟩

/-- Rethrowing under another error keeps the successes. -/
@[simp] theorem mapError_eq_ok {ε' : Type u} {f : ε → ε'} {x : Except ε α} {a : α} :
    x.mapError f = .ok a ↔ x = .ok a := by
  cases x <;> simp [Except.mapError]

/-! ## What a failing chain throws -/

@[simp] theorem require_eq_error {c : Prop} [Decidable c] {e e' : ε} :
    (require c e : Except ε PUnit.{u + 1}) = .error e' ↔ ¬ c ∧ e = e' := by
  unfold require
  split_ifs with h <;> simp [h]

@[simp] theorem found_eq_error {x : Option α} {e e' : ε} :
    found x e = .error e' ↔ x = none ∧ e = e' := by
  cases x <;> simp [found]

theorem bind_eq_error {x : Except ε α} {f : α → Except ε β} {e : ε} :
    (x >>= f) = .error e ↔ x = .error e ∨ ∃ a, x = .ok a ∧ f a = .error e := by
  cases x <;> simp [bind, Except.bind]

end Checks
