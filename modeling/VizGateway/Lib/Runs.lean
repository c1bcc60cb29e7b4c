import Mathlib

/-!
# Runs of a step function

A run folds a step function over its events. What every step preserves under a condition on the
state before it holds after every run whose steps meet the condition.
-/

namespace Runs

universe u v

variable {σ : Type u} {ε : Type v} (step : σ → ε → σ)

/-- The state after the events. -/
def run (s : σ) (es : List ε) : σ := es.foldl step s

@[simp] theorem run_nil (s : σ) : run step s [] = s := rfl

@[simp] theorem run_cons (s : σ) (e : ε) (es : List ε) :
    run step s (e :: es) = run step (step s e) es := rfl

@[simp] theorem run_append (s : σ) (es fs : List ε) :
    run step s (es ++ fs) = run step (run step s es) fs := List.foldl_append

/-- Every event of the run meets the condition in the state it happens in. -/
def Meets (C : σ → ε → Prop) : σ → List ε → Prop
  | _, [] => True
  | s, e :: es => C s e ∧ Meets C (step s e) es

instance decidableMeets (C : σ → ε → Prop) [∀ s e, Decidable (C s e)] :
    ∀ s es, Decidable (Meets step C s es)
  | _, [] => .isTrue trivial
  | s, e :: es =>
    have := decidableMeets C (step s e) es
    inferInstanceAs (Decidable (C s e ∧ Meets step C (step s e) es))

variable {step} {C : σ → ε → Prop} {s : σ} {es fs : List ε}

theorem meets_append : Meets step C s (es ++ fs) ↔ Meets step C s es ∧ Meets step C (run step s es) fs := by
  induction es generalizing s with
  | nil => simp [Meets]
  | cons e es ih => simp [Meets, ih, and_assoc]

/-- A schedule whose every event meets the condition in the state it happens in. -/
theorem meets_range {es : ℕ → ε} (h : ∀ t, C (run step s ((List.range t).map es)) (es t)) (t : ℕ) :
    Meets step C s ((List.range t).map es) := by
  induction t with
  | zero => trivial
  | succ t ih =>
    rw [List.range_succ, List.map_append, meets_append]
    exact ⟨ih, h t, trivial⟩

theorem meets_true : Meets step (fun _ _ => True) s es := by
  induction es generalizing s with
  | nil => trivial
  | cons e es ih => exact ⟨trivial, ih⟩

theorem meets_of_forall (h : ∀ e ∈ es, ∀ s, C s e) : Meets step C s es := by
  induction es generalizing s with
  | nil => trivial
  | cons e es ih =>
    exact ⟨h e List.mem_cons_self s, ih fun x hx => h x (List.mem_cons_of_mem _ hx)⟩

theorem Meets.and {D : ε → Prop} (h : Meets step C s es) (hD : ∀ e ∈ es, D e) :
    Meets step (fun s e => C s e ∧ D e) s es := by
  induction es generalizing s with
  | nil => trivial
  | cons e es ih =>
    exact ⟨⟨h.1, hD e List.mem_cons_self⟩, ih h.2 fun x hx => hD x (List.mem_cons_of_mem _ hx)⟩

/-- Under an invariant the first condition keeps, two conditions that agree on its states are met
by the same runs. -/
theorem meets_congr_of_inv {D : σ → ε → Prop} {Inv : σ → Prop}
    (hcd : ∀ s e, Inv s → (C s e ↔ D s e)) (hstep : ∀ s e, Inv s → C s e → Inv (step s e))
    (h : Inv s) : Meets step C s es ↔ Meets step D s es := by
  induction es generalizing s with
  | nil => rfl
  | cons e es ih =>
    constructor
    · rintro ⟨he, hes⟩
      exact ⟨(hcd s e h).1 he, (ih (hstep s e h he)).1 hes⟩
    · rintro ⟨he, hes⟩
      have hc := (hcd s e h).2 he
      exact ⟨hc, (ih (hstep s e h hc)).2 hes⟩

/-- The invariant rule. -/
theorem run_inv {Inv : σ → Prop} (hstep : ∀ s e, Inv s → C s e → Inv (step s e)) (h : Inv s)
    (hm : Meets step C s es) : Inv (run step s es) := by
  induction es generalizing s with
  | nil => exact h
  | cons e es ih =>
    obtain ⟨he, hes⟩ := hm
    exact ih (hstep s e h he) hes

/-- At each event of the run the invariant and the condition hold of the state before it. -/
theorem run_inv_at {Inv : σ → Prop} (hstep : ∀ s e, Inv s → C s e → Inv (step s e)) (h : Inv s)
    {pre post : List ε} {e : ε} (hm : Meets step C s (pre ++ e :: post)) :
    Inv (run step s pre) ∧ C (run step s pre) e := by
  obtain ⟨hpre, he, -⟩ := meets_append.1 hm
  exact ⟨run_inv hstep h hpre, he⟩

end Runs
