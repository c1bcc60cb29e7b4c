import VizGateway.Lib.Runs

/-!
# Slots that are claimed

A slot is claimed only while it is free, and what it was claimed for stays in it until it is
released. So between two claims stands a release, and until one comes the slot holds its claim.
-/

namespace Runs

variable {σ ε φ : Type} {step : σ → ε → σ} {s : σ} {es : List ε}

theorem exists_of_not_meets {C : σ → ε → Prop} (h : ¬ Meets step (fun s e => ¬ C s e) s es) :
    ∃ pre e post, es = pre ++ e :: post ∧ C (run step s pre) e := by
  induction es generalizing s with
  | nil => exact absurd trivial h
  | cons e es ih =>
    by_cases he : C s e
    · exact ⟨[], e, es, rfl, he⟩
    · obtain ⟨pre, d, post, rfl, hd⟩ := ih fun hes => h ⟨he, hes⟩
      exact ⟨e :: pre, d, post, rfl, hd⟩

/-- How the steps treat one slot, in the states of an invariant. -/
structure Slot (step : σ → ε → σ) (Inv : σ → Prop) (holder : σ → Option φ)
    (claims : σ → ε → φ → Prop) (releases : σ → ε → Prop) : Prop where
  inv : ∀ s e, Inv s → Inv (step s e)
  claim : ∀ s e f, Inv s → claims s e f → holder s = none ∧ holder (step s e) = some f
  keep : ∀ s e f, Inv s → ¬ releases s e → holder s = some f → holder (step s e) = some f

namespace Slot

variable {Inv : σ → Prop} {holder : σ → Option φ} {claims : σ → ε → φ → Prop}
  {releases : σ → ε → Prop} {e e' : ε} {f f' : φ} (S : Slot step Inv holder claims releases)

include S

theorem held (hs : Inv s) (h : holder s = some f) (hm : Meets step (fun s e => ¬ releases s e) s es) :
    holder (run step s es) = some f := by
  have hstep : ∀ s e, Inv s ∧ holder s = some f → ¬ releases s e →
      Inv (step s e) ∧ holder (step s e) = some f :=
    fun s e hs he => ⟨S.inv s e hs.1, S.keep s e f hs.1 he hs.2⟩
  exact (run_inv hstep ⟨hs, h⟩ hm).2

/-- What a slot was claimed for is in it until it is released. -/
theorem holds_claim (hs : Inv s) (hclaim : claims s e f)
    (hm : Meets step (fun s e => ¬ releases s e) (step s e) es) :
    holder (run step (step s e) es) = some f :=
  S.held (S.inv s e hs) (S.claim s e f hs hclaim).2 hm

/-- Between two claims the slot was released. -/
theorem released_between (hs : Inv s) (hclaim : claims s e f)
    (hclaim' : claims (run step (step s e) es) e' f') :
    ∃ pre d post, es = pre ++ d :: post ∧ releases (run step (step s e) pre) d := by
  refine exists_of_not_meets fun hm => ?_
  have hinv : Inv (run step (step s e) es) :=
    run_inv (C := fun _ _ => True) (fun s e h _ => S.inv s e h) (S.inv s e hs) meets_true
  have hheld := S.holds_claim hs hclaim hm
  rw [(S.claim _ e' f' hinv hclaim').1] at hheld
  cases hheld

end Slot

end Runs
