import VizGateway.Lib.Prog

/-!
# What a program asks and is answered

The events of a program run alone: its operations in order, each with its answer. An environment
is any way to carry the operations out, so a fact about the events for every environment is one
about every behaviour of whoever answers.
-/

namespace Prog

variable {Op : Type} {Ans : Op → Type} {ε α β : Type}

/-- The exception a program has ended with. -/
def thrown : Prog Op Ans ε α → Option ε
  | .throw e => some e
  | _ => none

/-- An operation and its outcome. -/
structure Event (Op : Type) (Ans : Op → Type) (ε : Type) where
  op : Op
  answer : Except ε (Ans op)

section Events

variable {σ : Type} (exec : (o : Op) → σ → σ × Except ε (Ans o))

def events : Prog Op Ans ε α → σ → List (Event Op Ans ε)
  | .ret _, _ => []
  | .throw _, _ => []
  | .call o k, s => ⟨o, (exec o s).2⟩ :: (k (exec o s).2).events (exec o s).1

@[simp] theorem events_pure (a : α) (s : σ) : (pure a : Prog Op Ans ε α).events exec s = [] := rfl

@[simp] theorem events_ofExcept (r : Except ε α) (s : σ) :
    (ofExcept r : Prog Op Ans ε α).events exec s = [] := by
  cases r <;> rfl

@[simp] theorem events_ask (o : Op) (s : σ) :
    (ask o : Prog Op Ans ε (Ans o)).events exec s = [⟨o, (exec o s).2⟩] := by
  simp [ask, events]

variable {exec} {p : Prog Op Ans ε α} {s t : σ}

theorem events_bind_ok {a : α} (h : p.eval exec s = (t, .ok a)) (f : α → Prog Op Ans ε β) :
    (p >>= f).events exec s = p.events exec s ++ (f a).events exec t := by
  induction p generalizing s with
  | ret b =>
    cases h
    rfl
  | throw e => cases h
  | call o k ih => exact congrArg (List.cons _) (ih (exec o s).2 h)

theorem events_bind_error {e : ε} (h : p.eval exec s = (t, .error e)) (f : α → Prog Op Ans ε β) :
    (p >>= f).events exec s = p.events exec s := by
  induction p generalizing s with
  | ret b => cases h
  | throw e => rfl
  | call o k ih => exact congrArg (List.cons _) (ih (exec o s).2 h)

theorem eval_bind_error {e : ε} (h : p.eval exec s = (t, .error e)) (f : α → Prog Op Ans ε β) :
    (p >>= f).eval exec s = (t, .error e) := by
  rw [eval_bind, h]

theorem eval_catch_ok {a : α} (h : p.eval exec s = (t, .ok a)) (f : ε → Prog Op Ans ε α) :
    (tryCatch p f).eval exec s = (t, .ok a) := by
  induction p generalizing s with
  | ret b => exact h
  | throw e => cases h
  | call o k ih => exact ih (exec o s).2 h

theorem eval_catch_error {e : ε} (h : p.eval exec s = (t, .error e)) (f : ε → Prog Op Ans ε α) :
    (tryCatch p f).eval exec s = (f e).eval exec t := by
  induction p generalizing s with
  | ret b => cases h
  | throw e' =>
    cases h
    rfl
  | call o k ih => exact ih (exec o s).2 h

theorem events_catch_ok {a : α} (h : p.eval exec s = (t, .ok a)) (f : ε → Prog Op Ans ε α) :
    (tryCatch p f).events exec s = p.events exec s := by
  induction p generalizing s with
  | ret b => rfl
  | throw e => cases h
  | call o k ih => exact congrArg (List.cons _) (ih (exec o s).2 h)

theorem events_catch_error {e : ε} (h : p.eval exec s = (t, .error e)) (f : ε → Prog Op Ans ε α) :
    (tryCatch p f).events exec s = p.events exec s ++ (f e).events exec t := by
  induction p generalizing s with
  | ret b => cases h
  | throw e' =>
    cases h
    rfl
  | call o k ih => exact congrArg (List.cons _) (ih (exec o s).2 h)

theorem eval_bind_eq_ok {b : β} {f : α → Prog Op Ans ε β} (h : (p >>= f).eval exec s = (t, .ok b)) :
    ∃ u a, p.eval exec s = (u, .ok a) ∧ (f a).eval exec u = (t, .ok b) ∧
      (p >>= f).events exec s = p.events exec s ++ (f a).events exec u := by
  rcases hp : p.eval exec s with ⟨u, e | a⟩
  · rw [eval_bind_error hp] at h
    cases h
  · rw [eval_bind_ok exec hp] at h
    exact ⟨u, a, rfl, h, events_bind_ok hp f⟩

theorem eval_handle (p : Prog Op Ans ε α) (f : Except ε α → Prog Op Ans ε β) (s : σ) :
    (p.handle f).eval exec s = (f (p.eval exec s).2).eval exec (p.eval exec s).1 := by
  induction p generalizing s with
  | ret a => rfl
  | throw e => rfl
  | call o k ih => exact ih (exec o s).2 (exec o s).1

theorem events_handle (p : Prog Op Ans ε α) (f : Except ε α → Prog Op Ans ε β) (s : σ) :
    (p.handle f).events exec s =
      p.events exec s ++ (f (p.eval exec s).2).events exec (p.eval exec s).1 := by
  induction p generalizing s with
  | ret a => rfl
  | throw e => rfl
  | call o k ih => exact congrArg (List.cons _) (ih (exec o s).2 (exec o s).1)

/-- A loop that came to its end went through every turn, each from a state with what all turns
keep. -/
theorem eval_forEach_eq_ok {P : σ → Prop} {f : β → Prog Op Ans ε Unit} {bs : List β}
    (hP : ∀ b s t, P s → (f b).eval exec s = (t, .ok ()) → P t) (hs : P s)
    (h : (forEach f bs).eval exec s = (t, .ok ())) :
    P t ∧ ∀ b ∈ bs, ∃ u v, P u ∧ (f b).eval exec u = (v, .ok ()) ∧
      ∀ e ∈ (f b).events exec u, e ∈ (forEach f bs).events exec s := by
  induction bs generalizing s with
  | nil =>
    cases h
    exact ⟨hs, nofun⟩
  | cons b bs ih =>
    obtain ⟨u, ⟨⟩, hb, hbs, hevents⟩ := eval_bind_eq_ok (p := f b) (f := fun _ => forEach f bs) h
    obtain ⟨ht, hall⟩ := ih (hP b s u hs hb) hbs
    have hself : (forEach f (b :: bs)).events exec s =
        (f b).events exec s ++ (forEach f bs).events exec u := hevents
    refine ⟨ht, fun c hc => ?_⟩
    rcases List.mem_cons.1 hc with rfl | hc
    · exact ⟨s, u, hs, hb, fun e he => hself ▸ List.mem_append_left _ he⟩
    · obtain ⟨v, w, hv, hw, hin⟩ := hall c hc
      exact ⟨v, w, hv, hw, fun e he => hself ▸ List.mem_append_right _ (hin e he)⟩

/-- What is asked is what the program uses. -/
theorem events_of_uses {A : Op → Prop} (h : Uses A p) : ∀ e ∈ p.events exec s, A e.op := by
  induction p generalizing s with
  | ret a => exact nofun
  | throw e => exact nofun
  | call o k ih =>
    intro e he
    rcases List.mem_cons.1 he with rfl | he
    · exact h.1
    · exact ih _ (h.2 _) e he

end Events

/-! ## Catching inside a translation -/

section Inside

variable {Op' : Type} {Ans' : Op' → Type} (g : (o : Op) → Prog Op' Ans' ε (Ans o))

theorem handle_catch (p : Prog Op Ans ε α) (f : Except ε α → Prog Op Ans ε β)
    (h : ε → Prog Op Ans ε β) :
    tryCatch (p.handle f) h = p.handle fun r => tryCatch (f r) h := by
  induction p with
  | ret a => rfl
  | throw e => rfl
  | call o k ih => exact congrArg (call o) (funext fun r => ih r)

theorem translate_catch (p : Prog Op Ans ε α) (h : ε → Prog Op Ans ε α) :
    (tryCatch p h).translate g = tryCatch (p.translate g) fun e => (h e).translate g := by
  induction p with
  | ret a => rfl
  | throw e => rfl
  | call o k ih =>
    refine Eq.trans ?_ (handle_catch (g o) _ _).symm
    exact congrArg (handle (g o)) (funext fun r => ih r)

theorem translate_ask_bind (o : Op) (f : Ans o → Prog Op Ans ε β) :
    (ask o >>= f).translate g = g o >>= fun a => (f a).translate g := by
  rw [translate_bind, translate_ask]

/-- A translated program asks what the programs of its own operations ask. -/
theorem Uses.translate {A : Op → Prop} {B : Op' → Prop} {p : Prog Op Ans ε α} (hp : Uses A p)
    (hg : ∀ o, A o → Uses B (g o)) : Uses B (p.translate g) := by
  induction p with
  | ret a => trivial
  | throw e => trivial
  | call o k ih => exact uses_handle (hg o hp.1) fun r => ih r (hp.2 r)

/-- A translated program runs as the program whose operations are carried out by theirs. -/
theorem eval_translate {σ : Type} (exec : (o : Op') → σ → σ × Except ε (Ans' o))
    (p : Prog Op Ans ε α) (s : σ) :
    (p.translate g).eval exec s = p.eval (fun o s => (g o).eval exec s) s := by
  induction p generalizing s with
  | ret a => rfl
  | throw e => rfl
  | call o k ih =>
    refine (eval_handle (g o) _ s).trans ?_
    exact ih ((g o).eval exec s).2 ((g o).eval exec s).1

end Inside

end Prog
