import Mathlib

/-!
# Programs that share a state

A program asks operations of a state others change too: between any two of its operations the
state may move along the rely relation. An operation answers or throws; a program goes on, catches
or dies. `Safe` is the assertion that carries a proof along a program: wherever the program stands
it holds the assertion of the operation it is about to ask, whatever the others did meanwhile.
-/

/-- A program over operations `Op` with answers `Ans` and exceptions `ε`. -/
inductive Prog (Op : Type) (Ans : Op → Type) (ε α : Type) : Type
  | ret (a : α)
  | throw (e : ε)
  | call (o : Op) (k : Except ε (Ans o) → Prog Op Ans ε α)

namespace Prog

variable {Op : Type} {Ans : Op → Type} {ε α β : Type}

/-- Ending with the outcome of the last operation. -/
def ofExcept : Except ε α → Prog Op Ans ε α
  | .ok a => .ret a
  | .error e => .throw e

def bind : Prog Op Ans ε α → (α → Prog Op Ans ε β) → Prog Op Ans ε β
  | .ret a, f => f a
  | .throw e, _ => .throw e
  | .call o k, f => .call o fun r => (k r).bind f

def catchWith : Prog Op Ans ε α → (ε → Prog Op Ans ε α) → Prog Op Ans ε α
  | .ret a, _ => .ret a
  | .throw e, h => h e
  | .call o k, h => .call o fun r => (k r).catchWith h

instance : Monad (Prog Op Ans ε) where
  pure := .ret
  bind := bind

instance : MonadExceptOf ε (Prog Op Ans ε) where
  throw := .throw
  tryCatch := catchWith

theorem pure_bind (a : α) (f : α → Prog Op Ans ε β) : (pure a >>= f) = f a := rfl

theorem bind_pure (p : Prog Op Ans ε α) : p >>= pure = p := by
  induction p with
  | ret a => rfl
  | throw e => rfl
  | call o k ih => exact congrArg (call o) (funext fun r => ih r)

theorem bind_bind {γ : Type} (p : Prog Op Ans ε α) (f : α → Prog Op Ans ε β)
    (g : β → Prog Op Ans ε γ) : (p >>= f) >>= g = p >>= fun a => f a >>= g := by
  induction p with
  | ret a => rfl
  | throw e => rfl
  | call o k ih => exact congrArg (call o) (funext fun r => ih r)

/-- Asking one operation. -/
def ask (o : Op) : Prog Op Ans ε (Ans o) := .call o ofExcept

/-- The program, unless it has ended. -/
def running : Prog Op Ans ε α → Option (Prog Op Ans ε α)
  | .call o k => some (.call o k)
  | _ => none

/-- `for (const b of bs) f(b)`. -/
def forEach (f : β → Prog Op Ans ε Unit) : List β → Prog Op Ans ε Unit
  | [] => .ret ()
  | b :: bs => (f b).bind fun _ => forEach f bs

/-! ## Programs inside programs -/

section Inside

variable {Op' ρ : Type} {Ans' : Op' → Type}

/-- Going on from a program's outcome, be it an answer or an exception. -/
def handle : Prog Op Ans ε α → (Except ε α → Prog Op Ans ε β) → Prog Op Ans ε β
  | .ret a, f => f (.ok a)
  | .throw e, f => f (.error e)
  | .call o k, f => .call o fun r => (k r).handle f

/-- Each operation carried out by a program over other operations. -/
def translate (g : (o : Op) → Prog Op' Ans' ε (Ans o)) : Prog Op Ans ε α → Prog Op' Ans' ε α
  | .ret a => .ret a
  | .throw e => .throw e
  | .call o k => (g o).handle fun r => (k r).translate g

/-- Every operation under the name of the program it belongs to. -/
def tag (r : ρ) : Prog Op Ans ε α → Prog (ρ × Op) (fun x => Ans x.2) ε α
  | .ret a => .ret a
  | .throw e => .throw e
  | .call o k => .call (r, o) fun a => (k a).tag r

theorem handle_bind {γ : Type} (p : Prog Op Ans ε α) (f : Except ε α → Prog Op Ans ε β)
    (h : β → Prog Op Ans ε γ) : p.handle f >>= h = p.handle fun r => f r >>= h := by
  induction p with
  | ret a => rfl
  | throw e => rfl
  | call o k ih => exact congrArg (call o) (funext fun r => ih r)

theorem handle_ofExcept (p : Prog Op Ans ε α) : p.handle ofExcept = p := by
  induction p with
  | ret a => rfl
  | throw e => rfl
  | call o k ih => exact congrArg (call o) (funext fun r => ih r)

variable (g : (o : Op) → Prog Op' Ans' ε (Ans o))

@[simp] theorem translate_pure (a : α) : (pure a : Prog Op Ans ε α).translate g = pure a := rfl

theorem translate_ofExcept (r : Except ε α) :
    (ofExcept r : Prog Op Ans ε α).translate g = ofExcept r := by
  cases r <;> rfl

@[simp] theorem translate_ask (o : Op) : (ask o : Prog Op Ans ε (Ans o)).translate g = g o := by
  refine Eq.trans ?_ (handle_ofExcept (g o))
  exact congrArg (handle (g o)) (funext fun r => translate_ofExcept g r)

@[simp] theorem translate_bind (p : Prog Op Ans ε α) (f : α → Prog Op Ans ε β) :
    (p >>= f).translate g = p.translate g >>= fun a => (f a).translate g := by
  induction p with
  | ret a => rfl
  | throw e => rfl
  | call o k ih =>
    refine Eq.trans ?_ (handle_bind (g o) _ _).symm
    exact congrArg (handle (g o)) (funext fun r => ih r)

@[simp] theorem translate_forEach (f : β → Prog Op Ans ε Unit) (bs : List β) :
    (forEach f bs).translate g = forEach (fun b => (f b).translate g) bs := by
  induction bs with
  | nil => rfl
  | cons b bs ih =>
    refine (translate_bind g (f b) _).trans ?_
    exact congrArg (Prog.bind ((f b).translate g)) (funext fun _ => ih)

@[simp] theorem translate_ite {c : Prop} [Decidable c] (p q : Prog Op Ans ε α) :
    (if c then p else q).translate g = if c then p.translate g else q.translate g := by
  split <;> rfl

end Inside

/-! ## A program run alone -/

section Eval

variable {σ : Type} (exec : (o : Op) → σ → σ × Except ε (Ans o))

/-- The program carried out from a state nobody else touches. -/
def eval : Prog Op Ans ε α → σ → σ × Except ε α
  | .ret a, s => (s, .ok a)
  | .throw e, s => (s, .error e)
  | .call o k, s => (k (exec o s).2).eval (exec o s).1

@[simp] theorem eval_pure (a : α) (s : σ) : (pure a : Prog Op Ans ε α).eval exec s = (s, .ok a) :=
  rfl

theorem eval_ofExcept (r : Except ε α) (s : σ) :
    (ofExcept r : Prog Op Ans ε α).eval exec s = (s, r) := by
  cases r <;> rfl

@[simp] theorem eval_ask (o : Op) (s : σ) :
    (ask o : Prog Op Ans ε (Ans o)).eval exec s = exec o s :=
  eval_ofExcept exec (exec o s).2 (exec o s).1

@[simp] theorem eval_bind (p : Prog Op Ans ε α) (f : α → Prog Op Ans ε β) (s : σ) :
    (p >>= f).eval exec s = match p.eval exec s with
      | (t, .ok a) => (f a).eval exec t
      | (t, .error e) => (t, .error e) := by
  induction p generalizing s with
  | ret a => rfl
  | throw e => rfl
  | call o k ih => exact ih (exec o s).2 (exec o s).1

theorem eval_bind_ok {p : Prog Op Ans ε α} {s t : σ} {a : α} (h : p.eval exec s = (t, .ok a))
    (f : α → Prog Op Ans ε β) : (p >>= f).eval exec s = (f a).eval exec t := by
  rw [eval_bind, h]

theorem eval_forEach_cons (f : β → Prog Op Ans ε Unit) (b : β) (bs : List β) (s : σ) :
    (forEach f (b :: bs)).eval exec s = match (f b).eval exec s with
      | (t, .ok _) => (forEach f bs).eval exec t
      | (t, .error e) => (t, .error e) := by
  have h : forEach f (b :: bs) = f b >>= fun _ => forEach f bs := rfl
  rw [h, eval_bind]
  rcases (f b).eval exec s with ⟨t, e | a⟩ <;> rfl

theorem eval_forEach_append (f : β → Prog Op Ans ε Unit) (bs cs : List β) (s : σ) :
    (forEach f (bs ++ cs)).eval exec s = match (forEach f bs).eval exec s with
      | (t, .ok _) => (forEach f cs).eval exec t
      | (t, .error e) => (t, .error e) := by
  induction bs generalizing s with
  | nil => rfl
  | cons b bs ih =>
    rw [List.cons_append, eval_forEach_cons, eval_forEach_cons]
    rcases (f b).eval exec s with ⟨t, e | a⟩
    · rfl
    · exact ih t

end Eval

/-- Answered throughout, the program does not throw. -/
def Quiet : Prog Op Ans ε α → Prop
  | .ret _ => True
  | .throw _ => False
  | .call _ k => ∀ a, Quiet (k (.ok a))

section Quiet

variable {p : Prog Op Ans ε α} {f : α → Prog Op Ans ε β}

theorem quiet_pure (a : α) : Quiet (pure a : Prog Op Ans ε α) := trivial

theorem quiet_ask (o : Op) : Quiet (ask o : Prog Op Ans ε (Ans o)) := fun _ => trivial

theorem quiet_bind (hp : Quiet p) (hf : ∀ a, Quiet (f a)) : Quiet (p >>= f) := by
  induction p with
  | ret a => exact hf a
  | throw e => cases hp
  | call o k ih => exact fun a => ih (.ok a) (hp a)

theorem quiet_ite {c : Prop} [Decidable c] {q : Prog Op Ans ε α} (hp : Quiet p) (hq : Quiet q) :
    Quiet (if c then p else q) := by
  split
  · exact hp
  · exact hq

theorem eval_quiet {σ : Type} {exec : (o : Op) → σ → σ × Except ε (Ans o)}
    (hexec : ∀ o s, ∃ a, (exec o s).2 = .ok a) (h : Quiet p) (s : σ) :
    ∃ a, (p.eval exec s).2 = .ok a := by
  induction p generalizing s with
  | ret a => exact ⟨a, rfl⟩
  | throw e => cases h
  | call o k ih =>
    obtain ⟨a, ha⟩ := hexec o s
    have hk : Quiet (k (exec o s).2) := by
      rw [ha]
      exact h a
    exact ih _ hk (exec o s).1

end Quiet

/-! ## Programs of allowed operations -/

/-- Every operation the program can ever ask is allowed. -/
def Uses (A : Op → Prop) : Prog Op Ans ε α → Prop
  | .ret _ => True
  | .throw _ => True
  | .call o k => A o ∧ ∀ r, Uses A (k r)

section Uses

variable {A : Op → Prop} {p : Prog Op Ans ε α} {f : α → Prog Op Ans ε β}

theorem uses_ofExcept (r : Except ε α) : Uses A (ofExcept r : Prog Op Ans ε α) := by
  cases r <;> trivial

theorem uses_ask {o : Op} (h : A o) : Uses A (ask o : Prog Op Ans ε (Ans o)) :=
  ⟨h, uses_ofExcept⟩

theorem uses_bind (hp : Uses A p) (hf : ∀ a, Uses A (f a)) : Uses A (p >>= f) := by
  induction p with
  | ret a => exact hf a
  | throw e => trivial
  | call o k ih => exact ⟨hp.1, fun r => ih r (hp.2 r)⟩

theorem uses_catch {h : ε → Prog Op Ans ε α} (hp : Uses A p) (hh : ∀ e, Uses A (h e)) :
    Uses A (tryCatch p h) := by
  induction p with
  | ret a => trivial
  | throw e => exact hh e
  | call o k ih => exact ⟨hp.1, fun r => ih r (hp.2 r)⟩

theorem uses_ite {c : Prop} [Decidable c] {q : Prog Op Ans ε α} (hp : Uses A p) (hq : Uses A q) :
    Uses A (if c then p else q) := by
  split
  · exact hp
  · exact hq

theorem uses_forEach {g : β → Prog Op Ans ε Unit} (hg : ∀ b, Uses A (g b)) :
    ∀ bs, Uses A (forEach g bs)
  | [] => trivial
  | b :: bs => uses_bind (hg b) fun _ => uses_forEach hg bs

theorem uses_handle {h : Except ε α → Prog Op Ans ε β} (hp : Uses A p) (hh : ∀ r, Uses A (h r)) :
    Uses A (p.handle h) := by
  induction p with
  | ret a => exact hh _
  | throw e => exact hh _
  | call o k ih => exact ⟨hp.1, fun r => ih r (hp.2 r)⟩

/-- A translated program asks what the programs of its operations ask. -/
theorem uses_translate {Op' : Type} {Ans' : Op' → Type} {g : (o : Op') → Prog Op Ans ε (Ans' o)}
    (hg : ∀ o, Uses A (g o)) (q : Prog Op' Ans' ε α) : Uses A (q.translate g) := by
  induction q with
  | ret a => trivial
  | throw e => trivial
  | call o k ih => exact uses_handle (hg o) ih

/-- What every operation of the program keeps, the program run alone keeps. -/
theorem eval_of_uses {σ : Type} {exec : (o : Op) → σ → σ × Except ε (Ans o)} {A : Op → Prop}
    {R : σ → σ → Prop} (refl : ∀ s, R s s) (trans : ∀ {s t u}, R s t → R t u → R s u)
    (hexec : ∀ o s, A o → R s (exec o s).1) {p : Prog Op Ans ε α} (h : Uses A p) (s : σ) :
    R s (p.eval exec s).1 := by
  induction p generalizing s with
  | ret a => exact refl s
  | throw e => exact refl s
  | call o k ih => exact trans (hexec o s h.1) (ih _ (h.2 _) _)

end Uses

/-! ## Programs that survive some failures -/

/-- While the operations in `F` are answered the program does not throw. -/
def Steady (F : Op → Prop) : Prog Op Ans ε α → Prop
  | .ret _ => True
  | .throw _ => False
  | .call o k => (∀ a, Steady F (k (.ok a))) ∧ (¬ F o → ∀ e, Steady F (k (.error e)))

section Steady

variable {F : Op → Prop} {p : Prog Op Ans ε α} {f : α → Prog Op Ans ε β}

theorem steady_ask {o : Op} (h : F o) : Steady F (ask o : Prog Op Ans ε (Ans o)) :=
  ⟨fun _ => trivial, fun hn => absurd h hn⟩

theorem steady_bind (hp : Steady F p) (hf : ∀ a, Steady F (f a)) : Steady F (p >>= f) := by
  induction p with
  | ret a => exact hf a
  | throw e => cases hp
  | call o k ih => exact ⟨fun a => ih (.ok a) (hp.1 a), fun hn e => ih (.error e) (hp.2 hn e)⟩

theorem steady_catch {h : ε → Prog Op Ans ε α} (hh : ∀ e, Steady F (h e)) :
    Steady F (tryCatch p h) := by
  induction p with
  | ret a => trivial
  | throw e => exact hh e
  | call o k ih => exact ⟨fun a => ih (.ok a), fun _ e => ih (.error e)⟩

theorem eval_steady {σ : Type} {exec : (o : Op) → σ → σ × Except ε (Ans o)}
    (hexec : ∀ o s, F o → ∃ a, (exec o s).2 = .ok a) (h : Steady F p) (s : σ) :
    ∃ a, (p.eval exec s).2 = .ok a := by
  induction p generalizing s with
  | ret a => exact ⟨a, rfl⟩
  | throw e => cases h
  | call o k ih =>
    by_cases ho : F o
    · obtain ⟨a, ha⟩ := hexec o s ho
      exact ih _ (ha ▸ h.1 a) (exec o s).1
    · refine ih _ ?_ (exec o s).1
      rcases (exec o s).2 with e | a
      · exact h.2 ho e
      · exact h.1 a

end Steady

/-! ## Critical operations behind a gate -/

/-- Every critical operation is asked right after one that answered with a pass; `armed` speaks for
the first. -/
def Gated (crit : Op → Prop) (pass : (o : Op) → Except ε (Ans o) → Prop) :
    Prop → Prog Op Ans ε α → Prop
  | _, .ret _ => True
  | _, .throw _ => True
  | armed, .call o k => (crit o → armed) ∧ ∀ r, Gated crit pass (pass o r) (k r)

section Gated

variable {crit : Op → Prop} {pass : (o : Op) → Except ε (Ans o) → Prop} {armed : Prop}
  {p : Prog Op Ans ε α}

theorem Gated.mono {armed' : Prop} (h : Gated crit pass armed p) (ha : armed → armed') :
    Gated crit pass armed' p := by
  cases p with
  | ret a => trivial
  | throw e => trivial
  | call o k => exact ⟨fun hc => ha (h.1 hc), h.2⟩

/-- Where no critical operation is asked the gate may close. -/
theorem Gated.disarm {o : Op} {k : Except ε (Ans o) → Prog Op Ans ε α}
    (h : Gated crit pass armed (.call o k)) (ho : ¬ crit o) : Gated crit pass False (.call o k) :=
  ⟨fun hc => absurd hc ho, h.2⟩

theorem gated_of_uses (h : Uses (fun o => ¬ crit o) p) : Gated crit pass armed p := by
  induction p generalizing armed with
  | ret a => trivial
  | throw e => trivial
  | call o k ih => exact ⟨fun hc => absurd hc h.1, fun r => ih r (h.2 r)⟩

theorem gated_bind {f : α → Prog Op Ans ε β} (hp : Gated crit pass armed p)
    (hf : ∀ a, Gated crit pass False (f a)) : Gated crit pass armed (p >>= f) := by
  induction p generalizing armed with
  | ret a => exact (hf a).mono False.elim
  | throw e => trivial
  | call o k ih => exact ⟨hp.1, fun r => ih r (hp.2 r)⟩

theorem gated_catch {h : ε → Prog Op Ans ε α} (hp : Gated crit pass armed p)
    (hh : ∀ e, Gated crit pass False (h e)) : Gated crit pass armed (tryCatch p h) := by
  induction p generalizing armed with
  | ret a => trivial
  | throw e => exact (hh e).mono False.elim
  | call o k ih => exact ⟨hp.1, fun r => ih r (hp.2 r)⟩

end Gated

/-- What a program is proved against: how each operation is carried out on an input the outside
chooses, how the others move the state, which inputs may occur, and what is asserted at each
operation before it happens. -/
structure Contract (Op : Type) (Ans : Op → Type) (ε σ ι : Type) where
  exec : (o : Op) → ι → σ → σ × Except ε (Ans o)
  rely : σ → σ → Prop
  rely_refl : ∀ s, rely s s
  rely_trans : ∀ {s t u}, rely s t → rely t u → rely s u
  allowed : Op → ι → σ → Prop
  point : Op → σ → Prop

section Safe

variable {σ ι : Type} (C : Contract Op Ans ε σ ι)

/-- From state `s` the program meets the contract, ends in `Q` and throws in `E`. -/
def Safe (Q : α → σ → Prop) (E : ε → σ → Prop) : Prog Op Ans ε α → σ → Prop
  | .ret a, s => Q a s
  | .throw e, s => E e s
  | .call o k, s => ∀ t, C.rely s t → C.point o t
      ∧ ∀ i, C.allowed o i t → Safe Q E (k (C.exec o i t).2) (C.exec o i t).1

variable {C} {Q : α → σ → Prop} {E : ε → σ → Prop} {p : Prog Op Ans ε α} {s t : σ}

theorem Safe.point {o : Op} {k : Except ε (Ans o) → Prog Op Ans ε α}
    (h : Safe C Q E (.call o k) s) : C.point o s := (h s (C.rely_refl s)).1

theorem Safe.step {o : Op} {k : Except ε (Ans o) → Prog Op Ans ε α} {i : ι}
    (h : Safe C Q E (.call o k) s) (hi : C.allowed o i s) :
    Safe C Q E (k (C.exec o i s).2) (C.exec o i s).1 := (h s (C.rely_refl s)).2 i hi

/-- What the others do keeps a program safe. -/
theorem Safe.stable (hQ : ∀ a s t, C.rely s t → Q a s → Q a t)
    (hE : ∀ e s t, C.rely s t → E e s → E e t) (h : Safe C Q E p s) (hst : C.rely s t) :
    Safe C Q E p t := by
  cases p with
  | ret a => exact hQ a s t hst h
  | throw e => exact hE e s t hst h
  | call o k => exact fun u htu => h u (C.rely_trans hst htu)

theorem Safe.mono {Q' : α → σ → Prop} {E' : ε → σ → Prop} (hQ : ∀ a s, Q a s → Q' a s)
    (hE : ∀ e s, E e s → E' e s) (h : Safe C Q E p s) : Safe C Q' E' p s := by
  induction p generalizing s with
  | ret a => exact hQ a s h
  | throw e => exact hE e s h
  | call o k ih => exact fun t ht => ⟨(h t ht).1, fun i hi => ih _ ((h t ht).2 i hi)⟩

theorem safe_pure {a : α} (h : Q a s) : Safe C Q E (pure a) s := h

theorem safe_bind {f : α → Prog Op Ans ε β} {Q' : β → σ → Prop}
    (h : Safe C (fun a s => Safe C Q' E (f a) s) E p s) : Safe C Q' E (p >>= f) s := by
  induction p generalizing s with
  | ret a => exact h
  | throw e => exact h
  | call o k ih => exact fun t ht => ⟨(h t ht).1, fun i hi => ih _ ((h t ht).2 i hi)⟩

theorem safe_ite {c : Prop} [Decidable c] {q : Prog Op Ans ε α} (hp : c → Safe C Q E p s)
    (hq : ¬ c → Safe C Q E q s) : Safe C Q E (if c then p else q) s := by
  split
  · exact hp ‹_›
  · exact hq ‹_›

theorem safe_catch {h : ε → Prog Op Ans ε α}
    (hp : Safe C Q (fun e s => Safe C Q E (h e) s) p s) : Safe C Q E (tryCatch p h) s := by
  induction p generalizing s with
  | ret a => exact hp
  | throw e => exact hp
  | call o k ih => exact fun t ht => ⟨(hp t ht).1, fun i hi => ih _ ((hp t ht).2 i hi)⟩

theorem safe_handle {f : Except ε α → Prog Op Ans ε β} {Q' : β → σ → Prop}
    (h : Safe C (fun a s => Safe C Q' E (f (.ok a)) s) (fun e s => Safe C Q' E (f (.error e)) s)
      p s) : Safe C Q' E (p.handle f) s := by
  induction p generalizing s with
  | ret a => exact h
  | throw e => exact h
  | call o k ih => exact fun t ht => ⟨(h t ht).1, fun i hi => ih _ ((h t ht).2 i hi)⟩

theorem safe_ofExcept {r : Except ε α} (hok : ∀ a, r = .ok a → Q a s)
    (herr : ∀ e, r = .error e → E e s) : Safe C Q E (ofExcept r) s := by
  cases r with
  | ok a => exact hok a rfl
  | error e => exact herr e rfl

/-- One operation: its assertion holds wherever the others take the state, and each outcome ends
in its postcondition. -/
theorem safe_ask {o : Op} {Q : Ans o → σ → Prop} (hpt : ∀ t, C.rely s t → C.point o t)
    (hok : ∀ t, C.rely s t → ∀ i, C.allowed o i t → ∀ a, (C.exec o i t).2 = .ok a →
      Q a (C.exec o i t).1)
    (herr : ∀ t, C.rely s t → ∀ i, C.allowed o i t → ∀ e, (C.exec o i t).2 = .error e →
      E e (C.exec o i t).1) :
    Safe C Q E (ask o) s :=
  fun t ht => ⟨hpt t ht, fun i hi => safe_ofExcept (hok t ht i hi) (herr t ht i hi)⟩

/-- A loop: its invariant speaks of the items still to come. -/
theorem safe_forEach {f : β → Prog Op Ans ε Unit} {I : List β → σ → Prop}
    (hstep : ∀ b bs s, I (b :: bs) s → Safe C (fun _ => I bs) E (f b) s) :
    ∀ {bs : List β} {s : σ}, I bs s → Safe C (fun _ => I []) E (forEach f bs) s
  | [], _, h => h
  | b :: bs, s, h =>
    safe_bind (p := f b) ((hstep b bs s h).mono (fun _ _ h' => safe_forEach hstep h') fun _ _ => id)

theorem safe_of_uses {A : Op → Prop} {s : σ} (h : Uses A p) (hpt : ∀ o s, A o → C.point o s) :
    Safe C (fun _ _ => True) (fun _ _ => True) p s := by
  induction p generalizing s with
  | ret a => trivial
  | throw e => trivial
  | call o k ih => exact fun t _ => ⟨hpt o t h.1, fun i _ => ih _ (h.2 _)⟩

/-! ## Assertions the others keep -/

section Holds

variable {P : σ → Prop}

/-- From any state with `P` the program meets the contract and keeps `P`; it ends in `Q`. -/
def Holds (C : Contract Op Ans ε σ ι) (P : σ → Prop) (Q : α → σ → Prop) (p : Prog Op Ans ε α) :
    Prop :=
  ∀ s, P s → Safe C (fun a t => P t ∧ Q a t) (fun _ t => P t) p s

theorem holds_pure {a : α} (h : ∀ s, P s → Q a s) : Holds C P Q (pure a) := fun s hs => ⟨hs, h s hs⟩

theorem holds_throw {e : ε} : Holds C P Q (.throw e) := fun _ hs => hs

theorem Holds.mono {Q' : α → σ → Prop} (h : Holds C P Q p) (hQ : ∀ a s, P s → Q a s → Q' a s) :
    Holds C P Q' p :=
  fun s hs => (h s hs).mono (fun a t ht => ⟨ht.1, hQ a t ht.1 ht.2⟩) fun _ _ => id

theorem holds_bind {f : α → Prog Op Ans ε β} {R : β → σ → Prop} (hp : Holds C P Q p)
    (hf : ∀ a, Holds C (fun s => P s ∧ Q a s) R (f a)) : Holds C P R (p >>= f) := by
  intro s hs
  refine safe_bind ((hp s hs).mono (fun a t ht => ?_) fun _ _ => id)
  exact (hf a t ht).mono (fun _ _ hu => ⟨hu.1.1, hu.2⟩) fun _ _ hu => hu.1

/-- Going on from a program that keeps `P` to one that does not. -/
theorem Holds.then_safe {f : α → Prog Op Ans ε β} {R : β → σ → Prop} {E : ε → σ → Prop}
    (hp : Holds C P Q p) (hf : ∀ a s, P s → Q a s → Safe C R E (f a) s)
    (hE : ∀ e s, P s → E e s) (hs : P s) : Safe C R E (p >>= f) s :=
  safe_bind ((hp s hs).mono (fun a t ht => hf a t ht.1 ht.2) fun e t ht => hE e t ht)

/-- A bind whose first outcome does not matter. -/
theorem holds_then {f : α → Prog Op Ans ε β} {R : β → σ → Prop}
    (hp : Holds C P (fun _ _ => True) p) (hf : ∀ a, Holds C P R (f a)) : Holds C P R (p >>= f) :=
  fun s hs => safe_bind ((hp s hs).mono (fun a t ht => hf a t ht.1) fun _ _ => id)

theorem holds_catch {h : ε → Prog Op Ans ε α} (hp : Holds C P Q p) (hh : ∀ e, Holds C P Q (h e)) :
    Holds C P Q (tryCatch p h) :=
  fun s hs => safe_catch ((hp s hs).mono (fun _ _ => id) fun e t ht => hh e t ht)

theorem holds_ask {o : Op} {Q : Ans o → σ → Prop} (hP : ∀ s t, C.rely s t → P s → P t)
    (hpt : ∀ s, P s → C.point o s)
    (hexec : ∀ i s, P s → C.allowed o i s → P (C.exec o i s).1
      ∧ ∀ a, (C.exec o i s).2 = .ok a → Q a (C.exec o i s).1) : Holds C P Q (ask o) := by
  intro s hs
  refine safe_ask (fun t ht => hpt t (hP s t ht hs)) (fun t ht i hi a ha => ?_)
    fun t ht i hi _ _ => (hexec i t (hP s t ht hs) hi).1
  obtain ⟨hPt, hQ⟩ := hexec i t (hP s t ht hs) hi
  exact ⟨hPt, hQ a ha⟩

/-- What each operation of the program keeps, it keeps. -/
theorem holds_of_uses {A : Op → Prop} (h : Uses A p) (hP : ∀ s t, C.rely s t → P s → P t)
    (hpt : ∀ o s, A o → P s → C.point o s)
    (hexec : ∀ o i s, A o → P s → C.allowed o i s → P (C.exec o i s).1) :
    Holds C P (fun _ _ => True) p := by
  induction p with
  | ret a => exact fun _ hs => ⟨hs, trivial⟩
  | throw e => exact fun _ hs => hs
  | call o k ih =>
    intro s hs t ht
    have hPt := hP s t ht hs
    exact ⟨hpt o t h.1 hPt, fun i hi => ih _ (h.2 _) _ (hexec o i t h.1 hPt hi)⟩

theorem holds_forEach {f : β → Prog Op Ans ε Unit} {bs : List β}
    (h : ∀ b ∈ bs, Holds C P (fun _ _ => True) (f b)) :
    Holds C P (fun _ _ => True) (forEach f bs) := by
  induction bs with
  | nil => exact holds_pure fun _ _ => trivial
  | cons b bs ih =>
    intro s hs
    refine safe_bind (p := f b) ((h b List.mem_cons_self s hs).mono (fun _ t ht => ?_) fun _ _ => id)
    exact ih (fun c hc => h c (List.mem_cons_of_mem _ hc)) t ht.1

end Holds

end Safe

end Prog
