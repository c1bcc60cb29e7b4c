import VizGateway.Lib.Prog
import VizGateway.Lib.Runs

/-!
# Calls that share a state

Any number of calls is made on a shared state, each a program that returns an answer of its own
type. In one step one call has its next operation carried out; a call whose process dies goes no
further. The `n`th call made keeps its number.
-/

/-- What calls can be made, and how an operation is carried out on an input the outside chooses. -/
structure SessionSystem (Op : Type) (Ans : Op → Type) (ε σ ρ : Type) (Out : ρ → Type) (ι : Type) where
  body : (r : ρ) → Prog Op Ans ε (Out r)
  exec : (o : Op) → ι → σ → σ × Except ε (Ans o)

inductive SessionEvent (ρ : Type) (ι : Type)
  | call (r : ρ)
  | step (n : ℕ) (i : ι)
  | die (n : ℕ)

/-- The shared state and the calls made so far, each with what it has left to do. -/
structure Sessions (Op : Type) (Ans : Op → Type) (ε σ ρ : Type) (Out : ρ → Type) where
  shared : σ
  calls : List (Option ((r : ρ) × Prog Op Ans ε (Out r)))

namespace Sessions

variable {Op : Type} {Ans : Op → Type} {ε σ ρ : Type} {Out : ρ → Type} {ι : Type}
  (S : SessionSystem Op Ans ε σ ρ Out ι)

/-- The live call of a number. -/
def live (w : Sessions Op Ans ε σ ρ Out) (n : ℕ) : Option ((r : ρ) × Prog Op Ans ε (Out r)) :=
  (w.calls[n]?).join

def step (w : Sessions Op Ans ε σ ρ Out) : SessionEvent ρ ι → Sessions Op Ans ε σ ρ Out
  | .call r => { w with calls := w.calls ++ [some ⟨r, S.body r⟩] }
  | .step n i =>
    match w.live n with
    | some ⟨r, .call o k⟩ =>
      { shared := (S.exec o i w.shared).1
        calls := w.calls.set n (some ⟨r, k (S.exec o i w.shared).2⟩) }
    | _ => w
  | .die n => { w with calls := w.calls.set n none }

variable {S} {w : Sessions Op Ans ε σ ρ Out} {n m : ℕ} {i : ι} {r : ρ}

theorem lt_of_live {c : (r : ρ) × Prog Op Ans ε (Out r)} (h : w.live n = some c) :
    n < w.calls.length := by
  unfold live at h
  by_contra hn
  rw [List.getElem?_eq_none (by omega)] at h
  cases h

theorem step_at {o : Op} {k : Except ε (Ans o) → Prog Op Ans ε (Out r)}
    (h : w.live n = some ⟨r, .call o k⟩) : w.step S (.step n i) =
      { shared := (S.exec o i w.shared).1
        calls := w.calls.set n (some ⟨r, k (S.exec o i w.shared).2⟩) } := by
  simp only [step, h]

theorem live_step {o : Op} {k : Except ε (Ans o) → Prog Op Ans ε (Out r)}
    (h : w.live n = some ⟨r, .call o k⟩) :
    (w.step S (.step n i)).live n = some ⟨r, k (S.exec o i w.shared).2⟩ := by
  rw [step_at h]
  simp only [live, List.getElem?_set_self (lt_of_live h), Option.join_some]

/-- What a step does: a call is made, or carries out an operation, or nothing goes on. -/
theorem step_cases (w : Sessions Op Ans ε σ ρ Out) (e : SessionEvent ρ ι) :
    (∃ n i r o k, e = .step n i ∧ w.live n = some ⟨r, .call o k⟩) ∨
      (w.step S e).shared = w.shared ∧ ∀ n r p, (w.step S e).live n = some ⟨r, p⟩ →
        w.live n = some ⟨r, p⟩ ∨ n = w.calls.length ∧ e = .call r ∧ p = S.body r := by
  rcases e with r | ⟨n, i⟩ | n
  · refine .inr ⟨rfl, fun n r' p h => ?_⟩
    simp only [step, live, List.getElem?_append] at h ⊢
    split_ifs at h with hn
    · exact .inl h
    · rcases hm : n - w.calls.length with _ | m
      · rw [hm] at h
        cases h
        exact .inr ⟨by omega, rfl, rfl⟩
      · rw [hm] at h
        cases h
  · rcases h : w.live n with _ | ⟨r, p⟩
    · exact .inr ⟨by simp [step, h], fun n r p hp => .inl (by simpa [step, h] using hp)⟩
    · rcases p with a | e | ⟨o, k⟩
      · exact .inr ⟨by simp [step, h], fun n r p hp => .inl (by simpa [step, h] using hp)⟩
      · exact .inr ⟨by simp [step, h], fun n r p hp => .inl (by simpa [step, h] using hp)⟩
      · exact .inl ⟨n, i, r, o, k, rfl, h⟩
  · refine .inr ⟨rfl, fun m r p h => .inl ?_⟩
    simp only [step, live, List.getElem?_set] at h ⊢
    split_ifs at h with hnm
    all_goals first | exact h | cases h

/-- A call stays where it is while the others go on. -/
theorem live_step_of_ne {e : SessionEvent ρ ι} {c : (r : ρ) × Prog Op Ans ε (Out r)}
    (hlive : w.live n = some c) (hstep : ∀ i, e ≠ .step n i) (hdie : e ≠ .die n) :
    (w.step S e).live n = some c := by
  have hlt := lt_of_live hlive
  rcases e with r | ⟨m, i⟩ | m
  · simp only [step, live, List.getElem?_append_left hlt]
    exact hlive
  · have hm : m ≠ n := fun h => hstep i (h ▸ rfl)
    simp only [step]
    split
    · simp only [live, List.getElem?_set_ne hm]
      exact hlive
    · exact hlive
  · have hm : m ≠ n := fun h => hdie (h ▸ rfl)
    simp only [step, live, List.getElem?_set_ne hm]
    exact hlive

theorem live_die : (w.step S (.die n)).live n = none := by
  simp only [step, live, List.getElem?_set]
  split_ifs <;> simp_all

/-- A dead call stays dead. -/
theorem live_none {e : SessionEvent ρ ι} (hlt : n < w.calls.length) (h : w.live n = none) :
    (w.step S e).live n = none := by
  rcases e with r | ⟨m, i⟩ | m
  · simp only [step, live, List.getElem?_append_left hlt]
    exact h
  · simp only [step]
    split
    · next hm =>
      by_cases hmn : m = n
      · rw [hmn, h] at hm
        cases hm
      · simp only [live, List.getElem?_set_ne hmn]
        exact h
    · exact h
  · simp only [step, live, List.getElem?_set]
    split_ifs
    · rfl
    · rfl
    · exact h

/-- A call at an operation that returned later has carried that operation out. -/
theorem carried_out {es : List (SessionEvent ρ ι)} {o : Op} {r' : ρ} {a : Out r'}
    {k : Except ε (Ans o) → Prog Op Ans ε (Out r)} (h : w.live n = some ⟨r, .call o k⟩)
    (hret : (Runs.run (step S) w es).live n = some ⟨r', .ret a⟩) :
    ∃ pre i post, es = pre ++ .step n i :: post ∧
      (Runs.run (step S) w pre).live n = some ⟨r, .call o k⟩ := by
  induction es generalizing w with
  | nil =>
    rw [Runs.run_nil, h] at hret
    cases hret
  | cons e es ih =>
    by_cases hstep : ∃ i, e = .step n i
    · obtain ⟨i, rfl⟩ := hstep
      exact ⟨[], i, es, rfl, h⟩
    · have hne : ∀ i, e ≠ .step n i := fun i hi => hstep ⟨i, hi⟩
      by_cases hdie : e = .die n
      · -- a dead call never returns
        exfalso
        subst hdie
        have hdead : ∀ (es : List (SessionEvent ρ ι)) (v : Sessions Op Ans ε σ ρ Out),
            n < v.calls.length → v.live n = none → (Runs.run (step S) v es).live n = none := by
          intro es
          induction es with
          | nil => exact fun v _ hv => hv
          | cons e es ih =>
            intro v hlt hv
            refine ih _ ?_ (live_none hlt hv)
            rcases e with r | ⟨m, i⟩ | m
            · simp only [step, List.length_append]
              omega
            · simp only [step]
              split <;> simpa using hlt
            · simpa [step] using hlt
        rw [Runs.run_cons, hdead es _ (by simpa [step] using lt_of_live h) live_die] at hret
        cases hret
      · obtain ⟨pre, i, post, rfl, hpre⟩ := ih (live_step_of_ne h hne hdie) hret
        exact ⟨e :: pre, i, post, rfl, hpre⟩

/-! ## Schedules without end -/

/-- The state after the first `t` events of a schedule. -/
def after (S : SessionSystem Op Ans ε σ ρ Out ι) (w : Sessions Op Ans ε σ ρ Out)
    (es : ℕ → SessionEvent ρ ι) (t : ℕ) : Sessions Op Ans ε σ ρ Out :=
  Runs.run (step S) w ((List.range t).map es)

theorem after_succ (es : ℕ → SessionEvent ρ ι) (t : ℕ) :
    after S w es (t + 1) = (after S w es t).step S (es t) := by
  simp [after, List.range_succ]

/-- A call that is always scheduled again ends. -/
theorem ends {es : ℕ → SessionEvent ρ ι} (hfair : ∀ t, ∃ u ≥ t, ∃ i, es u = .step n i)
    (hdie : ∀ t, es t ≠ .die n) {t : ℕ} {p : Prog Op Ans ε (Out r)}
    (h : (after S w es t).live n = some ⟨r, p⟩) :
    ∃ u ≥ t, ∃ q, (after S w es u).live n = some ⟨r, q⟩ ∧ q.running = none := by
  induction p generalizing t with
  | ret a => exact ⟨t, le_rfl, _, h, rfl⟩
  | throw e => exact ⟨t, le_rfl, _, h, rfl⟩
  | call o k ih =>
    -- up to its next turn the call stays where it is
    have hstays : ∀ d, (∀ c < d, ∀ i, es (t + c) ≠ .step n i) →
        (after S w es (t + d)).live n = some ⟨r, .call o k⟩ := by
      intro d
      induction d with
      | zero => exact fun _ => h
      | succ d ihd =>
        intro hquiet
        rw [← Nat.add_assoc, after_succ]
        exact live_step_of_ne (ihd fun c hc => hquiet c (by omega)) (hquiet d (by omega)) (hdie _)
    classical
    have hturn : ∃ d i, es (t + d) = .step n i := by
      obtain ⟨u, hu, i, hi⟩ := hfair t
      exact ⟨u - t, i, by rwa [Nat.add_sub_of_le hu]⟩
    obtain ⟨i, hi⟩ := Nat.find_spec hturn
    have hnow := hstays (Nat.find hturn) fun c hc i hci => Nat.find_min hturn hc ⟨i, hci⟩
    have hnext := live_step (S := S) (i := i) hnow
    rw [← hi, ← after_succ] at hnext
    obtain ⟨u, hu, q, hq⟩ := ih _ hnext
    exact ⟨u, by omega, q, hq⟩

/-! ## Where a call can stand -/

/-- What a program may have left to do after some of its operations. -/
inductive Residual {α : Type} (p : Prog Op Ans ε α) : Prog Op Ans ε α → Prop
  | refl : Residual p p
  | next {o : Op} {k : Except ε (Ans o) → Prog Op Ans ε α} (x : Except ε (Ans o)) :
    Residual p (.call o k) → Residual p (k x)

/-- Every live call stands somewhere in its own program. -/
def OnTrack (S : SessionSystem Op Ans ε σ ρ Out ι) (w : Sessions Op Ans ε σ ρ Out) : Prop :=
  ∀ n r p, w.live n = some ⟨r, p⟩ → Residual (S.body r) p

theorem onTrack_step (h : OnTrack S w) (e : SessionEvent ρ ι) : OnTrack S (w.step S e) := by
  intro n r p hp
  rcases step_cases (S := S) w e with ⟨m, i, r', o, k, rfl, hm⟩ | ⟨-, hlive⟩
  · rw [step_at hm] at hp
    simp only [live, List.getElem?_set] at hp
    split_ifs at hp with hmn hlt
    · cases hp
      exact .next _ (h m _ _ hm)
    · cases hp
    · exact h n r p hp
  · rcases hlive n r p hp with hp | ⟨-, -, rfl⟩
    · exact h n r p hp
    · exact .refl

theorem onTrack_nil {s : σ} : OnTrack S (⟨s, []⟩ : Sessions Op Ans ε σ ρ Out) := by
  intro n r p h
  cases h

end Sessions
