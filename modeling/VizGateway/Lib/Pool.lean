import VizGateway.Lib.Prog
import VizGateway.Lib.Runs

/-!
# Programs side by side

A pool is a shared state and the programs under way on it. Programs are started and die at any
moment; in one step one of them has one operation carried out. The outside moves the state too.
-/

/-- What a pool runs: the programs that can be started, how an operation is carried out on an input
the outside chooses, and what the outside does on its own. -/
structure PoolSystem (Op : Type) (Ans : Op → Type) (ε σ ρ ι μ : Type) where
  body : ρ → Prog Op Ans ε Unit
  exec : (o : Op) → ι → σ → σ × Except ε (Ans o)
  act : μ → σ → σ

inductive PoolEvent (ρ ι μ : Type)
  | start (r : ρ)
  | step (n : ℕ) (i : ι)
  | die (n : ℕ)
  | act (m : μ)

structure Pool (Op : Type) (Ans : Op → Type) (ε σ : Type) where
  shared : σ
  threads : List (Prog Op Ans ε Unit)

namespace Pool

variable {Op : Type} {Ans : Op → Type} {ε σ ρ ι μ : Type}

def step (S : PoolSystem Op Ans ε σ ρ ι μ) (w : Pool Op Ans ε σ) :
    PoolEvent ρ ι μ → Pool Op Ans ε σ
  | .start r => { w with threads := w.threads ++ [S.body r] }
  | .step n i =>
    match w.threads[n]? with
    | some (.call o k) =>
      { shared := (S.exec o i w.shared).1, threads := w.threads.set n (k (S.exec o i w.shared).2) }
    | _ => w
  | .die n => { w with threads := w.threads.eraseIdx n }
  | .act m => { w with shared := S.act m w.shared }

/-- The operation a thread stands at. -/
def standsAt (w : Pool Op Ans ε σ) (n : ℕ) : Option Op :=
  match w.threads[n]? with
  | some (.call o _) => some o
  | _ => none

theorem standsAt_eq_some {w : Pool Op Ans ε σ} {n : ℕ} {o : Op} :
    w.standsAt n = some o ↔ ∃ k, w.threads[n]? = some (.call o k) := by
  unfold standsAt
  constructor
  · intro h
    split at h
    · cases h
      exact ⟨_, ‹_›⟩
    · cases h
  · rintro ⟨k, h⟩
    rw [h]

theorem standsAt_of_length_le {w : Pool Op Ans ε σ} {n : ℕ} (h : w.threads.length ≤ n) :
    w.standsAt n = none := by
  unfold standsAt
  rw [List.getElem?_eq_none h]

/-- An invariant of the state together with an assertion on each program. -/
structure Inv (I : σ → Prop) (T : σ → Prog Op Ans ε Unit → Prop) (w : Pool Op Ans ε σ) : Prop where
  state : I w.shared
  threads : ∀ p ∈ w.threads, T w.shared p

variable {S : PoolSystem Op Ans ε σ ρ ι μ} {I : σ → Prop} {T : σ → Prog Op Ans ε Unit → Prop}
  {w : Pool Op Ans ε σ}

theorem inv_start {r : ρ} (h : Inv I T w) (hr : T w.shared (S.body r)) :
    Inv I T (w.step S (.start r)) := by
  refine ⟨h.state, fun p hp => ?_⟩
  rcases List.mem_append.1 hp with hp | hp
  · exact h.threads p hp
  · rw [List.mem_singleton.1 hp]
    exact hr

theorem inv_die {n : ℕ} (h : Inv I T w) : Inv I T (w.step S (.die n)) :=
  ⟨h.state, fun p hp => h.threads p (List.mem_of_mem_eraseIdx hp)⟩

theorem inv_act {m : μ} (h : Inv I T w) (hI : I (S.act m w.shared))
    (hT : ∀ p ∈ w.threads, T w.shared p → T (S.act m w.shared) p) :
    Inv I T (w.step S (.act m)) :=
  ⟨hI, fun p hp => hT p hp (h.threads p hp)⟩

/-- One operation of one thread: the state, the thread itself and every other thread. -/
theorem inv_step {n : ℕ} {i : ι} (h : Inv I T w)
    (hself : ∀ o k, w.threads[n]? = some (.call o k) → T w.shared (.call o k) →
      I (S.exec o i w.shared).1 ∧ T (S.exec o i w.shared).1 (k (S.exec o i w.shared).2)
        ∧ ∀ m p, m ≠ n → w.threads[m]? = some p → T w.shared p → T (S.exec o i w.shared).1 p) :
    Inv I T (w.step S (.step n i)) := by
  simp only [step]
  split
  case h_2 => exact h
  case h_1 o k hn =>
    obtain ⟨hI, hT, hother⟩ := hself o k hn (h.threads _ (List.mem_of_getElem? hn))
    refine ⟨hI, fun p hp => ?_⟩
    obtain ⟨m, hm⟩ := List.getElem?_of_mem hp
    by_cases hmn : m = n
    · subst hmn
      rw [List.getElem?_set_self (List.getElem?_eq_some_iff.1 hn).1] at hm
      cases hm
      exact hT
    · rw [List.getElem?_set_ne (Ne.symm hmn)] at hm
      exact hother m p hmn hm (h.threads p (List.mem_of_getElem? hm))

/-! ## The threads that were there first -/

/-- All threads but at most `n` of the first meet the assertion. -/
def Late (T : σ → Prog Op Ans ε Unit → Prop) (n : ℕ) (w : Pool Op Ans ε σ) : Prop :=
  ∃ old new, w.threads = old ++ new ∧ old.length ≤ n ∧ ∀ p ∈ new, T w.shared p

section Late

variable {n : ℕ}

theorem late_self (w : Pool Op Ans ε σ) : Late T w.threads.length w :=
  ⟨w.threads, [], by simp, le_rfl, by simp⟩

theorem late_start {r : ρ} (h : Late T n w) (hr : T w.shared (S.body r)) :
    Late T n (w.step S (.start r)) := by
  obtain ⟨old, new, hw, hn, hnew⟩ := h
  refine ⟨old, new ++ [S.body r], by simp [step, hw], hn, fun p hp => ?_⟩
  rcases List.mem_append.1 hp with hp | hp
  · exact hnew p hp
  · rw [List.mem_singleton.1 hp]
    exact hr

theorem late_die {m : ℕ} (h : Late T n w) : Late T n (w.step S (.die m)) := by
  obtain ⟨old, new, hw, hn, hnew⟩ := h
  rcases lt_or_ge m old.length with hm | hm
  · refine ⟨old.eraseIdx m, new, ?_, ?_, hnew⟩
    · simp only [step, hw, List.eraseIdx_append_of_lt_length hm]
    · have := List.length_eraseIdx_le old m
      omega
  · refine ⟨old, new.eraseIdx (m - old.length), ?_, hn, fun p hp => ?_⟩
    · simp only [step, hw, List.eraseIdx_append_of_length_le hm]
    · exact hnew p (List.mem_of_mem_eraseIdx hp)

theorem late_act {m : μ} (h : Late T n w) (hT : ∀ p, T w.shared p → T (S.act m w.shared) p) :
    Late T n (w.step S (.act m)) := by
  obtain ⟨old, new, hw, hn, hnew⟩ := h
  exact ⟨old, new, hw, hn, fun p hp => hT p (hnew p hp)⟩

/-- One operation of one thread: the late ones keep the assertion, the thread among them or not. -/
theorem late_step {m : ℕ} {i : ι} (h : Late T n w)
    (hself : ∀ o k, T w.shared (.call o k) →
      T (S.exec o i w.shared).1 (k (S.exec o i w.shared).2))
    (hother : ∀ o p, w.standsAt m = some o → T w.shared p → T (S.exec o i w.shared).1 p) :
    Late T n (w.step S (.step m i)) := by
  obtain ⟨old, new, hw, hn, hnew⟩ := h
  simp only [step]
  split
  case h_2 => exact ⟨old, new, hw, hn, hnew⟩
  case h_1 o k hm =>
    have hat : w.standsAt m = some o := standsAt_eq_some.2 ⟨k, hm⟩
    rw [hw] at hm ⊢
    rcases lt_or_ge m old.length with hlt | hle
    · refine ⟨old.set m _, new, List.set_append_left _ _ hlt, by simpa using hn, fun p hp => ?_⟩
      exact hother o p hat (hnew p hp)
    · refine ⟨old, new.set (m - old.length) _, List.set_append_right _ _ hle, hn, fun p hp => ?_⟩
      rw [List.getElem?_append_right hle] at hm
      rcases List.mem_or_eq_of_mem_set hp with hp | rfl
      · exact hother o p hat (hnew p hp)
      · exact hself o k (hnew _ (List.mem_of_getElem? hm))

end Late

/-! ## Threads under a contract -/

section Guarded

variable {C : ρ → Prog.Contract Op Ans ε σ ι} {s t : σ}
  {q : Prog (ρ × Op) (fun x => Ans x.2) ε Unit}

/-- The thread is a program under its name that meets the contract of that name. -/
def Guarded (C : ρ → Prog.Contract Op Ans ε σ ι) (s : σ)
    (q : Prog (ρ × Op) (fun x => Ans x.2) ε Unit) : Prop :=
  ∃ r p, q = p.tag r ∧ Prog.Safe (C r) (fun _ _ => True) (fun _ _ => True) p s

theorem guarded_call {x : ρ × Op} {k : Except ε (Ans x.2) → Prog (ρ × Op) (fun x => Ans x.2) ε Unit}
    (h : Guarded C s (.call x k)) : (C x.1).point x.2 s
      ∧ ∀ i, (C x.1).allowed x.2 i s →
        Guarded C ((C x.1).exec x.2 i s).1 (k ((C x.1).exec x.2 i s).2) := by
  obtain ⟨r, p, hq, hp⟩ := h
  cases p with
  | ret a => cases hq
  | throw e => cases hq
  | call o k' =>
    cases hq
    exact ⟨hp.point, fun i hi => ⟨r, _, rfl, hp.step hi⟩⟩

theorem Guarded.stable (h : Guarded C s q) (hst : ∀ x k, q = .call x k → (C x.1).rely s t) :
    Guarded C t q := by
  obtain ⟨r, p, rfl, hp⟩ := h
  refine ⟨r, p, rfl, ?_⟩
  cases p with
  | ret a => trivial
  | throw e => trivial
  | call o k =>
    exact hp.stable (fun _ _ _ _ h => h) (fun _ _ _ _ h => h) (hst (r, o) _ rfl)

variable {S : PoolSystem (ρ × Op) (fun x => Ans x.2) ε σ ρ ι μ}
  {w : Pool (ρ × Op) (fun x => Ans x.2) ε σ}

/-- One operation of a thread: it is allowed at its point, keeps the invariant and is what the
other threads rely on. -/
theorem guarded_step {n : ℕ} {i : ι} (h : Inv I (Guarded C) w)
    (hexec : ∀ x i s, S.exec x i s = (C x.1).exec x.2 i s)
    (hself : ∀ x, w.standsAt n = some x → (C x.1).point x.2 w.shared →
      (C x.1).allowed x.2 i w.shared ∧ I (S.exec x i w.shared).1
        ∧ ∀ m y, m ≠ n → w.standsAt m = some y → (C y.1).rely w.shared (S.exec x i w.shared).1) :
    Inv I (Guarded C) (w.step S (.step n i)) := by
  refine inv_step h fun x k hn hx => ?_
  obtain ⟨hpoint, hnext⟩ := guarded_call hx
  obtain ⟨hallowed, hI, hrely⟩ := hself x (standsAt_eq_some.2 ⟨k, hn⟩) hpoint
  refine ⟨hI, ?_, fun m p hmn hm hp => hp.stable fun y k' hy => ?_⟩
  · rw [hexec]
    exact hnext i hallowed
  · subst hy
    exact hrely m y hmn (standsAt_eq_some.2 ⟨k', hm⟩)

end Guarded

end Pool
