import VizGateway.Proofs.PauseLatch

/-!
# Recon's loop fails closed

While no store call outside the guarded ones throws, every iteration reaches every chain's check and
both counters. One error elsewhere leaves the iteration before either is updated.
-/

namespace VizGateway

open Text PauseLatch

namespace ReconLoop

/-! ## Which calls throw -/

/-- What recon's checks pause with. -/
def OfChecks (reason : String) : Prop :=
  reason ≠ "" ∧ startsWith reason gramReserveReasonPrefix = false

theorem ofChecks_of_head {s : String} {c : Char} (hs : s.toList.head? = some c) (hc : c ≠ 'G') :
    OfChecks s := by
  constructor
  · rintro rfl
    simp at hs
  · by_contra h
    obtain ⟨r, rfl⟩ := startsWith_iff.1 (Bool.eq_true_of_not_eq_false h)
    simp [gramReserveReasonPrefix] at hs
    exact hc hs.symm

/-- The calls an answered iteration is answered. -/
def Answers (op : LatchOp) : Prop := op.inMemory = true ∨ op.guarded = false

theorem answers_pause {reason : String} (h : OfChecks reason) :
    Answers (.raise reason) ∧ Answers (.setPauseReason reason) :=
  ⟨.inr h.2, .inr (by simp [LatchOp.guarded, h.1, h.2])⟩

theorem steady_pause {reason : String} (h : OfChecks reason) :
    Prog.Steady Answers (Latch.pause reason) :=
  Prog.steady_bind (Prog.steady_ask (answers_pause h).1) fun _ =>
    Prog.steady_ask (answers_pause h).2

theorem ofChecks_breach {r : Recon} {locked circulating unsweptFees : ℤ} {minFee : Option ℤ}
    {reason : String} (h : r.breach locked circulating unsweptFees minFee = some reason) :
    OfChecks reason := by
  have hbacked : ∀ {reason}, Recon.breach.backed r locked circulating unsweptFees = some reason →
      OfChecks reason := by
    intro reason h
    unfold Recon.breach.backed at h
    dsimp only at h
    split_ifs at h
    · cases h
      exact ofChecks_of_head (c := 'o') (by simp [toString]) (by decide)
    · cases h
      exact ofChecks_of_head (c := 'u') (by simp [toString]) (by decide)
  unfold Recon.breach at h
  dsimp only at h
  split at h
  · split_ifs at h
    · cases h
      exact ofChecks_of_head (c := 'p') (by simp [toString]) (by decide)
    · exact hbacked h
  · exact hbacked h

theorem steady_check (r : Recon) : Prog.Steady Answers r.check := by
  refine Prog.steady_bind (Prog.steady_catch fun _ => trivial) fun settled => ?_
  cases settled with
  | none => trivial
  | some b =>
    dsimp only
    split
    · trivial
    · refine Prog.steady_bind (p := r.minFee) ?_ fun minFee => ?_
      · unfold Recon.minFee
        split
        · exact Prog.steady_ask (.inr rfl)
        · trivial
      · split
        · rename_i hbreach
          exact Prog.steady_bind (steady_pause (ofChecks_breach hbreach)) fun _ => trivial
        · trivial

theorem steady_onCheckResult (r : Recon) (n : ℕ) (result : Option Bool) :
    Prog.Steady Answers (r.onCheckResult n result) := by
  cases result with
  | none =>
    refine Prog.steady_bind (Prog.steady_ask (.inl rfl)) fun failures => ?_
    split_ifs
    · exact steady_pause (ofChecks_of_head (c := 'r') (by simp [toString, reconStalledReasonPrefix])
        (by decide))
    · trivial
  | some _ => exact Prog.steady_ask (.inl rfl)

theorem steady_checkAll : ∀ (rs : List Recon) (n : ℕ),
    Prog.Steady Answers (ReconOpts.checkAll n rs)
  | [], _ => trivial
  | r :: rs, n =>
    Prog.steady_bind (steady_check r) fun _ => Prog.steady_bind (steady_onCheckResult r n _) fun _ =>
      Prog.steady_bind (steady_checkAll rs (n + 1)) fun _ => trivial

theorem steady_coverage (o : ReconOpts) : Prog.Steady Answers o.enforceActiveChainCoverage := by
  refine Prog.steady_bind (Prog.steady_ask (.inr rfl)) fun active => ?_
  split
  · trivial
  · refine steady_pause (ofChecks_of_head (c := '[') ?_ (by decide))
    simp only [toString, String.toList_append, List.append_assoc, List.head?_append]
    rfl

theorem answered {it : Iteration} (hit : it.Answered) (op : LatchOp) (s : IterationState)
    (h : Answers op) : ∃ a, (op.execIn it s).2 = .ok a := by
  rcases h with hmem | hguard
  · simp [LatchOp.execIn, LatchOp.exec, hmem]
  · cases hmem : op.inMemory with
    | true => simp [LatchOp.execIn, LatchOp.exec, hmem]
    | false => simp [LatchOp.execIn, LatchOp.exec, hmem, hit s.awaits op hmem hguard]

/-! ## What a check leaves alone -/

/-- From `s` to `t` only the counters at the places `P` moved, and no pause was taken back. -/
structure Frame (P : ℕ → Prop) (s t : IterationState) : Prop where
  length : t.latch.failures.length = s.latch.failures.length
  failures : ∀ m, ¬ P m → t.latch.failures[m]? = s.latch.failures[m]?
  okStreak : t.latch.okStreak = s.latch.okStreak
  paused : s.latch.paused = true → t.latch.paused = true
  cleared : t.cleared = s.cleared

variable {P : ℕ → Prop}

theorem Frame.refl (s : IterationState) : Frame P s s := ⟨rfl, fun _ _ => rfl, rfl, id, rfl⟩

theorem Frame.trans {s t u : IterationState} (h : Frame P s t) (h' : Frame P t u) :
    Frame P s u where
  length := h'.length.trans h.length
  failures m hm := (h'.failures m hm).trans (h.failures m hm)
  okStreak := h'.okStreak.trans h.okStreak
  paused hs := h'.paused (h.paused hs)
  cleared := h'.cleared.trans h.cleared

theorem Frame.mono {P' : ℕ → Prop} {s t : IterationState} (h : Frame P s t)
    (hP : ∀ m, P m → P' m) : Frame P' s t :=
  { h with failures := fun m hm => h.failures m fun hp => hm (hP m hp) }

def Touches (P : ℕ → Prop) : LatchOp → Prop
  | .failed n | .read n => P n
  | op => Asks op

theorem touches_of_asks {op : LatchOp} (h : Asks op) : Touches P op := by
  cases op <;> first | exact h | exact h.elim

theorem execIn_latch (it : Iteration) (op : LatchOp) (s : IterationState) :
    (op.execIn it s).1.latch = s.latch ∨ ∃ i, (op.execIn it s).1.latch = (op.run i s.latch).1 := by
  unfold LatchOp.execIn LatchOp.exec
  dsimp only
  split
  · exact .inl rfl
  · exact .inr ⟨_, rfl⟩

theorem execIn_cleared (it : Iteration) (op : LatchOp) (h : op ≠ .lower true)
    (s : IterationState) : (op.execIn it s).1.cleared = s.cleared := by
  simp [LatchOp.execIn, h]

theorem frame_exec (it : Iteration) (op : LatchOp) (s : IterationState) (h : Touches P op) :
    Frame P s (op.execIn it s).1 := by
  have hcleared := execIn_cleared it op (by rintro rfl; exact h) s
  rcases execIn_latch it op s with hsame | ⟨i, hrun⟩
  · exact ⟨by rw [hsame], fun _ _ => by rw [hsame], by rw [hsame], by rw [hsame]; exact id, hcleared⟩
  · refine ⟨?_, fun m hm => ?_, ?_, ?_, hcleared⟩ <;> rw [hrun]
    · cases op <;> simp [LatchOp.run]
      split <;> rfl
    · have hne : ∀ n, P n → n ≠ m := fun n hn hnm => hm (hnm ▸ hn)
      cases op with
      | failed n => simp [LatchOp.run, List.getElem?_modify, hne n h]
      | read n => simp [LatchOp.run, List.getElem?_set, hne n h]
      | _ => first | rfl | exact h.elim
    · cases op <;> first | rfl | exact h.elim
    · cases op <;> first | exact id | exact fun _ => rfl | exact h.elim

theorem frame_of_uses (it : Iteration) {α : Type} {p : LatchM α} (h : Prog.Uses (Touches P) p)
    (s : IterationState) : Frame P s (p.eval (LatchOp.execIn it) s).1 :=
  Prog.eval_of_uses Frame.refl Frame.trans (frame_exec it) h s

/-! ## The chain just checked -/

/-- The counter after a check. -/
def counted : Option Bool → ℕ → ℕ
  | none, failures => failures + 1
  | some _, _ => 0

section Answered

variable {it : Iteration} (hit : it.Answered)

include hit

theorem paused_pause {reason : String} (h : OfChecks reason) (s : IterationState) :
    ((Latch.pause reason).eval (LatchOp.execIn it) s).1.latch.paused = true := by
  have hok : (it.await s.awaits (.raise reason)).fails = none := hit _ _ rfl h.2
  have hraise : ((LatchOp.raise reason).execIn it s).1.latch.paused = true := by
    simp [LatchOp.execIn, LatchOp.exec, LatchOp.inMemory, LatchOp.run, hok]
  have hpause : Prog.Uses (Touches fun _ => False) (Latch.pause reason) :=
    uses_pause trivial trivial
  exact (frame_of_uses it (hpause.2 _) _).paused hraise

variable (it) in
omit hit in
/-- A failed check is counted before recon decides whether to pause. -/
theorem eval_onCheckResult_none (r : Recon) (n : ℕ) (s : IterationState) :
    ∃ t : IterationState, t.latch = { s.latch with failures := s.latch.failures.modify n (· + 1) } ∧
      (r.onCheckResult n none).eval (LatchOp.execIn it) s =
        (let failures := (s.latch.failures.modify n (· + 1)).getD n 0
        if r.maxConsecutiveFailures ≤ failures then
          Latch.pause s!"{reconStalledReasonPrefix} ({failures} consecutive failures)"
        else pure ()).eval (LatchOp.execIn it) t :=
  ⟨_, rfl, rfl⟩

theorem eval_onCheckResult (r : Recon) {n failures : ℕ} {s : IterationState}
    (hn : s.latch.failures[n]? = some failures) (result : Option Bool) :
    let t := ((r.onCheckResult n result).eval (LatchOp.execIn it) s).1
    t.latch.failures[n]? = some (counted result failures) ∧
      (result = none → r.maxConsecutiveFailures ≤ failures + 1 → t.latch.paused = true) := by
  obtain ⟨hlt, -⟩ := List.getElem?_eq_some_iff.1 hn
  cases result with
  | some b =>
    refine ⟨?_, by rintro ⟨⟩⟩
    change (s.latch.failures.set n 0)[n]? = some 0
    simp [hlt]
  | none =>
    obtain ⟨t, ht, heval⟩ := eval_onCheckResult_none it r n s
    rw [heval]
    have hcount : t.latch.failures[n]? = some (failures + 1) := by
      simp [ht, hn]
    have hget : (s.latch.failures.modify n (· + 1)).getD n 0 = failures + 1 := by
      simp [List.getD, hn]
    rw [hget]
    dsimp only
    split_ifs with hmax
    · refine ⟨?_, fun _ _ => paused_pause hit ?_ _⟩
      · refine Eq.trans ((frame_of_uses it (P := fun _ => False) ?_ _).failures n id) hcount
        exact uses_pause trivial trivial
      · exact ofChecks_of_head (c := 'r') (by simp [toString, reconStalledReasonPrefix]) (by decide)
    · exact ⟨hcount, fun _ hle => absurd hle hmax⟩

/-- A part of the turn that does not throw. -/
theorem eval_part {α : Type} {p : LatchM α} (hs : Prog.Steady Answers p)
    (hu : Prog.Uses (Touches P) p) (s : IterationState) :
    ∃ t a, p.eval (LatchOp.execIn it) s = (t, .ok a) ∧ Frame P s t := by
  obtain ⟨a, ha⟩ := Prog.eval_steady (answered hit) hs s
  exact ⟨_, a, Prod.ext rfl ha, frame_of_uses it hu s⟩

omit hit in
theorem checkAll_append (as bs : List Recon) (k : ℕ) :
    ReconOpts.checkAll k (as ++ bs) = (do
      let a ← ReconOpts.checkAll k as
      let b ← ReconOpts.checkAll (k + as.length) bs
      pure (a && b)) := by
  induction as generalizing k with
  | nil =>
    simp only [List.nil_append, ReconOpts.checkAll, Prog.pure_bind, Bool.true_and, List.length_nil,
      add_zero]
    exact (Prog.bind_pure _).symm
  | cons r as ih =>
    have hk : k + (as.length + 1) = k + 1 + as.length := by omega
    simp only [List.cons_append, ReconOpts.checkAll, ih, Prog.bind_bind, Prog.pure_bind,
      List.length_cons, hk, Bool.and_assoc]

/-- The turn up to the reserve check: what it says of the chains and does to their counters. -/
theorem eval_checks (o : ReconOpts) {s : IterationState}
    (hlen : s.latch.failures.length = o.recons.length) :
    ∃ t allOk, (o.enforceActiveChainCoverage >>= fun _ => ReconOpts.checkAll 0 o.recons).eval
        (LatchOp.execIn it) s = (t, .ok allOk) ∧ Frame (fun _ => True) s t ∧
      ∀ n r, o.recons[n]? = some r → ∃ result failures,
        ((o.upTo n r).eval (LatchOp.execIn it) s).2 = .ok result ∧ (allOk = true → result = some true) ∧
        s.latch.failures[n]? = some failures ∧ t.latch.failures[n]? = some (counted result failures) ∧
        (result = none → r.maxConsecutiveFailures ≤ failures + 1 → t.latch.paused = true) := by
  obtain ⟨s₁, ⟨⟩, h₁, hf₁⟩ := eval_part hit (P := fun _ => False) (steady_coverage o)
    (uses_coverage o fun _ => touches_of_asks) s
  obtain ⟨t, allOk, ht, hft⟩ := eval_part hit (P := fun _ => True) (steady_checkAll o.recons 0)
    (uses_checkAll (fun _ => touches_of_asks) _ _ fun _ _ _ => ⟨trivial, trivial⟩) s₁
  have hrun : (o.enforceActiveChainCoverage >>= fun _ => ReconOpts.checkAll 0 o.recons).eval
      (LatchOp.execIn it) s = (t, .ok allOk) := by
    rw [Prog.eval_bind_ok _ h₁, ht]
  refine ⟨t, allOk, hrun, (hf₁.mono fun _ => False.elim).trans hft, fun n r hr => ?_⟩
  obtain ⟨hn, hget⟩ := List.getElem?_eq_some_iff.1 hr
  have hlt : n < s₁.latch.failures.length := by rw [hf₁.length, hlen]; exact hn
  have htake : (o.recons.take n).length = n := by simp; omega
  have hsplit : o.recons = o.recons.take n ++ r :: o.recons.drop (n + 1) := by
    rw [← hget, ← List.drop_eq_getElem_cons hn, List.take_append_drop]
  obtain ⟨s₂, a, h₂, hf₂⟩ := eval_part hit (P := (· < n)) (steady_checkAll (o.recons.take n) 0)
    (uses_checkAll (fun _ => touches_of_asks) _ _ fun m _ hm => by
      rw [htake, zero_add] at hm
      exact ⟨hm, hm⟩) s₁
  obtain ⟨s₃, result, h₃, hf₃⟩ := eval_part hit (P := fun _ => False) (steady_check r)
    (uses_check (fun _ => touches_of_asks) r) s₂
  obtain ⟨s₄, ⟨⟩, h₄, hf₄⟩ := eval_part hit (P := (· = n)) (steady_onCheckResult r n result)
    (uses_onCheckResult (A := Touches (· = n)) (fun _ => touches_of_asks) r rfl rfl result) s₃
  obtain ⟨s₅, rest, h₅, hf₅⟩ := eval_part hit (P := (n < ·))
    (steady_checkAll (o.recons.drop (n + 1)) (n + 1))
    (uses_checkAll (fun _ => touches_of_asks) _ _ fun m hm _ => ⟨hm, hm⟩) s₄
  have hall : (ReconOpts.checkAll 0 o.recons).eval (LatchOp.execIn it) s₁
      = (s₅, .ok (a && (decide (result = some true) && rest))) := by
    rw [hsplit, checkAll_append, Prog.eval_bind, h₂, htake, zero_add]
    simp only [ReconOpts.checkAll, Prog.eval_bind, h₃, h₄, h₅, Prog.eval_pure]
  rw [hall] at ht
  obtain ⟨rfl, hok⟩ := Prod.ext_iff.1 ht
  have hs : s.latch.failures[n]? = s₃.latch.failures[n]? := by
    rw [hf₃.failures n id, hf₂.failures n (lt_irrefl n), hf₁.failures n id]
  obtain ⟨failures, hcount⟩ : ∃ failures, s₃.latch.failures[n]? = some failures := by
    rw [← hs]
    exact ⟨_, List.getElem?_eq_getElem (by omega)⟩
  have hcheck := eval_onCheckResult hit r hcount result
  rw [h₄] at hcheck
  refine ⟨result, failures, ?_, fun hall => ?_, hs.trans hcount, ?_, fun hnone hmax => ?_⟩
  · unfold ReconOpts.upTo
    rw [Prog.eval_bind_ok _ h₁, Prog.eval_bind_ok _ h₂, h₃]
  · cases hok
    simp at hall
    exact hall.2.1
  · exact (hf₅.failures n (lt_irrefl n)).trans hcheck.1
  · exact hf₅.paused (hcheck.2 hnone hmax)

end Answered

/-! ## The reserve check and the unpause -/

/-- An unpause leaves both counters. -/
theorem unpause_counters (it : Iteration) {α : Type} {p : LatchM α}
    (h : Prog.Uses (fun op => op = .isPaused ∨ op = .pauseReason ∨ op = .lower true
      ∨ ∃ reason, op = .setPauseReason reason) p) (s : IterationState) :
    (p.eval (LatchOp.execIn it) s).1.latch.failures = s.latch.failures
      ∧ (p.eval (LatchOp.execIn it) s).1.latch.okStreak = s.latch.okStreak := by
  refine Prog.eval_of_uses (R := fun s t : IterationState => t.latch.failures = s.latch.failures
    ∧ t.latch.okStreak = s.latch.okStreak) (fun _ => ⟨rfl, rfl⟩)
    (fun h h' => ⟨h'.1.trans h.1, h'.2.trans h.2⟩) (fun op s hop => ?_) h s
  rcases execIn_latch it op s with hsame | ⟨i, hrun⟩
  · rw [hsame]
    exact ⟨rfl, rfl⟩
  · rw [hrun]
    rcases hop with rfl | rfl | rfl | ⟨reason, rfl⟩ <;> exact ⟨rfl, rfl⟩

/-- What `onTick` does once the streak is long enough. -/
def takeBack : LatchM Unit := do
  let paused ← Latch.isPaused
  if paused then do
    let reason ← Latch.pauseReason
    if stalledReason (reason.getD "") then Latch.unpause true else pure ()
  else pure ()

theorem takeBack_counters (it : Iteration) (s : IterationState) :
    (takeBack.eval (LatchOp.execIn it) s).1.latch.failures = s.latch.failures
      ∧ (takeBack.eval (LatchOp.execIn it) s).1.latch.okStreak = s.latch.okStreak := by
  refine unpause_counters it ?_ s
  refine Prog.uses_bind (Prog.uses_ask (.inl rfl)) fun paused => Prog.uses_ite ?_ trivial
  refine Prog.uses_bind (Prog.uses_ask (.inr (.inl rfl))) fun reason => Prog.uses_ite ?_ trivial
  refine Prog.uses_bind (Prog.uses_ask (.inr (.inr (.inl rfl)))) fun _ => ?_
  exact Prog.uses_ask (.inr (.inr (.inr ⟨_, rfl⟩)))

/-- A good tick is counted before recon looks at the latch. -/
theorem eval_onTick_true (it : Iteration) (required : ℤ) (s : IterationState) :
    ∃ t : IterationState, t.latch = { s.latch with okStreak := s.latch.okStreak + 1 } ∧
      t.cleared = s.cleared ∧
      (AutoUnpause.onTick required true).eval (LatchOp.execIn it) s =
        (if required ≤ 0 ∨ ((s.latch.okStreak + 1 : ℕ) : ℤ) < required then pure ()
        else takeBack).eval (LatchOp.execIn it) t :=
  ⟨_, rfl, execIn_cleared it .okTick (by rintro ⟨⟩) s, rfl⟩

theorem eval_onTick (it : Iteration) (required : ℤ) (allOk : Bool) (s : IterationState) :
    let t := ((AutoUnpause.onTick required allOk).eval (LatchOp.execIn it) s).1
    t.latch.failures = s.latch.failures ∧
      (allOk = false → t.latch.okStreak = 0 ∧ t.cleared = s.cleared
        ∧ t.latch.paused = s.latch.paused) ∧
      (allOk = true → t.latch.okStreak = s.latch.okStreak + 1 ∧
        (t.cleared = true → s.cleared = true ∨
          0 < required ∧ required ≤ (s.latch.okStreak + 1 : ℕ))) := by
  cases allOk with
  | false =>
    refine ⟨rfl, fun _ => ⟨rfl, ?_, rfl⟩, by rintro ⟨⟩⟩
    exact execIn_cleared it .badTick (by rintro ⟨⟩) s
  | true =>
    obtain ⟨t, ht, hcleared, heval⟩ := eval_onTick_true it required s
    rw [heval]
    split_ifs with hshort
    · refine ⟨by simp [ht], by rintro ⟨⟩, fun _ => ⟨by simp [ht], fun h => .inl ?_⟩⟩
      rwa [← hcleared]
    · obtain ⟨hfailures, hstreak⟩ := takeBack_counters it t
      refine ⟨hfailures.trans (by rw [ht]), by rintro ⟨⟩, fun _ => ⟨hstreak.trans (by rw [ht]), ?_⟩⟩
      exact fun _ => .inr (by omega)

/-! ## Runs -/

section Run

variable (o : ReconOpts)

theorem steady_gramReserveCheck : Prog.Steady Answers o.gramReserveCheck := by
  unfold ReconOpts.gramReserveCheck
  split
  · trivial
  · exact Prog.steady_catch fun _ => trivial

/-- What one answered iteration, good or not, does to the counters and to the latch. -/
structure Turn (it : Iteration) (s : LatchState) (allOk : Bool) : Prop where
  length : (o.iterate it s).latch.failures.length = o.recons.length
  chain : ∀ n r, o.recons[n]? = some r → ∃ result failures,
    ((o.upTo n r).eval (LatchOp.execIn it) (it.start s)).2 = .ok result ∧
    (allOk = true → result = some true) ∧
    s.failures[n]? = some failures ∧
    (o.iterate it s).latch.failures[n]? = some (counted result failures) ∧
    (result = none → r.maxConsecutiveFailures ≤ failures + 1 →
      (o.iterate it s).latch.paused = true)
  okStreak : (o.iterate it s).latch.okStreak = if allOk then s.okStreak + 1 else 0
  cleared : (o.iterate it s).cleared = true → allOk = true ∧ 0 < o.autoUnpauseOkTicks ∧
    o.autoUnpauseOkTicks ≤ (s.okStreak + 1 : ℕ)

theorem turn {it : Iteration} (hit : it.Answered) {s : LatchState}
    (hlen : s.failures.length = o.recons.length) : ∃ allOk, Turn o it s allOk := by
  obtain ⟨t, allOk, ht, hft, hchain⟩ := eval_checks hit o (s := it.start s) hlen
  obtain ⟨u, ⟨⟩, hu, hfu⟩ := eval_part hit (P := fun _ => False) (steady_gramReserveCheck o)
    (uses_gramReserveCheck o fun _ => touches_of_asks) t
  have htick : o.iterate it s =
      ((AutoUnpause.onTick o.autoUnpauseOkTicks allOk).eval (LatchOp.execIn it) u).1 := by
    unfold ReconOpts.iterate ReconOpts.tick
    rw [← Prog.bind_bind, Prog.eval_bind_ok _ ht, Prog.eval_bind_ok _ hu]
  obtain ⟨hfailures, hbad, hgood⟩ := eval_onTick it o.autoUnpauseOkTicks allOk u
  rw [← htick] at hfailures hbad hgood
  have hstreak : u.latch.okStreak = s.okStreak := hfu.okStreak.trans hft.okStreak
  have hcleared : u.cleared = false := hfu.cleared.trans hft.cleared
  refine ⟨allOk, ?_, fun n r hr => ?_, ?_, fun h => ?_⟩
  · rw [hfailures, hfu.length, hft.length]
    exact hlen
  · obtain ⟨result, failures, hres, hok, hs, hcount, hpause⟩ := hchain n r hr
    refine ⟨result, failures, hres, hok, hs, ?_, fun hnone hmax => ?_⟩
    · rw [hfailures, hfu.failures n id, hcount]
    · cases allOk with
      | true => cases hnone.symm.trans (hok rfl)
      | false =>
        rw [(hbad rfl).2.2]
        exact hfu.paused (hpause hnone hmax)
  · cases allOk with
    | true => exact (hgood rfl).1.trans (by rw [hstreak]; rfl)
    | false => exact (hbad rfl).1
  · cases allOk with
    | true =>
      rcases (hgood rfl).2 h with hu | hreq
      · cases hcleared.symm.trans hu
      · rw [hstreak] at hreq
        exact ⟨rfl, hreq⟩
    | false => cases hcleared.symm.trans ((hbad rfl).2.1.symm.trans h)

variable {o} {its : ℕ → Iteration} {m : ℕ} (h : ∀ j < m, (its j).Answered)

include h

theorem length_before : ∀ j ≤ m, (o.before its j).failures.length = o.recons.length
  | 0, _ => List.length_replicate
  | j + 1, hj =>
    have ⟨_, ht⟩ := turn o (h j hj) (length_before j (by omega))
    ht.length

theorem turn_at {j : ℕ} (hj : j < m) : ∃ allOk, Turn o (its j) (o.before its j) allOk :=
  turn o (h j hj) (length_before h j hj.le)

/-- A chain not read for `k` iterations has as many failures counted. -/
theorem le_failures {n : ℕ} {r : Recon} (hr : o.recons[n]? = some r) (j : ℕ) :
    ∀ k, j + k ≤ m → (∀ i, j ≤ i → i < j + k → ¬ o.Definitive its i n r) →
      ∃ failures, (o.before its (j + k)).failures[n]? = some failures ∧ k ≤ failures
  | 0, hm, _ => by
    have hn := (List.getElem?_eq_some_iff.1 hr).1
    rw [← length_before h j hm] at hn
    exact ⟨_, List.getElem?_eq_getElem hn, Nat.zero_le _⟩
  | k + 1, hm, hundef => by
    obtain ⟨failures, hcount, hle⟩ := le_failures hr j k (by omega) fun i hi hlt =>
      hundef i hi (by omega)
    obtain ⟨allOk, ht⟩ := turn_at h (show j + k < m by omega)
    obtain ⟨result, f, hres, -, hf, hnext, -⟩ := ht.chain n r hr
    cases hcount.symm.trans hf
    cases result with
    | none => exact ⟨failures + 1, hnext, by omega⟩
    | some b => exact absurd ⟨b, hres⟩ (hundef (j + k) (by omega) (by omega))

/-- The streak is made of good iterations. -/
theorem ok_of_streak : ∀ j ≤ m, (o.before its j).okStreak ≤ j ∧
    ∀ i < j, j ≤ i + (o.before its j).okStreak → o.EveryChainOk its i
  | 0, _ => ⟨Nat.zero_le _, fun _ hi => absurd hi (Nat.not_lt_zero _)⟩
  | j + 1, hj => by
    obtain ⟨hle, hok⟩ := ok_of_streak j (by omega)
    obtain ⟨allOk, ht⟩ := turn_at h hj
    have hstreak : (o.before its (j + 1)).okStreak = _ := ht.okStreak
    cases allOk with
    | false =>
      refine ⟨by rw [hstreak]; simp, fun i hi hlt => ?_⟩
      simp [hstreak] at hlt
      omega
    | true =>
      simp only [if_true] at hstreak
      refine ⟨by omega, fun i hi hlt => ?_⟩
      by_cases hij : i < j
      · exact hok i hij (by omega)
      · obtain rfl : i = j := by omega
        intro n r hr
        obtain ⟨result, -, hres, hgood, -⟩ := ht.chain n r hr
        rw [hgood rfl] at hres
        exact hres

end Run

end ReconLoop

open ReconLoop

/-- While its iterations are answered recon's loop fails closed: it pauses for a chain it cannot
read, and takes a pause back only after a full streak of good iterations. -/
theorem recon_loop_fails_closed (o : ReconOpts) (its : ℕ → Iteration) (m : ℕ)
    (h : ∀ j < m, (its j).Answered) : o.PausesUnread its m ∧ o.ClearsAfterOk its m := by
  constructor
  · intro n r hr j k hk hmax hm hundef
    obtain ⟨k, rfl⟩ : ∃ k', k = k' + 1 := ⟨k - 1, by omega⟩
    obtain ⟨failures, hcount, hle⟩ := le_failures h hr j k (by omega) fun i hi hlt =>
      hundef i hi (by omega)
    obtain ⟨allOk, ht⟩ := turn_at h (show j + k < m by omega)
    obtain ⟨result, f, hres, -, hf, -, hpause⟩ := ht.chain n r hr
    cases hcount.symm.trans hf
    cases result with
    | none => exact hpause rfl (by omega)
    | some b => exact absurd ⟨b, hres⟩ (hundef (j + k) (by omega) (by omega))
  · intro j hj hclear
    obtain ⟨allOk, ht⟩ := turn_at h hj
    obtain ⟨rfl, hpos, hle⟩ := ht.cleared hclear
    obtain ⟨hstreak, hok⟩ := ok_of_streak (o := o) h (j + 1) hj
    have hnext : (o.before its (j + 1)).okStreak = (o.before its j).okStreak + 1 := ht.okStreak
    refine ⟨hpos, j + 1 - o.autoUnpauseOkTicks.toNat, by omega, fun i hi hij => ?_⟩
    exact hok i (by omega) (by omega)

/-- The one chain cannot be read, and one iteration later it can. -/
def stalledIterations : ℕ → Iteration
  | 0 => { await := fun _ _ => failedRead }
  | _ => { paused := true, reason := some stalledText, await := fun _ _ => goodRead }

theorem recon_loop_fails_closed_sample :
    sampleRecon.PausesUnread stalledIterations 2 ∧ sampleRecon.ClearsAfterOk stalledIterations 2 ∧
      (sampleRecon.before stalledIterations 1).paused = true ∧
      (sampleRecon.iterate (stalledIterations 1) (sampleRecon.before stalledIterations 1)).cleared
        = true := by
  have hrun : ∀ j < 2, (stalledIterations j).Answered := by
    rintro (_ | j) - k op - - <;> rfl
  obtain ⟨hpauses, hclears⟩ := recon_loop_fails_closed sampleRecon stalledIterations 2 hrun
  exact ⟨hpauses, hclears, by decide +kernel, by decide +kernel⟩

/-- An iteration the store fails at the operation `op`, over the figures `backing`. -/
def thrownAt (op : LatchOp) (backing : Backing) : Iteration where
  await _ op' := { backing, fails := if op' = op then some "connection terminated" else none }

/-- Every read of the active chains fails. -/
def blindIterations (_ : ℕ) : Iteration := thrownAt .activeRemoteChains goodRead.backing

def underBacked : Backing := ⟨0, [some 1000], 0⟩

def underBackedText : String := "under-backing -1000 mVIZ (locked=0, circulating=1000, unsweptFees=0)"

/-- Between two good iterations one sees a chain under-backed and cannot write the pause. -/
def brokenStreak : ℕ → Iteration
  | 1 => thrownAt (.raise underBackedText) underBacked
  | _ => { paused := true, reason := some stalledText, await := fun _ _ => goodRead }

/-- Two good ticks to unpause. -/
def patientRecon : ReconOpts := { sampleRecon with autoUnpauseOkTicks := 2 }

theorem thrown_iteration_counts_nowhere :
    ¬ sampleRecon.PausesUnread blindIterations 1 ∧ ¬ patientRecon.ClearsAfterOk brokenStreak 3 := by
  constructor
  · intro h
    have hthrown : sampleRecon.result blindIterations 0 0 ⟨some .gram, 0, 1, none⟩
        = .error "connection terminated" := by decide +kernel
    have hpaused := h 0 ⟨some .gram, 0, 1, none⟩ rfl 0 1 (by decide) (by decide) le_rfl
      fun i _ hi ⟨b, hb⟩ => by
        obtain rfl : i = 0 := by omega
        cases hthrown.symm.trans hb
    exact absurd hpaused (by decide +kernel)
  · intro h
    obtain ⟨-, j₀, hj₀, hok⟩ := h 2 (by decide) (by decide +kernel)
    have hthrown : (patientRecon.result brokenStreak 1 0 ⟨some .gram, 0, 1, none⟩)
        = .error "connection terminated" := by decide +kernel
    have hgood := hok 1 (by simp [patientRecon] at hj₀; omega) (by decide) 0 _ rfl
    cases hthrown.symm.trans hgood

end VizGateway
