import VizGateway.Recon

/-!
# Which pauses recon takes back

Recon unpauses only right after it read a reason of the stalled class. While the writes of the
pauses keep their order the reason read speaks for the pause that stands.
-/

namespace VizGateway

open Text

namespace PauseLatch

/-! ## Recon's programs unpause behind the reason they read -/

def Unpauses (o : LatchOp) : Prop := o = .lower true

/-- The answer after which recon may unpause. -/
def ReadStalled : (o : LatchOp) → Except String o.Ans → Prop
  | .pauseReason, .ok (reason : Option String) => stalledReason (reason.getD "") = true
  | _, _ => False

/-- What the checks ask besides their counters. -/
def Asks : LatchOp → Prop
  | .raise _ | .setPauseReason _ | .activeRemoteChains | .backing _ | .minPegInFee _
  | .tonBalanceNano => True
  | _ => False

section Uses

variable {A : LatchOp → Prop}

theorem uses_pause {reason : String} (hraise : A (.raise reason))
    (hset : A (.setPauseReason reason)) : Prog.Uses A (Latch.pause reason) :=
  Prog.uses_bind (Prog.uses_ask hraise) fun _ => Prog.uses_ask hset

theorem uses_check (hA : ∀ op, Asks op → A op) (r : Recon) : Prog.Uses A r.check := by
  refine Prog.uses_bind (Prog.uses_catch ?_ fun _ => trivial) fun settled => ?_
  · exact Prog.uses_bind (Prog.uses_ask (hA (.backing _) trivial)) fun _ => trivial
  · cases settled with
    | none => trivial
    | some b =>
      dsimp only
      split
      · trivial
      · refine Prog.uses_bind (p := r.minFee) ?_ fun minFee => ?_
        · unfold Recon.minFee
          split
          · exact Prog.uses_ask (hA (.minPegInFee _) trivial)
          · trivial
        · split
          · exact Prog.uses_bind (uses_pause (hA _ trivial) (hA _ trivial)) fun _ => trivial
          · trivial

theorem uses_onCheckResult (hA : ∀ op, Asks op → A op) (r : Recon) {n : ℕ} (hf : A (.failed n))
    (hr : A (.read n)) (result : Option Bool) : Prog.Uses A (r.onCheckResult n result) := by
  cases result with
  | none =>
    refine Prog.uses_bind (Prog.uses_ask hf) fun failures => ?_
    split_ifs
    · exact uses_pause (hA _ trivial) (hA _ trivial)
    · trivial
  | some _ => exact Prog.uses_ask hr

theorem uses_checkAll (hA : ∀ op, Asks op → A op) : ∀ (rs : List Recon) (n : ℕ),
    (∀ m, n ≤ m → m < n + rs.length → A (.failed m) ∧ A (.read m)) →
      Prog.Uses A (ReconOpts.checkAll n rs)
  | [], _, _ => trivial
  | r :: rs, n, h => by
    have hn := h n le_rfl (by simp)
    refine Prog.uses_bind (uses_check hA r) fun _ => ?_
    refine Prog.uses_bind (uses_onCheckResult hA r hn.1 hn.2 _) fun _ => ?_
    refine Prog.uses_bind (uses_checkAll hA rs (n + 1) fun m hm hlt => ?_) fun _ => trivial
    exact h m (by omega) (by simp; omega)

variable (o : ReconOpts)

theorem uses_coverage (hA : ∀ op, Asks op → A op) : Prog.Uses A o.enforceActiveChainCoverage := by
  refine Prog.uses_bind (Prog.uses_ask (hA .activeRemoteChains trivial)) fun active => ?_
  split
  · trivial
  · exact uses_pause (hA _ trivial) (hA _ trivial)

theorem uses_gramReserveCheck (hA : ∀ op, Asks op → A op) : Prog.Uses A o.gramReserveCheck := by
  unfold ReconOpts.gramReserveCheck
  split
  · trivial
  · refine Prog.uses_catch ?_ fun _ => trivial
    refine Prog.uses_bind (Prog.uses_ask (hA .tonBalanceNano trivial)) fun bal => ?_
    split_ifs
    · exact uses_pause (hA _ trivial) (hA _ trivial)
    · trivial

end Uses

variable (o : ReconOpts)

abbrev Keeps {α : Type} (p : LatchM α) : Prop := Prog.Uses (fun o => ¬ Unpauses o) p

theorem not_unpauses_of_asks {op : LatchOp} (h : Asks op) : ¬ Unpauses op := by
  rintro rfl
  exact h

theorem keeps_ask (op : LatchOp) (h : op ≠ .lower true) : Keeps (Prog.ask op) := Prog.uses_ask h

abbrev Careful {α : Type} (armed : Prop) (p : LatchM α) : Prop :=
  Prog.Gated Unpauses ReadStalled armed p

theorem careful_onTick (required : ℤ) (allOk : Bool) :
    Careful False (AutoUnpause.onTick required allOk) := by
  cases allOk with
  | false => exact Prog.gated_of_uses (keeps_ask .badTick (by simp))
  | true =>
    refine Prog.gated_bind (Prog.gated_of_uses (keeps_ask .okTick (by simp))) fun okStreak => ?_
    split_ifs
    · trivial
    · refine Prog.gated_bind (Prog.gated_of_uses (keeps_ask .isPaused (by simp))) fun paused => ?_
      split_ifs
      · refine ⟨by rintro ⟨⟩, fun answer => ?_⟩
        cases answer with
        | error e => trivial
        | ok reason =>
          change Careful _ (if stalledReason (reason.getD "") then Latch.unpause true else pure ())
          split_ifs with hstalled
          · refine ⟨fun _ => hstalled, fun r => ?_⟩
            cases r with
            | error e => trivial
            | ok _ => exact Prog.gated_of_uses (keeps_ask (.setPauseReason "") (by simp))
          · trivial
      · trivial

theorem careful_body (c : LatchCaller) : Careful False ((latchSystem o).body c) := by
  cases c with
  | pause reason => exact Prog.gated_of_uses (uses_pause (by rintro ⟨⟩) (by rintro ⟨⟩))
  | unpause =>
    exact Prog.gated_of_uses (Prog.uses_bind (keeps_ask (.lower false) (by simp)) fun _ =>
      keeps_ask (.setPauseReason "") (by simp))
  | recon =>
    have hA : ∀ op, Asks op → ¬ Unpauses op := fun _ => not_unpauses_of_asks
    refine Prog.gated_bind (Prog.gated_of_uses (uses_coverage o hA)) fun _ => ?_
    refine Prog.gated_bind (Prog.gated_of_uses (uses_checkAll hA _ _ ?_)) fun allOk => ?_
    · exact fun _ _ _ => ⟨by rintro ⟨⟩, by rintro ⟨⟩⟩
    refine Prog.gated_bind (Prog.gated_of_uses (uses_gramReserveCheck o hA)) fun _ => ?_
    exact careful_onTick _ allOk

/-! ## The reason stored speaks for the pause that stands -/

/-- A standing pause outside the stalled class has its reason stored, or has yet to store it. -/
def Spoken (s : LatchState) : Prop :=
  s.standing = true →
    stalledReason (s.reason.getD "") = false ∨ ∃ r ∈ s.unwritten, stalledReason r = false

/-- A thread about to unpause does so over no standing pause. -/
def Ready (s : LatchState) (p : LatchM Unit) : Prop := Careful (s.standing = false) p

/-- Only raising a pause of another class makes one stand. -/
theorem standing_run {op : LatchOp} {i : LatchInput} {s : LatchState} (h : s.standing = false)
    (hraise : ∀ reason, op = .raise reason → stalledReason reason = true) :
    (op.run i s).1.standing = false := by
  cases op with
  | raise reason => simp [LatchOp.run, h, hraise reason rfl]
  | lower auto => cases auto <;> simp [LatchOp.run, h]
  | _ => exact h

theorem spoken_run {op : LatchOp} {i : LatchInput} {s : LatchState} (h : Spoken s)
    (hset : ∀ reason, op = .setPauseReason reason → stalledReason reason = true →
      s.standing = true → ∃ r ∈ s.unwritten, stalledReason r = false) :
    Spoken (op.run i s).1 := by
  intro hstand
  cases op with
  | raise reason =>
    cases hr : stalledReason reason with
    | false => exact .inr ⟨reason, List.mem_cons_self, hr⟩
    | true =>
      have hold : s.standing = true := by simpa [LatchOp.run, hr] using hstand
      exact (h hold).imp id fun ⟨r, hmem, hr⟩ => ⟨r, List.mem_cons_of_mem _ hmem, hr⟩
  | lower auto =>
    cases auto with
    | true => exact h hstand
    | false => cases hstand
  | setPauseReason reason =>
    cases hr : stalledReason reason with
    | false => exact .inl hr
    | true =>
      obtain ⟨r, hmem, hne⟩ := hset reason rfl hr hstand
      refine .inr ⟨r, (List.mem_erase_of_ne ?_).2 hmem, hne⟩
      rintro rfl
      rw [hr] at hne
      cases hne
  | _ => exact h hstand

/-- A stalled reason read while none is left unwritten speaks for every standing pause. -/
theorem not_standing_of_read {op : LatchOp} {i : LatchInput} {s : LatchState} (h : Spoken s)
    (hread : op = .pauseReason → ∀ r ∈ s.unwritten, stalledReason r = true)
    (hpass : ReadStalled op (op.exec i s).2) : (op.exec i s).1.standing = false := by
  cases op with
  | pauseReason =>
    unfold LatchOp.exec at hpass ⊢
    cases hf : i.fails with
    | some e =>
      rw [hf] at hpass
      exact hpass.elim
    | none =>
      rw [hf] at hpass
      change s.standing = false
      by_contra hstand
      rcases h (by simpa using hstand) with hreason | ⟨r, hmem, hr⟩
      · exact absurd (show stalledReason (s.reason.getD "") = true from hpass) (by simp [hreason])
      · rw [hread rfl r hmem] at hr
        cases hr
  | _ =>
    unfold LatchOp.exec at hpass
    cases hf : i.fails <;> rw [hf] at hpass <;> exact hpass.elim

/-- One orderly step keeps both. -/
theorem step_inv {w : LatchWorld} {e : LatchEvent} (h : Pool.Inv Spoken Ready w)
    (hc : LatchOrderly w e) : Pool.Inv Spoken Ready (w.step (latchSystem o) e) := by
  cases e with
  | start c => exact Pool.inv_start h ((careful_body o c).mono False.elim)
  | die n => exact Pool.inv_die h
  | act m => exact Pool.inv_act h h.state fun _ _ hp => hp
  | step n i =>
    refine Pool.inv_step h fun op k hn hself => ?_
    have hat : LatchOrderlyAt w op := hc op (Pool.standsAt_eq_some.2 ⟨k, hn⟩)
    have hstep : ∀ s, (op.exec i w.shared).1 = s → s = w.shared ∨ s = (op.run i w.shared).1 := by
      rintro s rfl
      unfold LatchOp.exec
      cases i.fails
      · exact .inr rfl
      · exact .inl rfl
    refine ⟨?_, ?_, ?_⟩
    · rcases hstep _ rfl with hs | hs <;> rw [show ((latchSystem o).exec op i w.shared).1 = _ from hs]
      · exact h.state
      · refine spoken_run h.state fun reason hop => ?_
        subst hop
        exact hat
    · refine (hself.2 _).mono (not_standing_of_read h.state ?_)
      rintro rfl
      exact hat
    · intro m p hm hp hready
      rcases hstep _ rfl with hs | hs <;> rw [show ((latchSystem o).exec op i w.shared).1 = _ from hs]
      · exact hready
      · cases p with
        | ret a => trivial
        | throw e => trivial
        | call op' k' =>
          by_cases hlow : Unpauses op'
          · obtain rfl : op' = .lower true := hlow
            refine hready.mono fun hstand => standing_run hstand fun reason hop => ?_
            subst hop
            exact Or.resolve_right hat fun hnone => hnone m (Pool.standsAt_eq_some.2 ⟨k', hp⟩)
          · exact (hready.disarm hlow).mono False.elim

end PauseLatch

open PauseLatch

/-- In every orderly run recon takes back no pause outside the stalled class. -/
theorem autoUnpause_spares_standing (o : ReconOpts) {pre post : List LatchEvent} {e : LatchEvent}
    (h : Runs.Meets (Pool.step (latchSystem o)) LatchOrderly (LatchWorld.init o)
      (pre ++ e :: post)) :
    ¬ ClearsStanding (Runs.run (Pool.step (latchSystem o)) (LatchWorld.init o) pre) e := by
  have hinit : Pool.Inv Spoken Ready (LatchWorld.init o) := {
    state := fun hs => by cases hs
    threads := fun p hp => by cases hp }
  obtain ⟨hinv, -⟩ := Runs.run_inv_at (fun _ _ hw hc => step_inv o hw hc) hinit h
  cases e with
  | step n i =>
    rintro ⟨hat, -, hstand⟩
    obtain ⟨k, hk⟩ := Pool.standsAt_eq_some.1 hat
    have hready := (hinv.threads _ (List.mem_of_getElem? hk)).1 rfl
    rw [hstand] at hready
    cases hready
  | start c => exact id
  | die n => exact id
  | act m => exact id

/-! ## Runs -/

def sampleRecon : ReconOpts where
  recons := [⟨some .gram, 0, 1, none⟩]
  autoUnpauseOkTicks := 1
  covered := ["GRAM"]
  gramReserve := none

def goodRead : LatchInput := { backing := ⟨1000, [some 1000], 0⟩ }

/-- A supply that cannot be read. -/
def failedRead : LatchInput := { backing := ⟨1000, [none], 0⟩ }

/-- Recon cannot read, pauses, and one good tick later stands at its unpause. -/
def stalledRun : List LatchEvent :=
  .start .recon :: List.replicate 6 (.step 0 failedRead)
    ++ .start .recon :: List.replicate 6 (.step 1 goodRead)

theorem orderly_step {w : LatchWorld} {n : ℕ} {i : LatchInput} (op : LatchOp)
    (h : w.standsAt n = some op) (hop : LatchOrderlyAt w op) : LatchOrderly w (.step n i) := by
  intro op' h'
  rw [h] at h'
  cases h'
  exact hop

/-- The reason recon pauses with. -/
def stalledText : String := "recon cannot verify backing (1 consecutive failures)"

theorem autoUnpause_spares_standing_sample :
    ¬ ClearsStanding (Runs.run (Pool.step (latchSystem sampleRecon))
      (LatchWorld.init sampleRecon) stalledRun) (.step 1 goodRead) := by
  refine @autoUnpause_spares_standing sampleRecon stalledRun [] (.step 1 goodRead) ?_
  exact ⟨trivial, orderly_step .activeRemoteChains rfl trivial,
    orderly_step (.backing (some .gram)) rfl trivial, orderly_step (.failed 0) rfl trivial,
    orderly_step (.raise stalledText) (by decide +kernel) (.inl (by decide +kernel)),
    orderly_step (.setPauseReason stalledText) (by decide +kernel)
      (fun _ h => absurd h (by decide +kernel)),
    orderly_step .badTick (by decide +kernel) trivial, trivial,
    orderly_step .activeRemoteChains (by decide +kernel) trivial,
    orderly_step (.backing (some .gram)) (by decide +kernel) trivial,
    orderly_step (.read 0) (by decide +kernel) trivial,
    orderly_step .okTick (by decide +kernel) trivial,
    orderly_step .isPaused (by decide +kernel) trivial,
    orderly_step .pauseReason (by decide +kernel)
      (show ∀ r ∈ _, stalledReason r = true by decide +kernel),
    orderly_step (.lower true) (by decide +kernel) trivial, trivial⟩

/-- A manual pause stands; recon fails to read, writes its own reason over it, reads again, and
unpauses. -/
def overwriteRun : List LatchEvent :=
  .start (.pause "manual: operator maintenance") :: List.replicate 2 (.step 0 goodRead)
    ++ .start .recon :: List.replicate 6 (.step 1 failedRead)
    ++ .start .recon :: List.replicate 6 (.step 2 goodRead)

theorem stalled_pause_hides_manual_pause :
    ClearsStanding (Runs.run (Pool.step (latchSystem sampleRecon)) (LatchWorld.init sampleRecon)
      overwriteRun) (.step 2 goodRead) := by
  unfold ClearsStanding
  decide +kernel

end VizGateway
