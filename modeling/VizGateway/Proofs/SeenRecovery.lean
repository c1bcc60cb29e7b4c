import Mathlib
import VizGateway.Watchers
import VizGateway.Sample

/-!
# Recovery against the live path

Stale rows are recovered by the cap decision alone. The VIZ watcher's live path makes that same
decision, the TON watcher's first asks whether the destination can be paid at all.
-/

namespace VizGateway

open ActionStatus Watch

/-- What a detection watcher found. -/
inductive Detection
  | deposit (dep : VizDeposit)
  | burnt (burn : RemoteBurn)

namespace Detection

/-- The row it claims in SEEN. -/
def claim (L : Libs) : Detection → EnqueueInput
  | deposit dep => VizWatcher.claim L dep seen none
  | burnt burn => GramWatcher.claim L burn

/-- What the live path does after the claim. -/
def live (policy : CapPolicy) : Detection → WatchM Unit
  | deposit dep => VizWatcher.decide policy dep
  | burnt burn => GramWatcher.decide policy burn

/-- Which stale rows its watcher recovers. -/
def isMine : Detection → OutboxRecord → Bool
  | deposit _ => VizWatcher.isMine
  | burnt _ => GramWatcher.isMine

def capPauseReason : Detection → String
  | deposit _ => VizWatcher.capPauseReason
  | burnt _ => GramWatcher.capPauseReason

/-- A peg-in, or a burn whose VIZ account exists. -/
def Usable (i : WatchInput) : Detection → Prop
  | deposit _ => True
  | burnt burn => burn.homeDestination ≠ "" ∧ i.accounts burn.homeDestination = true

end Detection

/-- A row's status and error. -/
def WatchState.outcome (s : WatchState) (id : String) : Option (ActionStatus × Option String) :=
  (s.outbox.get id).map fun r => (r.status, r.lastError)

namespace SeenRecovery

variable {policy : CapPolicy} {i : WatchInput} {s t : WatchState} {r : OutboxRecord}
  {id id' capPauseReason : String} {amount : ℤ}

/-- Carrying a watcher's call out with nobody else about, every call answering. -/
def alone (i : WatchInput) (o : WatchOp) (s : WatchState) : WatchState × Except String o.Ans :=
  o.run i s

/-! ## The cap decision -/

def capAlone (clock : ℤ) (o : CapOp) (c : CapWindow) : CapWindow × Except String o.Ans :=
  ((o.run { clock } c).1, .ok (o.run { clock } c).2)

theorem eval_cap {α : Type} (p : Prog CapOp CapOp.Ans String α) (i : WatchInput) (s : WatchState) :
    (p.translate fun o : CapOp => (Prog.ask (WatchOp.cap o) : WatchM o.Ans)).eval (alone i) s
      = ({ s with caps := (p.eval (capAlone i.clock) s.caps).1 },
        (p.eval (capAlone i.clock) s.caps).2) := by
  induction p generalizing s with
  | ret a => rfl
  | throw e => rfl
  | call o k ih => exact ih _ { s with caps := (o.run { clock := i.clock } s.caps).1 }

theorem quiet_checkAndRecord (policy : CapPolicy) (amount : ℕ) :
    Prog.Quiet (CircuitBreaker.checkAndRecord policy amount) := by
  refine Prog.quiet_bind (Prog.quiet_ask _) fun now => Prog.quiet_ite (Prog.quiet_pure _) ?_
  refine Prog.quiet_bind (Prog.quiet_ask _) fun reserved => ?_
  refine Prog.quiet_ite ?_ (Prog.quiet_pure _)
  exact Prog.quiet_ite (Prog.quiet_pure _) (Prog.quiet_pure _)

theorem eval_checkAndRecord (policy : CapPolicy) (amount : ℤ) (i : WatchInput) (s : WatchState) :
    ∃ caps decision, (checkAndRecord policy amount).eval (alone i) s
      = ({ s with caps }, .ok decision) := by
  have hanswers : ∀ (o : CapOp) c, ∃ a, (capAlone i.clock o c).2 = .ok a := fun o c => ⟨_, rfl⟩
  obtain ⟨decision, hd⟩ :=
    Prog.eval_quiet hanswers (quiet_checkAndRecord policy amount.toNat) s.caps
  refine ⟨((CircuitBreaker.checkAndRecord policy amount.toNat).eval (capAlone i.clock) s.caps).1,
    decision, ?_⟩
  rw [← hd]
  exact eval_cap _ i s

/-- The cap decision ends, touches no other row, and holds the row under a cap's reason or queues
it. -/
theorem eval_capDecision (policy : CapPolicy) (capPauseReason id : String) (amount : ℤ)
    (i : WatchInput) (s : WatchState) :
    ∃ t, (capDecision policy capPauseReason id amount).eval (alone i) s = (t, .ok ())
      ∧ (∀ id', id' ≠ id → t.outbox.get id' = s.outbox.get id')
      ∧ (t.outbox.get id = (s.outbox.get id).map (·.withStatus i.clock queued {})
        ∨ ∃ reason : CapRejection, t.outbox.get id = (s.outbox.get id).map
          (·.withStatus i.clock held { lastError := some (some reason.toString) })) := by
  obtain ⟨caps, decision, hd⟩ := eval_checkAndRecord policy amount i s
  unfold capDecision
  rw [Prog.eval_bind, hd]
  cases decision with
  | none =>
    refine ⟨_, rfl, fun id' hne => ?_, .inl ?_⟩
    · exact Outbox.get_setStatus_of_ne _ _ _ _ hne
    · exact Outbox.get_setStatus_self ..
  | some reason =>
    have hother : ∀ id', id' ≠ id → (s.outbox.setStatus i.clock id held
        { lastError := some (some reason.toString) }).get id' = s.outbox.get id' :=
      fun id' hne => Outbox.get_setStatus_of_ne _ _ _ _ hne
    have hself := Outbox.get_setStatus_self s.outbox i.clock id held
      { lastError := some (some reason.toString) }
    by_cases hpause : reason = .over24h
    · subst hpause
      exact ⟨_, rfl, hother, .inr ⟨_, hself⟩⟩
    · cases reason with
      | over24h => exact absurd rfl hpause
      | overPerTx => exact ⟨_, rfl, hother, .inr ⟨_, hself⟩⟩
      | needsManualReview => exact ⟨_, rfl, hother, .inr ⟨_, hself⟩⟩

/-! ## The recovery of a list of rows -/

/-- The rows recovered one after the other. -/
def recoverRows (policy : CapPolicy) (capPauseReason : String) (i : WatchInput)
    (rows : List OutboxRecord) (s : WatchState) : WatchState × Except String Unit :=
  (Prog.forEach (fun r => capDecision policy capPauseReason r.id r.amountMilliViz) rows).eval
    (alone i) s

theorem recoverRows_cons (r : OutboxRecord) (rows : List OutboxRecord) (s : WatchState) :
    recoverRows policy capPauseReason i (r :: rows) s = recoverRows policy capPauseReason i rows
      ((capDecision policy capPauseReason r.id r.amountMilliViz).eval (alone i) s).1 := by
  obtain ⟨t, ht, -⟩ := eval_capDecision policy capPauseReason r.id r.amountMilliViz i s
  unfold recoverRows
  rw [Prog.eval_forEach_cons, ht]

theorem recoverRows_ok (rows : List OutboxRecord) (s : WatchState) :
    (recoverRows policy capPauseReason i rows s).2 = .ok () := by
  induction rows generalizing s with
  | nil => rfl
  | cons r rows ih =>
    rw [recoverRows_cons]
    exact ih _

/-- No other row is touched. -/
theorem get_recoverRows {rows : List OutboxRecord} (h : ∀ r ∈ rows, r.id ≠ id) (s : WatchState) :
    (recoverRows policy capPauseReason i rows s).1.outbox.get id = s.outbox.get id := by
  induction rows generalizing s with
  | nil => rfl
  | cons r rows ih =>
    obtain ⟨t, ht, hother, -⟩ := eval_capDecision policy capPauseReason r.id r.amountMilliViz i s
    rw [recoverRows_cons, ht, ih fun x hx => h x (List.mem_cons_of_mem _ hx)]
    exact hother id (Ne.symm (h r List.mem_cons_self))

theorem recoverRows_append (rows rows' : List OutboxRecord) (s : WatchState) :
    recoverRows policy capPauseReason i (rows ++ rows') s
      = recoverRows policy capPauseReason i rows'
        (recoverRows policy capPauseReason i rows s).1 := by
  induction rows generalizing s with
  | nil => rfl
  | cons r rows ih => rw [List.cons_append, recoverRows_cons, recoverRows_cons, ih]

/-- The recovery is that of the stale rows of its watcher. -/
theorem eval_recoverStaleSeen (now : ℤ) (isMine : OutboxRecord → Bool) (s : WatchState) :
    (recoverStaleSeen policy now isMine capPauseReason).eval (alone i) s
      = recoverRows policy capPauseReason i
        ((s.outbox.stale now staleSeenMs [seen]).filter isMine) s := rfl

/-! ## One row -/

/-- The row of a claim carries what the live path decides on. -/
theorem claim_of_event {L : Libs} {x : Detection} {t₀ : ℤ}
    (h : r.event = ((x.claim L).toRecord t₀).event) :
    r.id = (x.claim L).id ∧ r.amountMilliViz = (x.claim L).amountMilliViz :=
  ⟨OutboxRecord.id_of_event h,
    OutboxRecord.eq_of_event h OutboxRecord.amountMilliViz fun _ => rfl⟩

theorem eval_classify (destination : String) (i : WatchInput) (s : WatchState) :
    (classifyPegOutDestination destination).eval (alone i) s
      = (s, .ok (if destination ≠ "" && i.accounts destination then "" else returnInvalidDest)) :=
  rfl

/-- Where the destination is usable the live path is the cap decision on the row. -/
theorem eval_live_of_usable {L : Libs} {x : Detection} {t₀ : ℤ}
    (h : r.event = ((x.claim L).toRecord t₀).event) (hx : x.Usable i) (s : WatchState) :
    (x.live policy).eval (alone i) s
      = (capDecision policy x.capPauseReason r.id r.amountMilliViz).eval (alone i) s := by
  obtain ⟨hid, hamount⟩ := claim_of_event h
  rw [hid, hamount]
  cases x with
  | deposit dep => rfl
  | burnt burn =>
    have husable : (burn.homeDestination ≠ "" && i.accounts burn.homeDestination) = true := by
      simpa [Detection.Usable] using hx
    unfold Detection.live GramWatcher.decide
    rw [Prog.eval_bind, eval_classify, husable]
    rfl

/-- Elsewhere it holds the row for its return. -/
theorem outcome_live_of_unusable {L : Libs} {x : Detection} {t₀ : ℤ}
    (h : r.event = ((x.claim L).toRecord t₀).event) (hx : ¬ x.Usable i)
    (hr : s.outbox.get r.id = some r) :
    ((x.live policy).eval (alone i) s).1.outcome r.id = some (held, some returnInvalidDest) := by
  obtain ⟨hid, -⟩ := claim_of_event h
  cases x with
  | deposit dep => exact absurd trivial hx
  | burnt burn =>
    have hunusable : (burn.homeDestination ≠ "" && i.accounts burn.homeDestination) = false := by
      simpa [Detection.Usable] using hx
    have hheld : ((Detection.burnt burn).live policy).eval (alone i) s
        = ({ s with outbox := (s.outbox.setStatus i.clock burn.sourceId held
            { lastError := some (some returnInvalidDest) }) }, .ok ()) := by
      unfold Detection.live GramWatcher.decide
      rw [Prog.eval_bind, eval_classify, hunusable]
      rfl
    have hget : s.outbox.get burn.sourceId = some r := by
      rw [← hr, hid]
      rfl
    rw [hheld]
    unfold WatchState.outcome
    simp only
    rw [show r.id = burn.sourceId from hid, Outbox.get_setStatus_self, hget]
    rfl

/-- The cap decision never gives the return's reason. -/
theorem outcome_capDecision_ne (hr : s.outbox.get r.id = some r) :
    ((capDecision policy capPauseReason r.id amount).eval (alone i) s).1.outcome r.id
      ≠ some (held, some returnInvalidDest) := by
  obtain ⟨t, ht, -, hself⟩ := eval_capDecision policy capPauseReason r.id amount i s
  rw [ht]
  unfold WatchState.outcome
  simp only
  rcases hself with hself | ⟨reason, hself⟩
  · rw [hself, hr]
    simp [OutboxRecord.withStatus]
  · rw [hself, hr]
    cases reason <;> simp [OutboxRecord.withStatus, CapRejection.toString, returnInvalidDest]

end SeenRecovery

open SeenRecovery

/-- Where recovery reaches a stale row, it leaves it in the status and error the live path gives it
there exactly when the row is a peg-in or its VIZ account exists. -/
theorem recovery_matches_live_iff (L : Libs) (policy : CapPolicy) (i : WatchInput) (now t₀ : ℤ)
    (s : WatchState) (x : Detection) {r : OutboxRecord} {pre post : List OutboxRecord}
    (hclaim : r.event = ((x.claim L).toRecord t₀).event)
    (hrows : (s.outbox.stale now staleSeenMs [seen]).filter x.isMine = pre ++ r :: post) :
    ((recoverStaleSeen policy now x.isMine x.capPauseReason).eval (alone i) s).1.outcome r.id
        = ((x.live policy).eval (alone i)
          (recoverRows policy x.capPauseReason i pre s).1).1.outcome r.id
      ↔ x.Usable i := by
  have hnodup : ((pre ++ r :: post).map OutboxRecord.id).Nodup := by
    rw [← hrows]
    exact s.outbox.nodup.sublist ((List.filter_sublist.trans List.filter_sublist).map _)
  rw [List.map_append, List.map_cons, List.nodup_append, List.nodup_cons] at hnodup
  obtain ⟨-, ⟨hpost, -⟩, hpre⟩ := hnodup
  have hpre : ∀ y ∈ pre, y.id ≠ r.id := fun y hy =>
    hpre _ (List.mem_map_of_mem hy) _ List.mem_cons_self
  have hpost : ∀ y ∈ post, y.id ≠ r.id := fun y hy heq =>
    hpost (heq ▸ List.mem_map_of_mem hy)
  have hr : s.outbox.get r.id = some r := by
    have hmem : r ∈ (s.outbox.stale now staleSeenMs [seen]).filter x.isMine := by
      rw [hrows]
      simp
    exact (Outbox.mem_stale.1 (List.mem_filter.1 hmem).1).1
  have hreached : (recoverRows policy x.capPauseReason i pre s).1.outbox.get r.id = some r := by
    rw [get_recoverRows hpre, hr]
  have houtcome : ((recoverStaleSeen policy now x.isMine x.capPauseReason).eval (alone i) s).1.outcome
      r.id = ((capDecision policy x.capPauseReason r.id r.amountMilliViz).eval (alone i)
        (recoverRows policy x.capPauseReason i pre s).1).1.outcome r.id := by
    rw [eval_recoverStaleSeen, hrows, recoverRows_append, recoverRows_cons]
    unfold WatchState.outcome
    rw [get_recoverRows hpost]
  rw [houtcome]
  by_cases hx : x.Usable i
  · rw [eval_live_of_usable hclaim hx]
    simp [hx]
  · rw [outcome_live_of_unusable hclaim hx hreached]
    simp only [hx, iff_false]
    exact outcome_capDecision_ne hreached

/-! ## Two stale rows -/

def largePolicy : CapPolicy := ⟨1000000, 1000000, 1000000⟩

/-- What a watcher leaves that dies right after its claim at time 0. -/
def claimedBy (x : Detection) : WatchState :=
  { WatchState.empty with outbox := (Outbox.empty.enqueue 0 (x.claim sampleLibs)).2 }

/-- Ten minutes later, on a chain without any VIZ account. -/
def tenMinutesLater : WatchInput := { clock := 600000 }

theorem recovery_matches_live_iff_sample :
    ((recoverStaleSeen largePolicy 600000 VizWatcher.isMine VizWatcher.capPauseReason).eval
        (alone tenMinutesLater) (claimedBy (.deposit sampleDeposit))).1.outcome sampleDeposit.id
      = ((VizWatcher.decide largePolicy sampleDeposit).eval (alone tenMinutesLater)
        (claimedBy (.deposit sampleDeposit))).1.outcome sampleDeposit.id := by
  have hrows : ((claimedBy (.deposit sampleDeposit)).outbox.stale 600000 staleSeenMs
      [seen]).filter VizWatcher.isMine
        = [] ++ (VizWatcher.claim sampleLibs sampleDeposit seen none).toRecord 0 :: [] := by
    decide +kernel
  exact (recovery_matches_live_iff sampleLibs largePolicy tenMinutesLater 600000 0
    (claimedBy (.deposit sampleDeposit)) (.deposit sampleDeposit) rfl hrows).2 trivial

/-- The burn of a destination nobody has is queued for release, where the live path returns it. -/
theorem recovery_queues_unusable :
    ((recoverStaleSeen largePolicy 600000 GramWatcher.isMine GramWatcher.capPauseReason).eval
        (alone tenMinutesLater) (claimedBy (.burnt sampleBurn))).1.outcome sampleBurn.sourceId
        = some (queued, none)
      ∧ ((GramWatcher.decide largePolicy sampleBurn).eval (alone tenMinutesLater)
        (claimedBy (.burnt sampleBurn))).1.outcome sampleBurn.sourceId
        = some (held, some returnInvalidDest) := by
  exact ⟨by decide +kernel, by decide +kernel⟩

end VizGateway
