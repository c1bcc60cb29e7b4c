import VizGateway.CapWindow

/-!
# When the rolling cap holds

A recorded amount keeps every day within the cap if the rows still in the table are all that count
for it. Calls that reach the store out of the order of their clocks break that, and so does a
record between a scanner's check and its own.
-/

namespace VizGateway

namespace RollingCap

/-! ## Sums over the window -/

theorem capSum_filter_mono {p q : CapRow → Bool} {rows : List CapRow}
    (h : ∀ r ∈ rows, p r = true → q r = true) : capSum (rows.filter p) ≤ capSum (rows.filter q) := by
  induction rows with
  | nil => exact Nat.le_refl _
  | cons r rows ih =>
    have ih := ih fun r hr => h r (List.mem_cons_of_mem _ hr)
    have hr := h r List.mem_cons_self
    cases hp : p r <;> cases hq : q r
    · simpa [hp, hq] using ih
    · simp only [List.filter_cons, hp, hq, capSum, Bool.false_eq_true, if_false, if_true,
        List.map_cons, List.sum_cons] at ih ⊢
      omega
    · rw [hr hp] at hq
      cases hq
    · simp only [List.filter_cons, hp, hq, capSum, if_true, List.map_cons, List.sum_cons] at ih ⊢
      omega

variable {s : CapWindow}

/-- What the store's sum can count. -/
def liveSum (s : CapWindow) : ℕ := capSum s.liveRows

theorem mem_prune {since : ℤ} {r : CapRow} (h : r ∈ (s.prune since).rows) :
    ∃ r' ∈ s.rows, r = { r' with live := r'.live && decide (since ≤ r'.ts) } := by
  obtain ⟨r', hr', rfl⟩ := List.mem_map.1 h
  exact ⟨r', hr', rfl⟩

theorem liveSum_prune_le (since : ℤ) : liveSum (s.prune since) ≤ liveSum s := by
  obtain ⟨rows⟩ := s
  unfold liveSum CapWindow.liveRows CapWindow.prune capSum
  induction rows with
  | nil => exact Nat.le_refl _
  | cons r rows ih =>
    cases hl : r.live <;> cases hs : decide (since ≤ r.ts) <;>
      simp only [List.map_cons, List.filter_cons, hl, hs, Bool.and_true, Bool.and_false,
        Bool.false_eq_true, if_true, if_false, List.sum_cons] at ih ⊢ <;> omega

theorem recordedUpTo_prune (since t : ℤ) : (s.prune since).recordedUpTo t = s.recordedUpTo t := by
  obtain ⟨rows⟩ := s
  unfold CapWindow.recordedUpTo CapWindow.prune capSum
  rw [List.filter_map, List.map_map]
  rfl

theorem inOrder_prune {now : ℤ} (h : InOrder s now) : InOrder (s.prune (now - dayMs)) now := by
  intro r hr
  obtain ⟨r', hr', rfl⟩ := mem_prune hr
  refine ⟨(h r' hr').1, fun hts => ?_⟩
  simp [(h r' hr').2 hts, hts]

theorem recordedUpTo_insert (amount : ℕ) (now t : ℤ) :
    (s.insert amount now).recordedUpTo t
      = s.recordedUpTo t + if t - dayMs ≤ now ∧ now ≤ t then amount else 0 := by
  unfold CapWindow.recordedUpTo CapWindow.insert capSum
  rw [List.filter_append, List.map_append, List.sum_append]
  by_cases ht : t - dayMs ≤ now ∧ now ≤ t
  · rw [List.filter_cons_of_pos (by rwa [decide_eq_true_eq]), if_pos ht]
    rfl
  · rw [List.filter_cons_of_neg (by rwa [decide_eq_true_eq]), if_neg ht]
    rfl

/-- In order, everything of a day that reaches back from `now` on is still in the table. -/
theorem recordedUpTo_le_liveSum {now t : ℤ} (h : InOrder s now) (ht : now ≤ t) :
    s.recordedUpTo t ≤ liveSum s := by
  refine capSum_filter_mono fun r hr hday => (h r hr).2 ?_
  rw [decide_eq_true_eq] at hday
  omega

theorem liveSum_of_le {now : ℤ} (h : ∀ r ∈ s.rows, r.ts ≤ now) :
    capSum (s.liveRows.filter (·.ts ≤ now)) = liveSum s := by
  have hall : s.liveRows.filter (·.ts ≤ now) = s.liveRows :=
    List.filter_eq_self.2 fun r hr => decide_eq_true (h r (List.mem_of_mem_filter hr))
  rw [hall]
  rfl

/-- Within the cap on every day. -/
def Capped (cap : ℕ) (s : CapWindow) : Prop := ∀ t, s.recordedUpTo t ≤ cap

theorem capped_insert {cap amount : ℕ} {now : ℤ} (h : Capped cap s) (hnow : InOrder s now)
    (hroom : liveSum s + amount ≤ cap) : Capped cap (s.insert amount now) := by
  intro t
  rw [recordedUpTo_insert]
  split_ifs with ht
  · have := recordedUpTo_le_liveSum hnow ht.2
    omega
  · exact h t

/-! ## What one operation does -/

variable {cap amount : ℕ}

/-- A table that only lost rows. -/
def Pruned (s s' : CapWindow) : Prop := s' = s ∨ ∃ since, s' = s.prune since

theorem Pruned.capped {s' : CapWindow} (h : Pruned s s') (hc : Capped cap s) : Capped cap s' := by
  rcases h with rfl | ⟨since, rfl⟩
  · exact hc
  · intro t
    rw [recordedUpTo_prune]
    exact hc t

theorem Pruned.liveSum_le {s' : CapWindow} (h : Pruned s s') : liveSum s' ≤ liveSum s := by
  rcases h with rfl | ⟨since, rfl⟩
  · exact Nat.le_refl _
  · exact liveSum_prune_le since

/-- The operation that records. -/
def Records : CapOp → Prop
  | .recordCap .. => True
  | .tryReserveCap .. => True
  | _ => False

theorem pruned_of_not_records {o : CapOp} (i : CapInput) (h : ¬ Records o) :
    Pruned s (o.exec i s).1 := by
  unfold CapOp.exec
  cases i.fails with
  | some e => exact .inl rfl
  | none =>
    cases o with
    | recordCap a now => exact absurd trivial h
    | tryReserveCap a c since now => exact absurd trivial h
    | capSumMilliViz since now => exact .inr ⟨since, rfl⟩
    | _ => exact .inl rfl

/-- The operations of a caller of this amount under this cap. -/
def Asks (cap amount : ℕ) : CapOp → Prop
  | .recordCap a _ => a = amount
  | .tryReserveCap _ c since now => c = cap ∧ since = now - dayMs
  | _ => True

/-- The answers after which a scanner goes on to its record. -/
def Passes (cap amount : ℕ) : (o : CapOp) → Except String o.Ans → Prop
  | .capSumMilliViz .., .ok (sum : ℕ) => sum + amount ≤ cap
  | .accountExists, _ => True
  | .burnFromDeposit, _ => True
  | .dateNow .record, _ => True
  | _, _ => False

/-- A program of some amount; past its check that amount still has room. -/
def Fits (cap : ℕ) (s : CapWindow) (p : CapM Unit) : Prop :=
  ∃ amount, Prog.Uses (Asks cap amount) p
    ∧ Prog.Gated MidRecord (Passes cap amount) (liveSum s + amount ≤ cap) p

/-! ## The callers -/

section

variable (policy : CapPolicy)

theorem asks_ask {o : CapOp} (h : Asks cap amount o) :
    Prog.Uses (Asks cap amount) (Prog.ask o : CapM o.Ans) := Prog.uses_ask h

theorem asks_check : Prog.Uses (Asks cap amount) (CircuitBreaker.check policy amount) := by
  refine Prog.uses_bind (asks_ask (o := .dateNow .check) trivial) fun (now : ℤ) => ?_
  split
  · trivial
  · refine Prog.uses_bind (asks_ask (o := .capSumMilliViz (now - dayMs) now) trivial)
      fun (sum : ℕ) => ?_
    split_ifs <;> trivial

theorem asks_record : Prog.Uses (Asks cap amount) (CircuitBreaker.record amount) :=
  Prog.uses_bind (asks_ask (o := .dateNow .record) trivial) fun (now : ℤ) =>
    asks_ask (o := .recordCap amount now) rfl

theorem asks_checkAndRecord : Prog.Uses (Asks policy.rolling24hMilliViz amount)
    (CircuitBreaker.checkAndRecord policy amount) := by
  refine Prog.uses_bind (asks_ask (o := .dateNow .reserve) trivial) fun (now : ℤ) => ?_
  split
  · trivial
  · refine Prog.uses_bind
      (asks_ask (o := .tryReserveCap amount policy.rolling24hMilliViz (now - dayMs) now)
        ⟨rfl, rfl⟩) fun (reserved : Bool) => ?_
    split_ifs <;> trivial

/-- A watcher holds no check over its record: it has none. -/
theorem keeps_checkAndRecord :
    Prog.Uses (fun o => ¬ MidRecord o) (CircuitBreaker.checkAndRecord policy amount) := by
  refine Prog.uses_bind (Prog.uses_ask (o := CapOp.dateNow .reserve) id) fun (now : ℤ) => ?_
  split
  · trivial
  · refine Prog.uses_bind (Prog.uses_ask
      (o := CapOp.tryReserveCap amount policy.rolling24hMilliViz (now - dayMs) now) id)
      fun (reserved : Bool) => ?_
    split_ifs <;> trivial

/-- Between its check and its record a scanner goes on only if the amount had room. -/
theorem gated_check_then {α : Type} {f : Option CapRejection → CapM α}
    (hnone : Prog.Gated MidRecord (Passes policy.rolling24hMilliViz amount) True (f none))
    (hsome : ∀ r, Prog.Gated MidRecord (Passes policy.rolling24hMilliViz amount) False (f (some r))) :
    Prog.Gated MidRecord (Passes policy.rolling24hMilliViz amount) False
      (CircuitBreaker.check policy amount >>= f) := by
  refine ⟨id, fun answer => ?_⟩
  cases answer with
  | error e => trivial
  | ok now =>
    change ℤ at now
    simp only [Prog.ofExcept, Prog.bind]
    split
    · exact hsome _
    · refine ⟨id, fun answer => ?_⟩
      cases answer with
      | error e => trivial
      | ok sum =>
        change ℕ at sum
        simp only [Prog.ofExcept, Prog.bind]
        split
        · exact (hsome _).mono False.elim
        · split
          · exact (hsome _).mono False.elim
          · exact hnone.mono fun _ => by simp only [Passes]; omega

theorem gated_scannerCapUse :
    Prog.Gated MidRecord (Passes policy.rolling24hMilliViz amount) False
      (scannerCapUse policy amount) := by
  refine gated_check_then policy ?_ fun r => trivial
  refine ⟨fun _ => trivial, fun answer => ?_⟩
  cases answer with
  | error e => trivial
  | ok found =>
    change Bool at found
    cases found with
    | false => trivial
    | true =>
      change Prog.Gated _ _ _ (tryCatch (do
        Prog.ask CapOp.burnFromDeposit
        CircuitBreaker.record amount) fun _ => pure ())
      refine Prog.gated_catch ?_ fun _ => trivial
      refine ⟨fun _ => trivial, fun answer => ?_⟩
      cases answer with
      | error e => trivial
      | ok _ =>
        refine ⟨fun _ => trivial, fun answer => ?_⟩
        cases answer with
        | error e => trivial
        | ok now =>
          refine ⟨fun _ => trivial, fun answer => ?_⟩
          cases answer <;> trivial

theorem asks_scannerCapUse : Prog.Uses (Asks cap amount) (scannerCapUse policy amount) := by
  refine Prog.uses_bind (asks_check policy) fun decision => ?_
  cases decision with
  | some _ => trivial
  | none =>
    refine Prog.uses_bind (asks_ask (o := .accountExists) trivial) fun (found : Bool) => ?_
    split
    · refine Prog.uses_catch ?_ fun _ => trivial
      exact Prog.uses_bind (asks_ask (o := .burnFromDeposit) trivial) fun _ => asks_record
    · trivial

theorem fits_body (c : CapCaller) (s : CapWindow) :
    Fits policy.rolling24hMilliViz s ((capSystem policy).body c) := by
  cases c with
  | watcher amount =>
    exact ⟨amount, Prog.uses_bind (asks_checkAndRecord policy) fun _ => trivial,
      Prog.gated_of_uses (Prog.uses_bind (keeps_checkAndRecord policy) fun _ => trivial)⟩
  | scanner amount =>
    exact ⟨amount, asks_scannerCapUse policy, (gated_scannerCapUse policy).mono False.elim⟩

end

/-! ## One orderly step -/

theorem Fits.mono {s' : CapWindow} {p : CapM Unit} (h : Fits cap s p)
    (hle : liveSum s' ≤ liveSum s) : Fits cap s' p := by
  obtain ⟨amount, hasks, hgated⟩ := h
  exact ⟨amount, hasks, hgated.mono fun hroom => by omega⟩

/-- Off its check a program needs no room. -/
theorem Fits.anywhere {s' : CapWindow} {p : CapM Unit} (h : Fits cap s p)
    (hmid : ∀ o k, p = .call o k → ¬ MidRecord o) : Fits cap s' p := by
  obtain ⟨amount, hasks, hgated⟩ := h
  refine ⟨amount, hasks, ?_⟩
  cases p with
  | ret a => trivial
  | throw e => trivial
  | call o k => exact (hgated.disarm (hmid o k rfl)).mono False.elim

/-- An operation only loses rows, or records an amount that has room in order. -/
theorem exec_outcome {w : CapWorld} {n : ℕ} {o : CapOp} (i : CapInput)
    (hasks : Asks cap amount o) (hroom : MidRecord o → liveSum w.shared + amount ≤ cap)
    (hc : CapOrderlyAt w n o) :
    Pruned w.shared (o.exec i w.shared).1
      ∨ Records o ∧ ∃ s a now, Pruned w.shared s ∧ InOrder s now ∧ liveSum s + a ≤ cap
        ∧ (o.exec i w.shared).1 = s.insert a now := by
  by_cases hrec : Records o
  · unfold CapOp.exec
    cases i.fails with
    | some e => exact .inl (.inl rfl)
    | none =>
      cases o with
      | recordCap a now =>
        cases hasks
        exact .inr ⟨trivial, w.shared, _, now, .inl rfl, hc.1, hroom trivial, rfl⟩
      | tryReserveCap a c since now =>
        obtain ⟨rfl, rfl⟩ := hasks
        simp only [CapOp.run, CapWindow.tryReserveCap]
        split_ifs with hfull
        · exact .inl (.inr ⟨_, rfl⟩)
        · have horder := inOrder_prune hc.1
          rw [liveSum_of_le fun r hr => (horder r hr).1] at hfull
          exact .inr ⟨trivial, _, a, now, .inr ⟨_, rfl⟩, horder, by omega, rfl⟩
      | _ => exact hrec.elim
  · exact .inl (pruned_of_not_records i hrec)

/-- After an answer that lets it go on a scanner still has room. -/
theorem room_of_passes {w : CapWorld} {n : ℕ} {o : CapOp} {i : CapInput}
    (hroom : MidRecord o → liveSum w.shared + amount ≤ cap) (hc : CapOrderlyAt w n o)
    (hpass : Passes cap amount o (o.exec i w.shared).2) :
    liveSum (o.exec i w.shared).1 + amount ≤ cap := by
  have hsame : ¬ Records o := by
    rintro hrec
    cases o <;> first | exact hrec.elim | exact hpass.elim
  by_cases hmid : MidRecord o
  · have := (pruned_of_not_records (s := w.shared) i hsame).liveSum_le
    have := hroom hmid
    omega
  · cases o with
    | capSumMilliViz since now =>
      unfold CapOp.exec at hpass ⊢
      cases hf : i.fails with
      | some e =>
        rw [hf] at hpass
        exact hpass.elim
      | none =>
        rw [hf] at hpass
        have hle : ∀ r ∈ (w.shared.prune since).rows, r.ts ≤ now := by
          intro r hr
          obtain ⟨r', hr', rfl⟩ := mem_prune hr
          exact hc r' hr'
        change liveSum (w.shared.prune since) + amount ≤ cap
        rw [← liveSum_of_le hle]
        exact hpass
    | dateNow call =>
      cases call with
      | record => exact absurd trivial hmid
      | check => exact hpass.elim
      | reserve => exact hpass.elim
    | accountExists => exact absurd trivial hmid
    | burnFromDeposit => exact absurd trivial hmid
    | recordCap a now => exact hpass.elim
    | tryReserveCap a c since now => exact hpass.elim

theorem step_inv (policy : CapPolicy) {w : CapWorld} {e : CapEvent}
    (h : Pool.Inv (Capped policy.rolling24hMilliViz) (Fits policy.rolling24hMilliViz) w)
    (hc : CapOrderly w e) :
    Pool.Inv (Capped policy.rolling24hMilliViz) (Fits policy.rolling24hMilliViz)
      (w.step (capSystem policy) e) := by
  cases e with
  | start c => exact Pool.inv_start h (fits_body policy c _)
  | die n => exact Pool.inv_die h
  | act m => exact m.elim
  | step n i =>
    refine Pool.inv_step h fun o k hn hself => ?_
    have hat : CapOrderlyAt w n o := hc o (Pool.standsAt_eq_some.2 ⟨k, hn⟩)
    obtain ⟨amount, hasks, hgated⟩ := hself
    have hnext : Fits policy.rolling24hMilliViz (o.exec i w.shared).1 (k (o.exec i w.shared).2) :=
      ⟨amount, hasks.2 _, (hgated.2 _).mono (room_of_passes hgated.1 hat)⟩
    rcases exec_outcome i hasks.1 hgated.1 hat with hp | ⟨hrec, s, a, now, hp, horder, hroom, hs⟩
    · exact ⟨hp.capped h.state, hnext, fun m p _ _ hfits => hfits.mono hp.liveSum_le⟩
    · refine ⟨?_, hnext, fun m p hmn hm hfits => hfits.anywhere fun o' k' hp' => ?_⟩
      · rw [show ((capSystem policy).exec o i w.shared).1 = _ from hs]
        exact capped_insert (hp.capped h.state) horder hroom
      · have hstands : w.standsAt m = some o' := Pool.standsAt_eq_some.2 ⟨k', hp' ▸ hm⟩
        cases o with
        | recordCap a' now' => exact hat.2 m o' hmn hstands
        | tryReserveCap a' c since now' => exact hat.2 m o' hmn hstands
        | _ => exact hrec.elim

end RollingCap

open RollingCap

/-- In every orderly run no day holds more than the cap. -/
theorem rolling_cap_holds (policy : CapPolicy) {es : List CapEvent}
    (h : Runs.Meets (Pool.step (capSystem policy)) CapOrderly CapWorld.init es) :
    ∀ t, (Runs.run (Pool.step (capSystem policy)) CapWorld.init es).shared.recordedUpTo t
      ≤ policy.rolling24hMilliViz := by
  have hinit : Pool.Inv (Capped policy.rolling24hMilliViz) (Fits policy.rolling24hMilliViz)
      CapWorld.init := {
    state := fun t => Nat.zero_le _
    threads := fun p hp => by cases hp }
  exact (Runs.run_inv (fun _ _ hw hc => step_inv policy hw hc) hinit h).state

/-! ## Runs -/

def samplePolicy : CapPolicy := ⟨100, 100, 100⟩

def clockAt (now : ℤ) : CapInput := { clock := now }

/-- A watcher reserves 40, then the scanner checks, burns and records 60. -/
def orderlyRun : List CapEvent :=
  [.start (.watcher 40), .step 0 (clockAt 1000), .step 0 (clockAt 0), .start (.scanner 60),
    .step 1 (clockAt 1001), .step 1 (clockAt 0), .step 1 (clockAt 0), .step 1 (clockAt 0),
    .step 1 (clockAt 1002), .step 1 (clockAt 0)]

theorem orderly_at {w : CapWorld} {n : ℕ} {i : CapInput} (o : CapOp) (h : w.standsAt n = some o)
    (ho : CapOrderlyAt w n o) : CapOrderly w (.step n i) := by
  intro o' h'
  rw [h] at h'
  cases h'
  exact ho

theorem rolling_cap_holds_sample :
    (Runs.run (Pool.step (capSystem samplePolicy)) CapWorld.init orderlyRun).shared.recordedUpTo 1002
      ≤ samplePolicy.rolling24hMilliViz := by
  have horderly : Runs.Meets (Pool.step (capSystem samplePolicy)) CapOrderly CapWorld.init
      orderlyRun := by
    refine ⟨trivial, orderly_at (.dateNow .reserve) rfl trivial,
      orderly_at (.tryReserveCap 40 100 (1000 - dayMs) 1000) rfl ⟨?_, ?_⟩, trivial,
      orderly_at (.dateNow .check) rfl trivial,
      orderly_at (.capSumMilliViz (1001 - dayMs) 1001) rfl ?_, orderly_at .accountExists rfl trivial,
      orderly_at .burnFromDeposit rfl trivial, orderly_at (.dateNow .record) rfl trivial,
      orderly_at (.recordCap 60 1002) rfl ⟨?_, ?_⟩, trivial⟩
    · exact fun r hr => by cases hr
    · rintro (_ | m) o hm h
      · exact absurd rfl hm
      · cases h
    · show ∀ r : CapRow, r ∈ _ → r.ts ≤ 1001
      decide
    · show ∀ r : CapRow, r ∈ _ → r.ts ≤ 1002 ∧ (1002 - dayMs ≤ r.ts → r.live = true)
      decide
    · rintro (_ | _ | m) o hm h
      · cases h
      · exact absurd rfl hm
      · cases h
  exact rolling_cap_holds samplePolicy horderly 1002

/-- Two watchers read their clocks in one order and take the lock in the other. -/
def lateClockRun : List CapEvent :=
  [.start (.watcher 60), .start (.watcher 60), .step 0 (clockAt 1000), .step 1 (clockAt 1001),
    .step 1 (clockAt 0), .step 0 (clockAt 0)]

/-- A watcher reserves between the scanner's check and its record. -/
def scannerRaceRun : List CapEvent :=
  [.start (.scanner 60), .start (.watcher 60), .step 0 (clockAt 1000), .step 0 (clockAt 0),
    .step 1 (clockAt 1001), .step 1 (clockAt 0), .step 0 (clockAt 0), .step 0 (clockAt 0),
    .step 0 (clockAt 1002), .step 0 (clockAt 0)]

theorem rolling_cap_exceeded :
    samplePolicy.rolling24hMilliViz < (Runs.run (Pool.step (capSystem samplePolicy)) CapWorld.init
        lateClockRun).shared.recordedUpTo 1001
      ∧ samplePolicy.rolling24hMilliViz < (Runs.run (Pool.step (capSystem samplePolicy))
        CapWorld.init scannerRaceRun).shared.recordedUpTo 1002 := by
  decide +kernel

end VizGateway
