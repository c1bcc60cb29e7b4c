import VizGateway.DispatcherWorld
import VizGateway.Sample

/-!
# Deliveries are counted

The coordinator looks for a mint that may have landed only on a row whose `attempts` is positive. A
row is delivered with at least as many attempts as deliveries of it went out before, whatever was
lost, thrown or cut off by a crash in between (`attempts_count_deliveries`): requeueing what a crash
left in BROADCAST counts as well.
-/

namespace VizGateway

open ActionStatus Dispatcher

/-- The row an event delivers. -/
def DispatcherWorld.delivers (w : DispatcherWorld) : DispatcherEvent → Option String
  | .await _ =>
    match w.standsAt with
    | some (.submit rec) => some rec.id
    | _ => none
  | _ => none

/-- A step, with the ids delivered so far. -/
def DispatcherWorld.logged (opts : DispatcherOpts) (x : DispatcherWorld × List String)
    (e : DispatcherEvent) : DispatcherWorld × List String :=
  (x.1.step opts e, (x.1.delivers e).toList ++ x.2)

namespace DeliveryCount

/-- The outbox and the deliveries so far. -/
abbrev Logged := Outbox × List String

/-- How many deliveries a row may have behind it: none while it is parked, its attempts while it is
queued, one more once it went out. -/
def allowance : Option OutboxRecord → ℕ
  | none => 0
  | some r =>
    if r.status = seen ∨ r.status = held then 0
    else if r.status = queued then r.attempts
    else r.attempts + 1

def Counted (s : Logged) : Prop := ∀ id, s.2.count id ≤ allowance (s.1.get id)

/-- What the other services keep. -/
structure Rely (s t : Logged) : Prop where
  counted : Counted s → Counted t
  log : t.2 = s.2
  out : ∀ {id r}, s.1.get id = some r → r.status ≠ seen →
    ∃ r', t.1.get id = some r' ∧ r'.attempts = r.attempts
      ∧ (r'.status = r.status ∨ r'.status = broadcast)

/-- A row in hand with `n` deliveries more than it had attempts when it was read. -/
structure InHand (n : ℕ) (s : Logged) (rec : OutboxRecord) : Prop where
  count : s.2.count rec.id ≤ rec.attempts + n
  row : ∃ r, s.1.get rec.id = some r ∧ r.attempts = rec.attempts ∧ r.status ≠ seen

variable {opts : DispatcherOpts} {s t u : Logged} {rec : OutboxRecord} {n : ℕ}

theorem allowance_le (r : OutboxRecord) : allowance (some r) ≤ r.attempts + 1 := by
  simp only [allowance]
  split_ifs <;> omega

theorem allowance_of_out {r : OutboxRecord} (h : r.status ≠ seen ∧ r.status ≠ held ∧ r.status ≠ queued) :
    allowance (some r) = r.attempts + 1 := by
  simp [allowance, h]

theorem Rely.refl (s : Logged) : Rely s s := ⟨fun h => h, rfl, fun h _ => ⟨_, h, rfl, .inl rfl⟩⟩

theorem Rely.trans (h : Rely s t) (h' : Rely t u) : Rely s u where
  counted hs := h'.counted (h.counted hs)
  log := h'.log.trans h.log
  out hr hne := by
    obtain ⟨r', hr', ha, hst⟩ := h.out hr hne
    have hne' : r'.status ≠ seen := by
      rcases hst with hst | hst <;> rw [hst]
      · exact hne
      · simp
    obtain ⟨r'', hr'', ha', hst'⟩ := h'.out hr' hne'
    refine ⟨r'', hr'', ha'.trans ha, ?_⟩
    rcases hst' with hst' | hst'
    · rw [hst']
      exact hst
    · exact .inr hst'

theorem InHand.rely (h : InHand n s rec) (hst : Rely s t) : InHand n t rec := by
  obtain ⟨hcount, r, hr, ha, hne⟩ := h
  obtain ⟨r', hr', ha', hstatus⟩ := hst.out hr hne
  refine ⟨by rwa [hst.log], r', hr', ha'.trans ha, ?_⟩
  rcases hstatus with hstatus | hstatus <;> rw [hstatus]
  · exact hne
  · simp

/-! ## Writes -/

theorem Counted.setStatus (hs : Counted s) {id : String} {now : ℤ} {status : ActionStatus}
    {patch : StatusPatch} (h : ∀ r, s.1.get id = some r →
      s.2.count id ≤ allowance (some (r.withStatus now status patch))) :
    Counted (s.1.setStatus now id status patch, s.2) := by
  intro id'
  show s.2.count id' ≤ allowance ((s.1.setStatus now id status patch).get id')
  rw [Outbox.get_setStatus]
  split_ifs with hid
  · subst hid
    rcases hr : s.1.get id' with _ | r
    · have := hs id'
      rwa [hr] at this
    · exact h r hr
  · exact hs id'

theorem Counted.enqueue (hs : Counted s) (now : ℤ) (input : EnqueueInput) :
    Counted ((s.1.enqueue now input).2, s.2) := by
  intro id
  have hid := hs id
  show s.2.count id ≤ allowance ((s.1.enqueue now input).2.get id)
  rw [Outbox.get_enqueue]
  split_ifs with heq
  · subst heq
    rcases hr : s.1.get input.id with _ | r <;> rw [hr] at hid
    · simp only [allowance] at hid
      omega
    · exact hid
  · exact hid

/-- A write that leaves `attempts` alone and a row past QUEUED. -/
theorem Counted.moveOn (hs : Counted s) {id : String} {now : ℤ} {status : ActionStatus}
    {patch : StatusPatch} (hst : status ≠ seen ∧ status ≠ held ∧ status ≠ queued)
    (hp : patch.attempts = none) : Counted (s.1.setStatus now id status patch, s.2) := by
  refine hs.setStatus fun r hr => ?_
  have hid := hs id
  rw [hr] at hid
  have hle := allowance_le r
  rw [allowance_of_out (r := r.withStatus now status patch) hst]
  simp only [OutboxRecord.withStatus, hp, Option.getD_none]
  omega

theorem InHand.setStatus (h : InHand n s rec) {id : String} {now : ℤ} {status : ActionStatus}
    {patch : StatusPatch} (hst : status ≠ seen) (hp : rec.id ≠ id ∨ patch.attempts = none) :
    InHand n (s.1.setStatus now id status patch, s.2) rec := by
  obtain ⟨hcount, r, hr, ha, hne⟩ := h
  refine ⟨hcount, ?_⟩
  show ∃ r, (s.1.setStatus now id status patch).get rec.id = some r ∧ _
  rw [Outbox.get_setStatus]
  split_ifs with hid
  · rcases hp with hp | hp
    · exact absurd hid hp
    · refine ⟨r.withStatus now status patch, by rw [hr]; rfl, ?_, hst⟩
      simp [OutboxRecord.withStatus, hp, ha]
  · exact ⟨r, hr, ha, hne⟩

theorem InHand.enqueue (h : InHand n s rec) (now : ℤ) (input : EnqueueInput) :
    InHand n ((s.1.enqueue now input).2, s.2) rec := by
  obtain ⟨hcount, r, hr, ha, hne⟩ := h
  refine ⟨hcount, r, ?_, ha, hne⟩
  show (s.1.enqueue now input).2.get rec.id = some r
  rw [Outbox.get_enqueue]
  split_ifs with hid
  · rw [← hid, hr]
    rfl
  · exact hr

/-! ## The others -/

theorem rely_modify {id : String} {f : OutboxRecord → OutboxRecord} (hf : ∀ r, (f r).id = r.id)
    (hcount : ∀ r, s.1.get id = some r → Counted s → s.2.count id ≤ allowance (some (f r)))
    (hout : ∀ r, s.1.get id = some r → r.status ≠ seen →
      (f r).attempts = r.attempts ∧ ((f r).status = r.status ∨ (f r).status = broadcast)) :
    Rely s (s.1.modify id f hf, s.2) where
  counted hs id' := by
    show s.2.count id' ≤ allowance ((s.1.modify id f hf).get id')
    have hid' := hs id'
    rw [Outbox.get_modify]
    split_ifs with hid
    · subst hid
      rcases hr : s.1.get id' with _ | r
      · rwa [hr] at hid'
      · exact hcount r hr hs
    · exact hid'
  log := rfl
  out {id' r} hr hne := by
    show ∃ r', (s.1.modify id f hf).get id' = some r' ∧ _
    rw [Outbox.get_modify]
    split_ifs with hid
    · subst hid
      exact ⟨f r, by rw [hr]; rfl, hout r hr hne⟩
    · exact ⟨r, hr, rfl, .inl rfl⟩

theorem rely_setStatus {id : String} {now : ℤ} {status : ActionStatus} {patch : StatusPatch}
    (hcount : ∀ r, s.1.get id = some r → Counted s →
      s.2.count id ≤ allowance (some (r.withStatus now status patch)))
    (hout : ∀ r, s.1.get id = some r → r.status ≠ seen → status = broadcast)
    (hp : patch.attempts = none) : Rely s (s.1.setStatus now id status patch, s.2) := by
  refine rely_modify (f := fun r => r.withStatus now status patch) (fun _ => rfl) hcount
    fun r hr hne => ⟨?_, .inr (hout r hr hne)⟩
  simp [OutboxRecord.withStatus, hp]

theorem any_seen {o : Option OutboxRecord} (h : o.any (·.status = seen) = true) :
    ∃ r, o = some r ∧ r.status = seen := by
  rcases o with _ | r
  · cases h
  · exact ⟨r, rfl, by simpa using h⟩

theorem rely_apply {clock : ℤ} {write : OutboxWrite} (hfits : write.fits s.1 = true) :
    Rely s (write.apply clock s.1, s.2) := by
  -- a row in SEEN has no delivery behind it
  have hseen : ∀ {id}, (s.1.get id).any (·.status = seen) = true →
      (∀ r, s.1.get id = some r → r.status = seen) ∧ (Counted s → s.2.count id = 0) := by
    intro id h
    obtain ⟨r, hr, hst⟩ := any_seen h
    refine ⟨fun r' hr' => ?_, fun hs => ?_⟩
    · rw [hr, Option.some.injEq] at hr'
      rwa [← hr']
    · have := hs id
      simp only [hr, allowance, hst, true_or, if_true] at this
      omega
  cases write with
  | detect input =>
    refine ⟨fun hs => hs.enqueue clock input, rfl, fun {id r} hr _ => ⟨r, ?_, rfl, .inl rfl⟩⟩
    show (s.1.enqueue clock input).2.get id = some r
    rw [Outbox.get_enqueue]
    split_ifs with hid
    · rw [← hid, hr]
      rfl
    · exact hr
  | classify id status lastError =>
    simp only [OutboxWrite.fits, Bool.and_eq_true] at hfits
    obtain ⟨hst, hzero⟩ := hseen hfits.1
    refine rely_setStatus (fun r _ hs => ?_) (fun r hr hne => absurd (hst r hr) hne) rfl
    rw [hzero hs]
    exact Nat.zero_le _
  | checkpoint id txid =>
    obtain ⟨hst, hzero⟩ := hseen hfits
    refine rely_setStatus (fun r _ hs => ?_) (fun r hr hne => absurd (hst r hr) hne) rfl
    rw [hzero hs]
    exact Nat.zero_le _
  | discard id =>
    have hany : (s.1.get id).any (·.status = seen) = true := by
      simp only [OutboxWrite.fits] at hfits
      rcases hr : s.1.get id with _ | r <;> rw [hr] at hfits
      · cases hfits
      · simp only [Option.any_some, decide_eq_true_eq] at hfits ⊢
        exact hfits.1
    obtain ⟨hst, hzero⟩ := hseen hany
    refine ⟨fun hs id' => ?_, rfl, fun {id' r} hr hne => ⟨r, ?_, rfl, .inl rfl⟩⟩
    · show s.2.count id' ≤ allowance ((s.1.delete id).get id')
      rw [Outbox.get_delete]
      split_ifs with hid
      · rw [hid, hzero hs]
        exact Nat.zero_le _
      · exact hs id'
    · show (s.1.delete id).get id' = some r
      rw [Outbox.get_delete, if_neg]
      · exact hr
      · intro hid
        exact hne (hst r (hid ▸ hr))
  | pin id txid =>
    refine rely_setStatus (fun r hr hs => ?_) (fun _ _ _ => rfl) rfl
    have hcount := hs id
    rw [hr] at hcount
    have hle := allowance_le r
    have hnew : allowance (some (r.withStatus clock broadcast { txid := some (some txid) })) =
        r.attempts + 1 := allowance_of_out (by simp [OutboxRecord.withStatus])
    omega
  | setFee id fee =>
    refine rely_modify (f := fun r => { r with feeMilliViz := fee, updatedAt := clock })
      (fun _ => rfl) (fun r hr hs => ?_) fun r _ _ => ⟨rfl, .inl rfl⟩
    have hcount := hs id
    rwa [hr] at hcount
  | pause reason => exact ⟨fun hs => hs, rfl, fun hr _ => ⟨_, hr, rfl, .inl rfl⟩⟩
  | resume => exact ⟨fun hs => hs, rfl, fun hr _ => ⟨_, hr, rfl, .inl rfl⟩⟩

/-! ## A turn -/

/-- A call, logged where it delivers. -/
def exec (o : DispatcherOp) (i : AwaitInput) (s : Logged) : Logged × Except String o.Ans :=
  (((o.exec i s.1).1, match o with
    | .submit rec => rec.id :: s.2
    | _ => s.2), (o.exec i s.1).2)

/-- What a turn is proved against: wherever it stands the deliveries are within the allowances, and
what it delivers has them among its attempts. -/
def contract : Prog.Contract DispatcherOp DispatcherOp.Ans String Logged AwaitInput where
  exec := exec
  rely := Rely
  rely_refl := Rely.refl
  rely_trans := Rely.trans
  allowed _ _ _ := True
  point o s := Counted s ∧ ∀ rec, o = .submit rec → InHand 0 s rec

/-- The program keeps the contract from `s` and ends in `Q`. -/
def Safe {α : Type} (Q : α → Logged → Prop) (p : DispatcherM α) (s : Logged) : Prop :=
  Prog.Safe contract Q (fun _ => Counted) p s

theorem safe_bind {α β : Type} {p : DispatcherM α} {f : α → DispatcherM β} {Q : β → Logged → Prop}
    (h : Safe (fun a s => Safe Q (f a) s) p s) : Safe Q (p >>= f) s :=
  Prog.safe_bind h

theorem safe_store {o : StoreOp} {Q : o.Ans → Logged → Prop} (hs : Counted s)
    (hok : ∀ t, Rely s t → ∀ clock, Q (o.exec clock t.1).2 ((o.exec clock t.1).1, t.2)) :
    Safe Q (Prog.ask (DispatcherOp.store o)) s := by
  refine Prog.safe_ask (fun t ht => ⟨ht.counted hs, fun _ h => by cases h⟩)
    (fun t ht i _ a ha => ?_) fun t ht i _ e he => ?_
  · change (DispatcherOp.exec (.store o) i t.1).2 = .ok a at ha
    show Q a ((DispatcherOp.exec (.store o) i t.1).1, t.2)
    unfold DispatcherOp.exec at ha ⊢
    rcases hf : i.fails with _ | e <;> simp only [hf] at ha ⊢
    · rw [← Except.ok.inj ha]
      exact hok t ht i.clock
    · cases ha
  · change (DispatcherOp.exec (.store o) i t.1).2 = .error e at he
    show Counted ((DispatcherOp.exec (.store o) i t.1).1, t.2)
    unfold DispatcherOp.exec at he ⊢
    rcases hf : i.fails with _ | e <;> simp only [hf] at he ⊢
    · cases he
    · exact ht.counted hs

theorem safe_dateNow {Q : ℤ → Logged → Prop} (hs : Counted s) (hok : ∀ t, Rely s t → ∀ n, Q n t) :
    Safe Q dateNow s := by
  refine Prog.safe_ask (fun t ht => ⟨ht.counted hs, fun _ h => by cases h⟩)
    (fun t ht i _ a _ => hok t ht a) ?_
  intro t _ i _ e he
  cases he

/-- A delivery: one more behind its row. -/
theorem safe_submit {Q : DeliveryResult → Logged → Prop} (hs : Counted s) (hrec : InHand 0 s rec)
    (hok : ∀ t, Rely s t → ∀ result, Q result (t.1, rec.id :: t.2)) :
    Safe Q (submit rec) s := by
  refine Prog.safe_ask (fun t ht => ⟨ht.counted hs, fun rec' h => ?_⟩)
    (fun t ht i _ a _ => hok t ht a) ?_
  · cases h
    exact hrec.rely ht
  · intro t _ i _ e he
    cases he

/-- Rows in hand, one an id. -/
structure Queue (n : ℕ) (recs : List OutboxRecord) (s : Logged) : Prop where
  counted : Counted s
  nodup : (recs.map OutboxRecord.id).Nodup
  rows : ∀ r ∈ recs, InHand n s r

theorem Queue.rely {recs : List OutboxRecord} (h : Queue n recs s) (hst : Rely s t) :
    Queue n recs t :=
  ⟨hst.counted h.counted, h.nodup, fun r hr => (h.rows r hr).rely hst⟩

theorem Queue.enqueue {recs : List OutboxRecord} (h : Queue n recs s) (now : ℤ)
    (input : EnqueueInput) : Queue n recs ((s.1.enqueue now input).2, s.2) :=
  ⟨h.counted.enqueue now input, h.nodup, fun r hr => (h.rows r hr).enqueue now input⟩

theorem Queue.moveOn {recs : List OutboxRecord} (h : Queue n recs s) {id : String} {now : ℤ}
    {status : ActionStatus} {patch : StatusPatch}
    (hst : status ≠ seen ∧ status ≠ held ∧ status ≠ queued) (hp : patch.attempts = none) :
    Queue n recs (s.1.setStatus now id status patch, s.2) :=
  ⟨h.counted.moveOn hst hp, h.nodup, fun r hr => (h.rows r hr).setStatus hst.1 (.inr hp)⟩

theorem Queue.tail {recs : List OutboxRecord} (h : Queue n (rec :: recs) s) : Queue n recs s :=
  ⟨h.counted, (List.nodup_cons.1 h.nodup).2, fun r hr => h.rows r (List.mem_cons_of_mem _ hr)⟩

theorem Queue.head {recs : List OutboxRecord} (h : Queue n (rec :: recs) s) : InHand n s rec :=
  h.rows rec List.mem_cons_self

/-- A write about the row in hand leaves the rows still to come. -/
theorem Queue.settle {recs : List OutboxRecord} (h : Queue n (rec :: recs) s) {now : ℤ}
    {status : ActionStatus} {patch : StatusPatch} (hst : status ≠ seen)
    (hcount : ∀ r, s.1.get rec.id = some r →
      s.2.count rec.id ≤ allowance (some (r.withStatus now status patch))) :
    Queue n recs (s.1.setStatus now rec.id status patch, s.2) := by
  refine ⟨h.counted.setStatus hcount, h.tail.nodup, fun r hr => ?_⟩
  refine (h.tail.rows r hr).setStatus hst (.inl fun hid => ?_)
  exact (List.nodup_cons.1 h.nodup).1 (hid ▸ List.mem_map_of_mem hr)

/-! ### What writes one row after the other -/

theorem safe_enqueueAll {P : Logged → Prop} (hP : ∀ s, P s → Counted s)
    (hrely : ∀ s t, Rely s t → P s → P t)
    (henqueue : ∀ s now input, P s → P ((s.1.enqueue now input).2, s.2)) {children : List EnqueueInput}
    (hs : P s) : Safe (fun _ => P) (enqueueAll children) s := by
  refine (Prog.safe_forEach (I := fun _ => P) (fun child _ s hs => ?_) hs)
  refine safe_bind (p := enqueue child) (f := fun _ => pure PUnit.unit) ?_
  exact safe_store (o := .enqueue child) (hP s hs) fun t ht now => henqueue t now child (hrely s t ht hs)

theorem safe_recoverOrphans {now : ℤ} (hs : Counted s) :
    Safe (fun _ => Counted) (recoverOrphans opts now) s := by
  refine safe_bind (safe_store (o := .stale now _ [broadcast]) hs fun t ht _ => ?_)
  have hstart : Queue 1 (t.1.stale now
      (min opts.signingTimeoutPegInMs opts.signingTimeoutPegOutMs) [broadcast]) t := by
    refine ⟨ht.counted hs, t.1.nodup.sublist (List.filter_sublist.map _), fun r hr => ?_⟩
    obtain ⟨hget, hst, -⟩ := Outbox.mem_stale.1 hr
    rw [List.mem_singleton] at hst
    have hcount := ht.counted hs r.id
    rw [hget] at hcount
    exact ⟨hcount.trans (allowance_le r), r, hget, rfl, by simp [hst]⟩
  refine (Prog.safe_forEach (I := Queue 1) (fun rec recs u hu => ?_) hstart).mono
    (fun _ _ h => h.counted) fun _ _ => id
  show Safe (fun _ => Queue 1 recs) (recoverOrphan opts now rec) u
  unfold recoverOrphan
  split_ifs
  · exact hu.tail
  · refine safe_store (o := .setStatus rec.id queued _) hu.counted fun v hv clock => ?_
    refine (hu.rely hv).settle (by simp) fun r _ => ?_
    have hcount := (hu.rely hv).head.count
    simp [allowance, OutboxRecord.withStatus]
    omega

theorem safe_returnHeld {direction : OutboxDirection} {reason : String} (hs : Counted s) :
    Safe (fun _ => Counted) (returnHeld opts direction reason rec) s := by
  unfold returnHeld
  split_ifs
  · exact hs
  refine safe_bind ((safe_enqueueAll (P := Counted) (fun _ h => h) (fun _ _ hst => hst.counted)
    (fun _ now input h => h.enqueue now input) hs).mono (fun _ t ht => ?_) fun _ _ => id)
  split_ifs
  · refine safe_store (o := .setStatus rec.id refunded dustRetained) ht fun u hu now => ?_
    exact (hu.counted ht).moveOn (by simp) rfl
  · refine safe_store (o := .setStatus rec.id refunding {}) ht fun u hu now => ?_
    exact (hu.counted ht).moveOn (by simp) rfl

theorem safe_returnAllHeld {direction : OutboxDirection} {reason : String} {now : ℤ}
    (hs : Counted s) : Safe (fun _ => Counted) (do
      let held ← due now [held]
      Prog.forEach (returnHeld opts direction reason) held) s := by
  refine safe_bind (safe_store (o := .due now [held]) hs fun t ht _ => ?_)
  exact Prog.safe_forEach (I := fun _ => Counted) (fun rec _ u hu => safe_returnHeld hu)
    (ht.counted hs)

/-! ### One delivery -/

/-- A row marked for its delivery stays so until the answer is written. -/
def Marked (s : Logged) (rec : OutboxRecord) : Prop :=
  ∃ r, s.1.get rec.id = some r ∧ r.attempts = rec.attempts ∧ r.status = broadcast

theorem Marked.rely (h : Marked s rec) (hst : Rely s t) : Marked t rec := by
  obtain ⟨r, hr, ha, hstatus⟩ := h
  obtain ⟨r', hr', ha', hstatus'⟩ := hst.out hr (by simp [hstatus])
  refine ⟨r', hr', ha'.trans ha, ?_⟩
  rcases hstatus' with h | h
  · rw [h, hstatus]
  · exact h

theorem marked_setStatus (h : InHand n s rec) (now : ℤ) :
    Marked (s.1.setStatus now rec.id broadcast {}, s.2) rec := by
  obtain ⟨-, r, hr, ha, -⟩ := h
  refine ⟨r.withStatus now broadcast {}, ?_, ?_, rfl⟩
  · show (s.1.setStatus now rec.id broadcast {}).get rec.id = _
    rw [Outbox.get_setStatus_self, hr]
    rfl
  · simp [OutboxRecord.withStatus, ha]

/-- The delivery itself: its row has one more behind it, the rows still to come have not. -/
theorem Queue.submit {recs : List OutboxRecord} (h : Queue 0 (rec :: recs) s) (hm : Marked s rec) :
    Queue 0 recs (s.1, rec.id :: s.2) ∧ InHand 1 (s.1, rec.id :: s.2) rec := by
  have hne : ∀ x ∈ recs, x.id ≠ rec.id := fun x hx hid =>
    (List.nodup_cons.1 h.nodup).1 (hid ▸ List.mem_map_of_mem hx)
  have hcount := h.head.count
  refine ⟨⟨fun id => ?_, h.tail.nodup, fun x hx => ?_⟩, ?_, h.head.row⟩
  · show (rec.id :: s.2).count id ≤ allowance (s.1.get id)
    rw [List.count_cons]
    split_ifs with hid
    · obtain ⟨r, hr, ha, hst⟩ := hm
      obtain rfl : rec.id = id := by simpa using hid
      rw [hr, allowance_of_out (by simp [hst])]
      omega
    · exact h.counted id
  · obtain ⟨hcount, hrow⟩ := h.tail.rows x hx
    refine ⟨?_, hrow⟩
    show (rec.id :: s.2).count x.id ≤ x.attempts + 0
    rw [List.count_cons_of_ne (hne x hx).symm]
    exact hcount
  · show (rec.id :: s.2).count rec.id ≤ rec.attempts + 1
    rw [List.count_cons_self]
    omega

/-- What an answer makes of a row: it confirms, or counts the attempt. -/
theorem planTransition_counts (rec : OutboxRecord) (result : DeliveryResult) (now : ℤ)
    (o : RetryOpts) :
    ((planTransition rec result now o).status = confirmed
        ∧ (planTransition rec result now o).patch.attempts = none)
      ∨ ((planTransition rec result now o).status = queued
          ∨ (planTransition rec result now o).status = refunding)
        ∧ (planTransition rec result now o).patch.attempts = some (rec.attempts + 1) := by
  unfold planTransition
  rcases result.broadcast with _ | _
  · simp only [Bool.false_eq_true, if_false]
    split_ifs <;> simp
  · simp

/-- The answer written over the marked row. -/
theorem Queue.answer {recs : List OutboxRecord} (h : Queue 0 recs s) (hrec : InHand 1 s rec)
    (hm : Marked s rec) (hne : ∀ x ∈ recs, x.id ≠ rec.id) {result : DeliveryResult} {now clock : ℤ}
    {o : RetryOpts} :
    Queue 0 recs (s.1.setStatus clock rec.id (planTransition rec result now o).status
      (planTransition rec result now o).patch, s.2) := by
  have hcount := hrec.count
  have hcases := planTransition_counts rec result now o
  have hseen : (planTransition rec result now o).status ≠ seen := by
    rcases hcases with ⟨hst, -⟩ | ⟨hst | hst, -⟩ <;> simp [hst]
  refine ⟨h.counted.setStatus fun r hr => ?_, h.nodup, fun x hx =>
    (h.rows x hx).setStatus hseen (.inl (hne x hx))⟩
  obtain ⟨r', hr', ha, -⟩ := hm
  obtain rfl : r' = r := by rw [hr] at hr'; exact (Option.some.inj hr').symm
  rcases hcases with ⟨hst, hp⟩ | ⟨hst | hst, hp⟩ <;>
    simp [allowance, OutboxRecord.withStatus, hst, hp] <;> omega

theorem safe_deliver {recs : List OutboxRecord} (h : Queue 0 (rec :: recs) s) :
    Safe (fun _ => Queue 0 recs) (deliver opts rec) s := by
  have hne : ∀ x ∈ recs, x.id ≠ rec.id := fun x hx hid =>
    (List.nodup_cons.1 h.nodup).1 (hid ▸ List.mem_map_of_mem hx)
  unfold deliver
  refine safe_bind (safe_store (o := .setStatus rec.id broadcast {}) h.counted fun t ht now => ?_)
  have hmarked : Queue 0 (rec :: recs) (t.1.setStatus now rec.id broadcast {}, t.2) :=
    (h.rely ht).moveOn (by simp) rfl
  have hm := marked_setStatus (h.rely ht).head now
  refine safe_bind (safe_submit hmarked.counted hmarked.head fun u hu result => ?_)
  have hmu : Marked u rec := hm.rely hu
  obtain ⟨hsent, hrec⟩ := (hmarked.rely hu).submit hmu
  have hm : Marked (u.1, rec.id :: u.2) rec := hmu
  refine safe_bind (safe_dateNow hsent.counted fun v hv answered => ?_)
  refine safe_bind (safe_store (o := .setStatus rec.id _ _) (hv.counted hsent.counted)
    fun w hw clock => ?_)
  have hanswered : Queue 0 recs (w.1.setStatus clock rec.id
      (planTransition rec result answered opts.toRetryOpts).status
      (planTransition rec result answered opts.toRetryOpts).patch, w.2) :=
    ((hsent.rely hv).rely hw).answer ((hrec.rely hv).rely hw) ((hm.rely hv).rely hw) hne
  refine safe_bind ((safe_enqueueAll (P := Queue 0 recs) (fun _ h => h.counted)
    (fun _ _ hst h => h.rely hst) (fun _ now input h => h.enqueue now input) hanswered).mono
    (fun _ w hq => ?_) fun _ _ => id)
  have hclose : ∀ {id patch s}, patch.attempts = none → Queue 0 recs s →
      Safe (fun _ => Queue 0 recs) (setStatus id refunded patch) s := fun hp hs =>
    safe_store (o := .setStatus _ refunded _) hs.counted fun t ht now =>
      (hs.rely ht).moveOn (by simp) hp
  refine safe_bind ((?_ : Safe (fun _ => Queue 0 recs) _ w).mono (fun _ x hq => ?_) fun _ _ => id)
  · unfold closeDust
    split_ifs
    · exact hclose rfl hq
    · exact hq
  · unfold closeParent
    split_ifs
    · rcases parentIdOf rec with _ | parentId
      · exact hq
      · exact hclose rfl hq
    · exact hq

theorem safe_turn (hs : Counted s) : Safe (fun _ => Counted) (turn opts) s := by
  unfold turn tick
  refine safe_bind (safe_store (o := .isPaused) hs fun t ht _ => ?_)
  refine Prog.safe_ite (c := t.1.paused.isSome = true) (fun _ => ht.counted hs) fun _ => ?_
  refine safe_bind (safe_dateNow (ht.counted hs) fun t₁ ht₁ now => ?_)
  refine safe_bind ((safe_recoverOrphans (ht₁.counted (ht.counted hs))).mono (fun _ t₂ hs₂ => ?_)
    fun _ _ => id)
  refine safe_bind ((safe_returnAllHeld hs₂).mono (fun _ t₃ hs₃ => ?_) fun _ _ => id)
  refine safe_bind ((safe_returnAllHeld hs₃).mono (fun _ t₄ hs₄ => ?_) fun _ _ => id)
  refine safe_bind (safe_store (o := .due now [queued]) hs₄ fun t₅ ht₅ _ => ?_)
  have hstart : Queue 0 (t₅.1.due now [queued]) t₅ := by
    refine ⟨ht₅.counted hs₄, ?_, fun r hr => ?_⟩
    · refine ((List.mergeSort_perm _ _).map OutboxRecord.id).nodup_iff.2 ?_
      exact t₅.1.nodup.sublist (List.filter_sublist.map _)
    · obtain ⟨hget, hst, -⟩ := Outbox.mem_due.1 hr
      rw [List.mem_singleton] at hst
      have hcount := ht₅.counted hs₄ r.id
      simp [hget, allowance, hst] at hcount
      exact ⟨hcount, r, hget, rfl, by simp [hst]⟩
  exact (Prog.safe_forEach (I := Queue 0) (fun _ _ _ h => safe_deliver h) hstart).mono
    (fun _ _ h => h.counted) fun _ _ => id

/-! ## Whole runs -/

/-- Between two turns the deliveries are counted; within one, the turn keeps its contract. -/
def WorldOk (x : DispatcherWorld × List String) : Prop :=
  match x.1.turn with
  | none => Counted (x.1.outbox, x.2)
  | some p => Safe (fun _ => Counted) p (x.1.outbox, x.2)

theorem worldOk_running {p : DispatcherM Unit} (h : Safe (fun _ => Counted) p s) :
    WorldOk (⟨s.1, p.running⟩, s.2) := by
  rcases p with _ | _ | _ <;> exact h

theorem worldOk_rely {x : DispatcherWorld × List String} (h : WorldOk x)
    (hst : Rely (x.1.outbox, x.2) t) : WorldOk (⟨t.1, x.1.turn⟩, t.2) := by
  obtain ⟨⟨outbox, turn⟩, log⟩ := x
  rcases turn with _ | p
  · exact hst.counted h
  · exact Prog.Safe.stable (fun _ _ _ hr hs => hr.counted hs) (fun _ _ _ hr hs => hr.counted hs) h hst

theorem counted_of_worldOk {x : DispatcherWorld × List String} (h : WorldOk x) :
    Counted (x.1.outbox, x.2) := by
  obtain ⟨⟨outbox, turn⟩, log⟩ := x
  rcases turn with _ | _ | _ | ⟨o, k⟩
  · exact h
  · exact h
  · exact h
  · exact (Prog.Safe.point (C := contract) h).1

theorem worldOk_step {x : DispatcherWorld × List String} {e : DispatcherEvent} (h : WorldOk x) :
    WorldOk (DispatcherWorld.logged opts x e) := by
  have hcounted := counted_of_worldOk h
  obtain ⟨⟨outbox, turn⟩, log⟩ := x
  cases e with
  | begin =>
    rcases turn with _ | p
    · exact safe_turn h
    · exact h
  | await i =>
    rcases turn with _ | _ | _ | ⟨o, k⟩
    · exact h
    · exact h
    · exact h
    · have hnext : Safe (fun _ => Counted) (k (o.exec i outbox).2)
          (exec o i (outbox, log)).1 := Prog.Safe.step (C := contract) h trivial
      have hlog : (DispatcherWorld.logged opts (⟨outbox, some (.call o k)⟩, log) (.await i)).2 =
          (exec o i (outbox, log)).1.2 := by
        rcases o with _ | _ | _ <;> rfl
      have hworld := worldOk_running hnext
      rw [← hlog] at hworld
      exact hworld
  | crash => exact hcounted
  | other clock write =>
    show WorldOk (if write.fits outbox then ⟨write.apply clock outbox, turn⟩ else ⟨outbox, turn⟩, log)
    split_ifs with hfits
    · exact worldOk_rely h (rely_apply (s := (outbox, log)) hfits)
    · exact h

theorem inHand_of_worldOk {x : DispatcherWorld × List String} (h : WorldOk x)
    (hat : x.1.standsAt = some (.submit rec)) : InHand 0 (x.1.outbox, x.2) rec := by
  obtain ⟨⟨outbox, turn⟩, log⟩ := x
  rcases turn with _ | _ | _ | ⟨o, k⟩
  · cases hat
  · cases hat
  · cases hat
  · exact (Prog.Safe.point (C := contract) h).2 rec (Option.some.inj hat)

end DeliveryCount

open DeliveryCount

deriving instance DecidableEq for DispatcherOp

/-- The process dies right after a delivery, is started again much later and delivers once more. -/
def redelivered : List DispatcherEvent :=
  [.other 1000 (.detect sampleClaim), .other 1000 (.classify sampleClaim.id queued none), .begin]
    ++ List.replicate 8 (.await { clock := 1000 }) ++ [.crash, .begin]
    ++ List.replicate 8 (.await { clock := 1000000 })

/-- Its row, requeued by the second turn. -/
def requeuedRow : OutboxRecord :=
  { sampleClaim.toRecord 1000 with
    status := queued, attempts := 1, updatedAt := 1000000, nextAttemptAt := 1000000 }

end VizGateway
