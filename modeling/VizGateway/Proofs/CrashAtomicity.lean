import VizGateway.DispatcherWorld
import VizGateway.Sample

/-!
# What a crash leaves behind

A tick writes a row's new status first and what follows from it after. Between two ticks every
promise is kept, in every run in which the process dies at no torn write and the coordinator pins
no row already given up.
-/

namespace VizGateway

open ActionStatus Text Dispatcher

namespace CrashAtomicity

/-- Given up, or parked to be. -/
def Parked (st : ActionStatus) : Prop := st = held ∨ st = refunding ∨ st = refunded

/-- How the other services move a status. -/
def Moved (a b : ActionStatus) : Prop :=
  b = a ∨ (¬ Parked a ∧ (b = queued ∨ b = held ∨ b = broadcast))

theorem Moved.trans {a b c : ActionStatus} (h : Moved a b) (h' : Moved b c) : Moved a c := by
  rcases h with rfl | ⟨ha, hb⟩
  · exact h'
  · rcases h' with rfl | ⟨-, hc⟩
    · exact .inr ⟨ha, hb⟩
    · exact .inr ⟨ha, hc⟩

theorem Moved.ne_seen {a b : ActionStatus} (h : Moved a b) (ha : a ≠ seen) : b ≠ seen := by
  rcases h with rfl | ⟨-, rfl | rfl | rfl⟩
  · exact ha
  all_goals simp

theorem Moved.of_parked {a b : ActionStatus} (h : Moved a b) (ha : Parked a) : b = a := by
  rcases h with rfl | ⟨hn, -⟩
  · rfl
  · exact absurd ha hn

/-- The status of a row no tick has decided yet. -/
def Undecided (st : ActionStatus) : Prop := st = seen ∨ st = queued ∨ st = held ∨ st = broadcast

theorem Moved.undecided {a b : ActionStatus} (h : Moved a b) (ha : Undecided a) : Undecided b := by
  rcases h with rfl | ⟨-, hb⟩
  · exact ha
  · exact .inr hb

/-- A row the watchers brought. -/
structure Fresh (r : OutboxRecord) : Prop where
  source : r.direction = .pegIn ∨ r.direction = .pegOut
  own_id : childSuffixed r.id = false
  undecided : Undecided r.status

/-- What the other services do to the outbox between two awaits. -/
structure Rely (s t : Outbox) : Prop where
  kept : ∀ {id r}, s.get id = some r → r.status ≠ seen →
    ∃ r', t.get id = some r' ∧ r'.event = r.event ∧ Moved r.status r'.status
  came : ∀ {id r'}, t.get id = some r' →
    (∃ r, s.get id = some r ∧ r'.event = r.event ∧ Moved r.status r'.status) ∨ Fresh r'

theorem Rely.refl (s : Outbox) : Rely s s where
  kept h _ := ⟨_, h, rfl, .inl rfl⟩
  came h := .inl ⟨_, h, rfl, .inl rfl⟩

theorem Fresh.moved {r r' : OutboxRecord} (h : Fresh r) (he : r'.event = r.event)
    (hm : Moved r.status r'.status) : Fresh r' where
  source := by rw [OutboxRecord.direction_of_event he]; exact h.source
  own_id := by rw [OutboxRecord.id_of_event he]; exact h.own_id
  undecided := hm.undecided h.undecided

theorem Rely.trans {s t u : Outbox} (h : Rely s t) (h' : Rely t u) : Rely s u where
  kept hr hne := by
    obtain ⟨r', hr', he, hm⟩ := h.kept hr hne
    obtain ⟨r'', hr'', he', hm'⟩ := h'.kept hr' (hm.ne_seen hne)
    exact ⟨r'', hr'', he'.trans he, hm.trans hm'⟩
  came hr := by
    rcases h'.came hr with ⟨r', hr', he', hm'⟩ | hf
    · rcases h.came hr' with ⟨r, hr, he, hm⟩ | hf
      · exact .inl ⟨r, hr, he'.trans he, hm.trans hm'⟩
      · exact .inr (hf.moved he' hm')
    · exact .inr hf

/-! ## What holds between the writes of a tick -/

/-- The row is a return of the row `pid`. -/
def IsReturn (c : OutboxRecord) (pid : String) : Prop :=
  (c.direction = .refund ∨ c.direction = .gramReturn) ∧ parentIdOf c = some pid

theorem isReturn_event {c c' : OutboxRecord} {pid : String} (h : c'.event = c.event) :
    IsReturn c' pid ↔ IsReturn c pid := by
  have hp : parentIdOf c' = parentIdOf c  := OutboxRecord.eq_of_event h parentIdOf fun _ => rfl
  unfold IsReturn
  rw [OutboxRecord.direction_of_event h, hp]

theorem Fresh.not_isReturn {r : OutboxRecord} (h : Fresh r) (pid : String) : ¬ IsReturn r pid := by
  rintro ⟨hd | hd, -⟩ <;> rcases h.source with h' | h' <;> rw [hd] at h' <;> cases h'

/-- Every return belongs to a row given up; only source rows are SEEN. -/
structure Wf (s : Outbox) : Prop where
  returns : ∀ {cid c pid}, s.get cid = some c → IsReturn c pid →
    ∃ p, s.get pid = some p ∧ Parked p.status
  source : ∀ {id r}, s.get id = some r → r.status = seen → childSuffixed r.id = false

/-- The row's own promises are kept. -/
structure Done (opts : DispatcherOpts) (s : Outbox) (p : OutboxRecord) : Prop where
  refund : p.direction = .pegIn → p.status = refunding → truthy p.sender ≠ none →
    opts.fees.refundFeeMilliViz < p.amountMilliViz → ∃ c, s.get (p.id ++ ":refund") = some c
  fee : p.direction = .pegIn → p.status = confirmed →
    0 < baseFee p.amountMilliViz (pegInFeePolicyFor opts.fees (p.remoteChain.getD .solana)) →
    ∃ c, s.get (p.id ++ ":fee") = some c
  closed : ∀ {cid c}, s.get cid = some c → IsReturn c p.id → c.status = confirmed →
    p.status = refunded

/-- Every row keeps its promises, but for the one named. -/
structure Settled (opts : DispatcherOpts) (owing : Option String) (s : Outbox) : Prop where
  wf : Wf s
  done : ∀ {id p}, s.get id = some p → owing ≠ some id → Done opts s p

variable {opts : DispatcherOpts} {s t : Outbox} {owing : Option String}

theorem Settled.weaken (h : Settled opts none s) : Settled opts owing s :=
  ⟨h.wf, fun hp _ => h.done hp (by simp)⟩

theorem Settled.closed (h : Settled opts none s) : Closed opts s where
  refund p hp hd hst hs ha :=
    Option.isSome_iff_exists.2 ((h.done (Outbox.get_of_mem hp) (by simp)).refund hd hst hs ha)
  fee p hp hd hst hb :=
    Option.isSome_iff_exists.2 ((h.done (Outbox.get_of_mem hp) (by simp)).fee hd hst hb)
  parent c hc hd hst p hp hpar :=
    (h.done (Outbox.get_of_mem hp) (by simp)).closed (Outbox.get_of_mem hc) ⟨hd, hpar⟩ hst

theorem childSuffixed_refund (id : String) : childSuffixed (id ++ ":refund") = true := by
  simp [childSuffixed]

theorem childSuffixed_fee (id : String) : childSuffixed (id ++ ":fee") = true := by
  simp [childSuffixed]

/-- A row under a child's id stays. -/
theorem Rely.kept_child (h : Rely s t) (hw : Wf s) {id : String} (hid : childSuffixed id = true)
    {c : OutboxRecord} (hc : s.get id = some c) : ∃ c', t.get id = some c' := by
  have hne : c.status ≠ seen := by
    intro hst
    have := hw.source hc hst
    rw [Outbox.id_of_get hc, hid] at this
    exact absurd this (by simp)
  obtain ⟨c', hc', -, -⟩ := h.kept hc hne
  exact ⟨c', hc'⟩

/-- A return read after the others acted was there before. -/
theorem Rely.came_return (h : Rely s t) {cid pid : String} {c' : OutboxRecord}
    (hc' : t.get cid = some c') (hr : IsReturn c' pid) :
    ∃ c, s.get cid = some c ∧ IsReturn c pid ∧ Moved c.status c'.status := by
  rcases h.came hc' with ⟨c, hc, he, hm⟩ | hf
  · exact ⟨c, hc, (isReturn_event he).1 hr, hm⟩
  · exact absurd hr (hf.not_isReturn pid)

theorem parked_ne_seen {st : ActionStatus} (h : Parked st) : st ≠ seen := by
  rcases h with rfl | rfl | rfl <;> simp

theorem Wf.rely (hw : Wf s) (h : Rely s t) : Wf t where
  returns hc' hr := by
    obtain ⟨c, hc, hr, -⟩ := h.came_return hc' hr
    obtain ⟨p, hp, hpk⟩ := hw.returns hc hr
    obtain ⟨p', hp', -, hm⟩ := h.kept hp (parked_ne_seen hpk)
    exact ⟨p', hp', by rw [hm.of_parked hpk]; exact hpk⟩
  source hr' hst := by
    rcases h.came hr' with ⟨r, hr, he, hm⟩ | hf
    · have hrst : r.status = seen := by
        by_contra hne
        exact hm.ne_seen hne hst
      rw [OutboxRecord.id_of_event he]
      exact hw.source hr hrst
    · exact hf.own_id

/-- A confirmation is the tick's own. -/
theorem Moved.of_confirmed {a : ActionStatus} (h : Moved a confirmed) : a = confirmed := by
  rcases h with h | ⟨-, h | h | h⟩
  · exact h.symm
  all_goals simp at h

theorem Done.rely (hw : Wf s) (h : Rely s t) {p p' : OutboxRecord} (hd : Done opts s p)
    (he : p'.event = p.event) (hm : Moved p.status p'.status) :
    Done opts t p' where
  refund hdir hst hs ha := by
    have hpst : p.status = refunding := by
      rcases hm with hm | ⟨-, hm | hm | hm⟩
      · exact hm.symm.trans hst
      all_goals rw [hst] at hm; cases hm
    have hse : p'.sender = p.sender :=
      OutboxRecord.eq_of_event he OutboxRecord.sender fun _ => rfl
    have ham : p'.amountMilliViz = p.amountMilliViz :=
      OutboxRecord.eq_of_event he OutboxRecord.amountMilliViz fun _ => rfl
    obtain ⟨c, hc⟩ := hd.refund (OutboxRecord.direction_of_event he ▸ hdir) hpst (hse ▸ hs) (ham ▸ ha)
    rw [OutboxRecord.id_of_event he]
    exact h.kept_child hw (childSuffixed_refund p.id) hc
  fee hdir hst hb := by
    have ham : p'.amountMilliViz = p.amountMilliViz :=
      OutboxRecord.eq_of_event he OutboxRecord.amountMilliViz fun _ => rfl
    have hch : p'.remoteChain = p.remoteChain :=
      OutboxRecord.eq_of_event he OutboxRecord.remoteChain fun _ => rfl
    have hpst : p.status = confirmed := (hst ▸ hm).of_confirmed
    obtain ⟨c, hc⟩ := hd.fee (OutboxRecord.direction_of_event he ▸ hdir) hpst (by rw [← ham, ← hch]; exact hb)
    rw [OutboxRecord.id_of_event he]
    exact h.kept_child hw (childSuffixed_fee p.id) hc
  closed hc' hr hst := by
    rw [OutboxRecord.id_of_event he] at hr
    obtain ⟨c, hc, hr, hcm⟩ := h.came_return hc' hr
    have hpst := hd.closed hc hr (hst ▸ hcm).of_confirmed
    rw [hm.of_parked (by rw [hpst]; exact .inr (.inr rfl)), hpst]

/-- A row without a return, in no decided status, has nothing to keep. -/
theorem done_of_undecided {p : OutboxRecord} (hu : Undecided p.status)
    (hn : ∀ cid c, s.get cid = some c → ¬ IsReturn c p.id) : Done opts s p where
  refund _ hst := by
    rcases hu with h | h | h | h <;> rw [h] at hst <;> cases hst
  fee _ hst := by
    rcases hu with h | h | h | h <;> rw [h] at hst <;> cases hst
  closed hc hr _ := absurd hr (hn _ _ hc)

theorem Settled.rely (hs : Settled opts owing s) (h : Rely s t) : Settled opts owing t where
  wf := hs.wf.rely h
  done {id p'} hp' howe := by
    have hid := Outbox.id_of_get hp'
    by_cases hold : ∃ p, s.get id = some p ∧ p.status ≠ seen
    · obtain ⟨p, hp, hne⟩ := hold
      obtain ⟨q, hq, he, hm⟩ := h.kept hp hne
      rw [hp', Option.some.injEq] at hq
      subst hq
      exact (hs.done hp howe).rely hs.wf h he hm
    · refine done_of_undecided ?_ fun cid c' hc' hr => ?_
      · rcases h.came hp' with ⟨p, hp, -, hm⟩ | hf
        · refine hm.undecided (.inl ?_)
          by_contra hne
          exact hold ⟨p, hp, hne⟩
        · exact hf.undecided
      · rw [hid] at hr
        obtain ⟨c, hc, hr, -⟩ := h.came_return hc' hr
        obtain ⟨p, hp, hpk⟩ := hs.wf.returns hc hr
        exact hold ⟨p, hp, parked_ne_seen hpk⟩

/-! ## The writes of the other services -/

theorem rely_modify {id : String} {f : OutboxRecord → OutboxRecord} (hf : ∀ r, (f r).id = r.id)
    (h : ∀ r, s.get id = some r → (f r).event = r.event ∧ Moved r.status (f r).status) :
    Rely s (s.modify id f hf) where
  kept {id' r} hr _ := by
    rw [Outbox.get_modify]
    split_ifs with hid
    · subst hid
      exact ⟨f r, by rw [hr]; rfl, h r hr⟩
    · exact ⟨r, hr, rfl, .inl rfl⟩
  came {id' r'} hr' := by
    rw [Outbox.get_modify] at hr'
    split_ifs at hr' with hid
    · subst hid
      obtain ⟨r, hr, rfl⟩ := Option.map_eq_some_iff.1 hr'
      exact .inl ⟨r, hr, h r hr⟩
    · exact .inl ⟨r', hr', rfl, .inl rfl⟩

theorem rely_setStatus {id : String} {now : ℤ} {st : ActionStatus} {patch : StatusPatch}
    (h : ∀ r, s.get id = some r → Moved r.status st) : Rely s (s.setStatus now id st patch) :=
  rely_modify (f := fun r => r.withStatus now st patch) (fun _ => rfl) fun r hr => ⟨rfl, h r hr⟩

theorem rely_of_get (h : ∀ id, t.get id = s.get id) : Rely s t where
  kept hr _ := ⟨_, (h _).trans hr, rfl, .inl rfl⟩
  came hr := .inl ⟨_, (h _).symm.trans hr, rfl, .inl rfl⟩

theorem rely_enqueue {clock : ℤ} {input : EnqueueInput}
    (h : s.get input.id = none → Fresh (input.toRecord clock)) :
    Rely s (s.enqueue clock input).2 where
  kept {id r} hr _ := by
    rw [Outbox.get_enqueue]
    split_ifs with hid
    · subst hid
      rw [hr]
      exact ⟨r, rfl, rfl, .inl rfl⟩
    · exact ⟨r, hr, rfl, .inl rfl⟩
  came {id r'} hr' := by
    rw [Outbox.get_enqueue] at hr'
    split_ifs at hr' with hid
    · subst hid
      rw [Option.some.injEq] at hr'
      cases hget : s.get input.id with
      | none =>
        rw [hget] at hr'
        subst hr'
        exact .inr (h hget)
      | some r =>
        rw [hget] at hr'
        subst hr'
        exact .inl ⟨r, rfl, rfl, .inl rfl⟩
    · exact .inl ⟨r', hr', rfl, .inl rfl⟩

theorem rely_delete {id : String} (h : ∀ r, s.get id = some r → r.status = seen) :
    Rely s (s.delete id) where
  kept {id' r} hr hne := by
    rw [Outbox.get_delete]
    split_ifs with hid
    · subst hid
      exact absurd (h r hr) hne
    · exact ⟨r, hr, rfl, .inl rfl⟩
  came {id' r'} hr' := by
    rw [Outbox.get_delete] at hr'
    split_ifs at hr' with hid
    exact .inl ⟨r', hr', rfl, .inl rfl⟩

theorem any_get {s : Outbox} {id : String} {f : OutboxRecord → Bool} {r : OutboxRecord}
    (h : (s.get id).any f = true) (hr : s.get id = some r) : f r = true := by
  rw [hr] at h
  exact h

/-- Every write the other services make under the run's condition is one the tick relies on. -/
theorem rely_apply {w : DispatcherWorld} {clock : ℤ} {write : OutboxWrite}
    (hfit : write.fits w.outbox = true) (hc : Untorn w (.other clock write)) :
    Rely w.outbox (write.apply clock w.outbox) := by
  cases write with
  | detect input =>
    simp only [OutboxWrite.fits, Bool.and_eq_true, Bool.or_eq_true, decide_eq_true_eq,
      Bool.not_eq_true'] at hfit
    obtain ⟨⟨hd, hid⟩, hst⟩ := hfit
    refine rely_enqueue fun _ => ⟨hd, hid, ?_⟩
    change Undecided (input.status.getD seen)
    rcases hst with hst | hst
    · exact .inl hst
    · rw [hst]
      exact .inr (.inr (.inl rfl))
  | classify id status lastError =>
    simp only [OutboxWrite.fits, Bool.and_eq_true, Bool.or_eq_true, decide_eq_true_eq] at hfit
    refine rely_setStatus fun r hr => .inr ⟨?_, ?_⟩
    · have : r.status = seen := by simpa using any_get hfit.1 hr
      rw [this]
      rintro (h | h | h) <;> cases h
    · exact hfit.2.elim .inl fun h => .inr (.inl h)
  | checkpoint id txid =>
    refine rely_setStatus fun r hr => .inl ?_
    have : r.status = seen := by simpa using any_get hfit hr
    exact this.symm
  | discard id =>
    refine rely_delete fun r hr => ?_
    have : r.status = seen ∧ r.direction = .pegOut := by simpa using any_get hfit hr
    exact this.1
  | pin id txid =>
    refine rely_setStatus fun r hr => .inr ⟨?_, .inr (.inr rfl)⟩
    have hr' : r.status ≠ seen ∧ r.status ≠ held := by
      simpa [OutboxWrite.fits, hr] using hfit
    obtain ⟨h1, h2⟩ := hc r hr
    rintro (h | h | h)
    · exact hr'.2 h
    · exact h1 h
    · exact h2 h
  | setFee id fee =>
    exact rely_modify (f := fun r => { r with feeMilliViz := fee, updatedAt := clock })
      (fun _ => rfl) fun r _ => ⟨rfl, .inl rfl⟩
  | pause reason => exact rely_of_get fun _ => rfl
  | resume => exact rely_of_get fun _ => rfl

/-! ## The writes of a tick -/

/-- A row another than `id` keeps its promises through a status write, if the write confirms no
return of its own. -/
theorem Done.setStatus_of_ne {p : OutboxRecord} (hd : Done opts s p) {id : String} {now : ℤ}
    {st : ActionStatus} {patch : StatusPatch}
    (hc : st = confirmed → ∀ r, s.get id = some r → ¬ IsReturn r p.id) :
    Done opts (s.setStatus now id st patch) p where
  refund hdir hst hs ha := by
    obtain ⟨c, hget⟩ := hd.refund hdir hst hs ha
    rw [Outbox.get_setStatus]
    split_ifs
    · exact ⟨_, by rw [hget]; rfl⟩
    · exact ⟨c, hget⟩
  fee hdir hst hb := by
    obtain ⟨c, hget⟩ := hd.fee hdir hst hb
    rw [Outbox.get_setStatus]
    split_ifs
    · exact ⟨_, by rw [hget]; rfl⟩
    · exact ⟨c, hget⟩
  closed {cid c'} hc' hr hst := by
    rw [Outbox.get_setStatus] at hc'
    split_ifs at hc' with hid
    · subst hid
      obtain ⟨c, hget, rfl⟩ := Option.map_eq_some_iff.1 hc'
      exact absurd ((isReturn_event (OutboxRecord.event_withStatus ..)).1 hr) (hc hst c hget)
    · exact hd.closed hc' hr hst

theorem Wf.setStatus (hw : Wf s) {id : String} {now : ℤ} {st : ActionStatus}
    {patch : StatusPatch} (hst : st ≠ seen)
    (hp : Parked st ∨ ∀ cid c, s.get cid = some c → ¬ IsReturn c id) :
    Wf (s.setStatus now id st patch) where
  returns {cid c' pid} hc' hr := by
    obtain ⟨c, hc, hr⟩ : ∃ c, s.get cid = some c ∧ IsReturn c pid := by
      rw [Outbox.get_setStatus] at hc'
      split_ifs at hc' with hid
      · obtain ⟨c, hget, rfl⟩ := Option.map_eq_some_iff.1 hc'
        exact ⟨c, hget, (isReturn_event (OutboxRecord.event_withStatus ..)).1 hr⟩
      · exact ⟨c', hc', hr⟩
    obtain ⟨p, hget, hpk⟩ := hw.returns hc hr
    rw [Outbox.get_setStatus]
    split_ifs with hid
    · subst hid
      rcases hp with hp | hp
      · exact ⟨_, by rw [hget]; rfl, hp⟩
      · exact absurd hr (hp _ _ hc)
    · exact ⟨p, hget, hpk⟩
  source {id' r'} hr' hseen := by
    rw [Outbox.get_setStatus] at hr'
    split_ifs at hr' with hid
    · obtain ⟨r, -, rfl⟩ := Option.map_eq_some_iff.1 hr'
      exact absurd hseen hst
    · exact hw.source hr' hseen

/-- A status write settles all but the row written, its owing parent and whoever owed before. -/
theorem Settled.setStatus (hs : Settled opts owing s) {id : String} {now : ℤ} {st : ActionStatus}
    {patch : StatusPatch} (hst : st ≠ seen)
    (hp : Parked st ∨ ∀ cid c, s.get cid = some c → ¬ IsReturn c id)
    {owing' : Option String}
    (hsame : ∀ id', id' ≠ id → owing' ≠ some id' → owing ≠ some id')
    (hc : st = confirmed → ∀ r, s.get id = some r → ∀ pid, IsReturn r pid → owing' = some pid)
    (hown : owing' ≠ some id → ∀ r, s.get id = some r →
      Done opts (s.setStatus now id st patch) (r.withStatus now st patch)) :
    Settled opts owing' (s.setStatus now id st patch) where
  wf := hs.wf.setStatus hst hp
  done {id' p'} hp' howe := by
    rw [Outbox.get_setStatus] at hp'
    split_ifs at hp' with hid
    · subst hid
      obtain ⟨r, hget, rfl⟩ := Option.map_eq_some_iff.1 hp'
      exact hown howe r hget
    · refine (hs.done hp' (hsame id' hid howe)).setStatus_of_ne fun hconf r hr hret => howe ?_
      rw [hc hconf r hr _ hret, Outbox.id_of_get hp']

/-- Enqueueing a child of a row keeps every promise. -/
theorem Settled.enqueue (hs : Settled opts owing s) {now : ℤ} {child : EnqueueInput}
    (hdir : child.direction ≠ .pegIn) (hst : child.status = some queued)
    (hpar : ∀ pid, IsReturn (child.toRecord now) pid →
      ∃ p, s.get pid = some p ∧ Parked p.status) :
    Settled opts owing (s.enqueue now child).2 := by
  have hmono : ∀ {id c}, s.get id = some c → (s.enqueue now child).2.get id = some c := by
    intro id c hc
    rw [Outbox.get_enqueue]
    split_ifs with hid
    · subst hid
      rw [hc]
      rfl
    · exact hc
  have hnew : ∀ {id c}, (s.enqueue now child).2.get id = some c →
      s.get id = some c ∨ (id = child.id ∧ s.get id = none ∧ c = child.toRecord now) := by
    intro id c hc
    rw [Outbox.get_enqueue] at hc
    split_ifs at hc with hid
    · subst hid
      rw [Option.some.injEq] at hc
      cases hget : s.get child.id with
      | none =>
        rw [hget] at hc
        exact .inr ⟨rfl, rfl, hc.symm⟩
      | some r =>
        rw [hget] at hc
        exact .inl (by rw [← hc]; rfl)
    · exact .inl hc
  have hqueued : (child.toRecord now).status = queued := by
    change child.status.getD seen = queued
    rw [hst]
    rfl
  refine ⟨⟨fun {cid c pid} hc hr => ?_, fun {id r} hr hseen => ?_⟩, fun {id p} hp howe => ?_⟩
  · rcases hnew hc with hc | ⟨-, -, rfl⟩
    · obtain ⟨p, hp, hpk⟩ := hs.wf.returns hc hr
      exact ⟨p, hmono hp, hpk⟩
    · obtain ⟨p, hp, hpk⟩ := hpar pid hr
      exact ⟨p, hmono hp, hpk⟩
  · rcases hnew hr with hr | ⟨-, -, rfl⟩
    · exact hs.wf.source hr hseen
    · rw [hqueued] at hseen
      cases hseen
  · rcases hnew hp with hp | ⟨rfl, hnone, rfl⟩
    · have hd := hs.done hp howe
      refine ⟨fun h1 h2 h3 h4 => ?_, fun h1 h2 h3 => ?_, fun {cid c} hc hr hconf => ?_⟩
      · obtain ⟨c, hc⟩ := hd.refund h1 h2 h3 h4
        exact ⟨c, hmono hc⟩
      · obtain ⟨c, hc⟩ := hd.fee h1 h2 h3
        exact ⟨c, hmono hc⟩
      · rcases hnew hc with hc | ⟨-, -, rfl⟩
        · exact hd.closed hc hr hconf
        · rw [hqueued] at hconf
          cases hconf
    · refine ⟨fun h => absurd h hdir, fun h => absurd h hdir, fun {cid c} hc hr hconf => ?_⟩
      rcases hnew hc with hc | ⟨-, -, rfl⟩
      · obtain ⟨p, hp, -⟩ := hs.wf.returns hc hr
        change s.get child.id = some p at hp
        rw [hnone] at hp
        cases hp
      · rw [hqueued] at hconf
        cases hconf

/-! ## Rows the tick has in hand -/

/-- A row read while queued or in flight: it is still there and has no return. -/
structure Open (s : Outbox) (rec : OutboxRecord) : Prop where
  row : ∃ r, s.get rec.id = some r ∧ r.event = rec.event ∧ r.status ≠ seen
  free : ∀ cid c, s.get cid = some c → ¬ IsReturn c rec.id

/-- A row read while HELD. -/
def HeldRow (s : Outbox) (rec : OutboxRecord) : Prop :=
  ∃ r, s.get rec.id = some r ∧ r.event = rec.event ∧ r.status = held

theorem Open.of_get (hw : Wf s) {rec : OutboxRecord} (h : s.get rec.id = some rec)
    (hst : rec.status = queued ∨ rec.status = broadcast) : Open s rec where
  row := ⟨rec, h, rfl, by rcases hst with hst | hst <;> rw [hst] <;> simp⟩
  free cid c hc hr := by
    obtain ⟨p, hp, hpk⟩ := hw.returns hc hr
    rw [h, Option.some.injEq] at hp
    subst hp
    rcases hst with hst | hst <;> rw [hst] at hpk <;> rcases hpk with h | h | h <;> cases h

theorem Open.rely {rec : OutboxRecord} (ho : Open s rec) (h : Rely s t) : Open t rec where
  row := by
    obtain ⟨r, hr, he, hne⟩ := ho.row
    obtain ⟨r', hr', he', hm⟩ := h.kept hr hne
    exact ⟨r', hr', he'.trans he, hm.ne_seen hne⟩
  free cid c hc hr := by
    obtain ⟨c', hc', hr', -⟩ := h.came_return hc hr
    exact ho.free cid c' hc' hr'

theorem HeldRow.rely {rec : OutboxRecord} (ho : HeldRow s rec) (h : Rely s t) : HeldRow t rec := by
  obtain ⟨r, hr, he, hst⟩ := ho
  obtain ⟨r', hr', he', hm⟩ := h.kept hr (by rw [hst]; simp)
  exact ⟨r', hr', he'.trans he, by rw [hm.of_parked (by rw [hst]; exact .inl rfl), hst]⟩

theorem Open.setStatus {rec : OutboxRecord} (ho : Open s rec) {id : String} {now : ℤ}
    {st : ActionStatus} {patch : StatusPatch} (hst : st ≠ seen) :
    Open (s.setStatus now id st patch) rec where
  row := by
    obtain ⟨r, hr, he, hne⟩ := ho.row
    rw [Outbox.get_setStatus]
    split_ifs
    · exact ⟨r.withStatus now st patch, by rw [hr]; rfl, he, hst⟩
    · exact ⟨r, hr, he, hne⟩
  free cid c' hc' hr := by
    rw [Outbox.get_setStatus] at hc'
    split_ifs at hc'
    · obtain ⟨c, hget, rfl⟩ := Option.map_eq_some_iff.1 hc'
      exact ho.free cid c hget ((isReturn_event (OutboxRecord.event_withStatus ..)).1 hr)
    · exact ho.free cid c' hc' hr

theorem HeldRow.setStatus {rec : OutboxRecord} (ho : HeldRow s rec) {id : String} {now : ℤ}
    {st : ActionStatus} {patch : StatusPatch} (hid : rec.id ≠ id) :
    HeldRow (s.setStatus now id st patch) rec := by
  unfold HeldRow
  rw [Outbox.get_setStatus_of_ne _ _ _ _ hid]
  exact ho

theorem get_enqueue_of_some {id : String} {r : OutboxRecord} {now : ℤ} {input : EnqueueInput}
    (h : s.get id = some r) : (s.enqueue now input).2.get id = some r := by
  rw [Outbox.get_enqueue]
  split_ifs with hid
  · subst hid
    rw [h]
    rfl
  · exact h

theorem Open.enqueue {rec : OutboxRecord} (ho : Open s rec) {now : ℤ} {input : EnqueueInput}
    (hne : ¬ IsReturn (input.toRecord now) rec.id) : Open (s.enqueue now input).2 rec where
  row := by
    obtain ⟨r, hr, he, hst⟩ := ho.row
    exact ⟨r, get_enqueue_of_some hr, he, hst⟩
  free cid c hc hr := by
    rw [Outbox.get_enqueue] at hc
    split_ifs at hc with hid
    · subst hid
      rw [Option.some.injEq] at hc
      cases hget : s.get input.id with
      | none =>
        rw [hget] at hc
        subst hc
        exact hne hr
      | some r =>
        rw [hget] at hc
        subst hc
        exact ho.free _ _ hget hr
    · exact ho.free cid c hc hr

theorem HeldRow.enqueue {rec : OutboxRecord} (ho : HeldRow s rec) {now : ℤ}
    {input : EnqueueInput} : HeldRow (s.enqueue now input).2 rec := by
  obtain ⟨r, hr, he, hst⟩ := ho
  exact ⟨r, get_enqueue_of_some hr, he, hst⟩

/-- A row in hand turned to an undecided status owes nothing. -/
theorem Settled.setStatus_open (hs : Settled opts none s) {rec : OutboxRecord} (ho : Open s rec)
    {now : ℤ} {st : ActionStatus} {patch : StatusPatch} (hu : Undecided st) (hne : st ≠ seen) :
    Settled opts none (s.setStatus now rec.id st patch) :=
  hs.setStatus hne (.inr ho.free) (fun _ _ h => h)
    (fun h => by subst h; rcases hu with h | h | h | h <;> cases h)
    fun _ r hr => done_of_undecided hu fun cid c hc => by
      change ¬ IsReturn c r.id
      rw [Outbox.id_of_get hr]
      exact (ho.setStatus hne).free cid c hc

/-- Closing a row out keeps every promise, whoever it is. -/
theorem Settled.closeOut {id : String} (hs : Settled opts owing s) (how : owing = none ∨ owing = some id)
    {now : ℤ} {patch : StatusPatch} : Settled opts none (s.setStatus now id refunded patch) :=
  hs.setStatus (by simp) (.inl (.inr (.inr rfl)))
    (fun id' hid' _ h => by
      rcases how with how | how
      · rw [how] at h
        cases h
      · rw [how, Option.some.injEq] at h
        exact hid' h.symm)
    (fun h => by cases h)
    fun _ r _ => ⟨fun _ h => (by cases h), fun _ h => (by cases h), fun _ _ _ => rfl⟩

/-! ## The tick, operation by operation -/

/-- What a turn is proved against: the others keep to `Rely`, no exception hits a torn write, and
wherever the process may die every promise is kept. -/
def turnContract (opts : DispatcherOpts) :
    Prog.Contract DispatcherOp DispatcherOp.Ans String Outbox AwaitInput where
  exec := DispatcherOp.exec
  rely := Rely
  rely_refl := Rely.refl
  rely_trans := Rely.trans
  allowed o i s := i.fails ≠ none → ¬ Torn s o
  point o s := ¬ Torn s o → Settled opts none s

/-- The program keeps the contract from `s` and ends in `Q`. -/
def SafeTick (opts : DispatcherOpts) {α : Type} (Q : α → Outbox → Prop) (p : DispatcherM α)
    (s : Outbox) : Prop :=
  Prog.Safe (turnContract opts) Q (fun _ => Settled opts none) p s

theorem safe_store {o : StoreOp} {Q : o.Ans → Outbox → Prop}
    (hpt : ∀ t, Rely s t → ¬ Torn t (.store o) → Settled opts none t)
    (hok : ∀ t, Rely s t → ∀ clock, Q (o.exec clock t).2 (o.exec clock t).1) :
    SafeTick opts Q (Prog.ask (DispatcherOp.store o)) s := by
  refine Prog.safe_ask hpt (fun t ht i hi a ha => ?_) fun t ht i hi e he => ?_
  · change (DispatcherOp.exec (.store o) i t).2 = .ok a at ha
    change Q a (DispatcherOp.exec (.store o) i t).1
    unfold DispatcherOp.exec at ha ⊢
    cases hf : i.fails with
    | none =>
      simp only [hf] at ha ⊢
      rw [← Except.ok.inj ha]
      exact hok t ht i.clock
    | some e =>
      simp only [hf] at ha
      cases ha
  · change (DispatcherOp.exec (.store o) i t).2 = .error e at he
    change Settled opts none (DispatcherOp.exec (.store o) i t).1
    unfold DispatcherOp.exec at he ⊢
    cases hf : i.fails with
    | none =>
      simp only [hf] at he
      cases he
    | some e' =>
      simp only [hf]
      exact hpt t ht (hi (by rw [hf]; simp))

theorem safe_bind {α β : Type} {p : DispatcherM α} {f : α → DispatcherM β} {Q : β → Outbox → Prop}
    (h : SafeTick opts (fun a s => SafeTick opts Q (f a) s) p s) : SafeTick opts Q (p >>= f) s :=
  Prog.safe_bind h

theorem not_torn_of_status {id : String} {st : ActionStatus} {patch : StatusPatch}
    (h : st ≠ refunded ∨ patch ≠ {}) : ¬ Torn s (.store (.setStatus id st patch)) := by
  rintro ⟨h1, h2, -⟩
  rcases h with h | h
  · exact h h1
  · exact h h2

/-- A status write that is not a close-out: it starts from a settled outbox. -/
theorem safe_setStatus {id : String} {st : ActionStatus} {patch : StatusPatch}
    {Q : Outbox → Prop} (hs : Settled opts none s)
    (hok : ∀ t, Rely s t → ∀ now, Q (t.setStatus now id st patch)) :
    SafeTick opts (fun _ => Q) (setStatus id st patch) s :=
  safe_store (o := .setStatus id st patch) (fun _ ht _ => hs.rely ht) hok

theorem safe_due {now : ℤ} {statuses : List ActionStatus} {Q : List OutboxRecord → Outbox → Prop}
    (hs : Settled opts none s) (hok : ∀ t, Rely s t → Q (t.due now statuses) t) :
    SafeTick opts Q (due now statuses) s :=
  safe_store (o := .due now statuses) (fun _ ht _ => hs.rely ht) fun t ht _ => hok t ht

theorem safe_stale {now age : ℤ} {statuses : List ActionStatus}
    {Q : List OutboxRecord → Outbox → Prop} (hs : Settled opts none s)
    (hok : ∀ t, Rely s t → Q (t.stale now age statuses) t) :
    SafeTick opts Q (stale now age statuses) s :=
  safe_store (o := .stale now age statuses) (fun _ ht _ => hs.rely ht) fun t ht _ => hok t ht

theorem safe_dateNow {Q : ℤ → Outbox → Prop} (hs : Settled opts none s)
    (hok : ∀ t, Rely s t → ∀ n, Q n t) : SafeTick opts Q dateNow s := by
  refine Prog.safe_ask (fun t ht _ => hs.rely ht) (fun t ht i _ a _ => hok t ht a) ?_
  intro t _ i _ e he
  cases he

theorem safe_submit {rec : OutboxRecord} {Q : DeliveryResult → Outbox → Prop}
    (hs : Settled opts none s) (hok : ∀ t, Rely s t → ∀ r, Q r t) :
    SafeTick opts Q (submit rec) s := by
  refine Prog.safe_ask (fun t ht _ => hs.rely ht) (fun t ht i _ a _ => hok t ht a) ?_
  intro t _ i _ e he
  cases he

/-- Enqueueing at most one child. -/
theorem safe_enqueueAll {children : List EnqueueInput} {Q : Outbox → Prop}
    (hlen : children = [] ∨ ∃ c, children = [c]) (hnil : children = [] → Q s)
    (hpt : ∀ c, c ∈ children → ∀ t, Rely s t → ¬ Torn t (.store (.enqueue c)) →
      Settled opts none t)
    (hok : ∀ c, c ∈ children → ∀ t, Rely s t → ∀ now, Q (t.enqueue now c).2) :
    SafeTick opts (fun _ => Q) (enqueueAll children) s := by
  rcases hlen with h | ⟨c, h⟩
  · rw [h]
    exact hnil h
  · subst h
    have hc : c ∈ [c] := List.mem_singleton.2 rfl
    refine safe_bind (p := do let _ ← enqueue c) (f := fun _ => enqueueAll []) ?_
    refine safe_bind (p := enqueue c) (f := fun _ => pure PUnit.unit) ?_
    exact safe_store (o := .enqueue c) (hpt c hc) fun t ht now => hok c hc t ht now

/-! ## Requeueing and parked rows -/

/-- Rows still to come, read while in flight. -/
def Pending (opts : DispatcherOpts) (recs : List OutboxRecord) (s : Outbox) : Prop :=
  Settled opts none s ∧ ∀ r ∈ recs, Open s r

theorem safe_recoverOrphans {now : ℤ} (hs : Settled opts none s) :
    SafeTick opts (fun _ => Settled opts none) (recoverOrphans opts now) s := by
  refine safe_bind (safe_stale hs fun t ht => ?_)
  have hst := hs.rely ht
  have hstart : Pending opts (t.stale now (min opts.signingTimeoutPegInMs
      opts.signingTimeoutPegOutMs) [broadcast]) t := by
    refine ⟨hst, fun r hr => ?_⟩
    rw [Outbox.mem_stale, List.mem_singleton] at hr
    exact Open.of_get hst.wf hr.1 (.inr hr.2.1)
  refine (Prog.safe_forEach (I := Pending opts) (fun r rs s h => ?_) hstart).mono
    (fun _ _ h => h.1) fun _ _ => id
  have hr := h.2 r (List.mem_cons_self ..)
  unfold recoverOrphan
  split_ifs
  · exact ⟨h.1, fun x hx => h.2 x (List.mem_cons_of_mem r hx)⟩
  · refine safe_setStatus h.1 fun t ht now' => ?_
    refine ⟨(h.1.rely ht).setStatus_open (hr.rely ht) (.inr (.inl rfl)) (by simp), fun x hx => ?_⟩
    exact ((h.2 x (List.mem_cons_of_mem r hx)).rely ht).setStatus (by simp)

/-- Rows still to come, read while HELD. -/
def PendingHeld (opts : DispatcherOpts) (recs : List OutboxRecord) (s : Outbox) : Prop :=
  Settled opts none s ∧ (recs.map OutboxRecord.id).Nodup ∧ ∀ r ∈ recs, HeldRow s r

theorem PendingHeld.rely {recs : List OutboxRecord} (h : PendingHeld opts recs s)
    (hr : Rely s t) : PendingHeld opts recs t :=
  ⟨h.1.rely hr, h.2.1, fun r hm => (h.2.2 r hm).rely hr⟩

/-- A child of a row is nobody else's. -/
theorem isReturn_childOf {rec : OutboxRecord} {suffix : String} {direction : OutboxDirection}
    {recipient : String} {amount now : ℤ} {pid : String}
    (h : IsReturn ((childOf rec suffix direction recipient amount).toRecord now) pid) :
    (direction = .refund ∨ direction = .gramReturn) ∧ pid = rec.id := by
  refine ⟨h.1, ?_⟩
  have hp := h.2
  change truthy (some rec.id) = some pid at hp
  exact (Option.some.inj (truthy_eq_some.1 hp).1).symm

/-- What every planned child is like. -/
theorem planned_child {rec : OutboxRecord} {status : ActionStatus} {ctx : ChildCtx}
    {c : EnqueueInput} (h : c ∈ planChildren rec status ctx) :
    c.direction ≠ .pegIn ∧ c.status = some queued ∧ c.parentId = some rec.id
      ∧ childSuffixed c.id = true
      ∧ ∀ now pid, IsReturn (c.toRecord now) pid → pid = rec.id ∧ status = refunding := by
  rcases mem_planChildren h with ⟨rfl, -, -, rfl⟩ | ⟨v, -, rfl, -, ⟨-, rfl⟩ | ⟨-, -, rfl⟩⟩
  · refine ⟨by simp [childOf], rfl, rfl, childSuffixed_fee rec.id, fun now pid hr => ?_⟩
    obtain ⟨h | h, -⟩ := isReturn_childOf hr <;> cases h
  · exact ⟨by simp [childOf], rfl, rfl, childSuffixed_refund rec.id,
      fun now pid hr => ⟨(isReturn_childOf hr).2, rfl⟩⟩
  · exact ⟨by simp [childOf], rfl, rfl, by simp [childSuffixed, childOf],
      fun now pid hr => ⟨(isReturn_childOf hr).2, rfl⟩⟩

/-- The row's refunding status owes nothing once every planned child is in the outbox. -/
theorem done_refunding {rec r : OutboxRecord} (he : r.event = rec.event) {status : ActionStatus}
    {sweep : ℤ} (hst : r.status = refunding → status = refunding)
    (hall : ∀ c ∈ planChildren rec status (opts.childCtx sweep), ∃ x, s.get c.id = some x)
    (hd : r.direction = .pegIn) (href : r.status = refunding) (hs : truthy r.sender ≠ none)
    (ha : opts.fees.refundFeeMilliViz < r.amountMilliViz) :
    ∃ c, s.get (r.id ++ ":refund") = some c := by
  obtain ⟨v, hv⟩ := Option.ne_none_iff_exists'.1 hs
  have hse : r.sender = rec.sender := OutboxRecord.eq_of_event he OutboxRecord.sender fun _ => rfl
  have ham : r.amountMilliViz = rec.amountMilliViz :=
    OutboxRecord.eq_of_event he OutboxRecord.amountMilliViz fun _ => rfl
  rw [hst href, planChildren_refunding_pegIn (opts.childCtx sweep)
    (OutboxRecord.direction_of_event he ▸ hd) (hse ▸ hv) (ham ▸ ha)] at hall
  obtain ⟨x, hx⟩ := hall _ (List.mem_singleton.2 rfl)
  exact ⟨x, by rw [OutboxRecord.id_of_event he]; exact hx⟩

/-- A parked row with its children in the outbox may be turned to its return. -/
theorem settled_turnHeld {rec : OutboxRecord} {now : ℤ} (hs : Settled opts none s)
    (hh : HeldRow s rec)
    (hall : ∀ c ∈ planChildren rec refunding (opts.childCtx 0), ∃ x, s.get c.id = some x) :
    Settled opts none (s.setStatus now rec.id refunding {}) := by
  refine hs.setStatus (by simp) (.inl (.inr (.inl rfl))) (fun _ _ h => h) (fun h => by cases h) ?_
  intro _ r hr
  obtain ⟨r', hr', he, hheld⟩ := hh
  rw [hr, Option.some.injEq] at hr'
  subst hr'
  refine ⟨fun hd _ hse ha => ?_, fun _ h => (by cases h), fun {cid c'} hc' hret hconf => ?_⟩
  · obtain ⟨x, hx⟩ := done_refunding (s := s) (r := r.withStatus now refunding {}) he
      (fun _ => rfl) hall hd rfl hse ha
    rw [Outbox.get_setStatus]
    split_ifs
    · exact ⟨_, by rw [hx]; rfl⟩
    · exact ⟨x, hx⟩
  · -- a confirmed return would have closed the parked row out already
    rw [Outbox.get_setStatus] at hc'
    split_ifs at hc' with hid
    · obtain ⟨c, hget, rfl⟩ := Option.map_eq_some_iff.1 hc'
      cases hconf
    · have := (hs.done hr (by simp)).closed hc' hret hconf
      rw [hheld] at this
      cases this

theorem safe_returnHeld {direction : OutboxDirection} {reason : String} {rec : OutboxRecord}
    {recs : List OutboxRecord} (h : PendingHeld opts (rec :: recs) s) :
    SafeTick opts (fun _ => PendingHeld opts recs) (returnHeld opts direction reason rec) s := by
  have hids : (rec.id :: recs.map OutboxRecord.id).Nodup := h.2.1
  obtain ⟨hnotin, hnd⟩ := List.nodup_cons.1 hids
  have htail : ∀ {t}, PendingHeld opts (rec :: recs) t → PendingHeld opts recs t := fun h' =>
    ⟨h'.1, hnd, fun x hx => h'.2.2 x (List.mem_cons_of_mem rec hx)⟩
  have hne : ∀ x ∈ recs, x.id ≠ rec.id := by
    intro x hx hid
    exact hnotin (by rw [← hid]; exact List.mem_map_of_mem hx)
  unfold returnHeld
  split_ifs with hskip
  · exact htail h
  refine safe_bind ?_
  -- the children first: the row is still HELD, so a crash here repeats the branch
  have hturn : ∀ {t}, PendingHeld opts (rec :: recs) t →
      (∀ c ∈ planChildren rec refunding (opts.childCtx 0), ∃ x, t.get c.id = some x) →
      SafeTick opts (fun _ => PendingHeld opts recs)
        (if planChildren rec refunding (opts.childCtx 0) = [] then
          setStatus rec.id refunded dustRetained
        else setStatus rec.id refunding {}) t := by
    intro t ht hall
    have hstep : ∀ {u v : Outbox}, PendingHeld opts (rec :: recs) u → Settled opts none v →
        (∀ x ∈ recs, HeldRow u x → HeldRow v x) → PendingHeld opts recs v := fun hu hv hx =>
      ⟨hv, hnd, fun x hm => hx x hm (hu.2.2 x (List.mem_cons_of_mem rec hm))⟩
    split_ifs with hnil
    · refine safe_setStatus ht.1 fun u hu now => hstep (ht.rely hu) ?_ fun x hx hh =>
        hh.setStatus (hne x hx)
      exact (ht.1.rely hu).closeOut (.inl rfl)
    · refine safe_setStatus ht.1 fun u hu now => hstep (ht.rely hu) ?_ fun x hx hh =>
        hh.setStatus (hne x hx)
      refine settled_turnHeld (ht.1.rely hu) ((ht.2.2 rec (List.mem_cons_self ..)).rely hu) ?_
      intro c hc
      obtain ⟨x, hx⟩ := hall c hc
      exact hu.kept_child ht.1.wf (planned_child hc).2.2.2.1 hx
  refine safe_enqueueAll (planChildren_nil_or_singleton ..) (fun hnil => ?_) (fun c _ t ht _ =>
    h.1.rely ht) fun c hc t ht now => ?_
  · exact hturn h fun c hc => by rw [hnil] at hc; simp at hc
  · have hch := planned_child hc
    have h' := h.rely ht
    obtain ⟨r, hr, -, hheld⟩ := h'.2.2 rec (List.mem_cons_self ..)
    refine hturn ⟨?_, h.2.1, fun x hx => (h'.2.2 x hx).enqueue⟩ fun c' hc' => ?_
    · refine h'.1.enqueue hch.1 hch.2.1 fun pid hp => ?_
      rw [(hch.2.2.2.2 now pid hp).1]
      exact ⟨r, hr, by rw [hheld]; exact .inl rfl⟩
    · have hcc : c' = c := by
        rcases planChildren_nil_or_singleton rec refunding (opts.childCtx 0) with hl | ⟨a, hl⟩
        · rw [hl] at hc
          simp at hc
        · rw [hl, List.mem_singleton] at hc hc'
          rw [hc, hc']
      subst hcc
      rw [Outbox.get_enqueue, if_pos rfl]
      exact ⟨_, rfl⟩

theorem nodup_due (s : Outbox) (now : ℤ) (statuses : List ActionStatus) :
    ((s.due now statuses).map OutboxRecord.id).Nodup := by
  unfold Outbox.due
  refine ((List.mergeSort_perm _ _).map OutboxRecord.id).nodup_iff.2 ?_
  exact s.nodup.sublist (List.filter_sublist.map _)

/-- Both rounds over the parked rows. -/
theorem safe_returnAllHeld {direction : OutboxDirection} {reason : String} {now : ℤ}
    (hs : Settled opts none s) :
    SafeTick opts (fun _ => Settled opts none) (do
      let held ← due now [held]
      Prog.forEach (returnHeld opts direction reason) held) s := by
  refine safe_bind (safe_due hs fun t ht => ?_)
  refine (Prog.safe_forEach (I := PendingHeld opts) (fun r rs s h => safe_returnHeld h)
    ⟨hs.rely ht, nodup_due .., fun r hr => ?_⟩).mono (fun _ _ h => h.1) fun _ _ => id
  rw [Outbox.mem_due, List.mem_singleton] at hr
  exact ⟨r, hr.1, rfl, hr.2.1⟩

/-! ## One delivery -/

theorem Settled.settle {id : String} (hs : Settled opts (some id) s)
    (h : ∀ r, s.get id = some r → Done opts s r) : Settled opts none s where
  wf := hs.wf
  done {id' p} hp _ := by
    by_cases hid : id = id'
    · subst hid
      exact h p hp
    · exact hs.done hp fun he => hid (Option.some.inj he)

/-- Whose promise the write of `status` leaves open: the parent of a confirmed return, or the row
itself while its child is not in the outbox. -/
def owesParent (rec : OutboxRecord) (status : ActionStatus) : Option String :=
  if status = confirmed ∧ (rec.direction = .refund ∨ rec.direction = .gramReturn) then
    parentIdOf rec
  else none

def owes (opts : DispatcherOpts) (rec : OutboxRecord) (status : ActionStatus) : Option String :=
  if opts.childrenAt rec status = [] then owesParent rec status else some rec.id

/-- The row in hand after its status write. -/
structure Written (s : Outbox) (rec : OutboxRecord) (status : ActionStatus) : Prop where
  row : ∃ r, s.get rec.id = some r ∧ r.event = rec.event ∧ Moved status r.status
  unpaid : ∀ cid c, s.get cid = some c → IsReturn c rec.id → c.status ≠ confirmed

theorem Written.rely {rec : OutboxRecord} {status : ActionStatus} (hw : Written s rec status)
    (hne : status ≠ seen) (h : Rely s t) : Written t rec status where
  row := by
    obtain ⟨r, hr, he, hm⟩ := hw.row
    obtain ⟨r', hr', he', hm'⟩ := h.kept hr (hm.ne_seen hne)
    exact ⟨r', hr', he'.trans he, hm.trans hm'⟩
  unpaid cid c hc hr hconf := by
    obtain ⟨c', hc', hr', hm⟩ := h.came_return hc hr
    exact hw.unpaid cid c' hc' hr' (hconf ▸ hm).of_confirmed

theorem Open.written {rec : OutboxRecord} (ho : Open s rec) {now : ℤ} {status : ActionStatus}
    {patch : StatusPatch} (hne : status ≠ seen) :
    Written (s.setStatus now rec.id status patch) rec status where
  row := by
    obtain ⟨r, hr, he, -⟩ := ho.row
    exact ⟨r.withStatus now status patch, by rw [Outbox.get_setStatus_self, hr]; rfl, he, .inl rfl⟩
  unpaid cid c hc hr := absurd hr ((ho.setStatus hne).free cid c hc)

/-- Its own child does not change a written row. -/
theorem Written.enqueue {rec : OutboxRecord} {status : ActionStatus} (hw : Written s rec status)
    {now : ℤ} {c : EnqueueInput} (hst : c.status = some queued) :
    Written (s.enqueue now c).2 rec status where
  row := by
    obtain ⟨r, hr, h⟩ := hw.row
    exact ⟨r, get_enqueue_of_some hr, h⟩
  unpaid cid x hx hr := by
    rw [Outbox.get_enqueue] at hx
    split_ifs at hx with hid
    · subst hid
      rw [Option.some.injEq] at hx
      cases hget : s.get c.id with
      | none =>
        rw [hget] at hx
        subst hx
        change c.status.getD seen ≠ confirmed
        rw [hst]
        simp
      | some y =>
        rw [hget] at hx
        subst hx
        exact hw.unpaid _ _ hget hr
    · exact hw.unpaid cid x hx hr

theorem Moved.eq_of_decided {a b : ActionStatus} (h : Moved a b)
    (hb : b = confirmed ∨ b = refunding) : a = b := by
  rcases h with h | ⟨-, h | h | h⟩
  · exact h.symm
  all_goals rw [h] at hb; rcases hb with hb | hb <;> cases hb

theorem childrenAt_fee (opts : DispatcherOpts) {rec : OutboxRecord} (hd : rec.direction = .pegIn)
    (hb : 0 < baseFee rec.amountMilliViz
      (pegInFeePolicyFor opts.fees (rec.remoteChain.getD .solana))) :
    ∃ recipient amount, opts.childrenAt rec ActionStatus.confirmed
      = [childOf rec ":fee" .feeSweep recipient amount] := by
  unfold DispatcherOpts.childrenAt sweepAmountMilliViz
  rw [if_pos ⟨rfl, hd⟩, planChildren_confirmed_pegIn hd hb]
  exact ⟨_, _, rfl⟩

/-- With its children in the outbox the row written keeps its promises. -/
theorem Written.done {rec r : OutboxRecord} {status : ActionStatus} (hw : Written s rec status)
    (hr : s.get rec.id = some r)
    (hall : (r.status = confirmed ∨ r.status = refunding) →
      ∀ c ∈ opts.childrenAt rec status, ∃ x, s.get c.id = some x) : Done opts s r := by
  obtain ⟨r', hr', he, hm⟩ := hw.row
  rw [hr, Option.some.injEq] at hr'
  subst hr'
  refine ⟨fun hd hst hse ha => ?_, fun hd hst hb => ?_, fun {cid c} hc hret hconf => ?_⟩
  · exact done_refunding he (fun _ => (hm.eq_of_decided (.inr hst)).trans hst)
      (hall (.inr hst)) hd hst hse ha
  · have hsc : status = confirmed := (hm.eq_of_decided (.inl hst)).trans hst
    have ham : r.amountMilliViz = rec.amountMilliViz :=
      OutboxRecord.eq_of_event he OutboxRecord.amountMilliViz fun _ => rfl
    have hch : r.remoteChain = rec.remoteChain :=
      OutboxRecord.eq_of_event he OutboxRecord.remoteChain fun _ => rfl
    have hdir : rec.direction = .pegIn := OutboxRecord.direction_of_event he ▸ hd
    have hall' := hall (.inl hst)
    obtain ⟨recipient, amount, hch'⟩ := childrenAt_fee opts hdir
      (by rw [← ham, ← hch]; exact hb)
    rw [hsc, hch'] at hall'
    obtain ⟨x, hx⟩ := hall' _ (List.mem_singleton.2 rfl)
    exact ⟨x, by rw [OutboxRecord.id_of_event he]; exact hx⟩
  · rw [OutboxRecord.id_of_event he] at hret
    exact absurd hconf (hw.unpaid cid c hc hret)

/-- The status write itself. -/
theorem settled_statusWrite {rec : OutboxRecord} (hs : Settled opts none s) (ho : Open s rec)
    {now : ℤ} {status : ActionStatus} {patch : StatusPatch} (hne : status ≠ seen) :
    Settled opts (owes opts rec status) (s.setStatus now rec.id status patch) := by
  refine hs.setStatus hne (.inr ho.free) (fun _ _ _ => by simp) (fun hst r hr pid hret => ?_) ?_
  · obtain ⟨r', hr', he, -⟩ := ho.row
    rw [hr, Option.some.injEq] at hr'
    subst hr'
    have hret' := (isReturn_event he).1 hret
    have hnil : opts.childrenAt rec status = [] := by
      rcases planChildren_nil_or_singleton rec status
        (opts.childCtx (sweepAmountMilliViz opts.fees rec status)) with h | ⟨c, h⟩
      · exact h
      · have hc : c ∈ planChildren rec status
            (opts.childCtx (sweepAmountMilliViz opts.fees rec status)) := by
          rw [h]
          exact List.mem_singleton.2 rfl
        rcases mem_planChildren hc with ⟨-, hd, -⟩ | ⟨_, -, hst', -⟩
        · rcases hret'.1 with h' | h' <;> rw [h'] at hd <;> cases hd
        · rw [hst] at hst'
          cases hst'
    unfold owes owesParent
    rw [if_pos hnil, if_pos ⟨hst, hret'.1⟩]
    exact hret'.2
  · intro howe r hr
    refine (ho.written hne).done (by rw [Outbox.get_setStatus_self, hr]; rfl) fun _ c hc => ?_
    unfold owes at howe
    rw [if_neg fun h => by rw [h] at hc; simp at hc] at howe
    exact absurd rfl howe

/-- Rows still to come, read while queued. -/
def PendingDue (opts : DispatcherOpts) (recs : List OutboxRecord) (s : Outbox) : Prop :=
  Settled opts none s ∧ (recs.map OutboxRecord.id).Nodup ∧ ∀ r ∈ recs, Open s r

/-- Every other row in hand stays in hand when a row's child is enqueued. -/
theorem Open.enqueue_child {rec x : OutboxRecord} (ho : Open s x) {status : ActionStatus}
    {ctx : ChildCtx} {c : EnqueueInput} (hc : c ∈ planChildren rec status ctx)
    (hne : x.id ≠ rec.id) {now : ℤ} : Open (s.enqueue now c).2 x :=
  ho.enqueue fun hr => hne ((planned_child hc).2.2.2.2 now x.id hr).1

/-- The child of the status just written, then what is left is the parent's close-out. -/
theorem safe_children {rec : OutboxRecord} {status : ActionStatus} {X : Outbox → Prop}
    {Q : Outbox → Prop} (hne : status ≠ seen)
    (hs : Settled opts (owes opts rec status) s) (hw : Written s rec status) (hx : X s)
    (hxr : ∀ t u, Rely t u → X t → X u)
    (hxe : ∀ t now c, c ∈ opts.childrenAt rec status → X t → X (t.enqueue now c).2)
    (hQ : ∀ t, Settled opts (owesParent rec status) t → X t → Q t) :
    SafeTick opts (fun _ => Q) (enqueueAll (opts.childrenAt rec status)) s := by
  have howe : ∀ {c}, c ∈ opts.childrenAt rec status → owes opts rec status = some rec.id := by
    intro c hc
    unfold owes
    rw [if_neg fun h => by rw [h] at hc; simp at hc]
  have hsingle : ∀ {c c'}, c ∈ opts.childrenAt rec status → c' ∈ opts.childrenAt rec status →
      c' = c := by
    intro c c' hc hc'
    rcases planChildren_nil_or_singleton rec status
      (opts.childCtx (sweepAmountMilliViz opts.fees rec status)) with h | ⟨a, h⟩
    · unfold DispatcherOpts.childrenAt at hc
      rw [h] at hc
      simp at hc
    · unfold DispatcherOpts.childrenAt at hc hc'
      rw [h, List.mem_singleton] at hc hc'
      rw [hc, hc']
  refine safe_enqueueAll (planChildren_nil_or_singleton ..) (fun hnil => ?_)
    (fun c hc t ht htorn => ?_) fun c hc t ht now => ?_
  · unfold owes at hs
    rw [if_pos hnil] at hs
    exact hQ s hs hx
  · -- here the process may die only if the child is in already or the status has moved on
    have hst : Settled opts (some rec.id) t := by
      rw [← howe hc]
      exact hs.rely ht
    have hwt := hw.rely hne ht
    refine hst.settle fun r hr => hwt.done hr fun hdec c' hc' => ?_
    rw [hsingle hc hc']
    by_contra hnone
    refine htorn ⟨?_, rec.id, r, (planned_child hc).2.2.1, hr, hdec⟩
    cases hget : t.get c.id with
    | none => rfl
    | some x => exact absurd ⟨x, hget⟩ hnone
  · have hch := planned_child hc
    have hst : Settled opts (some rec.id) t := by
      rw [← howe hc]
      exact hs.rely ht
    have hwt := hw.rely hne ht
    obtain ⟨r, hr, -, hm⟩ := hwt.row
    have hu : Settled opts (some rec.id) (t.enqueue now c).2 := by
      refine hst.enqueue hch.1 hch.2.1 fun pid hp => ?_
      obtain ⟨rfl, href⟩ := hch.2.2.2.2 now pid hp
      have hpk : Parked status := .inr (.inl href)
      exact ⟨r, hr, by rw [hm.of_parked hpk]; exact hpk⟩
    refine hQ _ (Settled.weaken (hu.settle fun r' hr' => ?_)) (hxe t now c hc (hxr s t ht hx))
    refine (hwt.enqueue hch.2.1).done hr' fun _ c' hc' => ?_
    rw [hsingle hc hc', Outbox.get_enqueue, if_pos rfl]
    exact ⟨_, rfl⟩

theorem safe_closeDust {rec : OutboxRecord} {status : ActionStatus} {X Q : Outbox → Prop}
    (hs : Settled opts (owesParent rec status) s) (hx : X s)
    (hxr : ∀ t u, Rely t u → X t → X u)
    (hxw : ∀ t now id patch, X t → X (t.setStatus now id refunded patch))
    (hQ : ∀ t, Settled opts (owesParent rec status) t → X t → Q t) :
    SafeTick opts (fun _ => Q) (closeDust opts rec status) s := by
  unfold closeDust
  split_ifs with hdust
  · have hnone : owesParent rec status = none := by
      unfold owesParent
      rw [if_neg]
      rintro ⟨h, -⟩
      rw [hdust.1] at h
      cases h
    rw [hnone] at hs
    refine safe_setStatus hs fun t ht now => hQ _ ?_ (hxw t now _ _ (hxr s t ht hx))
    rw [hnone]
    exact (hs.rely ht).closeOut (.inl rfl)
  · exact hQ s hs hx

theorem safe_closeParent {rec : OutboxRecord} {status : ActionStatus} {X Q : Outbox → Prop}
    (hs : Settled opts (owesParent rec status) s) (hx : X s)
    (hxr : ∀ t u, Rely t u → X t → X u)
    (hxw : ∀ t now id patch, X t → X (t.setStatus now id refunded patch))
    (hQ : ∀ t, Settled opts none t → X t → Q t) :
    SafeTick opts (fun _ => Q) (closeParent rec status) s := by
  unfold closeParent
  unfold owesParent at hs
  split_ifs at hs ⊢ with hret
  · cases hpar : parentIdOf rec with
    | none =>
      rw [hpar] at hs
      exact hQ s hs hx
    | some pid =>
      rw [hpar] at hs
      refine safe_store (o := .setStatus pid refunded {}) (fun t ht htorn => ?_) fun t ht now => ?_
      · -- the close-out is the one write a crash must not cut off
        refine (hs.rely ht).settle fun r hr => ?_
        have hst : r.status = refunded := by
          by_contra hne
          exact htorn ⟨rfl, rfl, r, hr, hne⟩
        exact ⟨fun _ h => (by rw [hst] at h; cases h), fun _ h => (by rw [hst] at h; cases h),
          fun _ _ _ => hst⟩
      · exact hQ _ ((hs.rely ht).closeOut (.inr rfl)) (hxw t now _ _ (hxr s t ht hx))
  · exact hQ s hs hx

theorem planTransition_ne_seen (rec : OutboxRecord) (result : DeliveryResult) (now : ℤ)
    (o : RetryOpts) : (planTransition rec result now o).status ≠ seen := by
  rcases planTransition_cases rec result now o with ⟨h, -⟩ | ⟨h, -⟩ | ⟨h, -⟩ <;> rw [h] <;> simp

theorem safe_deliver {rec : OutboxRecord} {recs : List OutboxRecord}
    (h : PendingDue opts (rec :: recs) s) :
    SafeTick opts (fun _ => PendingDue opts recs) (deliver opts rec) s := by
  have hids : (rec.id :: recs.map OutboxRecord.id).Nodup := h.2.1
  obtain ⟨hnotin, hnd⟩ := List.nodup_cons.1 hids
  have hne : ∀ x ∈ recs, x.id ≠ rec.id := by
    intro x hx hid
    exact hnotin (by rw [← hid]; exact List.mem_map_of_mem hx)
  -- what is kept of the rows still to come, through every write of this delivery
  let Others : Outbox → Prop := fun u => ∀ x ∈ recs, Open u x
  have hxr : ∀ t u, Rely t u → Others t → Others u := fun t u hr ho x hx => (ho x hx).rely hr
  have hxw : ∀ t now id patch, Others t → Others (t.setStatus now id refunded patch) :=
    fun t now id patch ho x hx => (ho x hx).setStatus (by simp)
  have hrec := h.2.2 rec (List.mem_cons_self ..)
  have hrest : Others s := fun x hx => h.2.2 x (List.mem_cons_of_mem rec hx)
  unfold deliver
  refine safe_bind (safe_setStatus h.1 fun t ht now => ?_)
  have hs1 : Settled opts none (t.setStatus now rec.id broadcast {}) :=
    (h.1.rely ht).setStatus_open (hrec.rely ht) (.inr (.inr (.inr rfl))) (by simp)
  have hr1 : Open (t.setStatus now rec.id broadcast {}) rec := (hrec.rely ht).setStatus (by simp)
  have hx1 : Others (t.setStatus now rec.id broadcast {}) :=
    fun x hx => (hxr s t ht hrest x hx).setStatus (by simp)
  refine safe_bind (safe_submit hs1 fun t' ht' result => ?_)
  refine safe_bind (safe_dateNow (hs1.rely ht') fun t2 ht2 answered => ?_)
  have hs2 := (hs1.rely ht').rely ht2
  have hr2 := (hr1.rely ht').rely ht2
  have hx2 := hxr t' t2 ht2 (hxr _ t' ht' hx1)
  have hseen := planTransition_ne_seen rec result answered opts.toRetryOpts
  refine safe_bind (safe_setStatus hs2 fun t3 ht3 now3 => ?_)
  have hr3 := hr2.rely ht3
  refine safe_bind (safe_children (X := Others) hseen
    (settled_statusWrite (hs2.rely ht3) hr3 hseen) (hr3.written hseen)
    (fun x hx => (hxr t2 t3 ht3 hx2 x hx).setStatus hseen) hxr
    (fun u now4 c hc ho x hx => (ho x hx).enqueue_child hc (hne x hx)) fun t4 hs4 hx4 => ?_)
  refine safe_bind (safe_closeDust (X := Others) hs4 hx4 hxr hxw fun t5 hs5 hx5 => ?_)
  exact safe_closeParent (X := Others) hs5 hx5 hxr hxw fun t6 hs6 hx6 => ⟨hs6, hnd, hx6⟩

theorem safe_deliverDue {now : ℤ} (hs : Settled opts none s) :
    SafeTick opts (fun _ => Settled opts none) (deliverDue opts now) s := by
  refine safe_bind (safe_due hs fun t ht => ?_)
  refine (Prog.safe_forEach (I := PendingDue opts) (fun r rs s h => safe_deliver h)
    ⟨hs.rely ht, nodup_due .., fun r hr => ?_⟩).mono (fun _ _ h => h.1) fun _ _ => id
  rw [Outbox.mem_due, List.mem_singleton] at hr
  exact Open.of_get (hs.rely ht).wf hr.1 (.inl hr.2.1)

theorem safe_turn (hs : Settled opts none s) :
    SafeTick opts (fun _ => Settled opts none) (turn opts) s := by
  unfold turn tick
  refine safe_bind (safe_store (o := .isPaused) (fun t ht _ => hs.rely ht) fun t ht _ => ?_)
  have hst := hs.rely ht
  change SafeTick opts _ (if t.paused.isSome = true then _ else _) t
  split_ifs
  · exact hst
  refine safe_bind (safe_dateNow hst fun t1 ht1 now => ?_)
  refine safe_bind ((safe_recoverOrphans (hst.rely ht1)).mono (fun _ t2 hs2 => ?_) fun _ _ => id)
  refine safe_bind ((safe_returnAllHeld hs2).mono (fun _ t3 hs3 => ?_) fun _ _ => id)
  refine safe_bind ((safe_returnAllHeld hs3).mono (fun _ t4 hs4 => ?_) fun _ _ => id)
  exact safe_deliverDue hs4

/-! ## Whole runs -/

/-- Between two turns every promise is kept; within one, the turn keeps its contract. -/
def WorldOk (opts : DispatcherOpts) (w : DispatcherWorld) : Prop :=
  match w.turn with
  | none => Settled opts none w.outbox
  | some p => SafeTick opts (fun _ => Settled opts none) p w.outbox

theorem worldOk_running {p : DispatcherM Unit} {s : Outbox}
    (h : SafeTick opts (fun _ => Settled opts none) p s) : WorldOk opts ⟨s, p.running⟩ := by
  cases p with
  | ret a => exact h
  | throw e => exact h
  | call o k => exact h

theorem SafeTick.rely {p : DispatcherM Unit} (h : SafeTick opts (fun _ => Settled opts none) p s)
    (hr : Rely s t) : SafeTick opts (fun _ => Settled opts none) p t :=
  Prog.Safe.stable (fun _ _ _ hr hs => Settled.rely hs hr) (fun _ _ _ hr hs => Settled.rely hs hr)
    h hr

theorem worldOk_step (w : DispatcherWorld) (e : DispatcherEvent) (h : WorldOk opts w)
    (hc : Untorn w e) : WorldOk opts (w.step opts e) := by
  obtain ⟨s, turn⟩ := w
  cases e with
  | begin =>
    cases turn with
    | none => exact safe_turn h
    | some p => exact h
  | await i =>
    cases turn with
    | none => exact h
    | some p =>
      cases p with
      | ret a => exact h
      | throw e => exact h
      | call o k => exact worldOk_running (Prog.Safe.step h fun hf => hc hf o rfl)
  | crash =>
    cases turn with
    | none => exact h
    | some p =>
      cases p with
      | ret a => exact h
      | throw e => exact h
      | call o k => exact Prog.Safe.point h (hc o rfl)
  | other clock write =>
    change WorldOk opts (if write.fits s = true then ⟨write.apply clock s, turn⟩ else ⟨s, turn⟩)
    split_ifs with hfit
    · have hr : Rely s (write.apply clock s) := rely_apply (w := ⟨s, turn⟩) hfit hc
      cases turn with
      | none => exact Settled.rely h hr
      | some p => exact SafeTick.rely h hr
    · exact h

theorem get_init (id : String) (r : OutboxRecord) :
    DispatcherWorld.init.outbox.get id ≠ some r := by
  rw [DispatcherWorld.init, Outbox.get_empty]
  simp

theorem worldOk_init : WorldOk opts DispatcherWorld.init where
  wf := ⟨fun h => absurd h (get_init _ _), fun h => absurd h (get_init _ _)⟩
  done h := absurd h (get_init _ _)

/-- In every run in which the dispatcher neither dies nor throws at a torn write and the
coordinator pins no row already given up, every state between two turns keeps the promises. -/
theorem closed_between_turns (opts : DispatcherOpts) (es : List DispatcherEvent)
    (hm : Runs.Meets (DispatcherWorld.step opts) Untorn DispatcherWorld.init es)
    (hidle : (Runs.run (DispatcherWorld.step opts) DispatcherWorld.init es).turn = none) :
    Closed opts (Runs.run (DispatcherWorld.step opts) DispatcherWorld.init es).outbox := by
  have h0 : WorldOk opts DispatcherWorld.init := worldOk_init
  have hok := Runs.run_inv worldOk_step h0 hm
  unfold WorldOk at hok
  rw [hidle] at hok
  exact hok.closed

/-- `n` awaits that all answer, deliveries with a confirmation. -/
def answered (n : ℕ) : List DispatcherEvent :=
  List.replicate n (.await { clock := 1000, result := { broadcast := true } })

theorem meets_answered (w : DispatcherWorld) (n : ℕ) :
    Runs.Meets (DispatcherWorld.step opts) Untorn w (answered n) := by
  induction n generalizing w with
  | zero => trivial
  | succ n ih => exact ⟨fun h => absurd rfl h, ih _⟩

/-- The sample deposit claimed and queued, and a turn that has just marked its delivery. -/
def untilDelivery : List DispatcherEvent :=
  [.other 1000 (.detect sampleClaim), .other 1000 (.classify sampleDeposit.id queued none), .begin]
    ++ answered 7

/-- The process dies while it waits for the coordinator, is started again and delivers. -/
def crashedRun : List DispatcherEvent := untilDelivery ++ .crash :: .begin :: answered 12

/-- The process dies after it has written CONFIRMED, is started again and turns once more. -/
def tornRun : List DispatcherEvent := untilDelivery ++ answered 3 ++ .crash :: .begin :: answered 6

theorem closed_after_crashedRun : Closed sampleOpts
    (Runs.run (DispatcherWorld.step sampleOpts) DispatcherWorld.init crashedRun).outbox := by
  refine closed_between_turns sampleOpts crashedRun ?_ ?_
  · refine Runs.meets_append.2 ⟨⟨trivial, trivial, trivial, meets_answered _ 7⟩, ?_, trivial,
      meets_answered _ 12⟩
    intro o ho htorn
    have hat : ((Runs.run (DispatcherWorld.step sampleOpts) DispatcherWorld.init
        untilDelivery).standsAt).all
          (fun o => match o with | .submit _ => true | _ => false) = true := by decide +kernel
    rw [ho] at hat
    cases o with
    | submit rec => exact htorn
    | store o => cases hat
    | now => cases hat
  · have hnone : (Runs.run (DispatcherWorld.step sampleOpts) DispatcherWorld.init
        crashedRun).turn.isNone = true := by decide +kernel
    exact Option.isNone_iff_eq_none.1 hnone

/-- After the torn crash and a whole turn the confirmed deposit still has no fee sweep. -/
theorem feeSweep_lost_after_tornRun :
    (Runs.run (DispatcherWorld.step sampleOpts) DispatcherWorld.init tornRun).turn.isNone = true
      ∧ ¬ Closed sampleOpts
        (Runs.run (DispatcherWorld.step sampleOpts) DispatcherWorld.init tornRun).outbox := by
  have hlost : (Runs.run (DispatcherWorld.step sampleOpts) DispatcherWorld.init
      tornRun).outbox.rows.any (fun p => p.direction = .pegIn ∧ p.status = confirmed
        ∧ 0 < baseFee p.amountMilliViz
          (pegInFeePolicyFor sampleOpts.fees (p.remoteChain.getD .solana))
        ∧ (Runs.run (DispatcherWorld.step sampleOpts) DispatcherWorld.init
            tornRun).outbox.get (p.id ++ ":fee") = none) = true := by decide +kernel
  refine ⟨by decide +kernel, fun h => ?_⟩
  obtain ⟨p, hp, hlost⟩ := List.any_eq_true.1 hlost
  obtain ⟨hd, hst, hb, hnone⟩ := of_decide_eq_true hlost
  have hsome := h.fee p hp hd hst hb
  rw [hnone] at hsome
  cases hsome

end CrashAtomicity

end VizGateway
