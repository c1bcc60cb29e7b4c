import VizGateway.PegoutScanner

/-!
# What the scanner's calls keep

A checkpointed claim was burned for, and a claim that was burned for has its row. Where nothing fails
after a burn, at most one is out for a claim, under the checkpointed signature.
-/

namespace VizGateway

open ActionStatus Text Checks

namespace ScannerClaims

/-- A burn that went out for a row: under its id, for its amount and its account. -/
structure Covers (s : ScannerState) (b : SentBurn) (r : OutboxRecord) : Prop where
  sent : b ∈ s.sent
  id : b.id = r.id
  account : b.tx.vizAccount = r.recipient
  amount : b.tx.amount = r.amountMilliViz
  existing : r.recipient ∈ s.existing

/-- The claim on `id` was burned for, by a burn as `p` says. -/
def Burnt (s : ScannerState) (id : String) (p : SentBurn → Prop) : Prop :=
  id ∈ s.burned ∧ ∃ r b, s.outbox.get id = some r ∧ Covers s b r ∧ p b

/-- The burns that may have landed or may still. -/
def alive (s : ScannerState) : List SentBurn := s.pool ++ s.landed

section

variable (N : BurnSigner) (strict : Prop)

/-- The burns out for `id` are the one under `sig`. -/
def Named (s : ScannerState) (id sig : String) : Prop :=
  ∀ b ∈ alive s, b.id = id → N.signature b.tx = sig

/-- The state's invariant; the last three fields are for the runs that are settled. -/
structure Inv (s : ScannerState) : Prop where
  burned : ∀ id ∈ s.burned, (s.outbox.get id).isSome = true
  checkpoint : ∀ {id r sig}, s.outbox.get id = some r → r.status = seen → r.txid = some sig →
    Burnt s id fun b => N.signature b.tx = sig
  alive : strict → ∀ b ∈ alive s, b.id ∈ s.burned
  lone : strict → ∀ id, (ScannerClaims.alive s).countP (·.id = id) ≤ 1
  named : strict → ∀ {id r sig}, s.outbox.get id = some r → r.status = seen →
    r.txid = some sig → Named N s id sig

/-- What everyone but the scanner's own writes keeps. -/
structure Rely (s t : ScannerState) : Prop where
  inv : Inv N strict s → Inv N strict t
  burned : t.burned = s.burned
  sent : s.sent ⊆ t.sent
  existing : s.existing ⊆ t.existing
  alive : ∀ b ∈ alive t, b ∈ alive s
  rows : ∀ {id r}, s.outbox.get id = some r → ∃ r', t.outbox.get id = some r' ∧ r'.event = r.event

end

variable {N : BurnSigner} {strict : Prop} {s t u : ScannerState} {id : String}
  {p : SentBurn → Prop}

theorem Covers.mono {b : SentBurn} {r r' : OutboxRecord} (h : Covers s b r)
    (hsent : s.sent ⊆ t.sent) (hexisting : s.existing ⊆ t.existing) (he : r'.event = r.event) :
    Covers t b r' := by
  have hrecipient : r'.recipient = r.recipient :=
    OutboxRecord.eq_of_event he OutboxRecord.recipient fun _ => rfl
  have hamount : r'.amountMilliViz = r.amountMilliViz :=
    OutboxRecord.eq_of_event he OutboxRecord.amountMilliViz fun _ => rfl
  refine ⟨hsent h.sent, h.id.trans (OutboxRecord.id_of_event he).symm, ?_, ?_, ?_⟩
  · rw [hrecipient, h.account]
  · rw [hamount, h.amount]
  · rw [hrecipient]
    exact hexisting h.existing

theorem Rely.refl (s : ScannerState) : Rely N strict s s :=
  ⟨fun h => h, rfl, fun _ h => h, fun _ h => h, fun _ h => h, fun h => ⟨_, h, rfl⟩⟩

theorem Rely.trans (h : Rely N strict s t) (h' : Rely N strict t u) : Rely N strict s u where
  inv hs := h'.inv (h.inv hs)
  burned := h'.burned.trans h.burned
  sent _ hb := h'.sent (h.sent hb)
  existing _ ha := h'.existing (h.existing ha)
  alive b hb := h.alive b (h'.alive b hb)
  rows hr := by
    obtain ⟨r', hr', he⟩ := h.rows hr
    obtain ⟨r'', hr'', he'⟩ := h'.rows hr'
    exact ⟨r'', hr'', he'.trans he⟩

theorem Burnt.rely (h : Burnt s id p) (hst : Rely N strict s t) : Burnt t id p := by
  obtain ⟨hburned, r, b, hr, hb, hp⟩ := h
  obtain ⟨r', hr', he⟩ := hst.rows hr
  exact ⟨hst.burned ▸ hburned, r', b, hr', hb.mono hst.sent hst.existing he, hp⟩

theorem Named.rely {sig : String} (h : Named N s id sig) (hst : Rely N strict s t) :
    Named N t id sig := fun b hb => h b (hst.alive b hb)

theorem mem_of_countP_le {l l' : List SentBurn} (h : ∀ p : SentBurn → Bool, l'.countP p ≤ l.countP p)
    {b : SentBurn} (hb : b ∈ l') : b ∈ l := by
  have hpos : 0 < l'.countP (fun c => decide (c = b)) :=
    List.countP_pos_iff.2 ⟨b, hb, decide_eq_true rfl⟩
  obtain ⟨c, hc, heq⟩ := List.countP_pos_iff.1 (hpos.trans_le (h _))
  rwa [← of_decide_eq_true heq]

/-- A step that burns nothing, keeps the rows but for what a status change may touch, puts none back
to SEEN, and forgets nothing. -/
theorem rely_of_rows (hburned : t.burned = s.burned) (hsent : s.sent ⊆ t.sent)
    (hexisting : s.existing ⊆ t.existing)
    (halive : ∀ p : SentBurn → Bool, (alive t).countP p ≤ (alive s).countP p)
    (hkept : ∀ {id r}, s.outbox.get id = some r →
      ∃ r', t.outbox.get id = some r' ∧ r'.event = r.event)
    (hseen : ∀ {id r' sig}, t.outbox.get id = some r' → r'.status = seen → r'.txid = some sig →
      ∃ r, s.outbox.get id = some r ∧ r.status = seen ∧ r.txid = some sig) : Rely N strict s t where
  inv h :=
    { burned := fun id hid => by
        obtain ⟨r, hr⟩ := Option.isSome_iff_exists.1 (h.burned id (hburned ▸ hid))
        obtain ⟨r', hr', -⟩ := hkept hr
        simp [hr']
      checkpoint := fun hr' hs htx => by
        obtain ⟨r₀, hr₀, hs₀, htx₀⟩ := hseen hr' hs htx
        obtain ⟨hb', r, b, hr, hb, hsig⟩ := h.checkpoint hr₀ hs₀ htx₀
        obtain ⟨r'', hr'', he⟩ := hkept hr
        exact ⟨hburned ▸ hb', r'', b, hr'', hb.mono hsent hexisting he, hsig⟩
      alive := fun hstrict b hb => hburned ▸ h.alive hstrict b (mem_of_countP_le halive hb)
      lone := fun hstrict id => (halive _).trans (h.lone hstrict id)
      named := fun hstrict _ _ _ hr' hs htx b hb => by
        obtain ⟨r₀, hr₀, hs₀, htx₀⟩ := hseen hr' hs htx
        exact h.named hstrict hr₀ hs₀ htx₀ b (mem_of_countP_le halive hb) }
  burned := hburned
  sent := hsent
  existing := hexisting
  alive _ hb := mem_of_countP_le halive hb
  rows := hkept

/-- A step that leaves the outbox alone. -/
theorem rely_of_outbox (houtbox : t.outbox = s.outbox) (hburned : t.burned = s.burned)
    (hsent : s.sent ⊆ t.sent) (hexisting : s.existing ⊆ t.existing)
    (halive : ∀ p : SentBurn → Bool, (alive t).countP p ≤ (alive s).countP p) :
    Rely N strict s t := by
  refine rely_of_rows hburned hsent hexisting halive (fun hr => ⟨_, ?_, rfl⟩) fun hr hs htx =>
    ⟨_, ?_, hs, htx⟩
  · rwa [houtbox]
  · rwa [houtbox] at hr

/-! ## The others -/

/-- A store call that deletes no row keeps every event. -/
theorem kept_store {o : StoreOp} (ho : ∀ id, o ≠ .delete id) (clock : ℤ) {b : Outbox} {id : String}
    {r : OutboxRecord} (hr : b.get id = some r) :
    ∃ r', (o.exec clock b).1.get id = some r' ∧ r'.event = r.event := by
  cases o with
  | enqueue input =>
    simp only [StoreOp.exec, Outbox.get_enqueue]
    split_ifs with hid
    · subst hid
      exact ⟨r, by rw [hr]; rfl, rfl⟩
    · exact ⟨r, hr, rfl⟩
  | setStatus id' status patch =>
    simp only [StoreOp.exec, Outbox.get_setStatus]
    split_ifs with hid
    · exact ⟨r.withStatus clock status patch, by rw [hr]; rfl, rfl⟩
    · exact ⟨r, hr, rfl⟩
  | setFee id' fee =>
    simp only [StoreOp.exec, Outbox.setFee, Outbox.get_modify]
    split_ifs with hid
    · exact ⟨{ r with feeMilliViz := fee, updatedAt := clock }, by rw [hr]; rfl, rfl⟩
    · exact ⟨r, hr, rfl⟩
  | delete id' => exact absurd rfl (ho id')
  | _ => exact ⟨r, hr, rfl⟩

/-- A store call that deletes no row and puts none back to SEEN. -/
theorem rely_store {o : StoreOp} {clock : ℤ} (ho : s.leaves o = true) :
    Rely N strict s { s with outbox := (o.exec clock s.outbox).1 } := by
  have hnot : ∀ id, o ≠ .delete id := by
    rintro id rfl
    cases ho
  have hkept : ∀ {id r}, s.outbox.get id = some r →
      ∃ r', (o.exec clock s.outbox).1.get id = some r' ∧ r'.event = r.event := fun hr =>
    kept_store hnot clock hr
  refine rely_of_rows rfl (fun _ h => h) (fun _ h => h) (fun _ => le_rfl) hkept ?_
  intro id r' sig hr' hs htx
  cases o with
  | enqueue input =>
    simp only [StoreOp.exec, Outbox.get_enqueue] at hr'
    split_ifs at hr' with hid
    · subst hid
      cases hget : s.outbox.get input.id with
      | none =>
        rw [hget] at hr'
        obtain rfl : input.toRecord clock = r' := by simpa using hr'
        cases htx
      | some r =>
        rw [hget] at hr'
        obtain rfl : r = r' := by simpa using hr'
        exact ⟨r, rfl, hs, htx⟩
    · exact ⟨r', hr', hs, htx⟩
  | setStatus id' status patch =>
    simp only [StoreOp.exec, Outbox.get_setStatus] at hr'
    split_ifs at hr' with hid
    · obtain ⟨r, -, rfl⟩ := Option.map_eq_some_iff.1 hr'
      simp only [ScannerState.leaves, Bool.and_eq_true, decide_eq_true_eq] at ho
      exact absurd hs ho.1
    · exact ⟨r', hr', hs, htx⟩
  | setFee id' fee =>
    simp only [StoreOp.exec, Outbox.setFee, Outbox.get_modify] at hr'
    split_ifs at hr' with hid
    · obtain ⟨r, hr, rfl⟩ := Option.map_eq_some_iff.1 hr'
      exact ⟨r, hr, hs, htx⟩
    · exact ⟨r', hr', hs, htx⟩
  | delete id' => cases ho
  | _ => exact ⟨r', hr', hs, htx⟩

theorem rely_act (m : ScannerAct) (s : ScannerState) : Rely N strict s (m.apply s) := by
  cases m with
  | store clock o =>
    simp only [ScannerAct.apply]
    split_ifs with ho
    · exact rely_store ho
    · exact Rely.refl s
  | unpause =>
    exact rely_of_rows rfl (fun _ h => h) (fun _ h => h) (fun _ => le_rfl) (fun hr => ⟨_, hr, rfl⟩)
      fun hr hs htx => ⟨_, hr, hs, htx⟩
  | land n =>
    simp only [ScannerAct.apply]
    split
    · next b hb =>
      refine rely_of_outbox rfl rfl (fun _ h => h) (fun _ h => h) fun p => ?_
      have hsplit : s.pool.countP p = (s.pool.eraseIdx n).countP p + [b].countP p := by
        obtain ⟨hn, rfl⟩ := List.getElem?_eq_some_iff.1 hb
        rw [← (List.getElem_cons_eraseIdx_perm hn).countP_eq p, List.countP_cons,
          List.countP_singleton]
      simp only [alive, List.countP_append]
      split_ifs
      · omega
      · rw [List.countP_append]
        omega
    · exact Rely.refl s
  | expire n =>
    refine rely_of_outbox rfl rfl (fun _ h => h) (fun _ h => h) fun p => ?_
    exact ((List.eraseIdx_sublist s.pool n).append_right s.landed).countP_le
  | _ => exact rely_of_outbox rfl rfl (fun _ h => h) (fun _ h => h) fun _ => le_rfl

/-! ## The scanner's own calls -/

/-- What a call leaves: what it does when answered, or what was there. -/
theorem exec_state (o : ScannerOp) (i : ScannerInput) (s : ScannerState) :
    (o.exec N i s).1 = (o.run N i s).1 ∨ (o.exec N i s).1 = s := by
  unfold ScannerOp.exec
  cases i.fails with
  | none => exact .inl rfl
  | some e =>
    cases o with
    | sendRawTransaction id tx =>
      simp only
      split_ifs
      · exact .inl rfl
      · exact .inr rfl
    | _ => exact .inr rfl

/-- A call that writes no row and sends nothing. -/
def Plain : ScannerOp → Prop
  | .store .isPaused | .store (.stale ..) | .store (.pause _) => True
  | .store _ | .sendRawTransaction .. => False
  | _ => True

theorem rely_run {o : ScannerOp} (ho : Plain o) (i : ScannerInput) (s : ScannerState) :
    Rely N strict s (o.run N i s).1 := by
  cases o with
  | store o =>
    cases o with
    | isPaused => exact Rely.refl s
    | stale now ageMs statuses => exact Rely.refl s
    | pause reason =>
      have ho : s.leaves (.pause reason) = true := rfl
      exact rely_store ho
    | _ => exact ho.elim
  | sendRawTransaction id tx => exact ho.elim
  | accountExists name =>
    simp only [ScannerOp.run]
    split_ifs
    · exact rely_of_outbox rfl rfl (fun _ h => h) (List.subset_cons_self _ _) fun _ => le_rfl
    · exact Rely.refl s
  | _ => exact rely_of_outbox rfl rfl (fun _ h => h) (fun _ h => h) fun _ => le_rfl

theorem rely_plain {o : ScannerOp} (ho : Plain o) (i : ScannerInput) (s : ScannerState) :
    Rely N strict s (o.exec N i s).1 := by
  rcases exec_state (N := N) o i s with hexec | hexec
  · rw [hexec]
    exact rely_run ho i s
  · rw [hexec]
    exact Rely.refl s

section

variable (N strict)

/-- Where the scanner stands before it sends a burn, checkpoints one, hands a row over or releases a
claim. -/
def Point : ScannerOp → ScannerState → Prop
  | .sendRawTransaction id tx, s =>
    id ∉ s.burned ∧ ∃ r, s.outbox.get id = some r ∧ tx.vizAccount = r.recipient
      ∧ tx.amount = r.amountMilliViz ∧ r.recipient ∈ s.existing
  | .store (.setStatus id status patch), s =>
    (status = queued → Burnt s id fun _ => True)
      ∧ (status = seen → ∃ sig, patch.txid = some (some sig)
        ∧ (Burnt s id fun b => N.signature b.tx = sig) ∧ (strict → Named N s id sig))
  | .store (.delete id), s => strict → ∀ b ∈ alive s, b.id ≠ id
  | .store (.setFee ..), _ => False
  | _, _ => True

end

/-- A send through the invariant. -/
theorem inv_send {id : String} {tx : BurnTx} (h : Inv N strict s)
    (hpoint : Point N strict (.sendRawTransaction id tx) s) (i : ScannerInput) :
    Inv N strict ((ScannerOp.sendRawTransaction id tx).run N i s).1 := by
  obtain ⟨hfresh, r, hr, -⟩ := hpoint
  have hmem : ∀ b, b ∈ alive ((ScannerOp.sendRawTransaction id tx).run N i s).1 ↔
      b ∈ alive s ∨ b = ⟨id, tx⟩ := fun b => by
    simp only [alive, ScannerOp.run, List.mem_append, List.mem_singleton]
    tauto
  -- nothing else is out for `id`
  have hnone : strict → ∀ b ∈ alive s, b.id ≠ id := fun hstrict b hb hid =>
    hfresh (hid ▸ h.alive hstrict b hb)
  refine ⟨fun id' hid' => ?_, fun hr' hs htx => ?_, fun hstrict b hb => ?_, fun hstrict id' => ?_,
    fun hstrict id' r' sig hr' hs htx b hb hid => ?_⟩
  · rcases List.mem_cons.1 hid' with rfl | hid'
    · simp [ScannerOp.run, hr]
    · exact h.burned id' hid'
  · obtain ⟨hburned, r, b, hr, hb, hsig⟩ := h.checkpoint hr' hs htx
    exact ⟨List.mem_cons_of_mem _ hburned, r, b, hr,
      hb.mono (List.subset_append_left _ _) (fun _ h => h) rfl, hsig⟩
  · rcases (hmem b).1 hb with hb | rfl
    · exact List.mem_cons_of_mem _ (h.alive hstrict b hb)
    · exact List.mem_cons_self
  · have hcount : (alive ((ScannerOp.sendRawTransaction id tx).run N i s).1).countP (·.id = id')
        = (alive s).countP (·.id = id') + if id = id' then 1 else 0 := by
      simp only [alive, ScannerOp.run, List.countP_append, List.countP_singleton, decide_eq_true_eq]
      omega
    have hle := h.lone hstrict id'
    split_ifs at hcount with hid
    · have hzero : (alive s).countP (·.id = id') = 0 :=
        List.countP_eq_zero.2 fun b hb => by simpa [hid] using hnone hstrict b hb
      omega
    · omega
  · rcases (hmem b).1 hb with hb | rfl
    · exact h.named hstrict hr' hs htx b hb hid
    · obtain rfl : id = id' := hid
      exact absurd (h.checkpoint hr' hs htx).1 hfresh

/-- A status write through the invariant. -/
theorem inv_setStatus {id : String} {status : ActionStatus} {patch : StatusPatch}
    (h : Inv N strict s) (hpoint : Point N strict (.store (.setStatus id status patch)) s)
    (clock : ℤ) : Inv N strict { s with outbox := s.outbox.setStatus clock id status patch } := by
  -- a row that is SEEN and checkpointed after it was so before, or is the one just checkpointed
  have hrow : ∀ {id' r' sig}, (s.outbox.setStatus clock id status patch).get id' = some r' →
      r'.status = seen → r'.txid = some sig →
      (Burnt s id' fun b => N.signature b.tx = sig) ∧ (strict → Named N s id' sig) := by
    intro id' r' sig hr' hs htx
    rw [Outbox.get_setStatus] at hr'
    split_ifs at hr' with hid
    · subst hid
      obtain ⟨r, -, rfl⟩ := Option.map_eq_some_iff.1 hr'
      obtain ⟨sig', hsig', hburnt, hnamed⟩ := hpoint.2 hs
      obtain rfl : sig' = sig := by simpa [OutboxRecord.withStatus, hsig'] using htx
      exact ⟨hburnt, hnamed⟩
    · exact ⟨h.checkpoint hr' hs htx, fun hstrict => h.named hstrict hr' hs htx⟩
  have hkept : ∀ {id' r}, s.outbox.get id' = some r →
      ∃ r', (s.outbox.setStatus clock id status patch).get id' = some r' ∧ r'.event = r.event :=
    fun hr => kept_store (o := .setStatus id status patch) (fun _ h => by cases h) clock hr
  refine ⟨fun id' hid' => ?_, fun hr' hs htx => ?_, h.alive, h.lone,
    fun hstrict _ _ _ hr' hs htx => (hrow hr' hs htx).2 hstrict⟩
  · obtain ⟨r, hr⟩ := Option.isSome_iff_exists.1 (h.burned id' hid')
    obtain ⟨r', hr', -⟩ := hkept hr
    simp [hr']
  · obtain ⟨hburned, r, b, hr, hb, hsig⟩ := (hrow hr' hs htx).1
    obtain ⟨r₁, hr₁, he⟩ := hkept hr
    exact ⟨hburned, r₁, b, hr₁, hb.mono (fun _ h => h) (fun _ h => h) he, hsig⟩

/-- The release of a claim through the invariant. -/
theorem inv_delete {id : String} (h : Inv N strict s)
    (hpoint : Point N strict (.store (.delete id)) s) (i : ScannerInput) :
    Inv N strict ((ScannerOp.store (.delete id)).run N i s).1 := by
  have hget : ∀ {id' r}, (s.outbox.delete id).get id' = some r →
      id' ≠ id ∧ s.outbox.get id' = some r := by
    intro id' r hr
    rw [Outbox.get_delete] at hr
    split_ifs at hr with hid
    exact ⟨hid, hr⟩
  have hburned : ∀ {id'}, id' ∈ ((ScannerOp.store (.delete id)).run N i s).1.burned ↔
      id' ∈ s.burned ∧ id' ≠ id := by
    intro id'
    simp [ScannerOp.run]
  refine ⟨fun id' hid' => ?_, fun hr' hs htx => ?_, fun hstrict b hb => ?_, h.lone,
    fun hstrict _ _ _ hr' hs htx => h.named hstrict (hget hr').2 hs htx⟩
  · obtain ⟨hid', hne⟩ := hburned.1 hid'
    change ((s.outbox.delete id).get id').isSome = true
    rw [Outbox.get_delete, if_neg hne]
    exact h.burned id' hid'
  · obtain ⟨hne, hr'⟩ := hget hr'
    obtain ⟨hb', r, b, hr, hb, hsig⟩ := h.checkpoint hr' hs htx
    refine ⟨hburned.2 ⟨hb', hne⟩, r, b, ?_, hb.mono (fun _ h => h) (fun _ h => h) rfl, hsig⟩
    change (s.outbox.delete id).get _ = some r
    rw [Outbox.get_delete, if_neg hne]
    exact hr
  · exact hburned.2 ⟨h.alive hstrict b hb, hpoint hstrict b hb⟩

/-- The state's invariant through one of the scanner's calls. -/
theorem inv_exec {o : ScannerOp} (h : Inv N strict s) (hpoint : Point N strict o s)
    (i : ScannerInput) : Inv N strict (o.exec N i s).1 := by
  have hrun : Inv N strict (o.run N i s).1 := by
    by_cases ho : Plain o
    · exact (rely_run ho i s).inv h
    cases o with
    | store o =>
      cases o with
      | enqueue input =>
        have ho : s.leaves (.enqueue input) = true := rfl
        have hstore : Rely N strict s
            { s with outbox := ((StoreOp.enqueue input).exec i.clock s.outbox).1 } := rely_store ho
        have hclaim : Rely N strict
            { s with outbox := ((StoreOp.enqueue input).exec i.clock s.outbox).1 }
            ((ScannerOp.store (.enqueue input)).run N i s).1 :=
          rely_of_outbox rfl rfl (fun _ h => h) (fun _ h => h) fun _ => le_rfl
        exact (hstore.trans hclaim).inv h
      | setStatus id status patch => exact inv_setStatus h hpoint i.clock
      | delete id => exact inv_delete h hpoint i
      | setFee id fee => exact hpoint.elim
      | get id => exact h
      | due now statuses => exact h
      | _ => exact absurd trivial ho
    | sendRawTransaction id tx => exact inv_send h hpoint i
    | _ => exact absurd trivial ho
  rcases exec_state (N := N) o i s with hexec | hexec
  · rw [hexec]
    exact hrun
  · rw [hexec]
    exact h

end ScannerClaims

end VizGateway
