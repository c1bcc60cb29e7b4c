import VizGateway.Proofs.GatewayRun

/-!
# The ground the gateway's invariants stand on

A row's id tells its direction, the rows that were handed out are still there with their event
unchanged, and what the log records is true of the state.
-/

namespace VizGateway

open ActionStatus Text

namespace Provenance

variable {N : RemoteNets} {L : Libs} {cfg : GatewayConfig}

/-! ## Which call a fact comes from -/

inductive Reports : (o : GatewayOp) → Except String o.Ans → Fact → Prop
  | row {id x : String} {rec : Option OutboxRecord} (h : rec.bind (·.txid) = some x) :
    Reports (.store (.get id)) (.ok rec) (.pinned id x)
  | due {now : ℤ} {statuses : List ActionStatus} {rows : List OutboxRecord} {rec : OutboxRecord}
    (h : rec ∈ rows) : Reports (.store (.due now statuses)) (.ok rows) (.handed rec)
  | stale {now ageMs : ℤ} {statuses : List ActionStatus} {rows : List OutboxRecord}
    {rec : OutboxRecord} (h : rec ∈ rows) :
    Reports (.store (.stale now ageMs statuses)) (.ok rows) (.handed rec)
  | pin {id x : String} {status : ActionStatus} {patch : StatusPatch} {u : Unit}
    (h : patch.txid = some (some x)) :
    Reports (.store (.setStatus id status patch)) (.ok u) (.pinned id x)
  | fee {id : String} {fee : ℤ} {u : Unit} :
    Reports (.store (.setFee id fee)) (.ok u) (.feePinned id fee)
  | feeLost {id e : String} {fee : ℤ} : Reports (.store (.setFee id fee)) (.error e) (.feeLost id)
  | failed {o : GatewayOp} {id e : String} (h : .callFailed id ∈ o.facts (.error e)) :
    Reports o (.error e) (.callFailed id)
  | receive {rec : OutboxRecord} {u : Unit} : Reports (.receive rec) (.ok u) (.received rec)
  | respond {rec : OutboxRecord} {result : DeliveryResult} {r : Except String Unit} :
    Reports (.respond rec result) r (.answered rec result)
  | provisioned {chain : RemoteChainId} {id recipient : String} {flag : Bool} :
    Reports (.isDestinationProvisioned chain id recipient) (.ok flag) (.provisioned chain id flag)
  | executed {id addr : String} {executed : Bool} (h : executed = true) :
    Reports (.orderExecuted id addr) (.ok executed) (.executed id addr)
  | nonce {id value : String} : Reports (.getNonce id) (.ok value) (.nonce id value)
  | asked {operatorId : String} {action : CanonicalAction} {p : Proposal} {hint : Option ℕ}
    {r : Except String SignerReply} :
    Reports (.approve operatorId action p hint) r (.asked action p)
  | sent {id : String} {tx : SolanaMintTx} {r : Except String String} :
    Reports (.sendRawTransaction id tx) r (.sent id tx)
  | confirmed {id signature : String} {n : ℕ} {status : SignatureStatus}
    (h : status = .confirmed) :
    Reports (.getSignatureStatus id signature n) (.ok status) (.mintConfirmed id signature)
  | over {id signature : String} {status : SignatureStatus} (h : status = .unknown) :
    Reports (.getSignatureStatus id signature 0) (.ok status) (.pollsOver id signature)
  | clean {id signature : String} {sigs : List SignatureInfo} (h : ⟨signature, false⟩ ∈ sigs) :
    Reports (.getSignaturesForAddress id) (.ok sigs) (.clean id signature)
  | parsed {id signature : String} {tx : Option SolanaMessage} {m : SolanaMessage}
    (h : tx = some m) : Reports (.getParsedTransaction id signature) (.ok tx) (.parsed id signature m)
  | releaseFound {id txid : String} {found : Bool} (h : found = true) :
    Reports (.confirmReleaseByTxId id txid) (.ok found) (.releaseFound id txid)

theorem reports_of_mem {o : GatewayOp} {r : Except String o.Ans} {f : Fact} (h : f ∈ o.facts r) :
    Reports o r f := by
  unfold GatewayOp.facts at h
  split at h
  case h_1 id rec =>
    obtain ⟨x, hx, rfl⟩ := Option.map_eq_some_iff.1 (Option.mem_toList.1 h)
    exact .row hx
  case h_2 rows =>
    obtain ⟨rec, hrec, rfl⟩ := List.mem_map.1 h
    exact .due hrec
  case h_3 rows =>
    obtain ⟨rec, hrec, rfl⟩ := List.mem_map.1 h
    exact .stale hrec
  case h_4 patch _ =>
    obtain ⟨x, hx, rfl⟩ := Option.map_eq_some_iff.1 (Option.mem_toList.1 h)
    exact .pin (Option.join_eq_some_iff.1 hx)
  case h_15 =>
    split at h
    · next hex => rw [List.mem_singleton.1 h]; exact .executed hex
    · cases h
  case h_21 sigs =>
    obtain ⟨x, hx, rfl⟩ := List.mem_map.1 h
    obtain ⟨hmem, herr⟩ := List.mem_filter.1 hx
    obtain ⟨signature, err⟩ := x
    cases err with
    | true => simp at herr
    | false => exact .clean hmem
  case h_22 tx =>
    obtain ⟨m, hm, rfl⟩ := Option.map_eq_some_iff.1 (Option.mem_toList.1 h)
    exact .parsed hm
  case h_23 =>
    split at h
    · next hf => rw [List.mem_singleton.1 h]; exact .releaseFound hf
    · cases h
  case h_24 => cases h
  case h_7 | h_8 | h_9 | h_10 | h_11 =>
    rw [List.mem_singleton.1 h]
    exact .failed (List.mem_singleton_self _)
  case h_5 => rw [List.mem_singleton.1 h]; exact .fee
  case h_6 => rw [List.mem_singleton.1 h]; exact .feeLost
  case h_12 => rw [List.mem_singleton.1 h]; exact .receive
  case h_13 => rw [List.mem_singleton.1 h]; exact .respond
  case h_14 => rw [List.mem_singleton.1 h]; exact .provisioned
  case h_16 => rw [List.mem_singleton.1 h]; exact .nonce
  case h_17 => rw [List.mem_singleton.1 h]; exact .asked
  case h_18 => rw [List.mem_singleton.1 h]; exact .sent
  case h_19 => rw [List.mem_singleton.1 h]; exact .confirmed rfl
  case h_20 => rw [List.mem_singleton.1 h]; exact .over rfl

/-- A fact of the log after a call was there before or is the call's. -/
theorem mem_log_exec {o : GatewayOp} {i : GatewayInput} {s : GatewayState} {f : Fact}
    (h : f ∈ (o.exec N L i s).1.log) : f ∈ s.log ∨ Reports o (o.run N L i s).2 f := by
  rw [log_exec] at h
  exact (List.mem_append.1 h).symm.imp id reports_of_mem

/-! ## Ids tell directions -/

/-- The suffix of a child's id. -/
def childSuffix : OutboxDirection → Option String
  | .pegIn | .pegOut => none
  | .feeSweep => some ":fee"
  | .refund => some ":refund"
  | .gramReturn => some ":return"

/-- A deposit's id has a colon, a burn's none, and a child's is its parent's with a suffix. -/
def IdFits (r : OutboxRecord) : Prop :=
  match childSuffix r.direction with
  | none => childSuffixed r.id = false ∧ r.parentId = none
    ∧ hasChar r.id ':' = decide (r.direction = .pegIn)
  | some suffix => ∃ p, r.parentId = some p ∧ r.id = p ++ suffix ∧ childSuffixed p = false

theorem idFits_of_event {r r' : OutboxRecord} (h : r'.event = r.event) (hr : IdFits r) :
    IdFits r' := by
  unfold IdFits at *
  have hp : r'.parentId = r.parentId :=
    OutboxRecord.eq_of_event h OutboxRecord.parentId fun _ => rfl
  rw [OutboxRecord.direction_of_event h, OutboxRecord.id_of_event h, hp]
  exact hr

theorem idFits_child {rec : OutboxRecord} {status : ActionStatus} {ctx : ChildCtx}
    {c : EnqueueInput} (hrec : IdFits rec) (h : c ∈ planChildren rec status ctx) (now : ℤ) :
    IdFits (c.toRecord now) := by
  rcases mem_planChildren h with ⟨-, hd, -, rfl⟩ | ⟨_, -, -, -, ⟨hd, rfl⟩ | ⟨hd, -, rfl⟩⟩ <;>
    (unfold IdFits at hrec; rw [hd] at hrec; exact ⟨rec.id, rfl, rfl, hrec.1⟩)

theorem child_direction_ne {rec : OutboxRecord} {status : ActionStatus} {ctx : ChildCtx}
    {c : EnqueueInput} (h : c ∈ planChildren rec status ctx) : c.direction ≠ .pegIn := by
  rcases mem_planChildren h with ⟨-, -, -, rfl⟩ | ⟨_, -, -, -, ⟨-, rfl⟩ | ⟨-, -, rfl⟩⟩ <;>
    exact fun hd => nomatch hd

theorem IdFits.colon {r : OutboxRecord} (h : IdFits r) :
    hasChar r.id ':' = true ↔ r.direction ≠ .pegOut := by
  unfold IdFits at h
  cases hd : r.direction <;> rw [hd] at h
  case pegIn => simp [h.2.2]
  case pegOut => simp [h.2.2]
  all_goals
    obtain ⟨p, -, hid, -⟩ := h
    simp [hid, hasChar]

/-! ## How rows move -/

/-- A settled delivery's `txid` is the answer's, and only a reported broadcast has one. -/
theorem settle_txid (rec : OutboxRecord) (result : DeliveryResult) (now : ℤ) (opts : RetryOpts) :
    (planTransition rec result now opts).patch.txid = none
      ∨ (result.broadcast = true
          ∧ (planTransition rec result now opts).patch.txid = some result.txid) := by
  unfold planTransition
  split
  · next hb => exact .inr ⟨hb, rfl⟩
  · dsimp only
    split
    · exact .inl rfl
    · exact .inl rfl

/-- A row after a justified call. -/
theorem row_exec {job : GatewayJob} {o : GatewayOp} {i : GatewayInput} {s : GatewayState}
    (hmay : jobMay N L cfg job s.log o) {id : String} {r' : OutboxRecord}
    (h : (o.exec N L i s).1.outbox.get id = some r') :
    s.outbox.get id = some r'
      ∨ (∃ r status patch, o = .store (.setStatus id status patch) ∧ s.outbox.get id = some r
          ∧ r' = r.withStatus i.clock status patch)
      ∨ (∃ r fee, o = .store (.setFee id fee) ∧ s.outbox.get id = some r
          ∧ r' = { r with feeMilliViz := fee, updatedAt := i.clock })
      ∨ ∃ child, o = .store (.enqueue child) ∧ child.id = id ∧ s.outbox.get id = none
          ∧ r' = child.toRecord i.clock := by
  rcases outbox_exec hmay with hsame | ⟨id', status, patch, rfl, hout⟩ | ⟨id', fee, rfl, hout⟩
    | ⟨child, rfl, hout⟩
  · rw [hsame] at h
    exact .inl h
  · rw [hout, Outbox.get_setStatus] at h
    split at h
    · next hid =>
      subst hid
      obtain ⟨r, hr, rfl⟩ := Option.map_eq_some_iff.1 h
      exact .inr (.inl ⟨r, status, patch, rfl, hr, rfl⟩)
    · exact .inl h
  · rw [hout] at h
    unfold Outbox.setFee at h
    rw [Outbox.get_modify] at h
    split at h
    · next hid =>
      subst hid
      obtain ⟨r, hr, rfl⟩ := Option.map_eq_some_iff.1 h
      exact .inr (.inr (.inl ⟨r, fee, rfl, hr, rfl⟩))
    · exact .inl h
  · rw [hout, Outbox.get_enqueue] at h
    split at h
    · next hid =>
      subst hid
      cases hget : s.outbox.get child.id with
      | none =>
        rw [hget] at h
        exact .inr (.inr (.inr ⟨child, rfl, rfl, rfl, (Option.some.inj h).symm⟩))
      | some r =>
        rw [hget] at h
        exact .inl h
    · exact .inl h

theorem old_or_new {job : GatewayJob} {o : GatewayOp} {i : GatewayInput} {s : GatewayState}
    (hmay : jobMay N L cfg job s.log o) {id : String} {r' : OutboxRecord}
    (h : (o.exec N L i s).1.outbox.get id = some r') :
    (∃ r, s.outbox.get id = some r ∧ r'.event = r.event)
      ∨ ∃ child, o = .store (.enqueue child) ∧ child.id = id ∧ s.outbox.get id = none
          ∧ r' = child.toRecord i.clock := by
  rcases row_exec hmay h with hr | ⟨r, _, _, -, hr, rfl⟩ | ⟨r, _, -, hr, rfl⟩ | hnew
  · exact .inl ⟨r', hr, rfl⟩
  · exact .inl ⟨r, hr, rfl⟩
  · exact .inl ⟨r, hr, rfl⟩
  · exact .inr hnew

/-- No call takes a row away or touches its event. -/
theorem kept_exec {job : GatewayJob} {o : GatewayOp} {i : GatewayInput} {s : GatewayState}
    (hmay : jobMay N L cfg job s.log o) {id : String} {r : OutboxRecord}
    (h : s.outbox.get id = some r) :
    ∃ r', (o.exec N L i s).1.outbox.get id = some r' ∧ r'.event = r.event := by
  rcases outbox_exec (i := i) hmay with hsame | ⟨id', status, patch, rfl, hout⟩
    | ⟨id', fee, rfl, hout⟩ | ⟨child, rfl, hout⟩
  · exact ⟨r, by rw [hsame]; exact h, rfl⟩
  · rw [hout, Outbox.get_setStatus, h]
    split
    · exact ⟨_, rfl, rfl⟩
    · exact ⟨r, rfl, rfl⟩
  · rw [hout]
    unfold Outbox.setFee
    rw [Outbox.get_modify, h]
    split
    · exact ⟨_, rfl, rfl⟩
    · exact ⟨r, rfl, rfl⟩
  · rw [hout, Outbox.get_enqueue]
    split
    · next hid =>
      subst hid
      rw [h]
      exact ⟨r, rfl, rfl⟩
    · exact ⟨r, h, rfl⟩

section Write

variable {w : OutboxWrite} {clock : ℤ} {s : Outbox} (hw : w.ofWatcher s = true)
  (hfits : w.fits s = true)
include hw hfits

/-- A row after a watcher's write. -/
theorem row_write {id : String} {r' : OutboxRecord} (h : (w.apply clock s).get id = some r') :
    s.get id = some r'
      ∨ (∃ r status patch, s.get id = some r ∧ r.status = seen
          ∧ r' = r.withStatus clock status patch ∧ status ∈ [seen, queued, held]
          ∧ patch.feeMilliViz = none ∧ (patch.txid = none ∨ r.direction = .pegOut))
      ∨ ∃ input, w = .detect input ∧ input.id = id ∧ s.get id = none
          ∧ r' = input.toRecord clock := by
  have hstatus : ∀ {id' status patch}, (s.setStatus clock id' status patch).get id = some r' →
      (s.get id').any (·.status = seen) = true → status ∈ [seen, queued, held] →
      patch.feeMilliViz = none →
      (∀ r, s.get id' = some r → patch.txid = none ∨ r.direction = .pegOut) →
      s.get id = some r' ∨ ∃ r status patch, s.get id = some r ∧ r.status = seen
        ∧ r' = r.withStatus clock status patch ∧ status ∈ [seen, queued, held]
        ∧ patch.feeMilliViz = none ∧ (patch.txid = none ∨ r.direction = .pegOut) := by
    intro id' status patch h hseen hst hfee htxid
    rw [Outbox.get_setStatus] at h
    split at h
    · next hid =>
      subst hid
      obtain ⟨r, hr, rfl⟩ := Option.map_eq_some_iff.1 h
      rw [hr] at hseen
      exact .inr ⟨r, status, patch, hr, of_decide_eq_true hseen, rfl, hst, hfee, htxid r hr⟩
    · exact .inl h
  cases w
  case detect input =>
    change (s.enqueue clock input).2.get id = some r' at h
    rw [Outbox.get_enqueue] at h
    split at h
    · next hid =>
      subst hid
      cases hget : s.get input.id with
      | none =>
        rw [hget] at h
        exact .inr (.inr ⟨input, rfl, rfl, rfl, (Option.some.inj h).symm⟩)
      | some r =>
        rw [hget] at h
        exact .inl h
    · exact .inl h
  case classify id' status lastError =>
    rw [OutboxWrite.fits, Bool.and_eq_true, Bool.or_eq_true, decide_eq_true_eq,
      decide_eq_true_eq] at hfits
    have hst : status ∈ [seen, queued, held] := by
      rcases hfits.2 with rfl | rfl <;> simp
    rcases hstatus h hfits.1 hst rfl fun _ _ => .inl rfl with h | h
    · exact .inl h
    · exact .inr (.inl h)
  case checkpoint id' txid =>
    have hd : ∀ r, s.get id' = some r → r.direction = .pegOut := by
      intro r hr
      rw [OutboxWrite.ofWatcher, hr] at hw
      exact of_decide_eq_true hw
    rcases hstatus h hfits List.mem_cons_self rfl fun r hr => .inr (hd r hr) with h | h
    · exact .inl h
    · exact .inr (.inl h)
  case discard id' =>
    change (s.delete id').get id = some r' at h
    rw [Outbox.get_delete] at h
    split at h
    · cases h
    · exact .inl h
  case pin => cases hw
  case setFee => cases hw
  case pause => exact .inl h
  case resume => exact .inl h

/-- Only the scanner's own claims are ever taken away. -/
theorem kept_write {id : String} {r : OutboxRecord} (h : s.get id = some r)
    (hd : r.direction ≠ .pegOut) :
    ∃ r', (w.apply clock s).get id = some r' ∧ r'.event = r.event := by
  have hstatus : ∀ id' status patch, ∃ r',
      (s.setStatus clock id' status patch).get id = some r' ∧ r'.event = r.event := by
    intro id' status patch
    rw [Outbox.get_setStatus, h]
    split
    · exact ⟨_, rfl, rfl⟩
    · exact ⟨r, rfl, rfl⟩
  cases w
  case detect input =>
    change ∃ r', (s.enqueue clock input).2.get id = some r' ∧ _
    rw [Outbox.get_enqueue]
    split
    · next hid =>
      subst hid
      rw [h]
      exact ⟨r, rfl, rfl⟩
    · exact ⟨r, h, rfl⟩
  case classify => exact hstatus _ _ _
  case checkpoint => exact hstatus _ _ _
  case discard id' =>
    change ∃ r', (s.delete id').get id = some r' ∧ _
    rw [Outbox.get_delete]
    split
    · next hid =>
      subst hid
      rw [OutboxWrite.fits, h] at hfits
      exact absurd (of_decide_eq_true hfits).2 hd
    · exact ⟨r, h, rfl⟩
  case pin => cases hw
  case setFee => cases hw
  case pause => exact ⟨r, h, rfl⟩
  case resume => exact ⟨r, h, rfl⟩

theorem idFits_detect {input : EnqueueInput} (hi : w = .detect input) :
    IdFits (input.toRecord clock) := by
  subst hi
  simp only [OutboxWrite.ofWatcher, Bool.and_eq_true, beq_iff_eq, Option.isNone_iff_eq_none] at hw
  simp only [OutboxWrite.fits, Bool.and_eq_true, Bool.or_eq_true, decide_eq_true_eq,
    Bool.not_eq_true'] at hfits
  obtain ⟨⟨hd, hplain⟩, -⟩ := hfits
  have hn : childSuffix input.direction = none := by rcases hd with hd | hd <;> rw [hd] <;> rfl
  unfold IdFits
  change match childSuffix input.direction with | none => _ | some _ => _
  rw [hn]
  exact ⟨hplain, hw.1.2, hw.2⟩

end Write

/-- A store call that answered went through. -/
theorem store_of_run {o : StoreOp} {i : GatewayInput} {s : GatewayState} {a : o.Ans}
    (h : (GatewayOp.run N L (.store o) i s).2 = .ok a) :
    (GatewayOp.exec N L (.store o) i s).1.outbox = (o.exec i.clock s.outbox).1
      ∧ (o.exec i.clock s.outbox).2 = a := by
  have hcarry : o.carry i s.outbox = ((o.carry i s.outbox).1, .ok a) := Prod.ext rfl h
  unfold StoreOp.carry at hcarry
  split at hcarry
  · cases hcarry
  · next hf =>
    refine ⟨?_, Except.ok.inj (congrArg Prod.snd hcarry)⟩
    change (o.carry i s.outbox).1 = _
    rw [StoreOp.carry, hf]

/-- What a read of a row answers. -/
theorem get_of_run {id : String} {i : GatewayInput} {s : GatewayState} {rec : Option OutboxRecord}
    (h : (GatewayOp.run N L (.store (.get id)) i s).2 = .ok rec) : s.outbox.get id = rec :=
  (store_of_run h).2

/-! ## The base invariant -/

/-- The row a program was handed is still there, unless the scanner took its own claim away. -/
def StillThere (s : Outbox) (rec : OutboxRecord) : Prop :=
  rec.direction ≠ .pegOut → ∃ r, s.get rec.id = some r ∧ r.event = rec.event

structure Base (N : RemoteNets) (L : Libs) (cfg : GatewayConfig) (s : GatewayState) : Prop where
  ids : ∀ {id r}, s.outbox.get id = some r → IdFits r
  handed : ∀ {rec}, .handed rec ∈ s.log → IdFits rec ∧ StillThere s.outbox rec
  requests : ∀ {rec}, rec ∈ s.requests → .handed rec ∈ s.log
  received : ∀ {rec}, .received rec ∈ s.log → .handed rec ∈ s.log
  answered : ∀ {rec result}, .answered rec result ∈ s.log →
    .received rec ∈ s.log ∧ Answers N L cfg.coordinator rec result s.log
  asked : ∀ {action p}, .asked action p ∈ s.log →
    ∃ rec, .received rec ∈ s.log ∧ action = recordToAction rec
      ∧ Proposed L cfg.coordinator rec s.log p
  pinned : ∀ {id x}, .pinned id x ∈ s.log → hasChar id ':' = true → (s.outbox.get id).isSome
  sent : ∀ {id tx}, .sent id tx ∈ s.log → ∃ rec p, .received rec ∈ s.log ∧ rec.id = id
    ∧ Proposed L cfg.coordinator rec s.log (.mint p) ∧ tx = p.tx
  pool : ∀ {tx}, .mint tx ∈ s.solanaPool → ∃ id, .sent id tx ∈ s.log
  landed : ∀ {tx ok}, ⟨.mint tx, ok⟩ ∈ s.solana → ∃ id, .sent id tx ∈ s.log
  opened : ∀ {order id}, order ∈ s.orders → order.actionId = some id → ∃ action p,
    .asked action (.order p) ∈ s.log ∧ action.id = id ∧ orderBodyOf L action p = some order.body

theorem pool_exec {o : GatewayOp} {i : GatewayInput} {s : GatewayState} {m : SolanaMessage}
    (h : m ∈ (o.exec N L i s).1.solanaPool) :
    m ∈ s.solanaPool ∨ ∃ id tx, m = .mint tx ∧ .sent id tx ∈ (o.exec N L i s).1.log := by
  have hc := run_changes (N := N) (L := L) o i s
  generalize hs : (o.run N L i s).1 = s' at hc
  have hfields : (o.exec N L i s).1.solanaPool = s'.solanaPool := by rw [← hs]; rfl
  rw [hfields] at h
  cases hc
  case sendRawTransaction id tx =>
    rcases List.mem_append.1 h with h | h
    · exact .inl h
    · refine .inr ⟨id, tx, List.mem_singleton.1 h, ?_⟩
      rw [log_exec]
      exact List.mem_append_left _ (List.mem_singleton_self _)
  all_goals exact .inl h

theorem base_init : Base N L cfg {} where
  ids h := by cases h
  handed h := absurd h List.not_mem_nil
  requests h := absurd h List.not_mem_nil
  received h := absurd h List.not_mem_nil
  answered h := absurd h List.not_mem_nil
  asked h := absurd h List.not_mem_nil
  pinned h := absurd h List.not_mem_nil
  sent h := absurd h List.not_mem_nil
  pool h := absurd h List.not_mem_nil
  landed h := absurd h List.not_mem_nil
  opened h := absurd h List.not_mem_nil

theorem isSome_of_kept {s s' : Outbox} {id : String}
    (hkept : ∀ r, s.get id = some r → ∃ r', s'.get id = some r' ∧ r'.event = r.event)
    (h : (s.get id).isSome) : (s'.get id).isSome := by
  obtain ⟨r, hr⟩ := Option.isSome_iff_exists.1 h
  obtain ⟨r', hr', -⟩ := hkept r hr
  rw [hr']
  rfl

theorem StillThere.kept {s s' : Outbox} {rec : OutboxRecord}
    (hkept : ∀ r, s.get rec.id = some r → r.direction ≠ .pegOut →
      ∃ r', s'.get rec.id = some r' ∧ r'.event = r.event)
    (h : StillThere s rec) : StillThere s' rec := by
  intro hd
  obtain ⟨r, hr, he⟩ := h hd
  obtain ⟨r', hr', he'⟩ := hkept r hr (by rwa [OutboxRecord.direction_of_event he])
  exact ⟨r', hr', he'.trans he⟩

/-- A child that is enqueued was planned for a row that was handed out. -/
theorem planned_of_enqueue {job : GatewayJob} {log : List Fact} {child : EnqueueInput}
    (hmay : jobMay N L cfg job log (.store (.enqueue child))) : ∃ rec status ctx,
      .handed rec ∈ log ∧ child ∈ planChildren rec status ctx := by
  cases job with
  | turn =>
    cases hmay with
    | returnChild hK _ hchild => exact ⟨_, _, _, hK, hchild⟩
    | child _ hK _ _ hchild => exact ⟨_, _, _, hK, hchild⟩
  | submit rec => exact hmay.1.elim
  | redirect => exact hmay.elim

theorem Base.exec {job : GatewayJob} {o : GatewayOp} {i : GatewayInput} {s : GatewayState}
    (h : Base N L cfg s) (hmay : jobMay N L cfg job s.log o) : Base N L cfg (o.exec N L i s).1 := by
  have hlog : s.log ⊆ (o.exec N L i s).1.log := log_subset_exec o i s
  have hkept : ∀ {id r}, s.outbox.get id = some r → ∃ r',
      (o.exec N L i s).1.outbox.get id = some r' ∧ r'.event = r.event := fun hr => kept_exec hmay hr
  have hchains := chains_exec (N := N) (L := L) o i s
  refine ⟨fun hr' => ?_, fun hf => ?_, fun hreq => ?_, fun hf => ?_, fun hf => ?_, fun hf => ?_,
    fun hf hcolon => ?_, fun hf => ?_, fun hm => ?_, fun hm => ?_, fun ho hid => ?_⟩
  · rcases row_exec hmay hr' with hr | ⟨r, status, patch, -, hr, rfl⟩ | ⟨r, fee, -, hr, rfl⟩
      | ⟨child, rfl, -, -, rfl⟩
    · exact h.ids hr
    · exact idFits_of_event (r := r) rfl (h.ids hr)
    · exact idFits_of_event (r := r) rfl (h.ids hr)
    · obtain ⟨rec, status, ctx, hK, hchild⟩ := planned_of_enqueue hmay
      exact idFits_child (h.handed hK).1 hchild _
  · rcases mem_log_exec hf with hf | hf
    · obtain ⟨hid, hthere⟩ := h.handed hf
      exact ⟨hid, hthere.kept fun _ hr _ => hkept hr⟩
    · have hthere : ∀ {rec}, s.outbox.get rec.id = some rec →
          IdFits rec ∧ StillThere (o.exec N L i s).1.outbox rec :=
        fun hr => ⟨h.ids hr, fun _ => hkept hr⟩
      generalize hr : (o.run N L i s).2 = r at hf
      cases hf with
      | due hrec => exact hthere (handed_due (N := N) (L := L) hr _ hrec).2.2
      | stale hrec => exact hthere (handed_stale (N := N) (L := L) hr _ hrec).2.2
  · have hc := run_changes (N := N) (L := L) o i s
    generalize hs : (o.run N L i s).1 = s' at hc
    have hfields : (o.exec N L i s).1.requests = s'.requests := by rw [← hs]; rfl
    rw [hfields] at hreq
    cases hc
    case post rec =>
      rcases List.mem_append.1 hreq with hreq | hreq
      · exact hlog (h.requests hreq)
      · rw [List.mem_singleton.1 hreq]
        cases job with
        | turn =>
          cases hmay with
          | post hK _ => exact hlog hK
        | submit rec => exact hmay.1.elim
        | redirect => exact hmay.elim
    case receive rec _ => exact hlog (h.requests (List.mem_of_mem_erase hreq))
    all_goals exact hlog (h.requests hreq)
  · rcases mem_log_exec hf with hf | hf
    · exact hlog (h.received hf)
    · generalize hr : (o.run N L i s).2 = r at hf
      cases hf with
      | receive =>
        simp only [GatewayOp.run] at hr
        split at hr
        · next hreq => exact hlog (h.requests hreq)
        · cases hr
  · rcases mem_log_exec hf with hf | hf
    · obtain ⟨hrec, hans⟩ := h.answered hf
      exact ⟨hlog hrec, hans.mono hlog⟩
    · generalize hr : (o.run N L i s).2 = r at hf
      cases hf with
      | respond =>
        cases job with
        | turn => cases hmay
        | submit rec =>
          obtain ⟨⟨rfl, hans⟩, hrec⟩ := hmay
          rcases hrec with hrec | hrec
          · cases hrec
          · exact ⟨hlog hrec, Answers.mono hlog hans⟩
        | redirect => exact hmay.elim
  · rcases mem_log_exec hf with hf | hf
    · obtain ⟨rec, hrec, ha, hp⟩ := h.asked hf
      exact ⟨rec, hlog hrec, ha, hp.mono hlog⟩
    · generalize hr : (o.run N L i s).2 = r at hf
      cases hf with
      | asked =>
        cases job with
        | turn => cases hmay
        | submit rec =>
          obtain ⟨⟨ha, hp⟩, hrec⟩ := hmay
          rcases hrec with hrec | hrec
          · cases hrec
          · exact ⟨rec, hlog hrec, ha, hp.mono hlog⟩
        | redirect => exact hmay.elim
  · rcases mem_log_exec hf with hf | hf
    · exact isSome_of_kept (fun _ hr => hkept hr) (h.pinned hf hcolon)
    · have hsettle : ∀ {rec}, IdFits rec ∧ StillThere s.outbox rec →
          hasChar rec.id ':' = true → (s.outbox.get rec.id).isSome := by
        rintro rec ⟨hid, hthere⟩ hcolon
        obtain ⟨r, hr, -⟩ := hthere (hid.colon.1 hcolon)
        rw [hr]
        rfl
      generalize hr : (o.run N L i s).2 = r at hf
      cases hf with
      | row hx =>
        have hget : s.outbox.get _ = _ := get_of_run (N := N) (L := L) hr
        cases hrec : s.outbox.get _ with
        | none =>
          rw [← hget, hrec] at hx
          cases hx
        | some r' =>
          obtain ⟨r'', hr'', -⟩ := hkept hrec
          rw [hr'']
          rfl
      | pin hpatch =>
        refine isSome_of_kept (fun _ hr => hkept hr) ?_
        cases job with
        | turn =>
          cases hmay with
          | settle _ hK => exact hsettle (h.handed hK) hcolon
          | requeue | returnDust | returned | start | closeDust | closeParent => cases hpatch
        | submit rec =>
          obtain ⟨⟨rfl, -⟩, hrec⟩ := hmay
          rcases hrec with hrec | hrec
          · cases hrec
          · exact hsettle (h.handed (h.received hrec)) hcolon
        | redirect => rw [hmay.2.1] at hpatch; cases hpatch
  · rcases mem_log_exec hf with hf | hf
    · obtain ⟨rec, p, hrec, hid, hp, htx⟩ := h.sent hf
      exact ⟨rec, p, hlog hrec, hid, hp.mono hlog, htx⟩
    · generalize hrun : (o.run N L i s).2 = ans at hf
      cases hf with
      | sent =>
        cases job with
        | turn => cases hmay
        | submit rec =>
          obtain ⟨⟨rfl, p, hp, htx⟩, hrec⟩ := hmay
          rcases hrec with hrec | hrec
          · cases hrec
          · exact ⟨rec, p, hlog hrec, rfl, hp.mono hlog, htx⟩
        | redirect => exact hmay.elim
  · rcases pool_exec hm with hm | ⟨id, tx, htx, hsent⟩
    · obtain ⟨id, hsent⟩ := h.pool hm
      exact ⟨id, hlog hsent⟩
    · cases htx
      exact ⟨id, hsent⟩
  · rw [hchains.2.1] at hm
    obtain ⟨id, hsent⟩ := h.landed hm
    exact ⟨id, hlog hsent⟩
  · rw [hchains.1] at ho
    obtain ⟨action, p, hasked, hact, hbody⟩ := h.opened ho hid
    exact ⟨action, p, hlog hasked, hact, hbody⟩

/-- A row is the event of every record of it that was handed out. -/
theorem Base.event_of_handed {s : GatewayState} {rec r : OutboxRecord} (h : Base N L cfg s)
    (hrec : .handed rec ∈ s.log) (hr : s.outbox.get rec.id = some r) (hd : r.direction ≠ .pegOut) :
    r.event = rec.event := by
  obtain ⟨hid, hthere⟩ := h.handed hrec
  have hcolon : hasChar rec.id ':' = true := by
    rw [← Outbox.id_of_get hr]
    exact (h.ids hr).colon.2 hd
  obtain ⟨r', hr', he⟩ := hthere (hid.colon.1 hcolon)
  rw [hr] at hr'
  cases hr'
  exact he

/-- An execution leaves an order's body and origin alone. -/
theorem order_of_executed {orders : List GramOrder} {n : ℕ} {order : GramOrder}
    (h : order ∈ orders.modify n fun o => { o with executed := true }) :
    ∃ order' ∈ orders, order'.body = order.body ∧ order'.actionId = order.actionId := by
  obtain ⟨m, hm⟩ := List.mem_iff_getElem?.1 h
  rw [List.getElem?_modify] at hm
  obtain ⟨order', horder, hsame⟩ := Option.map_eq_some_iff.1 hm
  refine ⟨order', List.mem_of_getElem? horder, ?_⟩
  subst hsame
  split <;> exact ⟨rfl, rfl⟩

theorem Base.apply {s : GatewayState} (h : Base N L cfg s) (a : GatewayAct) :
    Base N L cfg (a.apply L s) := by
  have hm := apply_moves (L := L) a s
  generalize a.apply L s = s' at hm
  cases hm
  case write clock w hw hfits =>
    exact {
      ids := fun hr' => by
        rcases row_write hw hfits hr' with hr | ⟨r, _, _, hr, -, rfl, -⟩ | ⟨input, hi, -, -, rfl⟩
        · exact h.ids hr
        · exact idFits_of_event (r := r) rfl (h.ids hr)
        · exact idFits_detect hw hfits hi
      handed := fun hf => ⟨(h.handed hf).1,
        (h.handed hf).2.kept fun _ hr hd => kept_write hw hfits hr hd⟩
      requests := h.requests
      received := h.received
      answered := h.answered
      asked := h.asked
      pinned := fun hf hcolon => isSome_of_kept (fun r hr => kept_write hw hfits hr
        ((h.ids hr).colon.1 (by rwa [Outbox.id_of_get hr]))) (h.pinned hf hcolon)
      sent := h.sent
      pool := h.pool
      landed := h.landed
      opened := h.opened }
  case openOrder action p body hbody hasked =>
    refine { h with opened := fun ho hid => ?_ }
    rcases List.mem_append.1 ho with ho | ho
    · exact h.opened ho hid
    · cases List.mem_singleton.1 ho
      exact ⟨action, p, hasked, Option.some.inj hid, hbody⟩
  case openOther body =>
    refine { h with opened := fun ho hid => ?_ }
    rcases List.mem_append.1 ho with ho | ho
    · exact h.opened ho hid
    · cases List.mem_singleton.1 ho
      cases hid
  case executeOrder n =>
    refine { h with opened := fun ho hid => ?_ }
    obtain ⟨order', horder, hbody, hact⟩ := order_of_executed ho
    rw [← hbody]
    exact h.opened horder (hact.trans hid)
  case landSolana n ok message hn =>
    refine { h with
      pool := fun hm => h.pool (List.mem_of_mem_eraseIdx hm)
      landed := fun hm => ?_ }
    rcases List.mem_append.1 hm with hm | hm
    · exact h.landed hm
    · cases List.mem_singleton.1 hm
      exact h.pool (List.mem_of_getElem? hn)
  case dropSolana n => exact { h with pool := fun hm => h.pool (List.mem_of_mem_eraseIdx hm) }
  case otherSolana raw memo ok =>
    refine { h with landed := fun hm => ?_ }
    rcases List.mem_append.1 hm with hm | hm
    · exact h.landed hm
    · cases List.mem_singleton.1 hm
  all_goals exact { h with }

end Provenance

end VizGateway
