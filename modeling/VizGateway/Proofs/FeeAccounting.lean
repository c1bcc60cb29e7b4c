import VizGateway.Proofs.Exclusivity
import VizGateway.Proofs.RedriveStability
import VizGateway.Proofs.SolanaConfirmation

/-!
# The fee a confirmed peg-in carries

A fee is written when it is quoted, and again with the confirming answer. The row ends up with what
was withheld from its mint where every quote of the action is the same, and no action loses both a
write of its fee and the quote that would write it again.
-/

namespace VizGateway

open ActionStatus Text

/-- The net amounts that were minted for an action: of its executed orders and its landed mints. -/
inductive MintedNet (s : GatewayState) (id : String) : ℤ → Prop
  | order {order : GramOrder} {a : TonAddress} {net : ℤ} (h : order ∈ s.orders)
    (hid : order.actionId = some id) (hex : order.executed = true) (hbody : order.body = .mint a net) :
    MintedNet s id net
  | solana {tx : SolanaMintTx} (h : ⟨.mint tx, true⟩ ∈ s.solana) (hmemo : tx.memo = some (.str id)) :
    MintedNet s id tx.amount

/-- The peg-in row of an id carries a fee. -/
def GatewayState.FeeHeld (s : GatewayState) (id : String) : Prop :=
  ∀ r ∈ s.outbox.get id, r.direction = .pegIn → 0 < r.feeMilliViz

instance (s : GatewayState) (id : String) : Decidable (s.FeeHeld id) :=
  inferInstanceAs (Decidable (∀ r ∈ s.outbox.get id, _))

/-- The message of a net amount can be compiled with a nonce. -/
def Compiles (L : Libs) (cfg : CoordinatorConfig) (r : OutboxRecord) (flag : Bool)
    (nonceValue : String) : Prop :=
  ∀ w ∈ cfg.solana,
    match quotePegIn r.amountMilliViz flag (pegInFeePolicyFor cfg.fees .solana) with
    | .ok b => (L.serializeMessage (SolanaMintBroadcaster.mintProposal w (recordToAction r) b.net flag
        nonceValue).tx).isSome
    | .belowMin _ => True

instance (L : Libs) (cfg : CoordinatorConfig) (r : OutboxRecord) (flag : Bool) (nonceValue : String) :
    Decidable (Compiles L cfg r flag nonceValue) := by
  unfold Compiles
  refine @Option.decidableForallMem _ _ (fun w => ?_) _
  split <;> infer_instance

/-- What a call may bring: a flag that costs what the others read for the action cost, a nonce its
message compiles with, and a failed fee write or a failed quote only where the other kind did not
fail too, or the row carries its fee. -/
def Fact.Bearable (L : Libs) (cfg : CoordinatorConfig) (s : GatewayState) : Fact → Prop
  | provisioned chain id flag => ∀ flag' ∈ s.flagsRead chain id,
    activationFee flag' (pegInFeePolicyFor cfg.fees chain)
      = activationFee flag (pegInFeePolicyFor cfg.fees chain)
  | nonce id nonceValue => ∀ r ∈ s.outbox.get id, ∀ flag, Compiles L cfg r flag nonceValue
  | feeLost id => .callFailed id ∈ s.log → s.FeeHeld id
  | callFailed id => .feeLost id ∈ s.log → s.FeeHeld id
  | _ => True

instance (L : Libs) (cfg : CoordinatorConfig) (s : GatewayState) (f : Fact) :
    Decidable (f.Bearable L cfg s) := by
  unfold Fact.Bearable
  split <;> infer_instance

/-- Whatever the run's calls bring is bearable. -/
def Bears (N : RemoteNets) (L : Libs) (cfg : CoordinatorConfig) (w : GatewayWorld) :
    GatewayEvent → Prop
  | .step n i => ∀ x ∈ w.standsAt n,
    ∀ f ∈ x.2.facts (x.2.run N L i w.shared).2, f.Bearable L cfg w.shared
  | _ => True

instance (N : RemoteNets) (L : Libs) (cfg : CoordinatorConfig) (w : GatewayWorld)
    (e : GatewayEvent) : Decidable (Bears N L cfg w e) :=
  match e with
  | .step n i => inferInstanceAs (Decidable (∀ x ∈ w.standsAt n,
    ∀ f ∈ x.2.facts (x.2.run N L i w.shared).2, f.Bearable L cfg w.shared))
  | .start _ => isTrue trivial
  | .die _ => isTrue trivial
  | .act _ => isTrue trivial

namespace FeeAccounting

open Provenance
open Redrive (FlagsAgree)
open SolanaConfirmation (mintOf_of_proposed id_ne_of_pegIn direction_of_mint)

variable {N : RemoteNets} {L : Libs} {cfg : GatewayConfig} {s : GatewayState}
  {r r' rec : OutboxRecord}

/-! ## Rows of one event -/

theorem quoted_of_event {cfg : CoordinatorConfig} {chain : RemoteChainId} {log : List Fact}
    {flag : Bool} {b : PegInBreakdown} (he : r'.event = r.event)
    (h : Quoted cfg r chain log flag b) : Quoted cfg r' chain log flag b := by
  unfold Quoted at *
  rw [OutboxRecord.direction_of_event he, OutboxRecord.id_of_event he,
    OutboxRecord.eq_of_event he OutboxRecord.remoteChain fun _ => rfl,
    OutboxRecord.eq_of_event he OutboxRecord.amountMilliViz fun _ => rfl]
  exact h

theorem recordToAction_of_event (he : r'.event = r.event) : recordToAction r' = recordToAction r :=
  OutboxRecord.eq_of_event he recordToAction fun _ => rfl

theorem compiles_of_event {cfg : CoordinatorConfig} {flag : Bool} {nonceValue : String}
    (he : r'.event = r.event) (h : Compiles L cfg r flag nonceValue) :
    Compiles L cfg r' flag nonceValue := by
  unfold Compiles at *
  rw [recordToAction_of_event he,
    OutboxRecord.eq_of_event he OutboxRecord.amountMilliViz fun _ => rfl]
  exact h

theorem unbuilt_of_event {cfg : CoordinatorConfig} {log : List Fact} (he : r'.event = r.event)
    (h : Unbuilt L cfg r log) : Unbuilt L cfg r' log := by
  unfold Unbuilt at *
  rw [OutboxRecord.id_of_event he, recordToAction_of_event he,
    OutboxRecord.eq_of_event he OutboxRecord.remoteChain fun _ => rfl,
    OutboxRecord.eq_of_event he OutboxRecord.amountMilliViz fun _ => rfl,
    OutboxRecord.eq_of_event he OutboxRecord.recipient fun _ => rfl]
  refine h.imp id (Or.imp id (Or.imp ?_ ?_))
  · rintro ⟨flag, b, e, hq, hb⟩
    exact ⟨flag, b, e, quoted_of_event he hq, hb⟩
  · rintro ⟨w, flag, b, v, hw, hq, hb⟩
    exact ⟨w, flag, b, v, hw, quoted_of_event he hq, hb⟩

/-! ## How a fee is written -/

theorem settle_fee (rec : OutboxRecord) (result : DeliveryResult) (now : ℤ) (opts : RetryOpts) :
    (planTransition rec result now opts).patch.feeMilliViz = none
      ∨ result.broadcast = true
        ∧ (planTransition rec result now opts).patch.feeMilliViz = pinnedFee result.feeMilliViz := by
  unfold planTransition
  split
  · next hb => exact .inr ⟨hb, rfl⟩
  · dsimp only
    split
    · exact .inl rfl
    · exact .inl rfl

theorem pinnedFee_eq_some {fee : Option ℤ} {f : ℤ} : pinnedFee fee = some f ↔ fee = some f ∧ 0 < f := by
  unfold pinnedFee
  rw [Option.filter_eq_some_iff, decide_eq_true_eq]

/-- The row carries a fee that was quoted for it. -/
def FeeQuoted (cfg : CoordinatorConfig) (log : List Fact) (r : OutboxRecord) : Prop :=
  0 < r.feeMilliViz ∧ ∃ chain flag b, Quoted cfg r chain log flag b ∧ r.feeMilliViz = b.fee

theorem FeeQuoted.grows {cfg : CoordinatorConfig} {log log' : List Fact} (h : FeeQuoted cfg log r)
    (hl : log ⊆ log') (he : r'.event = r.event) (hfee : r'.feeMilliViz = r.feeMilliViz) :
    FeeQuoted cfg log' r' := by
  obtain ⟨hpos, chain, flag, b, hq, hb⟩ := h
  exact ⟨hfee ▸ hpos, chain, flag, b, (quoted_of_event he hq).mono hl, hfee.trans hb⟩

/-- A peg-in row was there before a call, and its fee only changes to one that was quoted. -/
theorem fee_exec {job : GatewayJob} {o : GatewayOp} {i : GatewayInput} {id : String}
    (h : Base N L cfg s) (hmay : jobMay N L cfg job s.log o)
    (hr' : (o.exec N L i s).1.outbox.get id = some r') (hd : r'.direction = .pegIn) :
    ∃ r, s.outbox.get id = some r ∧ r'.event = r.event
      ∧ (r'.feeMilliViz = r.feeMilliViz ∨ FeeQuoted cfg.coordinator s.log r') := by
  rcases row_exec hmay hr' with hr | ⟨r, status, patch, rfl, hr, rfl⟩ | ⟨r, fee, rfl, hr, rfl⟩
    | ⟨child, rfl, -, -, rfl⟩
  · exact ⟨r', hr, rfl, .inl rfl⟩
  · refine ⟨r, hr, rfl, ?_⟩
    cases job with
    | turn =>
      cases hmay with
      | requeue | returnDust | returned | start | closeDust | closeParent => exact .inl rfl
      | settle now hK hs hR =>
        rename_i rec result
        have hfee : ∀ status patch, (r.withStatus i.clock status patch).feeMilliViz
            = patch.feeMilliViz.getD r.feeMilliViz := fun _ _ => rfl
        unfold FeeQuoted
        rw [hfee]
        rcases settle_fee rec result now cfg.dispatcher.toRetryOpts with hnone | ⟨hb, hpatch⟩
        · rw [hnone]
          exact .inl rfl
        · rw [hpatch]
          cases hp : pinnedFee result.feeMilliViz with
          | none => exact .inl rfl
          | some f =>
            obtain ⟨hf, hpos⟩ := pinnedFee_eq_some.1 hp
            obtain ⟨chain, flag, b, hq, hfee⟩ := (h.answered (hR hb)).2.2 f hf hpos
            have he : r.event = rec.event :=
              h.event_of_handed hK hr (by change r.direction = _ at hd; rw [hd]; decide)
            exact .inr ⟨hpos, chain, flag, b, quoted_of_event he hq, hfee⟩
    | submit rec =>
      obtain ⟨⟨-, -, -, x, rfl⟩, -⟩ := hmay
      exact .inl rfl
    | redirect =>
      refine .inl ?_
      change patch.feeMilliViz.getD r.feeMilliViz = _
      rw [hmay.2.2.1]
      rfl
  · refine ⟨r, hr, rfl, .inr ?_⟩
    cases job with
    | turn => cases hmay
    | submit rec =>
      obtain ⟨⟨rfl, hpos, chain, flag, b, hq, hfee⟩, hrec⟩ := hmay
      have hreceived : .received rec ∈ s.log := hrec.resolve_left fun hrec => by cases hrec
      have he : r.event = rec.event := h.event_of_handed (h.received hreceived) hr
        (by change r.direction = _ at hd; rw [hd]; decide)
      exact ⟨hpos, chain, flag, b, quoted_of_event (r := rec) he hq, hfee⟩
    | redirect => exact hmay.elim
  · obtain ⟨rec, status, ctx, -, hc⟩ := planned_of_enqueue hmay
    exact absurd hd (child_direction_ne hc)

/-! ## The invariant -/

/-- The action a handler's own fact is about. -/
def about : Fact → Option String
  | .feePinned id _ | .feeLost id | .nonce id _ => some id
  | _ => none

/-- A confirmed row carries its fee, or there was none to withhold, or it was never told. -/
def Told (L : Libs) (cfg : CoordinatorConfig) (log : List Fact) (r : OutboxRecord) : Prop :=
  0 < r.feeMilliViz ∨ (∃ chain flag b, Quoted cfg r chain log flag b ∧ b.fee ≤ 0)
    ∨ Unbuilt L cfg r log

structure Inv (N : RemoteNets) (L : Libs) (cfg : GatewayConfig) (s : GatewayState) : Prop where
  base : Base N L cfg s
  flags : FlagsAgree cfg.coordinator s
  known : ∀ {f id}, f ∈ s.log → about f = some id → ∃ rec, .handed rec ∈ s.log ∧ rec.id = id
  compiles : ∀ {id r nonceValue}, s.outbox.get id = some r → r.direction = .pegIn →
    .nonce id nonceValue ∈ s.log → ∀ flag, Compiles L cfg.coordinator r flag nonceValue
  fee : ∀ {id r}, s.outbox.get id = some r → r.direction = .pegIn →
    r.feeMilliViz = 0 ∨ FeeQuoted cfg.coordinator s.log r
  kept : ∀ {id f}, .feePinned id f ∈ s.log → s.FeeHeld id
  apart : ∀ {id}, .feeLost id ∈ s.log → .callFailed id ∈ s.log → s.FeeHeld id
  told : ∀ {id r}, s.outbox.get id = some r → r.direction = .pegIn → r.status = confirmed →
    Told L cfg.coordinator s.log r

theorem told_of_event {cfg : CoordinatorConfig} {log log' : List Fact} (hl : log ⊆ log')
    (he : r'.event = r.event) (hfee : 0 < r.feeMilliViz → 0 < r'.feeMilliViz)
    (h : Told L cfg log r) : Told L cfg log' r' := by
  rcases h with h | ⟨chain, flag, b, hq, hb⟩ | h
  · exact .inl (hfee h)
  · exact .inr (.inl ⟨chain, flag, b, (quoted_of_event he hq).mono hl, hb⟩)
  · exact .inr (.inr ((unbuilt_of_event he h).mono hl))

theorem FeeQuoted.pos_of {cfg : CoordinatorConfig} {log : List Fact}
    (h : r'.feeMilliViz = r.feeMilliViz ∨ FeeQuoted cfg log r') (hr : 0 < r.feeMilliViz) :
    0 < r'.feeMilliViz := by
  rcases h with h | h
  · rw [h]
    exact hr
  · exact h.1

/-- The answer that confirms a row tells it. -/
theorem told_of_settle {result : DeliveryResult} {now clock : ℤ} (h : Inv N L cfg s)
    (hrec : .handed rec ∈ s.log) (hans : result.broadcast = true → .answered rec result ∈ s.log)
    (hr : s.outbox.get rec.id = some r) (hd : r.direction = .pegIn)
    (hst : (planTransition rec result now cfg.dispatcher.toRetryOpts).status = confirmed) :
    Told L cfg.coordinator s.log (r.withStatus clock
      (planTransition rec result now cfg.dispatcher.toRetryOpts).status
      (planTransition rec result now cfg.dispatcher.toRetryOpts).patch) := by
  have hb := broadcast_of_confirmed hst
  have he : r.event = rec.event := h.base.event_of_handed hrec hr (by rw [hd]; decide)
  have hd' : rec.direction = .pegIn := by rw [← OutboxRecord.direction_of_event he, hd]
  have hpatch : (planTransition rec result now cfg.dispatcher.toRetryOpts).patch.feeMilliViz
      = pinnedFee result.feeMilliViz := by
    unfold planTransition
    rw [if_pos hb]
  rcases ((h.base.answered (hans hb)).2.1 hb).2 hd' with ⟨chain, flag, b, hq, hfee⟩ | hun
  · by_cases hpos : 0 < b.fee
    · left
      change 0 < ((planTransition rec result now _).patch.feeMilliViz).getD r.feeMilliViz
      rw [hpatch, pinnedFee_eq_some.2 ⟨hfee, hpos⟩]
      exact hpos
    · exact .inr (.inl ⟨chain, flag, b, quoted_of_event (r := rec) he hq, Int.not_lt.1 hpos⟩)
  · exact .inr (.inr (unbuilt_of_event (r := rec) he hun))

theorem known_exec {job : GatewayJob} {o : GatewayOp} {i : GatewayInput} {f : Fact} {id : String}
    (h : Inv N L cfg s) (hmay : jobMay N L cfg job s.log o)
    (hf : f ∈ (o.exec N L i s).1.log) (hid : about f = some id) :
    ∃ rec, .handed rec ∈ s.log ∧ rec.id = id := by
  rcases mem_log_exec hf with hf | hf
  · exact h.known hf hid
  · have hown : ∀ {rec}, HandlerDoes N L cfg.coordinator rec s.log o → o ≠ .receive rec →
        rec.id = id → ∃ rec, .handed rec ∈ s.log ∧ rec.id = id := fun hdoes hne hid =>
      ⟨_, h.base.received (hdoes.2.resolve_left hne), hid⟩
    generalize (o.run N L i s).2 = ans at hf
    cases hf with
    | fee | feeLost =>
      cases hid
      cases job with
      | turn => cases hmay
      | submit rec => exact hown hmay (fun h => by cases h) hmay.1.1.symm
      | redirect => exact hmay.elim
    | nonce =>
      cases hid
      cases job with
      | turn => cases hmay
      | submit rec => exact hown hmay (fun h => by cases h) hmay.1.symm
      | redirect => exact hmay.elim
    | _ => cases hid

/-- A pinned fee is positive. -/
theorem held_fee {job : GatewayJob} {id : String} {fee : ℤ}
    (hmay : jobMay N L cfg job s.log (.store (.setFee id fee))) : 0 < fee := by
  cases job with
  | turn => cases hmay
  | submit rec => exact hmay.1.2.1
  | redirect => exact hmay.elim

theorem held_setFee {job : GatewayJob} {id : String} {fee clock : ℤ}
    (hmay : jobMay N L cfg job s.log (.store (.setFee id fee)))
    (hr : (s.outbox.setFee clock id fee).get id = some r) : 0 < r.feeMilliViz := by
  unfold Outbox.setFee at hr
  rw [Outbox.get_modify, if_pos rfl] at hr
  obtain ⟨r, -, rfl⟩ := Option.map_eq_some_iff.1 hr
  exact held_fee hmay

/-- One call fails in one way. -/
theorem not_failed_of_lost {o : GatewayOp} {a : Except String o.Ans} {id id' : String}
    (h : .feeLost id ∈ o.facts a) : .callFailed id' ∉ o.facts a := by
  intro hfailed
  cases reports_of_mem h with
  | feeLost => cases List.mem_singleton.1 hfailed

theorem FeeHeld.exec {job : GatewayJob} {o : GatewayOp} {i : GatewayInput} {id : String}
    (hbase : Base N L cfg s) (hmay : jobMay N L cfg job s.log o) (h : s.FeeHeld id) :
    (o.exec N L i s).1.FeeHeld id := by
  intro r' hr' hd
  obtain ⟨r, hr, he, hfee⟩ := fee_exec hbase hmay hr' hd
  exact FeeQuoted.pos_of hfee (h r hr (by rw [← OutboxRecord.direction_of_event he]; exact hd))

theorem Inv.exec {job : GatewayJob} {o : GatewayOp} {i : GatewayInput} (h : Inv N L cfg s)
    (hmay : jobMay N L cfg job s.log o)
    (hbears : ∀ f ∈ o.facts (o.run N L i s).2, f.Bearable L cfg.coordinator s) :
    Inv N L cfg (o.exec N L i s).1 := by
  have hlog : s.log ⊆ (o.exec N L i s).1.log := log_subset_exec o i s
  have hnew : ∀ {f}, f ∈ (o.exec N L i s).1.log → f ∈ s.log ∨ f.Bearable L cfg.coordinator s := by
    intro f hf
    rw [log_exec] at hf
    exact (List.mem_append.1 hf).symm.imp id (hbears f)
  have hheld : ∀ {id}, s.FeeHeld id → (o.exec N L i s).1.FeeHeld id := FeeHeld.exec h.base hmay
  refine ⟨h.base.exec hmay, ?_, fun hf hid => ?_, fun {id r' v} hr' hd hf => ?_, fun hr' hd => ?_,
    fun {id f} hf => ?_, fun {id} hlost hfailed => ?_, fun hr' hd hst => ?_⟩
  · exact h.flags.exec fun hf => hbears _ hf
  · obtain ⟨rec, hrec, hrid⟩ := known_exec h hmay hf hid
    exact ⟨rec, hlog hrec, hrid⟩
  · intro flag
    obtain ⟨r, hr, he, -⟩ := fee_exec h.base hmay hr' hd
    rcases hnew hf with hf | hf
    · exact compiles_of_event he
        (h.compiles hr (by rw [← OutboxRecord.direction_of_event he]; exact hd) hf flag)
    · exact compiles_of_event he (hf r hr flag)
  · obtain ⟨r, hr, he, hsame | hq⟩ := fee_exec h.base hmay hr' hd
    · exact (h.fee hr (by rw [← OutboxRecord.direction_of_event he]; exact hd)).imp hsame.trans
        fun hq => hq.grows hlog he hsame
    · exact .inr (hq.grows hlog rfl rfl)
  · rcases mem_log_exec hf with hf | hf
    · exact hheld (h.kept hf)
    · generalize hrun : (o.run N L i s).2 = ans at hf
      cases hf with
      | fee =>
        intro r' hr' hd
        rw [(store_of_run (N := N) (L := L) hrun).1] at hr'
        exact held_setFee hmay hr'
  · rw [log_exec, List.mem_append] at hlost hfailed
    rcases hfailed with hfailed | hfailed <;> rcases hlost with hlost | hlost
    · exact absurd hfailed (not_failed_of_lost hlost)
    · exact hheld (hbears _ hfailed hlost)
    · exact hheld (hbears _ hlost hfailed)
    · exact hheld (h.apart hlost hfailed)
  · rcases row_exec hmay hr' with hr | ⟨r, status, patch, rfl, hr, rfl⟩ | ⟨r, fee, rfl, hr, rfl⟩
      | ⟨child, rfl, -, -, rfl⟩
    · exact told_of_event hlog rfl id (h.told hr hd hst)
    · cases job with
      | turn =>
        cases hmay with
        | requeue | returnDust | returned | start | closeDust | closeParent => cases hst
        | settle now hK _ hR =>
          exact told_of_event hlog rfl id (told_of_settle h hK hR hr hd hst)
      | submit rec =>
        obtain ⟨⟨-, rfl, -⟩, -⟩ := hmay
        cases hst
      | redirect =>
        obtain ⟨rfl | rfl, -⟩ := hmay <;> cases hst
    · exact told_of_event (r := r) hlog rfl (fun _ => held_fee hmay) (h.told hr hd hst)
    · obtain ⟨rec, status, ctx, -, hc⟩ := planned_of_enqueue hmay
      exact absurd hd (child_direction_ne hc)

/-- A watcher leaves fees alone, and its new rows have none. -/
theorem fee_write {w : OutboxWrite} {clock : ℤ} {id : String} {out : Outbox}
    (hw : w.ofWatcher out = true) (hfits : w.fits out = true)
    (hr' : (w.apply clock out).get id = some r') (hd : r'.direction = .pegIn) :
    (∃ r, out.get id = some r ∧ r'.event = r.event ∧ r'.feeMilliViz = r.feeMilliViz
        ∧ (r'.status = confirmed → r.status = confirmed))
      ∨ out.get id = none ∧ hasChar id ':' = true ∧ r'.feeMilliViz = 0 ∧ r'.status ≠ confirmed := by
  rcases row_write hw hfits hr' with hr | ⟨r, status, patch, hr, -, rfl, hlow, hfee, -⟩
    | ⟨input, rfl, -, hnone, rfl⟩
  · exact .inl ⟨r', hr, rfl, rfl, fun h => h⟩
  · refine .inl ⟨r, hr, rfl, ?_, ?_⟩
    · change patch.feeMilliViz.getD r.feeMilliViz = _
      rw [hfee]
      rfl
    · rintro (rfl : status = confirmed)
      simp at hlow
  · have hids : IdFits (input.toRecord clock) := idFits_detect hw hfits rfl
    simp only [OutboxWrite.ofWatcher, Bool.and_eq_true, Option.isNone_iff_eq_none] at hw
    simp only [OutboxWrite.fits, Bool.and_eq_true, Bool.or_eq_true, decide_eq_true_eq] at hfits
    refine .inr ⟨hnone, ?_, ?_, ?_⟩
    · rw [← Outbox.id_of_get hr']
      exact hids.colon.2 (by rw [hd]; decide)
    · change input.feeMilliViz.getD 0 = 0
      rw [hw.1.1]
      rfl
    · change input.status.getD .seen ≠ confirmed
      rcases hfits.2 with h | h
      · rw [h]
        decide
      · rw [h]
        decide

/-- A row that a handler read a nonce or wrote a fee for is there. -/
theorem Inv.isSome_of_known {f : Fact} {id : String} (h : Inv N L cfg s) (hf : f ∈ s.log)
    (hid : about f = some id) (hcolon : hasChar id ':' = true) : (s.outbox.get id).isSome := by
  obtain ⟨rec, hrec, rfl⟩ := h.known hf hid
  obtain ⟨hfits, hthere⟩ := h.base.handed hrec
  obtain ⟨r, hr, -⟩ := hthere (hfits.colon.1 hcolon)
  rw [hr]
  rfl

theorem Inv.write {w : OutboxWrite} {clock : ℤ} (h : Inv N L cfg s)
    (hw : w.ofWatcher s.outbox = true) (hfits : w.fits s.outbox = true)
    (hbase : Base N L cfg { s with outbox := w.apply clock s.outbox }) :
    Inv N L cfg { s with outbox := w.apply clock s.outbox } := by
  have hgone : ∀ {f id}, f ∈ s.log → about f = some id → s.outbox.get id = none →
      hasChar id ':' = true → False := by
    intro f id hf hid hnone hcolon
    have hsome := h.isSome_of_known hf hid hcolon
    rw [hnone] at hsome
    cases hsome
  have hheld : ∀ {f id}, f ∈ s.log → about f = some id → s.FeeHeld id →
      GatewayState.FeeHeld { s with outbox := w.apply clock s.outbox } id := by
    intro f id hf hid hold r' hr' hd
    rcases fee_write hw hfits hr' hd with ⟨r, hr, he, hfee, -⟩ | ⟨hnone, hcolon, -⟩
    · rw [hfee]
      exact hold r hr (by rw [← OutboxRecord.direction_of_event he]; exact hd)
    · exact (hgone hf hid hnone hcolon).elim
  refine ⟨hbase, h.flags, h.known, fun hr' hd hf flag => ?_, fun hr' hd => ?_,
    fun hf => hheld hf rfl (h.kept hf), fun hlost hfailed => hheld hlost rfl (h.apart hlost hfailed),
    fun hr' hd hst => ?_⟩ <;>
    rcases fee_write hw hfits hr' hd with ⟨r, hr, he, hfee, hconf⟩ | ⟨hnone, hcolon, hz, hconf⟩
  · exact compiles_of_event he
      (h.compiles hr (by rw [← OutboxRecord.direction_of_event he]; exact hd) hf flag)
  · exact (hgone hf rfl hnone hcolon).elim
  · exact (h.fee hr (by rw [← OutboxRecord.direction_of_event he]; exact hd)).imp hfee.trans
      fun hq => hq.grows (List.Subset.refl _) he hfee
  · exact .inl hz
  · exact told_of_event (List.Subset.refl _) he (fun hpos => hfee ▸ hpos)
      (h.told hr (by rw [← OutboxRecord.direction_of_event he]; exact hd) (hconf hst))
  · exact absurd hst hconf

theorem Inv.apply (h : Inv N L cfg s) (a : GatewayAct) : Inv N L cfg (a.apply L s) := by
  have hbase := h.base.apply a
  have hm := apply_moves (L := L) a s
  generalize a.apply L s = s' at hm hbase
  cases hm
  case write clock w hw hfits => exact h.write hw hfits hbase
  all_goals exact { h with base := hbase }

theorem inv_init : Inv N L cfg {} where
  base := base_init
  flags _ _ _ _ hf := absurd hf List.not_mem_nil
  known hf := absurd hf List.not_mem_nil
  compiles h := by cases h
  fee h := by cases h
  kept hf := absurd hf List.not_mem_nil
  apart hf := absurd hf List.not_mem_nil
  told h := by cases h

/-! ## What was minted -/

/-- What was minted for a row is the net of a quote whose fee was pinned, or lost. -/
theorem quoted_of_minted {id : String} {net : ℤ} (h : Inv N L cfg s)
    (hr : s.outbox.get id = some r) (hd : r.direction = .pegIn) (hm : MintedNet s id net) :
    ∃ chain flag b, Quoted cfg.coordinator r chain s.log flag b ∧ net = b.net
      ∧ (0 < b.fee → .feePinned id b.fee ∈ s.log ∨ .feeLost id ∈ s.log)
      ∧ (chain = .gram → ∃ hash, GramBroadcaster.orderHashFor L .mint r.recipient b.net = .ok hash) := by
  have hevent : ∀ {rec : OutboxRecord}, .received rec ∈ s.log → rec.id = id → r.event = rec.event := by
    rintro rec hrec rfl
    exact h.base.event_of_handed (h.base.received hrec) hr (by rw [hd]; decide)
  have hpegIn : ∀ {rec : OutboxRecord}, r.event = rec.event → rec.direction = .pegIn := fun he => by
    rw [← OutboxRecord.direction_of_event he, hd]
  cases hm with
  | @order order a net hmem hact _ hbody =>
    obtain ⟨action, p, hasked, rfl, hp⟩ := h.base.opened hmem hact
    obtain ⟨rec, hrec, rfl, fee, ⟨-, -, -, hquote⟩, hkept⟩ := h.base.asked hasked
    have he := hevent hrec rfl
    rcases hquote with ⟨hret, -⟩ | ⟨b, hq, hnet, rfl, hhash⟩
    · rw [hpegIn he] at hret
      cases hret
    · refine ⟨_, _, b, quoted_of_event he hq, ?_, hkept (hpegIn he), fun _ => ⟨p.orderHashHex, ?_⟩⟩
      · rw [hbody] at hp
        obtain ⟨a', -, ha⟩ := Option.map_eq_some_iff.1 hp
        rw [if_neg (by simp [recordToAction, hpegIn he, OutboxDirection.wire])] at ha
        cases ha
        exact hnet
      · rw [OutboxRecord.eq_of_event he OutboxRecord.recipient fun _ => rfl]
        exact hhash
  | solana hmem hmemo =>
    obtain ⟨_, hsent⟩ := h.base.landed hmem
    obtain ⟨rec, p, hrec, -, hp, rfl⟩ := h.base.sent hsent
    have hof := mintOf_of_proposed hp
      (id_ne_of_pegIn h.base (h.base.received hrec) (direction_of_mint hp))
    rw [hof.memo] at hmemo
    cases hmemo
    have he := hevent hrec rfl
    obtain ⟨fee, ⟨w, b, v, m, -, hq, rfl, -, -, hp⟩, hkept⟩ := hp
    refine ⟨_, _, b, quoted_of_event he hq, ?_, hkept (hpegIn he), fun hc => by cases hc⟩
    rw [hp]
    rfl

theorem fee_nonneg {fees : GatewayFeeConfig} (h : FeesNonneg fees) {gross : ℤ} {flag : Bool}
    {chain : RemoteChainId} {b : PegInBreakdown}
    (hb : quotePegIn gross flag (pegInFeePolicyFor fees chain) = .ok b) : 0 ≤ b.fee := by
  obtain ⟨-, hbase, hactivation, hfee, -⟩ := quotePegIn_ok hb
  have hfloor := floor_le_baseFee gross (pegInFeePolicyFor fees chain)
  have := h.floor chain
  have := h.activation chain flag
  omega

/-- All the quotes of a row are one. -/
theorem quote_eq {chain chain' : RemoteChainId} {flag flag' : Bool} {b : PegInBreakdown}
    {q : PegInQuote} (h : FlagsAgree cfg.coordinator s)
    (hq : Quoted cfg.coordinator r chain s.log flag b) (hchain : r.remoteChain = some chain')
    (hflag : .provisioned chain' r.id flag' ∈ s.log)
    (hb : quotePegIn r.amountMilliViz flag' (pegInFeePolicyFor cfg.coordinator.fees chain') = q) :
    q = .ok b := by
  obtain ⟨-, hc, hf, hok⟩ := hq
  rw [hc] at hchain
  cases hchain
  rw [← hb, quotePegIn_congr (h hflag hf), hok]

/-- A confirmed row carries the fee of the one quote. -/
theorem fee_eq {id : String} {chain : RemoteChainId} {flag : Bool} {b : PegInBreakdown}
    (h : Inv N L cfg s) (hfees : FeesNonneg cfg.coordinator.fees) (hr : s.outbox.get id = some r)
    (hd : r.direction = .pegIn) (hst : r.status = confirmed)
    (hq : Quoted cfg.coordinator r chain s.log flag b)
    (hkept : 0 < b.fee → .feePinned id b.fee ∈ s.log ∨ .feeLost id ∈ s.log)
    (hhash : chain = .gram → ∃ hash, GramBroadcaster.orderHashFor L .mint r.recipient b.net = .ok hash) :
    r.feeMilliViz = b.fee := by
  have hid : r.id = id := Outbox.id_of_get hr
  have hsame : ∀ {chain' flag' b'}, Quoted cfg.coordinator r chain' s.log flag' b' → b' = b := by
    rintro chain' flag' b' ⟨-, hc, hf, hok⟩
    exact PegInQuote.ok.inj (quote_eq h.flags hq hc hf hok)
  rcases (fee_nonneg hfees hq.2.2.2).lt_or_eq with hpos | hzero
  · have hheld : 0 < r.feeMilliViz := by
      rcases hkept hpos with hpin | hlost
      · exact h.kept hpin r hr hd
      · rcases h.told hr hd hst with hfee | ⟨_, _, b', hq', hb'⟩ | hun
        · exact hfee
        · rw [hsame hq'] at hb'
          omega
        · rcases hun with hfailed | ⟨_, _, least, hc, hf, hq'⟩ | ⟨_, b', e, hq', he⟩
            | ⟨w, flag', b', v, hw, hq', hv, hm⟩
          · exact h.apart hlost (hid ▸ hfailed) r hr hd
          · cases quote_eq h.flags hq hc hf hq'
          · rw [hsame hq'] at he
            obtain ⟨hash, hok⟩ := hhash (Option.some.inj (hq.2.1.symm.trans hq'.2.1))
            cases he.symm.trans hok
          · have hsome := h.compiles hr hd (hid ▸ hv) flag' w hw
            rw [hq'.2.2.2] at hsome
            change (L.serializeMessage _).isSome = true at hsome
            rw [hm] at hsome
            cases hsome
    rcases h.fee hr hd with hz | ⟨-, _, _, b', hq', hb'⟩
    · omega
    · rw [hb', hsame hq']
  · rcases h.fee hr hd with hz | ⟨hpos, _, _, b', hq', hb'⟩
    · rw [hz, hzero]
    · rw [hsame hq'] at hb'
      omega

end FeeAccounting

open FeeAccounting Provenance

/-- Where whatever a run's calls bring is bearable, a confirmed peg-in carries what was withheld from
the mint that was made for it, and that is the fee of its policy. -/
theorem confirmed_fee_is_withheld (N : RemoteNets) (L : Libs) (cfg : GatewayConfig)
    (hfees : FeesNonneg cfg.coordinator.fees) {es : List GatewayEvent}
    (hm : Runs.Meets (Pool.step (gatewaySystem N L cfg)) (Bears N L cfg.coordinator)
      GatewayWorld.init es) {id : String} {r : OutboxRecord} {net : ℤ}
    (hr : (Runs.run (Pool.step (gatewaySystem N L cfg)) GatewayWorld.init es).shared.outbox.get id
      = some r)
    (hd : r.direction = .pegIn) (hst : r.status = confirmed)
    (hnet : MintedNet (Runs.run (Pool.step (gatewaySystem N L cfg)) GatewayWorld.init es).shared id
      net) :
    r.feeMilliViz = r.amountMilliViz - net ∧ ∃ chain flag, r.remoteChain = some chain
      ∧ r.feeMilliViz = baseFee r.amountMilliViz (pegInFeePolicyFor cfg.coordinator.fees chain)
        + activationFee flag (pegInFeePolicyFor cfg.coordinator.fees chain) := by
  have hinv := (gateway_run (I := Inv N L cfg) inv_init
    (fun w n i job o hc hat hmay _ h => h.exec hmay (hc (job, o) hat))
    (fun w a _ h => h.apply a) hm).state.2
  obtain ⟨chain, flag, b, hq, rfl, hkept, hhash⟩ := quoted_of_minted hinv hr hd hnet
  have hfee := fee_eq hinv hfees hr hd hst hq hkept hhash
  obtain ⟨-, hbase, hactivation, hsum, hleft, -⟩ := quotePegIn_ok hq.2.2.2
  refine ⟨by omega, chain, flag, hq.2.1, ?_⟩
  rw [hfee, hsum, hbase, hactivation]

/-! ## A deposit whose answer is lost -/

namespace FeeAccounting

def sampleGramRow : OutboxRecord := (sampleClaim.toRecord 0).withStatus 0 .queued {}

/-- Its order to a wallet that is not there yet. -/
def sampleGramProposal : GramOrderProposal where
  actionId := sampleClaim.id
  toAddress := sampleRecipient
  amountMilliViz := 210000
  orderAddr := "order 0"
  orderHashHex := "mint " ++ bitText sampleRecipientHash ++ "210000"
  orderSeqno := "0"
  destProvisioned := false

/-- A round whose order is opened and executes; the fee is pinned under `pin`. -/
def executedRound (pin : GatewayInput) : List GatewayEvent :=
  claimed sampleClaim ++ turnTo 0 1000 ++ handlerTo 1 sampleGramRow
    ++ [.step 1 {}, .step 1 {}, .step 1 {}, .step 1 {}, .step 1 pin,
      .step 1 { reply := ⟨sampleClaim.id, "op1", "approval"⟩ },
      .step 1 { reply := ⟨sampleClaim.id, "op2", "approval"⟩ },
      .act (.openOrder (recordToAction sampleGramRow) sampleGramProposal), .act (.executeOrder 0),
      .step 1 {}, .step 1 {}]

def confirmedRun : List GatewayEvent :=
  executedRound {} ++ List.replicate 3 (.step 0 { clock := 2000 })

/-- The answer is lost, and the next handler finds the order executed. -/
def recoveredRun (pin : GatewayInput) (fee : ℤ) (requote : List GatewayEvent) : List GatewayEvent :=
  executedRound pin ++ .step 0 { fails := some "timeout" }
      :: List.replicate 2 (.step 0 { clock := 2000 })
    ++ turnTo 2 20000
    ++ handlerTo 3 { sampleGramRow with
        feeMilliViz := fee, txid := some "order 0", attempts := 1, lastError := some "timeout"
        updatedAt := 2000, nextAttemptAt := 12000 }
    ++ .step 3 {} :: requote ++ List.replicate 3 (.step 2 { clock := 21000, pick := 1 })

/-- The mint has provisioned the wallet by then. -/
def requotedRun : List GatewayEvent :=
  recoveredRun {} 40000 [.step 3 { flag := true }, .step 3 {}, .step 3 {}, .step 3 {}]

/-- Neither the first write of the fee nor the second quote goes through. -/
def feelessRun : List GatewayEvent :=
  recoveredRun { fails := some "database is locked" } 0
    [.step 3 { fails := some "fetch failed" }, .step 3 {}]

def sampleGramOrder : GramOrder where
  body := .mint ⟨0, sampleRecipientHash⟩ 210000
  actionId := some sampleClaim.id
  executed := true

end FeeAccounting

theorem confirmed_fee_is_withheld_sample :
    (40000 : ℤ) = 250000 - 210000 ∧ ∃ chain flag, sampleGramRow.remoteChain = some chain
      ∧ (40000 : ℤ) = baseFee 250000 (pegInFeePolicyFor sampleCoordinator.fees chain)
        + activationFee flag (pegInFeePolicyFor sampleCoordinator.fees chain) := by
  have hm : Runs.Meets (Pool.step (gatewaySystem sampleNets gatewayLibs sampleGateway))
      (Bears sampleNets gatewayLibs sampleCoordinator) GatewayWorld.init confirmedRun := by
    decide +kernel
  have hr : (Runs.run (Pool.step (gatewaySystem sampleNets gatewayLibs sampleGateway))
      GatewayWorld.init confirmedRun).shared.outbox.get sampleClaim.id = some { sampleGramRow with
        feeMilliViz := 40000, status := confirmed, txid := some "order 0", updatedAt := 2000 } := by
    decide +kernel
  have ho : sampleGramOrder ∈ (Runs.run
      (Pool.step (gatewaySystem sampleNets gatewayLibs sampleGateway))
      GatewayWorld.init confirmedRun).shared.orders := by decide +kernel
  exact confirmed_fee_is_withheld sampleNets gatewayLibs sampleGateway sampleFees_nonneg hm hr rfl
    rfl (.order ho rfl rfl rfl)

/-- The mint pays for the wallet, the re-quote does not; or no quote is ever written. -/
theorem confirmed_fee_misstated :
    (∃ r, (Runs.run (Pool.step (gatewaySystem sampleNets gatewayLibs sampleGateway))
          GatewayWorld.init requotedRun).shared.outbox.get sampleClaim.id = some r
        ∧ r.direction = .pegIn ∧ r.status = confirmed
        ∧ MintedNet (Runs.run (Pool.step (gatewaySystem sampleNets gatewayLibs sampleGateway))
          GatewayWorld.init requotedRun).shared sampleClaim.id 210000
        ∧ r.feeMilliViz ≠ r.amountMilliViz - 210000)
      ∧ ∃ r, (Runs.run (Pool.step (gatewaySystem sampleNets gatewayLibs sampleGateway))
          GatewayWorld.init feelessRun).shared.outbox.get sampleClaim.id = some r
        ∧ r.direction = .pegIn ∧ r.status = confirmed
        ∧ MintedNet (Runs.run (Pool.step (gatewaySystem sampleNets gatewayLibs sampleGateway))
          GatewayWorld.init feelessRun).shared sampleClaim.id 210000
        ∧ r.feeMilliViz ≠ r.amountMilliViz - 210000 := by
  have hminted : ∀ {s : GatewayState}, sampleGramOrder ∈ s.orders →
      MintedNet s sampleClaim.id 210000 := fun h => .order h rfl rfl rfl
  refine ⟨⟨{ sampleGramRow with
      feeMilliViz := 10000, status := confirmed, txid := some "order 0", attempts := 1
      updatedAt := 21000, nextAttemptAt := 12000 },
    by decide +kernel, rfl, rfl, hminted (by decide +kernel), by decide⟩,
    { sampleGramRow with
      status := confirmed, txid := some "order 0", attempts := 1, updatedAt := 21000
      nextAttemptAt := 12000 },
    by decide +kernel, rfl, rfl, hminted (by decide +kernel), by decide⟩

end VizGateway
