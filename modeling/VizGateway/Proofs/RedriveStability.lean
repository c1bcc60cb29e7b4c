import VizGateway.Proofs.GatewayBase
import VizGateway.Proofs.RejectedRequests
import VizGateway.Sample

/-!
# Re-drives that agree

A round quotes, reads the nonce and pins its order anew. Where the destination's state and the
nonce read alike in every round, and no handler pins an order over another's, all the proposals of
one mint or return are one to the signers' ledgers.
-/

namespace VizGateway

open ActionStatus Text

def Fact.flagOf (chain : RemoteChainId) (id : String) : Fact → Option Bool
  | provisioned c i flag => if c = chain ∧ i = id then some flag else none
  | _ => none

def Fact.nonceOf (id : String) : Fact → Option String
  | nonce i value => if i = id then some value else none
  | _ => none

/-- The answers to what a quote and a Solana message read, for one action. -/
def GatewayState.flagsRead (s : GatewayState) (chain : RemoteChainId) (id : String) : List Bool :=
  s.log.filterMap (Fact.flagOf chain id)

def GatewayState.noncesRead (s : GatewayState) (id : String) : List String :=
  s.log.filterMap (Fact.nonceOf id)

/-- A read that comes out as before: the surcharge it stands for, the nonce; and a handler's pin
that replaces no other. -/
def SteadyCall (cfg : CoordinatorConfig) (s : GatewayState) (i : GatewayInput) :
    GatewayJob → GatewayOp → Prop
  | _, .isDestinationProvisioned chain id _ =>
    ∀ flag ∈ s.flagsRead chain id, activationFee flag (pegInFeePolicyFor cfg.fees chain)
      = activationFee i.flag (pegInFeePolicyFor cfg.fees chain)
  | _, .getNonce id => ∀ value ∈ s.noncesRead id, value = i.text
  | .submit _, .store (.setStatus id _ patch) =>
    ∀ r ∈ s.outbox.get id, OrderRow r → ∀ x ∈ r.txid, ∀ y ∈ patch.txid.join, x = y
  | _, _ => True

instance (cfg : CoordinatorConfig) (s : GatewayState) (i : GatewayInput) (job : GatewayJob)
    (o : GatewayOp) : Decidable (SteadyCall cfg s i job o) := by
  unfold SteadyCall
  split <;> infer_instance

/-- The run's reads and pins are steady. -/
def Steady (cfg : CoordinatorConfig) (w : GatewayWorld) : GatewayEvent → Prop
  | .step n i => ∀ x ∈ w.standsAt n, SteadyCall cfg w.shared i x.1 x.2
  | _ => True

instance (cfg : CoordinatorConfig) (w : GatewayWorld) (e : GatewayEvent) :
    Decidable (Steady cfg w e) := by
  unfold Steady
  split <;> infer_instance

/-- The net amount of a mint or a return. -/
def Proposal.amount : Proposal → Option ℤ
  | release _ => none
  | order p => some p.amountMilliViz
  | mint p => some p.amountMilliViz

def Proposal.orderBody (L : Libs) (action : CanonicalAction) : Proposal → Option OrderBody
  | order p => orderBodyOf L action p
  | _ => none

namespace Redrive

open Provenance

variable {N : RemoteNets} {L : Libs} {cfg : GatewayConfig} {s : GatewayState}

theorem mem_flagsRead {chain : RemoteChainId} {id : String} {flag : Bool} :
    flag ∈ s.flagsRead chain id ↔ .provisioned chain id flag ∈ s.log := by
  unfold GatewayState.flagsRead
  rw [List.mem_filterMap]
  constructor
  · rintro ⟨f, hf, h⟩
    cases f <;> simp only [Fact.flagOf, reduceCtorEq] at h
    split at h
    · next hid =>
      obtain ⟨rfl, rfl⟩ := hid
      cases h
      exact hf
    · cases h
  · exact fun h => ⟨_, h, by simp [Fact.flagOf]⟩

theorem mem_noncesRead {id value : String} : value ∈ s.noncesRead id ↔ .nonce id value ∈ s.log := by
  unfold GatewayState.noncesRead
  rw [List.mem_filterMap]
  constructor
  · rintro ⟨f, hf, h⟩
    cases f <;> simp only [Fact.nonceOf, reduceCtorEq] at h
    split at h
    · next hid =>
      subst hid
      cases h
      exact hf
    · cases h
  · exact fun h => ⟨_, h, by simp [Fact.nonceOf]⟩

/-! ## What steady runs keep -/

/-- What was ever pinned for an order row is what it holds. -/
def OnePin (s : GatewayState) : Prop :=
  ∀ {id x r}, .pinned id x ∈ s.log → s.outbox.get id = some r → OrderRow r → r.txid = some x

/-- A destination was always read as one that costs the same. -/
def FlagsAgree (cfg : CoordinatorConfig) (s : GatewayState) : Prop :=
  ∀ ⦃chain id flag flag'⦄, .provisioned chain id flag ∈ s.log →
    .provisioned chain id flag' ∈ s.log →
    activationFee flag (pegInFeePolicyFor cfg.fees chain)
      = activationFee flag' (pegInFeePolicyFor cfg.fees chain)

structure Inv (N : RemoteNets) (L : Libs) (cfg : GatewayConfig) (s : GatewayState) : Prop where
  base : Base N L cfg s
  pins : OnePin s
  flags : FlagsAgree cfg.coordinator s
  nonces : ∀ {id value value'}, .nonce id value ∈ s.log → .nonce id value' ∈ s.log → value = value'

theorem orderRow_of_event {r r' : OutboxRecord} (h : r'.event = r.event) (hr : OrderRow r') :
    OrderRow r := by
  unfold OrderRow at *
  rw [← OutboxRecord.direction_of_event h,
    ← OutboxRecord.eq_of_event h OutboxRecord.remoteChain fun _ => rfl]
  exact hr

theorem wire_ne_of_order {r : OutboxRecord} (h : OrderRow r) : r.direction.wire ≠ .pegOut := by
  rcases h with h | ⟨h, -⟩ <;> rw [h] <;> decide

/-- The evidence for an order row is the order it is pinned to. -/
theorem pinned_of_done {rec : OutboxRecord} {log : List Fact} {txid : Option String}
    (ho : OrderRow rec) (h : Done N L cfg.coordinator rec log txid) :
    ∃ x, txid = some x ∧ .pinned rec.id x ∈ log := by
  obtain ⟨x, hx, ⟨hd, -⟩ | ⟨-, hpin, -⟩ | ⟨hs, -⟩⟩ := h
  · exact absurd hd (wire_ne_of_order ho)
  · exact ⟨x, hx, hpin⟩
  · exact absurd hs (not_solana_of_order ho)

/-- A read may only add a flag that costs what those before it do. -/
theorem FlagsAgree.exec {cfg : CoordinatorConfig} {o : GatewayOp} {i : GatewayInput}
    (h : FlagsAgree cfg s)
    (hread : ∀ {chain id flag}, .provisioned chain id flag ∈ o.facts (o.run N L i s).2 →
      ∀ flag' ∈ s.flagsRead chain id, activationFee flag' (pegInFeePolicyFor cfg.fees chain)
        = activationFee flag (pegInFeePolicyFor cfg.fees chain)) :
    FlagsAgree cfg (o.exec N L i s).1 := by
  intro chain id flag flag' hf hf'
  rw [log_exec, List.mem_append] at hf hf'
  rcases hf with hf | hf <;> rcases hf' with hf' | hf'
  · replace hf := reports_of_mem hf
    replace hf' := reports_of_mem hf'
    generalize (o.run N L i s).2 = ans at hf hf'
    cases hf with
    | provisioned =>
      cases hf'
      rfl
  · exact (hread hf _ (mem_flagsRead.2 hf')).symm
  · exact hread hf' _ (mem_flagsRead.2 hf)
  · exact h hf hf'

/-- No justified write takes the pin off an order row. -/
theorem pin_kept {job : GatewayJob} {id : String} {status : ActionStatus} {patch : StatusPatch}
    {i : GatewayInput} {r : OutboxRecord} {x : String} (h : Inv N L cfg s)
    (hmay : jobMay N L cfg job s.log (.store (.setStatus id status patch)))
    (hsteady : SteadyCall cfg.coordinator s i job (.store (.setStatus id status patch)))
    (hr : s.outbox.get id = some r) (ho : OrderRow r) (hx : r.txid = some x) :
    patch.txid.getD r.txid = some x := by
  cases job with
  | turn =>
    cases hmay with
    | requeue | returnDust | returned | start | closeDust | closeParent => exact hx
    | settle now hK hs hR =>
      rename_i rec result
      rcases settle_txid rec result now cfg.dispatcher.toRetryOpts with hnone | ⟨hb, hpatch⟩
      · rw [hnone]
        exact hx
      · have he : r.event = rec.event :=
          h.base.event_of_handed hK hr fun hd => wire_ne_of_order ho (by rw [hd]; rfl)
        obtain ⟨y, hy, hpin⟩ := pinned_of_done (orderRow_of_event he ho)
          ((h.base.answered (hR hb)).2.1 hb).1
        rw [hpatch, hy, ← hx, h.pins hpin hr ho]
        rfl
  | submit rec =>
    obtain ⟨⟨rfl, -, -, y, rfl⟩, -⟩ := hmay
    have hsame : x = y := hsteady r hr ho x hx y rfl
    rw [hsame]
    rfl
  | redirect =>
    rw [hmay.2.1]
    exact hx

theorem Inv.exec {job : GatewayJob} {o : GatewayOp} {i : GatewayInput} (h : Inv N L cfg s)
    (hmay : jobMay N L cfg job s.log o) (hsteady : SteadyCall cfg.coordinator s i job o) :
    Inv N L cfg (o.exec N L i s).1 where
  base := h.base.exec hmay
  pins := by
    intro id x r' hmem hr' ho
    rcases mem_log_exec hmem with hf | hf
    · rcases row_exec hmay hr' with hr | ⟨r, status, patch, rfl, hr, rfl⟩ | ⟨r, fee, -, hr, rfl⟩
        | ⟨child, -, hid, hnone, rfl⟩
      · exact h.pins hf hr ho
      · exact pin_kept h hmay hsteady hr ho (h.pins hf hr ho)
      · exact h.pins (r := r) hf hr ho
      · have hcolon : hasChar id ':' = true := by
          rw [← Outbox.id_of_get hr']
          exact ((h.base.exec hmay).ids hr').colon.2 fun hd => wire_ne_of_order ho (by rw [hd]; rfl)
        have hsome := h.base.pinned hf hcolon
        rw [hnone] at hsome
        cases hsome
    · generalize hrun : (o.run N L i s).2 = ans at hf
      cases hf with
      | row hx =>
        obtain ⟨hout, hget⟩ := store_of_run (N := N) (L := L) hrun
        rw [hout] at hr'
        change s.outbox.get id = some r' at hr'
        change s.outbox.get id = _ at hget
        rw [← hget, hr'] at hx
        exact hx
      | pin hpatch =>
        rename_i status patch u
        rw [(store_of_run (N := N) (L := L) hrun).1] at hr'
        change (s.outbox.setStatus i.clock id status patch).get id = some r' at hr'
        rw [Outbox.get_setStatus_self] at hr'
        obtain ⟨r, -, rfl⟩ := Option.map_eq_some_iff.1 hr'
        change patch.txid.getD r.txid = some x
        rw [hpatch]
        rfl
  flags := h.flags.exec fun hf => by
    have hnew := reports_of_mem hf
    generalize hrun : (o.run N L i s).2 = ans at hnew
    cases hnew with
    | provisioned =>
      rw [← (answer_eq_ok.1 hrun).2]
      exact hsteady
  nonces := by
    intro id value value' hf hf'
    have hread : ∀ {value value'}, .nonce id value ∈ s.log →
        Reports o (o.run N L i s).2 (.nonce id value') → value = value' := by
      intro value value' hold hnew
      generalize hrun : (o.run N L i s).2 = ans at hnew
      cases hnew with
      | nonce =>
        rw [← (answer_eq_ok.1 hrun).2]
        exact hsteady value (mem_noncesRead.2 hold)
    rcases mem_log_exec hf with hf | hf <;> rcases mem_log_exec hf' with hf' | hf'
    · exact h.nonces hf hf'
    · exact hread hf hf'
    · exact (hread hf' hf).symm
    · generalize hrun : (o.run N L i s).2 = ans at hf hf'
      cases hf with
      | nonce =>
        cases hf'
        rfl

theorem Inv.apply (h : Inv N L cfg s) (a : GatewayAct) : Inv N L cfg (a.apply L s) := by
  refine ⟨h.base.apply a, ?_, ?_, ?_⟩
  · intro id x r' hf hr' ho
    rw [log_apply] at hf
    have hm := apply_moves (L := L) a s
    generalize a.apply L s = s' at hm hr'
    cases hm
    case write clock w hw hfits =>
      rcases row_write hw hfits hr' with hr | ⟨r, status, patch, hr, -, rfl, -, -, htxid⟩
        | ⟨input, hi, -, hnone, rfl⟩
      · exact h.pins hf hr ho
      · change patch.txid.getD r.txid = some x
        have hd : r.direction ≠ .pegOut := fun hd => wire_ne_of_order (r := r) ho (by rw [hd]; rfl)
        rw [htxid.resolve_right hd]
        exact h.pins (r := r) hf hr ho
      · have hcolon : hasChar id ':' = true := by
          rw [← Outbox.id_of_get hr']
          exact (idFits_detect hw hfits hi).colon.2
            fun hd => wire_ne_of_order ho (by rw [hd]; rfl)
        have hsome := h.base.pinned hf hcolon
        rw [hnone] at hsome
        cases hsome
    all_goals exact h.pins hf hr' ho
  · intro chain id flag flag' hf hf'
    rw [log_apply] at hf hf'
    exact h.flags hf hf'
  · intro id value value' hf hf'
    rw [log_apply] at hf hf'
    exact h.nonces hf hf'

theorem inv_init : Inv N L cfg {} where
  base := base_init
  pins hf := absurd hf List.not_mem_nil
  flags _ _ _ _ hf := absurd hf List.not_mem_nil
  nonces hf := absurd hf List.not_mem_nil

/-! ## What a quote and a pin decide -/

theorem proposalKey_order (p : GramOrderProposal) :
    proposalKey L p.toJson = .ok ⟨"gram-order:" ++ p.orderAddr, 0⟩ := rfl

theorem proposalKey_mint (p : SolanaMintProposal) :
    proposalKey L p.toJson = .ok ⟨"solana-msg:" ++ L.digestOf p.messageB64, 0⟩ := rfl

theorem mintProposal_tx (w : SolanaWriter) (action : CanonicalAction) (net : ℤ)
    (flag flag' : Bool) (nonceValue : String) :
    (SolanaMintBroadcaster.mintProposal w action net flag nonceValue).tx
      = (SolanaMintBroadcaster.mintProposal w action net flag' nonceValue).tx := rfl

/-- Two records of one row are quoted the same. -/
theorem net_eq {rec rec' : OutboxRecord} {chain : RemoteChainId} {flag flag' : Bool}
    {b b' : PegInBreakdown} (h : Inv N L cfg s) (hid : rec.id = rec'.id)
    (hamount : rec.amountMilliViz = rec'.amountMilliViz)
    (hq : Quoted cfg.coordinator rec chain s.log flag b)
    (hq' : Quoted cfg.coordinator rec' chain s.log flag' b') : b.net = b'.net := by
  obtain ⟨-, -, hf, hb⟩ := hq
  obtain ⟨-, -, hf', hb'⟩ := hq'
  rw [← hid] at hf'
  rw [hamount, quotePegIn_congr (h.flags hf hf'), hb'] at hb
  rw [PegInQuote.ok.inj hb]

/-- What the ledgers, the quotes and the orders see of two proposals of one action. -/
structure Agree (L : Libs) (action : CanonicalAction) (p p' : Proposal) : Prop where
  key : proposalKey L p'.toJson = proposalKey L p.toJson
  amount : p'.amount = p.amount
  body : p'.orderBody L action = p.orderBody L action

theorem agree_of_proposed {rec rec' : OutboxRecord} {p p' : Proposal} (h : Inv N L cfg s)
    (hrec : .handed rec ∈ s.log) (hrec' : .handed rec' ∈ s.log) (hid : rec'.id = rec.id)
    (hwire : rec.direction.wire ≠ .pegOut) (hp : Proposed L cfg.coordinator rec s.log p)
    (hp' : Proposed L cfg.coordinator rec' s.log p') : Agree L (recordToAction rec) p p' := by
  obtain ⟨r, hr, he⟩ := (h.base.handed hrec).2 fun hd => hwire (by rw [hd]; rfl)
  have hd : r.direction ≠ .pegOut := by
    rw [OutboxRecord.direction_of_event he]
    exact fun hd => hwire (by rw [hd]; rfl)
  have he' : r.event = rec'.event := h.base.event_of_handed hrec' (by rw [hid]; exact hr) hd
  have hevent : rec'.event = rec.event := he'.symm.trans he
  have hdir := OutboxRecord.direction_of_event hevent
  have hchain := OutboxRecord.eq_of_event hevent OutboxRecord.remoteChain fun _ => rfl
  have hto := OutboxRecord.eq_of_event hevent OutboxRecord.recipient fun _ => rfl
  have hamount := OutboxRecord.eq_of_event hevent OutboxRecord.amountMilliViz fun _ => rfl
  obtain ⟨fee, hb, -⟩ := hp
  obtain ⟨fee', hb', -⟩ := hp'
  have hcontra : ∀ {c c' flag flag'} {b b' : PegInBreakdown},
      Quoted cfg.coordinator rec c s.log flag b → Quoted cfg.coordinator rec' c' s.log flag' b' →
      c = c' := by
    intro c c' flag flag' b b' hq hq'
    have hc := hq'.2.1
    rw [hchain, hq.2.1] at hc
    exact Option.some.inj hc
  cases p with
  | release p => exact absurd hb.1 hwire
  | order p =>
    cases p' with
    | release p' => exact absurd (hdir ▸ hb'.1) hwire
    | mint p' =>
      obtain ⟨-, -, -, ⟨hret, -⟩ | ⟨b, hq, -⟩⟩ := hb
      · obtain ⟨w, b', v, m, -, hq', -⟩ := hb'
        exact absurd (hret.symm.trans (hdir.symm.trans hq'.1)) (by decide)
      · obtain ⟨w, b', v, m, -, hq', -⟩ := hb'
        cases hcontra hq hq'
    | order p' =>
      obtain ⟨-, hto₁, hpin, hquote⟩ := hb
      obtain ⟨-, hto₂, hpin', hquote'⟩ := hb'
      have ho : OrderRow r := by
        refine orderRow_of_event he.symm ?_
        rcases hquote with ⟨hret, -⟩ | ⟨b, hq, -⟩
        · exact .inl hret
        · exact .inr ⟨hq.1, hq.2.1⟩
      have haddr : p'.orderAddr = p.orderAddr := by
        rw [hid] at hpin'
        have hx := h.pins hpin hr ho
        rw [h.pins hpin' hr ho] at hx
        exact Option.some.inj hx
      have hnet : p'.amountMilliViz = p.amountMilliViz := by
        rcases hquote with ⟨hret, hn, -⟩ | ⟨b, hq, hn, -⟩ <;>
          rcases hquote' with ⟨hret', hn', -⟩ | ⟨b', hq', hn', -⟩
        · rw [hn, hn', hamount]
        · exact absurd (hret.symm.trans (hdir.symm.trans hq'.1)) (by decide)
        · exact absurd (hret'.symm.trans (hdir.trans hq.1)) (by decide)
        · rw [hn, hn']
          exact (net_eq h hid.symm hamount.symm hq hq').symm
      refine ⟨?_, congrArg some hnet, ?_⟩
      · change proposalKey L p'.toJson = proposalKey L p.toJson
        rw [proposalKey_order, proposalKey_order, haddr]
      · change orderBodyOf L _ p' = orderBodyOf L _ p
        unfold orderBodyOf
        rw [hto₂, hto₁, hto, hnet]
  | mint p =>
    cases p' with
    | release p' => exact absurd (hdir ▸ hb'.1) hwire
    | order p' =>
      obtain ⟨w, b, v, m, -, hq, -⟩ := hb
      obtain ⟨-, -, -, ⟨hret, -⟩ | ⟨b', hq', -⟩⟩ := hb'
      · exact absurd (hret.symm.trans (hdir.trans hq.1)) (by decide)
      · cases hcontra hq hq'
    | mint p' =>
      obtain ⟨w, b, v, m, hw, hq, -, hv, hm, hp⟩ := hb
      obtain ⟨w', b', v', m', hw', hq', -, hv', hm', hp'⟩ := hb'
      have haction : recordToAction rec' = recordToAction rec := by
        unfold recordToAction
        rw [hdir, hid, hchain, hto, hamount,
          OutboxRecord.eq_of_event hevent OutboxRecord.digest fun _ => rfl]
      have hww : w' = w := Option.some.inj (hw'.symm.trans hw)
      have hvv : v' = v := h.nonces (hid ▸ hv') hv
      have hnet : b'.net = b.net := (net_eq h hid.symm hamount.symm hq hq').symm
      have hmm : m' = m := by
        rw [haction, hww, hvv, hnet, mintProposal_tx w _ _ p'.destProvisioned p.destProvisioned,
          hm] at hm'
        exact (Option.some.inj hm').symm
      refine ⟨?_, ?_, rfl⟩
      · change proposalKey L p'.toJson = proposalKey L p.toJson
        rw [proposalKey_mint, proposalKey_mint, hp, hp', hmm]
      · rw [hp, hp']
        exact congrArg some hnet

end Redrive

open Redrive Provenance

namespace Redrive

/-- Two rounds, the nonce read in each; the second looks for a landed mint first. -/
def twoRounds (nonceValue nonceValue' : String) : List GatewayEvent :=
  twiceDelivered nonceValue ++ handlerTo 3 retriedRow ++ .step 3 {} :: missed 3 nonceValue'

theorem twoRounds_steady :
    Runs.Meets (Pool.step (gatewaySystem sampleNets gatewayLibs sampleGateway))
      (Steady sampleCoordinator) GatewayWorld.init (twoRounds "nonce 1" "nonce 1") := by
  decide +kernel

end Redrive

end VizGateway
