import VizGateway.Proofs.ChildAgreement
import VizGateway.Proofs.FeeAccounting

/-!
# The rows of fee sweeps and refunds

In every state of every run a fee sweep or a refund in the outbox is the one the policy derives
from its parent's row, which is there (`children_are_derived`). So where the watchers claim what the
chain holds, a signer with the same fees accepts each of them (`children_validate`).
-/

namespace VizGateway

open ActionStatus Text Provenance

/-- A fee sweep or a refund as the policy derives it from its parent. -/
structure Derived (opts : DispatcherOpts) (p r : OutboxRecord) : Prop where
  parent : p.direction = .pegIn
  parentId : r.parentId = some p.id
  remoteChain : r.remoteChain = p.remoteChain
  pays : 0 < r.amountMilliViz
  terms : (r.direction = .feeSweep ∧ r.id = p.id ++ ":fee" ∧ r.digest = p.digest ++ ":fee"
      ∧ r.recipient = opts.feesGateAccount
      ∧ r.amountMilliViz
        = baseFee p.amountMilliViz (pegInFeePolicyFor opts.fees (p.remoteChain.getD .solana)))
    ∨ (r.direction = .refund ∧ r.id = p.id ++ ":refund" ∧ r.digest = p.digest ++ ":refund"
      ∧ p.sender = some r.recipient
      ∧ r.amountMilliViz = p.amountMilliViz - opts.fees.refundFeeMilliViz)

namespace ChildRows

variable {N : RemoteNets} {L : Libs} {cfg : GatewayConfig} {opts : DispatcherOpts}
  {p p' r : OutboxRecord} {s t : Outbox}

/-- The row of a child that some status of its parent spawns. -/
def Planned (opts : DispatcherOpts) (p r : OutboxRecord) : Prop :=
  ∃ status c now, c ∈ opts.childrenAt p status ∧ r.event = (c.toRecord now).event

/-- The directions of a deposit's children. -/
def OfDeposit (r : OutboxRecord) : Prop := r.direction = .feeSweep ∨ r.direction = .refund

def ChildrenOk (opts : DispatcherOpts) (s : Outbox) : Prop :=
  ∀ id r, s.get id = some r → OfDeposit r → ∃ p, s.get p.id = some p ∧ p.direction = .pegIn
    ∧ Planned opts p r

theorem childrenOk_init : ChildrenOk opts ({} : GatewayState).outbox := by
  intro id r hr
  cases hr

theorem childrenAt_congr (he : p'.event = p.event) (hd : p.direction = .pegIn)
    (status : ActionStatus) : opts.childrenAt p' status = opts.childrenAt p status := by
  have hfield : ∀ {α : Type} (f : OutboxRecord → α), (∀ r, f r.event = f r) → f p' = f p :=
    fun f hf => OutboxRecord.eq_of_event he f hf
  unfold DispatcherOpts.childrenAt planChildren sweepAmountMilliViz childOf
  rw [hfield OutboxRecord.direction fun _ => rfl, hfield OutboxRecord.amountMilliViz fun _ => rfl,
    hfield OutboxRecord.remoteChain fun _ => rfl, hfield OutboxRecord.sender fun _ => rfl,
    hfield OutboxRecord.id fun _ => rfl, hfield OutboxRecord.digest fun _ => rfl]
  simp [hd]

theorem childrenAt_refunding (rec : OutboxRecord) :
    planChildren rec refunding (opts.childCtx 0) = opts.childrenAt rec refunding := by
  simp [DispatcherOpts.childrenAt, sweepAmountMilliViz]

theorem Planned.parent (h : Planned opts p r) (he : p'.event = p.event) (hd : p.direction = .pegIn) :
    Planned opts p' r := by
  obtain ⟨status, c, now, hc, hr⟩ := h
  exact ⟨status, c, now, by rwa [childrenAt_congr he hd], hr⟩

theorem ofDeposit_of_event {r' : OutboxRecord} (he : r'.event = r.event) (h : OfDeposit r') :
    OfDeposit r := by
  unfold OfDeposit at *
  rwa [OutboxRecord.direction_of_event he] at h

/-- Rows that are kept with their events keep what their children were planned from. -/
theorem ChildrenOk.kept (h : ChildrenOk opts s)
    (hkept : ∀ id r, s.get id = some r → r.direction ≠ .pegOut →
      ∃ r', t.get id = some r' ∧ r'.event = r.event)
    (hnew : ∀ id r', t.get id = some r' → OfDeposit r' →
      (∃ r, s.get id = some r ∧ r'.event = r.event)
        ∨ ∃ p, s.get p.id = some p ∧ p.direction = .pegIn ∧ Planned opts p r') :
    ChildrenOk opts t := by
  intro id r' hr' hd
  obtain ⟨p, hp, hpd, hplanned⟩ : ∃ p, s.get p.id = some p ∧ p.direction = .pegIn
      ∧ Planned opts p r' := by
    rcases hnew id r' hr' hd with ⟨r, hr, he⟩ | hplanned
    · obtain ⟨p, hp, hpd, status, c, now, hc, hc'⟩ := h id r hr (ofDeposit_of_event he hd)
      exact ⟨p, hp, hpd, status, c, now, hc, he.trans hc'⟩
    · exact hplanned
  obtain ⟨p', hp', he⟩ := hkept p.id p hp (by simp [hpd])
  have hid : p'.id = p.id := OutboxRecord.id_of_event he
  exact ⟨p', by rwa [hid], (OutboxRecord.direction_of_event he).trans hpd, hplanned.parent he hpd⟩

/-! ## Calls and writes -/

/-- The children the dispatcher enqueues are planned from rows that are still there. -/
theorem planned_of_enqueue {s : GatewayState} {job : GatewayJob} {child : EnqueueInput}
    (h : Base N L cfg s) (hmay : jobMay N L cfg job s.log (.store (.enqueue child))) {now : ℤ}
    (hd : OfDeposit (child.toRecord now)) :
    ∃ p, s.outbox.get p.id = some p ∧ p.direction = .pegIn
      ∧ Planned cfg.dispatcher p (child.toRecord now) := by
  obtain ⟨rec, status, hK, hchild⟩ : ∃ rec status, .handed rec ∈ s.log
      ∧ child ∈ cfg.dispatcher.childrenAt rec status := by
    cases job with
    | turn =>
      cases hmay with
      | returnChild hK _ hchild => exact ⟨_, refunding, hK, childrenAt_refunding _ ▸ hchild⟩
      | child _ hK _ _ hchild => exact ⟨_, _, hK, hchild⟩
    | submit rec => exact hmay.1.elim
    | redirect => exact hmay.elim
  have hdir : rec.direction = .pegIn := by
    rcases mem_planChildren hchild with ⟨-, hdir, -⟩ | ⟨_, -, -, -, ⟨hdir, -⟩ | ⟨-, -, rfl⟩⟩
    · exact hdir
    · exact hdir
    · rcases hd with hd | hd <;> cases hd
  obtain ⟨p, hp, he⟩ := (h.handed hK).2 (by simp [hdir])
  have hid : p.id = rec.id := OutboxRecord.id_of_event he
  refine ⟨p, by rwa [hid], (OutboxRecord.direction_of_event he).trans hdir, status, child, now, ?_, rfl⟩
  rwa [childrenAt_congr he hdir]

theorem ChildrenOk.exec {s : GatewayState} {job : GatewayJob} {o : GatewayOp} {i : GatewayInput}
    (hbase : Base N L cfg s) (h : ChildrenOk cfg.dispatcher s.outbox)
    (hmay : jobMay N L cfg job s.log o) :
    ChildrenOk cfg.dispatcher (o.exec N L i s).1.outbox := by
  refine h.kept (fun _ _ hr _ => kept_exec hmay hr) fun _ _ hr' hd => ?_
  rcases old_or_new hmay hr' with hold | ⟨child, rfl, -, -, rfl⟩
  · exact .inl hold
  · exact .inr (planned_of_enqueue hbase hmay hd)

theorem ChildrenOk.apply {s : GatewayState} (h : ChildrenOk cfg.dispatcher s.outbox)
    (a : GatewayAct) : ChildrenOk cfg.dispatcher (a.apply L s).outbox := by
  have hm := apply_moves (L := L) a s
  generalize a.apply L s = s' at hm
  cases hm
  case write clock w hw hfits =>
    refine h.kept (fun _ _ hr hd => kept_write hw hfits hr hd) fun id r' hr' hd => .inl ?_
    rcases row_write hw hfits hr' with hr | ⟨r, _, _, hr, -, rfl, -⟩ | ⟨input, rfl, -, -, rfl⟩
    · exact ⟨_, hr, rfl⟩
    · exact ⟨r, hr, rfl⟩
    · -- a claimed event is a deposit's or a burn's
      simp only [OutboxWrite.fits, Bool.and_eq_true, Bool.or_eq_true, decide_eq_true_eq] at hfits
      obtain ⟨⟨hdir, -⟩, -⟩ := hfits
      have hchild : input.direction = .feeSweep ∨ input.direction = .refund := hd
      rcases hdir with hdir | hdir <;> simp [hdir] at hchild
  all_goals exact h

/-! ## The rows -/

theorem event_sender {r r' : OutboxRecord} (he : r'.event = r.event) : r'.sender = r.sender :=
  OutboxRecord.eq_of_event he OutboxRecord.sender fun _ => rfl

/-- What a row derived from a parent says. -/
theorem Planned.derived (h : Planned opts p r) (hp : p.direction = .pegIn) : Derived opts p r := by
  obtain ⟨status, c, now, hc, he⟩ := h
  have hfield : ∀ {α : Type} (f : OutboxRecord → α), (∀ r, f r.event = f r) →
      f r = f (c.toRecord now) := fun f hf => OutboxRecord.eq_of_event he f hf
  have hid := hfield OutboxRecord.id fun _ => rfl
  have hdir := hfield OutboxRecord.direction fun _ => rfl
  have hchain := hfield OutboxRecord.remoteChain fun _ => rfl
  have hrecipient := hfield OutboxRecord.recipient fun _ => rfl
  have hamount := hfield OutboxRecord.amountMilliViz fun _ => rfl
  have hdigest := hfield OutboxRecord.digest fun _ => rfl
  have hparent := hfield OutboxRecord.parentId fun _ => rfl
  rcases mem_planChildren hc with ⟨rfl, -, hpos, rfl⟩ | ⟨sender, hs, rfl, hne, hkind⟩
  · -- the sweep of a confirmed deposit takes the base fee
    have hsweep : sweepAmountMilliViz opts.fees p confirmed
        = baseFee p.amountMilliViz (pegInFeePolicyFor opts.fees (p.remoteChain.getD .solana)) := by
      unfold sweepAmountMilliViz
      rw [if_pos ⟨rfl, hp⟩]
    have hctx : (opts.childCtx (sweepAmountMilliViz opts.fees p confirmed)).sweepAmountMilliViz
        = sweepAmountMilliViz opts.fees p confirmed := rfl
    rw [hctx, hsweep] at hpos hamount
    exact ⟨hp, hparent, hchain, hamount.symm ▸ hpos,
      .inl ⟨hdir, hid, hdigest, hrecipient, hamount⟩⟩
  · rcases hkind with ⟨-, rfl⟩ | ⟨hout, -, -⟩
    · have hlt : opts.fees.refundFeeMilliViz < p.amountMilliViz := by
        by_contra hdust
        exact hne (refundAmount_eq_zero.2 (Int.not_lt.1 hdust))
      have hback : r.amountMilliViz = p.amountMilliViz - opts.fees.refundFeeMilliViz :=
        hamount.trans (refundAmount_of_lt hlt)
      have hsender : p.sender = some r.recipient := by
        rw [hrecipient]
        exact (truthy_eq_some.1 hs).1
      exact ⟨hp, hparent, hchain, by omega, .inr ⟨hdir, hid, hdigest, hsender, hback⟩⟩
    · simp [hp] at hout

end ChildRows

open ChildRows

/-- In every reachable state every fee sweep and every refund is the one the policy derives from a
deposit's row that is in the outbox. -/
theorem children_are_derived (N : RemoteNets) (L : Libs) (cfg : GatewayConfig)
    (es : List GatewayEvent) (id : String) (r : OutboxRecord)
    (hr : (Runs.run (Pool.step (gatewaySystem N L cfg)) GatewayWorld.init es).shared.outbox.get id
      = some r)
    (hd : r.direction = .feeSweep ∨ r.direction = .refund) :
    ∃ p, (Runs.run (Pool.step (gatewaySystem N L cfg)) GatewayWorld.init es).shared.outbox.get p.id
        = some p ∧ Derived cfg.dispatcher p r := by
  have hm : Runs.Meets (Pool.step (gatewaySystem N L cfg)) (fun _ _ => True) GatewayWorld.init es :=
    Runs.meets_true
  have hinv := (gateway_run (I := fun s => Base N L cfg s ∧ ChildrenOk cfg.dispatcher s.outbox)
    ⟨base_init, childrenOk_init⟩
    (fun w n i job o _ _ hmay _ h => ⟨h.1.exec hmay, ChildrenOk.exec h.1 h.2 hmay⟩)
    (fun w a _ h => ⟨h.1.apply a, h.2.apply a⟩) hm).state
  obtain ⟨p, hp, hdir, hplanned⟩ := hinv.2.2 id r hr hd
  exact ⟨p, hp, hplanned.derived hdir⟩

namespace ChildRows

/-- The confirmed deposit's sweep, once the turn has gone on. -/
def sweptRun : List GatewayEvent :=
  FeeAccounting.confirmedRun ++ List.replicate 3 (.step 0 { clock := 2000 })

def sampleFeeRow : OutboxRecord :=
  (childOf FeeAccounting.sampleGramRow ":fee" .feeSweep "fees.gate" 10000).toRecord 2000

theorem swept : (Runs.run (Pool.step (gatewaySystem sampleNets gatewayLibs sampleGateway))
    GatewayWorld.init sweptRun).shared.outbox.get sampleFeeRow.id = some sampleFeeRow := by
  decide +kernel

end ChildRows

theorem children_are_derived_sample :
    ∃ p, (Runs.run (Pool.step (gatewaySystem sampleNets gatewayLibs sampleGateway))
        GatewayWorld.init sweptRun).shared.outbox.get p.id = some p
      ∧ Derived sampleGateway.dispatcher p sampleFeeRow :=
  children_are_derived sampleNets gatewayLibs sampleGateway sweptRun sampleFeeRow.id sampleFeeRow
    swept (.inl rfl)

/-! ## Signers -/

namespace ChildRows

variable {deps : SourceValidatorDeps} {view : NodeView} {hintOf : String → Option ℕ}

/-- The deposit the row was claimed for, as the signer's node has it. -/
def Reads (L : Libs) (deps : SourceValidatorDeps) (view : NodeView) (hintOf : String → Option ℕ)
    (p : OutboxRecord) : Prop :=
  ∃ d, WellFormedDeposit d
    ∧ getDeposit L deps.reader view.viz d.trxId d.opIndex (hintOf d.id) = .ok (some d)
    ∧ RowOf (canonicalPegIn L.digestOf d) .pegIn d.remoteChain d.sender p

/-- The watchers claim the deposits that the signer's node has. -/
def ReadsClaims (L : Libs) (deps : SourceValidatorDeps) (view : NodeView)
    (hintOf : String → Option ℕ) : GatewayEvent → Prop
  | .act (.write clock (.detect input)) =>
    input.direction = .pegIn → Reads L deps view hintOf (input.toRecord clock)
  | _ => True

theorem Reads.of_event (h : Reads L deps view hintOf p) (he : p'.event = p.event) :
    Reads L deps view hintOf p' := by
  have hfield : ∀ {α : Type} (f : OutboxRecord → α), (∀ r, f r.event = f r) → f p' = f p :=
    fun f hf => OutboxRecord.eq_of_event he f hf
  obtain ⟨d, hd, hread, hrow⟩ := h
  refine ⟨d, hd, hread, ⟨?_, ?_, ?_, ?_, ?_, ?_⟩⟩
  · exact (hfield OutboxRecord.id fun _ => rfl).trans hrow.id
  · exact (hfield OutboxRecord.direction fun _ => rfl).trans hrow.direction
  · exact (hfield OutboxRecord.remoteChain fun _ => rfl).trans hrow.remoteChain
  · exact (hfield OutboxRecord.sender fun _ => rfl).trans hrow.sender
  · exact (hfield OutboxRecord.amountMilliViz fun _ => rfl).trans hrow.amount
  · exact (hfield OutboxRecord.digest fun _ => rfl).trans hrow.digest

def AllRead (L : Libs) (deps : SourceValidatorDeps) (view : NodeView) (hintOf : String → Option ℕ)
    (s : Outbox) : Prop :=
  ∀ id p, s.get id = some p → p.direction = .pegIn → Reads L deps view hintOf p

theorem AllRead.exec {s : GatewayState} {job : GatewayJob} {o : GatewayOp} {i : GatewayInput}
    (h : AllRead L deps view hintOf s.outbox) (hmay : jobMay N L cfg job s.log o) :
    AllRead L deps view hintOf (o.exec N L i s).1.outbox := by
  intro id p' hp' hd
  rcases old_or_new hmay hp' with ⟨p, hp, he⟩ | ⟨child, rfl, -, -, rfl⟩
  · have hdir : p.direction = .pegIn := (OutboxRecord.direction_of_event he).symm.trans hd
    exact (h id p hp hdir).of_event he
  · -- a child is no peg-in
    obtain ⟨rec, status, ctx, -, hchild⟩ := Provenance.planned_of_enqueue hmay
    exact absurd hd (child_direction_ne hchild)

theorem AllRead.apply {s : GatewayState} {a : GatewayAct} (h : AllRead L deps view hintOf s.outbox)
    (ha : ReadsClaims L deps view hintOf (.act a)) :
    AllRead L deps view hintOf (a.apply L s).outbox := by
  have hm := apply_moves (L := L) a s
  generalize a.apply L s = s' at hm
  cases hm
  case write clock w hw hfits =>
    intro id p' hp' hd
    rcases row_write hw hfits hp' with hp | ⟨p, _, _, hp, -, rfl, -⟩ | ⟨input, rfl, -, -, rfl⟩
    · exact h id p' hp hd
    · exact (h id p hp hd).of_event rfl
    · exact ha hd
  all_goals exact h

theorem allRead_init : AllRead L deps view hintOf ({} : GatewayState).outbox := by
  intro id p hp
  cases hp

theorem allRead_run (N : RemoteNets) (L : Libs) (cfg : GatewayConfig) {es : List GatewayEvent}
    (hreads : ∀ e ∈ es, ReadsClaims L deps view hintOf e) :
    AllRead L deps view hintOf
      (Runs.run (Pool.step (gatewaySystem N L cfg)) GatewayWorld.init es).shared.outbox := by
  have hm : Runs.Meets (Pool.step (gatewaySystem N L cfg))
      (fun _ e => ReadsClaims L deps view hintOf e) GatewayWorld.init es :=
    Runs.meets_of_forall fun e he _ => hreads e he
  exact (gateway_run (I := fun s => AllRead L deps view hintOf s.outbox) allRead_init
    (fun w n i job o _ _ hmay _ h => AllRead.exec h hmay) (fun w a ha h => AllRead.apply h ha)
    hm).state.2

theorem wire_of_child (h : r.direction = .feeSweep ∨ r.direction = .refund) :
    (recordToAction r).direction ≠ .known .pegIn := by
  unfold recordToAction
  rcases h with h | h <;> simp [h, OutboxDirection.wire]

/-- A derived row's id is its parent's and the suffix of its kind. -/
theorem namesDeposit {d : VizDeposit} {suffix : String} (hd : WellFormedDeposit d)
    (hid : r.id = d.id ++ suffix) : NamesDeposit (recordToAction r) suffix d := by
  have hend : endsWith (d.id ++ suffix) suffix = true := endsWith_append _ _
  have hdrop : dropEnd (d.id ++ suffix) suffix.toList.length = d.id :=
    dropEnd_append d.id suffix _ rfl
  have haction : (recordToAction r).id = d.id ++ suffix := hid
  refine ⟨by rw [haction, hend], ?_⟩
  rw [haction, hdrop]
  exact splitSourceId_id hd

end ChildRows

/-- Where the watchers claim what a signer's node has, that signer accepts every fee sweep and every
refund in the outbox. -/
theorem children_validate (N : RemoteNets) (L : Libs) (cfg : GatewayConfig)
    (deps : SourceValidatorDeps) (view : NodeView) (hintOf : String → Option ℕ)
    (hfees : deps.fees = cfg.dispatcher.fees)
    (haccount : deps.feesGateAccount = cfg.dispatcher.feesGateAccount) {es : List GatewayEvent}
    (hreads : ∀ e ∈ es, ReadsClaims L deps view hintOf e) {id : String} {r : OutboxRecord}
    (hr : (Runs.run (Pool.step (gatewaySystem N L cfg)) GatewayWorld.init es).shared.outbox.get id
      = some r)
    (hd : r.direction = .feeSweep ∨ r.direction = .refund) :
    ∃ parent, r.parentId = some parent
      ∧ validateAction L deps view (recordToAction r) (hintOf parent) = .ok () := by
  obtain ⟨p, hp, hder⟩ := children_are_derived N L cfg es id r hr hd
  obtain ⟨d, hwf, hread, hrow⟩ := allRead_run N L cfg hreads p.id p hp hder.parent
  refine ⟨p.id, hder.parentId, ?_⟩
  have hpid : p.id = d.id := hrow.id
  have hpamount : p.amountMilliViz = d.amountMilliViz := hrow.amount
  have hwire := wire_of_child hd
  rw [← hpid] at hread
  have hchain : p.remoteChain = some d.remoteChain := hrow.remoteChain
  rcases hder.terms with ⟨hdir, hid, hdigest, hto, hamount⟩ | ⟨hdir, hid, hdigest, hto, hamount⟩
  · have hbase : r.amountMilliViz
        = baseFee d.amountMilliViz (pegInFeePolicyFor deps.fees d.remoteChain) := by
      rw [hamount, hpamount, hchain, hfees]
      rfl
    have hpos : 0 < baseFee d.amountMilliViz (pegInFeePolicyFor deps.fees d.remoteChain) :=
      hbase ▸ hder.pays
    refine (validateFeeSweep_iff_planned hread hrow hpos hwire
      (namesDeposit hwf (hid.trans (by rw [hpid]; rfl)))).2
      ⟨childOf p ":fee" .feeSweep deps.feesGateAccount r.amountMilliViz, ?_, ?_⟩
    · rw [planChildren_fee hrow hpos, hbase]
      exact List.mem_singleton_self _
    · unfold SameFields childAction recordToAction childOf EnqueueInput.toRecord
      simp only
      exact ⟨hid, by rw [hder.remoteChain], hto.trans haccount.symm, trivial, hdigest⟩
  · have hpays := hder.pays
    have hback : r.amountMilliViz = d.amountMilliViz - deps.fees.refundFeeMilliViz := by
      rw [hamount, hpamount, hfees]
    have hsender : r.recipient = d.sender := Option.some.inj (hto.symm.trans hrow.sender)
    refine (validateRefund_iff_planned hwf hread hrow hwire
      (namesDeposit hwf (hid.trans (by rw [hpid]; rfl)))).2
      ⟨childOf p ":refund" .refund d.sender r.amountMilliViz, ?_, ?_⟩
    · rw [planChildren_refund hrow hwf, if_neg (by omega), hback]
      exact List.mem_singleton_self _
    · unfold SameFields childAction recordToAction childOf EnqueueInput.toRecord
      simp only
      exact ⟨hid, by rw [hder.remoteChain], hsender, trivial, hdigest⟩

namespace ChildRows

def claimsNothing : GatewayEvent → Bool
  | .act (.write _ (.detect _)) => false
  | _ => true

theorem readsClaims_of_claimsNothing {e : GatewayEvent} (h : claimsNothing e = true) :
    ReadsClaims L deps view hintOf e := by
  unfold ReadsClaims
  split
  · simp [claimsNothing] at h
  · trivial

end ChildRows

theorem children_validate_sample : ∃ parent, sampleFeeRow.parentId = some parent
    ∧ validateAction gatewayLibs sampleDeps (sampleView []) (recordToAction sampleFeeRow) none
      = .ok () := by
  have hread : getDeposit gatewayLibs sampleDeps.reader (sampleView []).viz sampleDeposit.trxId
      sampleDeposit.opIndex none = .ok (some sampleDeposit) := by decide +kernel
  have hclaim : Reads gatewayLibs sampleDeps (sampleView []) (fun _ => none)
      (sampleClaim.toRecord 0) := by
    refine ⟨sampleDeposit, ⟨by decide, by decide, by decide⟩, hread, ?_⟩
    constructor <;> rfl
  have hreads : ∀ e ∈ sweptRun,
      ReadsClaims gatewayLibs sampleDeps (sampleView []) (fun _ => none) e := by
    have hrest : sweptRun.tail.all claimsNothing = true := by rfl
    refine List.forall_mem_cons.2 ⟨fun _ => hclaim, fun e he => ?_⟩
    exact readsClaims_of_claimsNothing (List.all_eq_true.1 hrest e he)
  exact children_validate sampleNets gatewayLibs sampleGateway sampleDeps (sampleView [])
    (fun _ => none) rfl rfl hreads swept (.inl rfl)

end VizGateway
