import VizGateway.Policy
import VizGateway.Proofs.SourceSoundness

/-!
# Dispatcher and signers agree on children

The dispatcher derives a fee sweep, a refund or a return from an outbox row; the signer derives it
again from the source event. The two agree field by field, and on which parents are dust.
-/

namespace VizGateway

open Checks Text

/-! ## Parents and their rows -/

/-- The fields a watcher claims a row with, the action's direction kept as the row's. -/
structure RowOf (a : CanonicalAction) (direction : OutboxDirection) (chain : RemoteChainId)
    (sender : String) (rec : OutboxRecord) : Prop where
  id : rec.id = a.id
  direction : rec.direction = direction
  remoteChain : rec.remoteChain = some chain
  sender : rec.sender = some sender
  amount : rec.amountMilliViz = a.amountMilliViz
  digest : rec.digest = a.digest

/-- A deposit that came off the chain: its transaction id is a hash, so without colons, and its
transfer has a sender. -/
structure WellFormedDeposit (d : VizDeposit) : Prop where
  trxId_ne : d.trxId ≠ ""
  trxId_colon : ':' ∉ d.trxId.toList
  sender_ne : d.sender ≠ ""

/-- A burn that came off the chain: its hash is 64 hex digits and its sender an address. -/
structure WellFormedBurn (b : RemoteBurn) : Prop where
  hash : looksLikeTonTxHash b.sourceId = true
  sender_ne : b.sender ≠ ""

/-- What the dispatcher plans children with. -/
def childCtx (deps : SourceValidatorDeps) (rec : OutboxRecord) (status : ActionStatus) :
    ChildCtx where
  feesGateAccount := deps.feesGateAccount
  sweepAmountMilliViz := sweepAmountMilliViz deps.fees rec status
  refundFeeMilliViz := deps.fees.refundFeeMilliViz

/-- The action of a planned child, as the dispatcher submits the row it becomes. -/
def childAction (c : EnqueueInput) : CanonicalAction := recordToAction (c.toRecord 0)

/-- Equality in everything a child's validator compares; the direction is not among it. -/
def SameFields (a b : CanonicalAction) : Prop :=
  a.id = b.id ∧ a.remoteChain = b.remoteChain ∧ a.recipient = b.recipient
    ∧ a.amountMilliViz = b.amountMilliViz ∧ a.digest = b.digest

variable {L : Libs} {deps : SourceValidatorDeps} {view : NodeView} {hint : Option ℕ}
  {a : CanonicalAction} {d : VizDeposit} {b : RemoteBurn} {rec : OutboxRecord}

/-! ## Source ids -/

/-- A deposit's id splits back into its transaction and its op. -/
theorem splitSourceId_id (hd : WellFormedDeposit d) :
    splitSourceId d.id = some (d.trxId, d.opIndex) := by
  have hidx : indexOf d.id ':' = some d.trxId.toList.length := indexOf_append hd.trxId_colon
  obtain ⟨n, hn⟩ : ∃ n, d.trxId.toList.length = n + 1 := by
    refine Nat.exists_eq_succ_of_ne_zero fun h0 => hd.trxId_ne ?_
    exact String.toList_inj.1 (by simpa using List.length_eq_zero_iff.1 h0)
  have hlen : (d.trxId ++ ":").toList.length = n + 2 := by
    rw [String.toList_append, List.length_append, hn]
    rfl
  have hdrop : dropStr d.id (n + 2) = d.opIndex.repr := by
    rw [← hlen]
    exact dropStr_append _ _
  have htake : takeStr d.id (n + 1) = d.trxId := by
    rw [← hn]
    unfold VizDeposit.id
    rw [String.append_assoc]
    exact takeStr_append _ _
  unfold splitSourceId
  rw [hidx, hn]
  simp only [hdrop, htake, isDigits_repr, parseNat_repr, ↓reduceIte]

/-- The last characters of the suffixes tell them apart. -/
theorem endsWith_of_suffix {id s t : String} {c d : Char} (hs : s.toList.getLast? = some c)
    (ht : t.toList.getLast? = some d) (hcd : c ≠ d) (h : endsWith id s = true) :
    endsWith id t = false := by
  obtain ⟨r, rfl⟩ := endsWith_iff.1 h
  refine endsWith_eq_false_of_getLast (c := c) ?_ ht hcd
  rw [String.toList_append, List.getLast?_append, hs]
  rfl

theorem validateActionInner_fee (hdir : a.direction ≠ .known .pegIn)
    (hs : endsWith a.id feeSweepSuffix = true) :
    validateActionInner L deps view a hint = validateFeeSweep L deps view a hint := by
  unfold validateActionInner
  rw [if_neg hdir, if_pos hs]

theorem validateActionInner_refund (hdir : a.direction ≠ .known .pegIn)
    (hs : endsWith a.id refundSuffix = true) :
    validateActionInner L deps view a hint = validateRefund L deps view a hint := by
  have hfee : endsWith a.id feeSweepSuffix = false :=
    endsWith_of_suffix (c := 'd') (d := 'e') rfl rfl (by decide) hs
  unfold validateActionInner
  rw [if_neg hdir, hfee, if_neg Bool.false_ne_true, if_pos hs]

theorem validateActionInner_return (hdir : a.direction ≠ .known .pegIn)
    (hs : endsWith a.id returnSuffix = true) :
    validateActionInner L deps view a hint = validateGramReturn L deps view a := by
  have hfee : endsWith a.id feeSweepSuffix = false :=
    endsWith_of_suffix (c := 'n') (d := 'e') rfl rfl (by decide) hs
  have hrefund : endsWith a.id refundSuffix = false :=
    endsWith_of_suffix (c := 'n') (d := 'd') rfl rfl (by decide) hs
  unfold validateActionInner
  rw [if_neg hdir, hfee, hrefund, if_neg Bool.false_ne_true, if_neg Bool.false_ne_true, if_pos hs]

/-! ## The signer's side -/

/-- A child names the parent deposit: its id is `<trxId>:<digits>` and the suffix. -/
def NamesDeposit (a : CanonicalAction) (suffix : String) (d : VizDeposit) : Prop :=
  endsWith a.id suffix = true
    ∧ splitSourceId (dropEnd a.id suffix.toList.length) = some (d.trxId, d.opIndex)

/-- A child names the parent burn. -/
def NamesBurn (a : CanonicalAction) (b : RemoteBurn) : Prop :=
  endsWith a.id returnSuffix = true ∧ dropEnd a.id returnSuffix.toList.length = b.sourceId

/-- The parent a child names is re-read if and only if the child's id is the canonical one. -/
theorem reReadParentPegIn_iff {suffix : String} {d' : VizDeposit} {p : CanonicalAction}
    (hread : getDeposit L deps.reader view.viz d.trxId d.opIndex hint = .ok (some d))
    (hnames : NamesDeposit a suffix d) :
    reReadParentPegIn L deps view a suffix hint = .ok (d', p)
      ↔ d' = d ∧ p = canonicalPegIn L.digestOf d ∧ a.id = d.id ++ suffix := by
  rw [reReadParentPegIn_eq_ok]
  constructor
  · rintro ⟨key, hkey, hd, rfl, hid⟩
    rw [hnames.2, Option.some.injEq] at hkey
    subst hkey
    rw [hread, Except.ok.injEq, Option.some.injEq] at hd
    subst hd
    exact ⟨rfl, rfl, hid⟩
  · rintro ⟨rfl, rfl, hid⟩
    exact ⟨_, hnames.2, hread, rfl, hid⟩

/-! ## The dispatcher's side -/

theorem planChildren_fee (hrow : RowOf (canonicalPegIn L.digestOf d) .pegIn d.remoteChain d.sender rec)
    (hbase : 0 < baseFee d.amountMilliViz (pegInFeePolicyFor deps.fees d.remoteChain)) :
    planChildren rec .confirmed (childCtx deps rec .confirmed)
      = [childOf rec ":fee" .feeSweep deps.feesGateAccount
          (baseFee d.amountMilliViz (pegInFeePolicyFor deps.fees d.remoteChain))] := by
  have hsweep : sweepAmountMilliViz deps.fees rec .confirmed
      = baseFee d.amountMilliViz (pegInFeePolicyFor deps.fees d.remoteChain) := by
    unfold sweepAmountMilliViz
    rw [if_pos ⟨rfl, hrow.direction⟩, hrow.amount, hrow.remoteChain]
    rfl
  unfold planChildren childCtx
  simp only [hsweep]
  rw [if_pos ⟨trivial, hrow.direction, hbase⟩]

theorem planChildren_refund
    (hrow : RowOf (canonicalPegIn L.digestOf d) .pegIn d.remoteChain d.sender rec)
    (hd : WellFormedDeposit d) :
    planChildren rec .refunding (childCtx deps rec .refunding)
      = if d.amountMilliViz ≤ deps.fees.refundFeeMilliViz then []
        else [childOf rec ":refund" .refund d.sender
          (d.amountMilliViz - deps.fees.refundFeeMilliViz)] := by
  have hamt : rec.amountMilliViz = d.amountMilliViz := hrow.amount
  unfold planChildren childCtx
  simp only [hrow.sender, truthy_eq_some.2 ⟨rfl, hd.sender_ne⟩, hrow.direction, hamt,
    refundAmount_eq_zero, reduceCtorEq, false_and, and_self, ↓reduceIte]
  split_ifs with hdust
  · rfl
  · rw [refundAmount_of_lt (Int.not_le.1 hdust)]

theorem planChildren_return
    (hrow : RowOf (canonicalPegOut L.digestOf b) .pegOut b.chain b.sender rec)
    (hb : WellFormedBurn b) (herr : rec.lastError = some "RETURN_INVALID_DEST") :
    planChildren rec .refunding (childCtx deps rec .refunding)
      = if b.amountMilliViz ≤ deps.fees.refundFeeMilliViz then []
        else [childOf rec ":return" .gramReturn b.sender
          (b.amountMilliViz - deps.fees.refundFeeMilliViz)] := by
  have hamt : rec.amountMilliViz = b.amountMilliViz := hrow.amount
  unfold planChildren childCtx
  simp only [hrow.sender, truthy_eq_some.2 ⟨rfl, hb.sender_ne⟩, hrow.direction, hamt, herr,
    refundAmount_eq_zero, reduceCtorEq, false_and, and_false, and_self, ↓reduceIte]
  split_ifs with hdust
  · rfl
  · rw [refundAmount_of_lt (Int.not_le.1 hdust)]

/-! ## Agreement -/

/-- A fee sweep is accepted exactly when it is the planned one. -/
theorem validateFeeSweep_iff_planned
    (hread : getDeposit L deps.reader view.viz d.trxId d.opIndex hint = .ok (some d))
    (hrow : RowOf (canonicalPegIn L.digestOf d) .pegIn d.remoteChain d.sender rec)
    (hbase : 0 < baseFee d.amountMilliViz (pegInFeePolicyFor deps.fees d.remoteChain))
    (hdir : a.direction ≠ .known .pegIn) (hnames : NamesDeposit a feeSweepSuffix d) :
    validateAction L deps view a hint = .ok ()
      ↔ ∃ c ∈ planChildren rec .confirmed (childCtx deps rec .confirmed),
          SameFields a (childAction c) := by
  rw [validateAction_eq_ok, validateActionInner_fee hdir hnames.1, validateFeeSweep_eq_ok,
    planChildren_fee hrow hbase]
  simp only [reReadParentPegIn_iff hread hnames, List.mem_singleton, exists_eq_left]
  unfold SameFields childAction recordToAction childOf EnqueueInput.toRecord
  simp only [hrow.id, hrow.remoteChain, hrow.digest, Option.map_some]
  constructor
  · rintro ⟨d', p, ⟨rfl, rfl, hid⟩, hch, hrec, hdig, hamt⟩
    exact ⟨hid, hch, hrec, hamt, hdig⟩
  · rintro ⟨hid, hch, hrec, hamt, hdig⟩
    exact ⟨d, _, ⟨rfl, rfl, hid⟩, hch, hrec, hdig, hamt⟩

/-- A refund is accepted exactly when it is the planned one; dust has neither. -/
theorem validateRefund_iff_planned (hd : WellFormedDeposit d)
    (hread : getDeposit L deps.reader view.viz d.trxId d.opIndex hint = .ok (some d))
    (hrow : RowOf (canonicalPegIn L.digestOf d) .pegIn d.remoteChain d.sender rec)
    (hdir : a.direction ≠ .known .pegIn) (hnames : NamesDeposit a refundSuffix d) :
    validateAction L deps view a hint = .ok ()
      ↔ ∃ c ∈ planChildren rec .refunding (childCtx deps rec .refunding),
          SameFields a (childAction c) := by
  rw [validateAction_eq_ok, validateActionInner_refund hdir hnames.1, validateRefund_eq_ok,
    planChildren_refund hrow hd]
  simp only [reReadParentPegIn_iff hread hnames]
  constructor
  · rintro ⟨d', p, ⟨rfl, rfl, hid⟩, hch, hrec, hpos, hamt, hdig⟩
    rw [if_neg (by omega)]
    refine ⟨_, List.mem_singleton.2 rfl, ?_⟩
    unfold SameFields childAction recordToAction childOf EnqueueInput.toRecord
    simp only [hrow.id, hrow.remoteChain, hrow.digest, Option.map_some]
    exact ⟨hid, hch, hrec, hamt, hdig⟩
  · rintro ⟨c, hc, hsame⟩
    split_ifs at hc with hdust
    · simp at hc
    · rw [List.mem_singleton] at hc
      subst hc
      unfold SameFields childAction recordToAction childOf EnqueueInput.toRecord at hsame
      simp only [hrow.id, hrow.remoteChain, hrow.digest, Option.map_some] at hsame
      obtain ⟨hid, hch, hrec, hamt, hdig⟩ := hsame
      exact ⟨d, _, ⟨rfl, rfl, hid⟩, hch, hrec, by omega, hamt, hdig⟩

/-- A return is accepted exactly when it is the planned one and the burn's destination does not
exist; dust has neither. -/
theorem validateGramReturn_iff_planned (hb : WellFormedBurn b)
    (hread : getBurn L view.gram b.sourceId = .ok (some b))
    (hrow : RowOf (canonicalPegOut L.digestOf b) .pegOut b.chain b.sender rec)
    (herr : rec.lastError = some "RETURN_INVALID_DEST")
    (hdir : a.direction ≠ .known .pegIn) (hnames : NamesBurn a b) :
    validateAction L deps view a hint = .ok ()
      ↔ (∃ c ∈ planChildren rec .refunding (childCtx deps rec .refunding),
            SameFields a (childAction c))
        ∧ accountExists view.viz b.homeDestination = .ok false := by
  have hid : a.id = b.sourceId ++ returnSuffix := by
    rw [← hnames.2, dropEnd_append_of_endsWith hnames.1]
  rw [validateAction_eq_ok, validateActionInner_return hdir hnames.1, validateGramReturn_eq_ok,
    planChildren_return hrow hb herr, hnames.2, hread]
  simp only [hb.hash, true_and, Except.ok.injEq, Option.some.injEq]
  constructor
  · rintro ⟨b', rfl, hdest, hch, hrec, hpos, hamt, hdig⟩
    refine ⟨?_, hdest⟩
    rw [if_neg (by omega)]
    refine ⟨_, List.mem_singleton.2 rfl, ?_⟩
    unfold SameFields childAction recordToAction childOf EnqueueInput.toRecord
    simp only [hrow.id, hrow.remoteChain, hrow.digest, Option.map_some]
    exact ⟨hid, hch, hrec, hamt, hdig⟩
  · rintro ⟨⟨c, hc, hsame⟩, hdest⟩
    split_ifs at hc with hdust
    · simp at hc
    · rw [List.mem_singleton] at hc
      subst hc
      unfold SameFields childAction recordToAction childOf EnqueueInput.toRecord at hsame
      simp only [hrow.id, hrow.remoteChain, hrow.digest, Option.map_some] at hsame
      obtain ⟨-, hch, hrec, hamt, hdig⟩ := hsame
      exact ⟨b, rfl, hdest, hch, hrec, by omega, hamt, hdig⟩

/-- For a final deposit, a final burn and the rows built from them, every kind of child is accepted
exactly when it is the one the dispatcher plans, a return only while its destination does not
exist; a dust parent has no refund or return at all. -/
theorem validateAction_iff_planned {out : OutboxRecord} (hd : WellFormedDeposit d)
    (hread : getDeposit L deps.reader view.viz d.trxId d.opIndex hint = .ok (some d))
    (hrow : RowOf (canonicalPegIn L.digestOf d) .pegIn d.remoteChain d.sender rec)
    (hb : WellFormedBurn b) (hburn : getBurn L view.gram b.sourceId = .ok (some b))
    (hout : RowOf (canonicalPegOut L.digestOf b) .pegOut b.chain b.sender out)
    (herr : out.lastError = some "RETURN_INVALID_DEST") :
    (∀ a : CanonicalAction, a.direction ≠ .known .pegIn → NamesDeposit a feeSweepSuffix d →
        0 < baseFee d.amountMilliViz (pegInFeePolicyFor deps.fees d.remoteChain) →
        (validateAction L deps view a hint = .ok ()
          ↔ ∃ c ∈ planChildren rec .confirmed (childCtx deps rec .confirmed),
              SameFields a (childAction c)))
      ∧ (∀ a : CanonicalAction, a.direction ≠ .known .pegIn → NamesDeposit a refundSuffix d →
        (validateAction L deps view a hint = .ok ()
          ↔ ∃ c ∈ planChildren rec .refunding (childCtx deps rec .refunding),
              SameFields a (childAction c)))
      ∧ (∀ a : CanonicalAction, a.direction ≠ .known .pegIn → NamesBurn a b →
        (validateAction L deps view a hint = .ok ()
          ↔ (∃ c ∈ planChildren out .refunding (childCtx deps out .refunding),
                SameFields a (childAction c))
            ∧ accountExists view.viz b.homeDestination = .ok false))
      ∧ (d.amountMilliViz ≤ deps.fees.refundFeeMilliViz →
        planChildren rec .refunding (childCtx deps rec .refunding) = []
          ∧ ∀ a : CanonicalAction, a.direction ≠ .known .pegIn → NamesDeposit a refundSuffix d →
              validateAction L deps view a hint ≠ .ok ())
      ∧ (b.amountMilliViz ≤ deps.fees.refundFeeMilliViz →
        planChildren out .refunding (childCtx deps out .refunding) = []
          ∧ ∀ a : CanonicalAction, a.direction ≠ .known .pegIn → NamesBurn a b →
              validateAction L deps view a hint ≠ .ok ()) := by
  refine ⟨fun a hdir hn hbase => validateFeeSweep_iff_planned hread hrow hbase hdir hn,
    fun a hdir hn => validateRefund_iff_planned hd hread hrow hdir hn,
    fun a hdir hn => validateGramReturn_iff_planned hb hburn hout herr hdir hn, ?_, ?_⟩
  · intro hdust
    have hnil : planChildren rec .refunding (childCtx deps rec .refunding) = [] := by
      rw [planChildren_refund hrow hd, if_pos hdust]
    refine ⟨hnil, fun a hdir hn hacc => ?_⟩
    obtain ⟨c, hc, -⟩ := (validateRefund_iff_planned hd hread hrow hdir hn).1 hacc
    simp [hnil] at hc
  · intro hdust
    have hnil : planChildren out .refunding (childCtx deps out .refunding) = [] := by
      rw [planChildren_return hout hb herr, if_pos hdust]
    refine ⟨hnil, fun a hdir hn hacc => ?_⟩
    obtain ⟨⟨c, hc, -⟩, -⟩ := (validateGramReturn_iff_planned hb hburn hout herr hdir hn).1 hacc
    simp [hnil] at hc

/-- The rows of the sample deposit and burn. -/
def sampleRow : OutboxRecord :=
  EnqueueInput.toRecord
    { id := sampleDeposit.id, direction := .pegIn, remoteChain := some .gram
      recipient := sampleRecipient, sender := some "alice", amountMilliViz := 250000
      digest := (canonicalPegIn sampleLibs.digestOf sampleDeposit).digest } 0

def sampleOutRow : OutboxRecord :=
  EnqueueInput.toRecord
    { id := sampleBurnHash, direction := .pegOut, remoteChain := some .gram
      recipient := "carol", sender := some sampleSender, amountMilliViz := 120000
      digest := (canonicalPegOut sampleLibs.digestOf sampleBurn).digest
      lastError := some "RETURN_INVALID_DEST" } 0

theorem sampleRow_rowOf :
    RowOf (canonicalPegIn sampleLibs.digestOf sampleDeposit) .pegIn .gram "alice" sampleRow := by
  constructor <;> simp only [sampleRow, EnqueueInput.toRecord, canonicalPegIn, sampleDeposit]

theorem sampleOutRow_rowOf :
    RowOf (canonicalPegOut sampleLibs.digestOf sampleBurn) .pegOut .gram sampleSender
      sampleOutRow := by
  constructor <;> simp only [sampleOutRow, EnqueueInput.toRecord, canonicalPegOut, sampleBurn]

/-- On the sample nodes: the planned refund of the deposit is accepted. -/
theorem validateAction_iff_planned_sample :
    validateAction sampleLibs sampleDeps (sampleView [])
      (childAction (childOf sampleRow ":refund" .refund "alice" 245000)) none = .ok () := by
  have hread : getDeposit sampleLibs sampleDeps.reader (sampleView []).viz sampleDeposit.trxId
      sampleDeposit.opIndex none = .ok (some sampleDeposit) := by decide +kernel
  have hburn : getBurn sampleLibs (sampleView []).gram sampleBurn.sourceId
      = .ok (some sampleBurn) := by decide +kernel
  have hagree := validateAction_iff_planned ⟨by decide, by decide, by decide⟩ hread
    sampleRow_rowOf ⟨by decide +kernel, by decide⟩ hburn sampleOutRow_rowOf rfl
  have hplan : planChildren sampleRow .refunding (childCtx sampleDeps sampleRow .refunding)
      = [childOf sampleRow ":refund" .refund "alice" 245000] := by decide +kernel
  refine (hagree.2.1 _ (by decide) ⟨by decide +kernel, by decide +kernel⟩).2 ⟨_, ?_,
    ⟨rfl, rfl, rfl, rfl, rfl⟩⟩
  rw [hplan]
  exact List.mem_singleton_self _

end VizGateway
