import VizGateway.Proofs.SameId

/-!
# Exclusive payouts of one event

A deposit is minted, and its fee swept, or refunded; a burn is released or returned. The ledger is
keyed by action id, so nothing in the signer relates one payout to its rivals. What it authorises
excludes its rivals when no rival's row stands for something that can still land.
-/

namespace VizGateway

open Checks Text Runs

/-- Payouts of which an event gets one. -/
inductive Exclusive : String → String → Prop
  | mintRefund (id : String) : Exclusive id (id ++ refundSuffix)
  | sweepRefund (id : String) : Exclusive (id ++ feeSweepSuffix) (id ++ refundSuffix)
  | releaseReturn (hash : String) : Exclusive hash (hash ++ returnSuffix)

def Rivals (a b : String) : Prop := Exclusive a b ∨ Exclusive b a

theorem append_ne_self {s t : String} (ht : t ≠ "") : s ≠ s ++ t := by
  intro h
  have h' := congrArg String.toList h
  rw [String.toList_append, List.self_eq_append_right] at h'
  exact ht (String.toList_inj.1 h')

theorem Exclusive.ne {a b : String} (h : Exclusive a b) : a ≠ b := by
  cases h with
  | mintRefund => exact append_ne_self (by decide)
  | sweepRefund => exact fun h => absurd (append_left_cancel h) (by decide)
  | releaseReturn => exact append_ne_self (by decide)

theorem not_rivals_self (a : String) : ¬ Rivals a a := fun h => h.elim (·.ne rfl) (·.ne rfl)

theorem Rivals.symm {a b : String} (h : Rivals a b) : Rivals b a := Or.symm h

/-! ## What a run assumes and what it asks for -/

section

variable {L : Libs}

/-- The nodes answer truthfully: of the source events, of the head time, of what landed. -/
def TruthfulAt (L : Libs) (G : Ledger) (s : SignerWorld) : SignerEvent → Prop
  | .approve view _ => Truthful L G view.nodes
      ∧ (∀ ms, headBlockTimeMs L view.nodes.viz = .ok ms → ms ≤ s.headMs)
      ∧ ∀ bytes ∈ s.landed, releaseLanded view.nodes.viz (L.trxHash bytes) = true
  | _ => True

/-- The row stands for a release that never landed and never will. -/
def SignerWorld.DeadRow (L : Libs) (s : SignerWorld) (row : SignedProposal) : Prop :=
  startsWith row.key vizKeyPrefix = true ∧ row.expiresAtMs < s.headMs
    ∧ ∀ bytes ∈ s.landed, row.key ≠ releaseKey L bytes

/-- A swept deposit covers its base fee. -/
def CoversFee (L : Libs) (deps : SourceValidatorDeps) (view : NodeView) (action : CanonicalAction)
    (hint : Option ℕ) : Prop :=
  ∀ d parent, reReadParentPegIn L deps view action feeSweepSuffix hint = .ok (d, parent) →
    baseFee d.amountMilliViz (pegInFeePolicyFor deps.fees d.remoteChain) ≤ d.amountMilliViz

/-- The request is keyed by the shape it is signed by, the ledger holds no live row of a rival, and
a swept deposit covers its fee. -/
def Unrivalled (cfg : SignerConfig) (L : Libs) (s : SignerWorld) : SignerEvent → Prop
  | .approve view req => ∀ action, actionFromWire req.action = some action →
      ShapeFits action req.proposal ∧ (VizShaped req.proposal → hasGrapheneTime req.proposal)
        ∧ (∀ rival row, Rivals rival action.id → s.ledger rival = some row → s.DeadRow L row)
        ∧ CoversFee L cfg.deps view.nodes action (hintFromRequest req)
  | _ => True

/-! ## What was authorised -/

def Authorised.Dead (R : ReleaseChain L) (s : SignerWorld) (e : Authorised) : Prop :=
  ∃ bytes, e.effect = .vizRelease bytes ∧ s.Dead R bytes

/-- The effects fill one slot on their chain: one transaction, one order address, one message. -/
def SameSlot : Effect → Effect → Prop
  | .vizRelease b, .vizRelease b' => b = b'
  | .gramOrder a _, .gramOrder a' _ => a = a'
  | .solanaMint m, .solanaMint m' => m = m'
  | _, _ => False

/-- An authorised effect came out of a request on truthful nodes. -/
structure Sourced (L : Libs) (cfg : SignerConfig) (G : Ledger) (e : Authorised) : Prop where
  request : ∃ view action p hint, Truthful L G view.nodes
    ∧ routeApproval L cfg view action p hint = .ok e.effect ∧ e.actionId = action.id
    ∧ e.payout = payoutOf cfg action p ∧ CoversFee L cfg.deps view.nodes action hint

structure ExclusiveInv (R : ReleaseChain L) (cfg : SignerConfig) (G : Ledger) (s : SignerWorld) :
    Prop where
  keyed : ∀ id, Keyed R s id
  sourced : ∀ e ∈ s.authorised, Sourced L cfg G e
  rivals : s.authorised.Pairwise fun later earlier =>
    Rivals earlier.actionId later.actionId → earlier.Dead R s

end

section

variable {L : Libs} {R : ReleaseChain L} {cfg : SignerConfig} {G : Ledger} {s : SignerWorld}
  {e f : Authorised} {ev : SignerEvent}

theorem exclusiveInv_init (landed : List (List UInt8)) (headMs : ℤ) :
    ExclusiveInv R cfg G (.init landed headMs) where
  keyed := fun _ => keyed_init landed headMs
  sourced := by simp [SignerWorld.init]
  rivals := List.Pairwise.nil

theorem requestMeets_of_truthful (ht : TruthfulAt L G s ev) (hu : Unrivalled cfg L s ev)
    (id : String) : RequestMeets L id s ev := by
  cases ev with
  | land bytes => trivial
  | advance ms => trivial
  | approve view req =>
    intro action row haction _ _
    obtain ⟨hfits, htime, -, -⟩ := hu action haction
    refine ⟨hfits, htime, fun prev _ _ ms hms hlt => ?_⟩
    obtain ⟨-, hhead, hland⟩ := ht
    have := hhead ms hms
    refine ⟨by unfold vizExpiryMarginMs at hlt; omega, fun bytes hb hkey => ?_⟩
    rw [prevTxid_viz hkey]
    exact hland bytes hb

/-- A new request's rivals are all dead. -/
theorem dead_of_deadRow (hs : Keyed R s e.actionId) (he : e ∈ s.authorised)
    (hrow : ∀ row, s.ledger e.actionId = some row → s.DeadRow L row) : e.Dead R s := by
  obtain ⟨row, hr, hkeyed | hdead⟩ := hs.effect he rfl
  · obtain ⟨hviz, hexp, hland⟩ := hrow row hr
    obtain ⟨bytes, heff, hkey⟩ := hkeyed.release hviz
    have := hs.expiry hr hkey
    exact ⟨bytes, heff, fun hmem => hland bytes hmem hkey, by omega⟩
  · exact hdead

theorem Authorised.Dead.step (h : e.Dead R s) (ev : SignerEvent) : e.Dead R (s.step R cfg ev) := by
  obtain ⟨bytes, heff, hd⟩ := h
  exact ⟨bytes, heff, hd.step ev⟩

theorem authorisedBy_cases (req : ApproveRequest) (r : Except String Approval) :
    authorisedBy cfg req r = [] ∨ ∃ e, authorisedBy cfg req r = [e] := by
  unfold authorisedBy
  split
  · exact .inr ⟨_, rfl⟩
  · exact .inl rfl

/-- A new effect comes out of the request, with every rival authorised before dead. -/
theorem new_of_approve (hinv : ExclusiveInv R cfg G s) {view : RequestView} {req : ApproveRequest}
    (ht : TruthfulAt L G s (.approve view req)) (hu : Unrivalled cfg L s (.approve view req))
    (he : e ∈ authorisedBy cfg req (approve L cfg view s.ledger req).1) :
    Sourced L cfg G e
      ∧ ∀ old ∈ s.authorised, Rivals old.actionId e.actionId → old.Dead R s := by
  obtain ⟨a, action', hok, haction', heid, heff, hpay⟩ := mem_authorisedBy he
  obtain ⟨action, row, haction, -, -, haid, hroute⟩ := approve_eq_ok hok
  rw [haction, Option.some.injEq] at haction'
  subst haction'
  obtain ⟨-, -, hrivals, hcovers⟩ := hu action haction
  refine ⟨⟨view, action, req.proposal, _, ht.1, heff ▸ hroute, heid.trans haid, hpay, hcovers⟩, ?_⟩
  intro old hold hr
  rw [heid, haid] at hr
  exact dead_of_deadRow (hinv.keyed _) hold fun row hrow => hrivals _ row hr hrow

theorem ExclusiveInv.step (htrx : Function.Injective L.trxHash) (hinv : ExclusiveInv R cfg G s)
    (ht : TruthfulAt L G s ev) (hu : Unrivalled cfg L s ev) :
    ExclusiveInv R cfg G (s.step R cfg ev) := by
  have hkeyed : ∀ id, Keyed R (s.step R cfg ev) id := fun id =>
    (hinv.keyed id).step htrx ev (requestMeets_of_truthful ht hu id)
  have hold : s.authorised.Pairwise fun later earlier =>
      Rivals earlier.actionId later.actionId → earlier.Dead R (s.step R cfg ev) :=
    hinv.rivals.imp fun h hr => (h hr).step ev
  cases ev with
  | land bytes =>
    have ha : (s.step R cfg (.land bytes)).authorised = s.authorised := by
      unfold SignerWorld.step
      dsimp only
      split_ifs <;> rfl
    exact ⟨hkeyed, ha ▸ hinv.sourced, ha ▸ hold⟩
  | advance ms => exact ⟨hkeyed, hinv.sourced, hold⟩
  | approve view req =>
    have ha : (s.step R cfg (.approve view req)).authorised
        = authorisedBy cfg req (approve L cfg view s.ledger req).1 ++ s.authorised := rfl
    have hnew : ∀ e ∈ authorisedBy cfg req (approve L cfg view s.ledger req).1, _ :=
      fun e he => new_of_approve hinv ht hu he
    refine ⟨hkeyed, fun e he => ?_, ?_⟩
    · rw [ha, List.mem_append] at he
      exact he.elim (fun he => (hnew e he).1) (hinv.sourced e)
    · rw [ha, List.pairwise_append]
      refine ⟨?_, hold, fun e he old hmem hr => ((hnew e he).2 old hmem hr).step _⟩
      rcases authorisedBy_cases req (approve L cfg view s.ledger req).1 with hnil | ⟨e, hone⟩
      · rw [hnil]
        exact List.Pairwise.nil
      · rw [hone]
        exact List.pairwise_singleton _ _

/-! ## What an event pays -/

theorem routeApproval_valid {view : RequestView} {action : CanonicalAction} {p : JsonObject}
    {hint : Option ℕ} {effect : Effect} (h : routeApproval L cfg view action p hint = .ok effect) :
    validateAction L cfg.deps view.nodes action hint = .ok () := by
  rcases routeApproval_eq_ok h with ⟨-, -, h⟩ | ⟨-, h⟩ | ⟨-, -, -, h⟩ | ⟨-, -, -, -, h⟩
  · exact (approveGramReturn_eq_ok h).2.1
  · exact (signVizRelease_eq_ok h).2.1
  · exact (approveSolanaMint_eq_ok h).2.1
  · exact (approveGramMint_eq_ok h).2.1

/-- A deposit that truthful nodes show. -/
def ShownDeposit (L : Libs) (deps : SourceValidatorDeps) (G : Ledger) (d : VizDeposit) : Prop :=
  WellFormedDeposit d ∧ ∃ view hint, Truthful L G view
    ∧ getDeposit L deps.reader view.viz d.trxId d.opIndex hint = .ok (some d)

/-- A burn that truthful nodes show. -/
def ShownBurn (L : Libs) (G : Ledger) (b : RemoteBurn) : Prop :=
  WellFormedBurn b ∧ ∃ view, Truthful L G view ∧ getBurn L view.gram b.sourceId = .ok (some b)

variable {d : VizDeposit} {b : RemoteBurn} {action : CanonicalAction} {p : JsonObject}
  {deps : SourceValidatorDeps} {view : NodeView} {hint : Option ℕ}

/-- The mint of a deposit pays its net. -/
theorem payout_mint (he : Sourced L cfg G e) (hd : ShownDeposit L cfg.deps G d)
    (hid : e.actionId = d.id) :
    ∃ flag, e.payout = derivedNet cfg.deps.fees d.remoteChain d.amountMilliViz flag := by
  obtain ⟨view, action, p, hint, ht, hroute, heid, hpay, -⟩ := he
  obtain ⟨hwf, view', hint', ht', hread⟩ := hd
  have hval := routeApproval_valid hroute
  have hkey : splitSourceId action.id = some (d.trxId, d.opIndex) := by
    rw [← heid, hid, splitSourceId_id hwf]
  have hdir := pegIn_ne_pegOut hkey hval
  rw [validateAction_eq_ok, validateActionInner, if_pos hdir] at hval
  obtain ⟨key, d', hkey', hd', -, rfl⟩ := validatePegIn_eq_ok.1 hval
  rw [hkey, Option.some.injEq] at hkey'
  subst hkey'
  obtain ⟨n, rfl⟩ := getDeposit_unique ht' ht hread hd'
  refine ⟨jsTruthy (p.get "destProvisioned"), ?_⟩
  rw [hpay, payoutOf, if_pos hdir]
  have hchain : ∀ chain, otherChain (canonicalPegIn L.digestOf { d with blockNum := n }) chain = false →
      chain = d.remoteChain := by
    intro chain hc
    have h := otherChain_eq_false hc rfl
    exact (Wire.known.inj h).symm
  rcases routeApproval_eq_ok hroute with ⟨h, -⟩ | ⟨h, -⟩ | ⟨-, hs, hc, -⟩ | ⟨-, hs, -, hc, -⟩
  · simp [canonicalPegIn] at h
  · simp [canonicalPegIn] at h
  · rw [if_pos hs, hchain _ hc]
    rfl
  · rw [if_neg (by simp [hs]), hchain _ hc]
    rfl

theorem payout_child (hdir : action.direction ≠ .known .pegIn) :
    payoutOf cfg action p = action.amountMilliViz := if_neg hdir

/-- A suffixed id is not a mint's. -/
theorem not_pegIn_of_suffix {suffix : String} {c : Char} (hs : suffix.toList.getLast? = some c)
    (hc : c.isDigit = false) (hsuf : endsWith action.id suffix = true)
    (hval : validateAction L deps view action hint = .ok ()) :
    action.direction ≠ .known .pegIn := by
  intro hdir
  rw [validateAction_eq_ok, validateActionInner, if_pos hdir] at hval
  obtain ⟨key, d, hkey, -⟩ := validatePegIn_eq_ok.1 hval
  rw [splitSourceId_endsWith hkey hs hc] at hsuf
  exact Bool.false_ne_true hsuf

theorem not_pegIn_of_colon (hcolon : ':' ∉ action.id.toList)
    (hval : validateAction L deps view action hint = .ok ()) :
    action.direction ≠ .known .pegIn := by
  intro hdir
  rw [validateAction_eq_ok, validateActionInner, if_pos hdir] at hval
  obtain ⟨key, d, hkey, -⟩ := validatePegIn_eq_ok.1 hval
  exact hcolon (colon_of_splitSourceId hkey)

/-- The sweep of a deposit pays its base fee, which the deposit covers. -/
theorem payout_sweep (he : Sourced L cfg G e) (hd : ShownDeposit L cfg.deps G d)
    (hid : e.actionId = d.id ++ feeSweepSuffix) :
    e.payout = baseFee d.amountMilliViz (pegInFeePolicyFor cfg.deps.fees d.remoteChain)
      ∧ e.payout ≤ d.amountMilliViz := by
  obtain ⟨view, action, p, hint, ht, hroute, heid, hpay, hcov⟩ := he
  obtain ⟨hwf, view', hint', ht', hread⟩ := hd
  have hval := routeApproval_valid hroute
  rw [heid] at hid
  have hsuf : endsWith action.id feeSweepSuffix = true := by rw [hid, endsWith_append]
  have hdir := not_pegIn_of_suffix (c := 'e') rfl rfl hsuf hval
  rw [validateAction_eq_ok, validateActionInner_fee hdir hsuf] at hval
  obtain ⟨d', parent, hread', -, -, -, hamt⟩ := validateFeeSweep_eq_ok.1 hval
  have hle := hcov d' parent hread'
  obtain ⟨key, hkey, hd', -, -⟩ := reReadParentPegIn_eq_ok.1 hread'
  rw [hid, dropEnd_append _ _ _ rfl, splitSourceId_id hwf, Option.some.injEq] at hkey
  subst hkey
  obtain ⟨n, rfl⟩ := getDeposit_unique ht' ht hread hd'
  rw [hpay, payout_child hdir, hamt]
  exact ⟨rfl, hle⟩

/-- The refund of a deposit pays it less the refund fee. -/
theorem payout_refund (he : Sourced L cfg G e) (hd : ShownDeposit L cfg.deps G d)
    (hid : e.actionId = d.id ++ refundSuffix) :
    e.payout = d.amountMilliViz - cfg.deps.fees.refundFeeMilliViz := by
  obtain ⟨view, action, p, hint, ht, hroute, heid, hpay, -⟩ := he
  obtain ⟨hwf, view', hint', ht', hread⟩ := hd
  have hval := routeApproval_valid hroute
  rw [heid] at hid
  have hsuf : endsWith action.id refundSuffix = true := by rw [hid, endsWith_append]
  have hdir := not_pegIn_of_suffix (c := 'd') rfl rfl hsuf hval
  rw [validateAction_eq_ok, validateActionInner_refund hdir hsuf] at hval
  obtain ⟨d', parent, hread', -, -, -, hamt, -⟩ := validateRefund_eq_ok.1 hval
  obtain ⟨key, hkey, hd', -, -⟩ := reReadParentPegIn_eq_ok.1 hread'
  rw [hid, dropEnd_append _ _ _ rfl, splitSourceId_id hwf, Option.some.injEq] at hkey
  subst hkey
  obtain ⟨n, rfl⟩ := getDeposit_unique ht' ht hread hd'
  rw [hpay, payout_child hdir, hamt]

/-- A burn's hash is no deposit id, no child id and no signature. -/
theorem hash_shape {id : String} (h : looksLikeTonTxHash id = true) :
    id.toList.length = 64 ∧ ':' ∉ id.toList := by
  unfold looksLikeTonTxHash at h
  rw [Bool.and_eq_true, beq_iff_eq, List.all_eq_true] at h
  exact ⟨h.1, fun hc => absurd (h.2 _ hc) (by decide)⟩

theorem colon_of_endsWith {id suffix : String} (hc : ':' ∈ suffix.toList)
    (h : endsWith id suffix = true) : ':' ∈ id.toList := by
  obtain ⟨r, rfl⟩ := endsWith_iff.1 h
  rw [String.toList_append, List.mem_append]
  exact .inr hc

/-- The release of a burn pays it. -/
theorem payout_release (he : Sourced L cfg G e) (hb : ShownBurn L G b)
    (hid : e.actionId = b.sourceId) : e.payout = b.amountMilliViz := by
  obtain ⟨view, action, p, hint, ht, hroute, heid, hpay, -⟩ := he
  obtain ⟨hwf, view', ht', hread⟩ := hb
  have hval := routeApproval_valid hroute
  rw [heid] at hid
  obtain ⟨hlen, hcolon⟩ := hash_shape hwf.hash
  rw [← hid] at hlen hcolon hread
  have hsuffix : ∀ {suffix : String}, ':' ∈ suffix.toList → endsWith action.id suffix = false :=
    fun hc => Bool.eq_false_iff.2 fun h => hcolon (colon_of_endsWith hc h)
  have hdir := not_pegIn_of_colon hcolon hval
  have hsol : looksLikeSolanaSignature action.id = false := by
    simp [looksLikeSolanaSignature, hlen]
  rw [validateAction_eq_ok, validateActionInner, if_neg hdir,
    hsuffix (show ':' ∈ feeSweepSuffix.toList by decide),
    hsuffix (show ':' ∈ refundSuffix.toList by decide),
    hsuffix (show ':' ∈ returnSuffix.toList by decide), hsol, hid, hwf.hash] at hval
  simp only [Bool.false_eq_true, ↓reduceIte] at hval
  obtain ⟨b', hb', ha⟩ := validateTonPegOut_eq_ok.1 hval
  obtain ⟨n, rfl⟩ := getBurn_unique ht' ht hread hb'
  rw [hpay, payout_child hdir, ha]
  rfl

/-- The return of a burn pays it less the refund fee. -/
theorem payout_return (he : Sourced L cfg G e) (hb : ShownBurn L G b)
    (hid : e.actionId = b.sourceId ++ returnSuffix) :
    e.payout = b.amountMilliViz - cfg.deps.fees.refundFeeMilliViz := by
  obtain ⟨view, action, p, hint, ht, hroute, heid, hpay, -⟩ := he
  obtain ⟨hwf, view', ht', hread⟩ := hb
  have hval := routeApproval_valid hroute
  rw [heid] at hid
  have hsuf : endsWith action.id returnSuffix = true := by rw [hid, endsWith_append]
  have hdir := not_pegIn_of_suffix (c := 'n') rfl rfl hsuf hval
  rw [validateAction_eq_ok, validateActionInner_return hdir hsuf] at hval
  obtain ⟨-, b', hb', -, -, -, -, hamt, -⟩ := validateGramReturn_eq_ok.1 hval
  rw [hid, dropEnd_append _ _ _ rfl] at hb'
  obtain ⟨n, rfl⟩ := getBurn_unique ht' ht hread hb'
  rw [hpay, payout_child hdir, hamt]

/-- The release of a Solana deposit pays it. -/
theorem payout_solana (he : Sourced L cfg G e)
    (hid : looksLikeSolanaSignature e.actionId = true) : ∃ view ata dep, Truthful L G view
      ∧ view.solana.Final e.actionId ata dep ∧ e.payout = dep.amountBaseUnits := by
  obtain ⟨view, action, p, hint, ht, hroute, heid, hpay, -⟩ := he
  have hval := routeApproval_valid hroute
  rw [heid] at hid ⊢
  have hcolon : ':' ∉ action.id.toList := by
    unfold looksLikeSolanaSignature at hid
    rw [Bool.and_eq_true, List.all_eq_true] at hid
    exact fun hc => absurd (hid.2 _ hc) (by decide)
  have hsuffix : ∀ {suffix : String}, ':' ∈ suffix.toList → endsWith action.id suffix = false :=
    fun hc => Bool.eq_false_iff.2 fun h => hcolon (colon_of_endsWith hc h)
  have hdir := not_pegIn_of_colon hcolon hval
  rw [validateAction_eq_ok, validateActionInner, if_neg hdir,
    hsuffix (show ':' ∈ feeSweepSuffix.toList by decide),
    hsuffix (show ':' ∈ refundSuffix.toList by decide),
    hsuffix (show ':' ∈ returnSuffix.toList by decide), hid] at hval
  simp only [Bool.false_eq_true, ↓reduceIte] at hval
  obtain ⟨-, ata, dep, -, hdep, ha⟩ := validateSolanaPegOut_eq_ok.1 hval
  refine ⟨view.nodes, ata, dep, ht, getDepositTransfer_eq_some hdep, ?_⟩
  rw [hpay, payout_child hdir, ha]
  rfl

/-! ## What holds in every state -/

/-- No fee is negative. -/
structure FeesNonneg (fees : GatewayFeeConfig) : Prop where
  floor : ∀ chain, 0 ≤ (pegInFeePolicyFor fees chain).floorMilliViz
  surcharge : ∀ chain, 0 ≤ (pegInFeePolicyFor fees chain).activationSurchargeMilliViz
  refund : 0 ≤ fees.refundFeeMilliViz

theorem FeesNonneg.activation {fees : GatewayFeeConfig} (h : FeesNonneg fees) (chain : RemoteChainId)
    (flag : Bool) : 0 ≤ activationFee flag (pegInFeePolicyFor fees chain) := by
  unfold activationFee
  split_ifs
  · exact le_rfl
  · exact h.surcharge chain

/-- Of two rivals the earlier one is dead, each id has at most one live slot, and what is live pays
no more than its event. -/
structure Exclusivity (R : ReleaseChain L) (cfg : SignerConfig) (G : Ledger) (s : SignerWorld) :
    Prop where
  rivals : s.authorised.Pairwise fun later earlier =>
    Rivals earlier.actionId later.actionId → earlier.Dead R s
  slot : ∀ e ∈ s.authorised, ∀ f ∈ s.authorised, e.actionId = f.actionId →
    ¬ e.Dead R s → ¬ f.Dead R s → SameSlot e.effect f.effect
  deposit : ∀ d, ShownDeposit L cfg.deps G d → ∀ e ∈ s.authorised,
    e.actionId = d.id ∨ e.actionId = d.id ++ feeSweepSuffix ∨ e.actionId = d.id ++ refundSuffix →
    e.payout ≤ d.amountMilliViz
  mintAndSweep : ∀ d, ShownDeposit L cfg.deps G d → ∀ e ∈ s.authorised, ∀ f ∈ s.authorised,
    e.actionId = d.id → f.actionId = d.id ++ feeSweepSuffix →
    e.payout + f.payout ≤ d.amountMilliViz
  burn : ∀ b, ShownBurn L G b → ∀ e ∈ s.authorised,
    e.actionId = b.sourceId ∨ e.actionId = b.sourceId ++ returnSuffix →
    e.payout ≤ b.amountMilliViz
  solana : ∀ e ∈ s.authorised, looksLikeSolanaSignature e.actionId = true →
    ∃ view ata dep, Truthful L G view ∧ view.solana.Final e.actionId ata dep
      ∧ e.payout = dep.amountBaseUnits

/-- What one key stands for fills one slot. -/
theorem EffectKeyed.sameSlot (htrx : Function.Injective L.trxHash)
    (hsha : Function.Injective L.digestOf) {key : String} {x y : Effect}
    (hx : EffectKeyed L key x) (hy : EffectKeyed L key y) : SameSlot x y := by
  cases x with
  | vizRelease b =>
    obtain ⟨b', rfl, hk⟩ := hy.release (by rw [hx, releaseKey, startsWith_append])
    exact releaseKey_injective htrx (hx.symm.trans hk)
  | gramOrder a body =>
    obtain ⟨s, rfl, hs⟩ := hx
    cases y with
    | vizRelease b => exact absurd hy (append_ne_append (c := 'g') (d := 'v') rfl rfl (by decide) _ _)
    | gramOrder a' body' =>
      obtain ⟨s', hkey, hs'⟩ := hy
      rw [append_left_cancel hkey, hs', Option.some.injEq] at hs
      exact hs.symm
    | solanaMint m => exact absurd hy (append_ne_append (c := 'g') (d := 's') rfl rfl (by decide) _ _)
  | solanaMint m =>
    cases y with
    | vizRelease b =>
      exact absurd (hx.symm.trans hy) (append_ne_append (c := 's') (d := 'v') rfl rfl (by decide) _ _)
    | gramOrder a body =>
      obtain ⟨s, hkey, -⟩ := hy
      exact absurd (hx.symm.trans hkey)
        (append_ne_append (c := 's') (d := 'g') rfl rfl (by decide) _ _)
    | solanaMint m' => exact hsha (append_left_cancel (hx.symm.trans hy))

theorem derivedNet_le (hfees : FeesNonneg cfg.deps.fees) (chain : RemoteChainId) (gross : ℤ)
    (flag : Bool) : derivedNet cfg.deps.fees chain gross flag
      + baseFee gross (pegInFeePolicyFor cfg.deps.fees chain) ≤ gross := by
  have := hfees.activation chain flag
  unfold derivedNet
  omega

theorem ExclusiveInv.exclusivity (htrx : Function.Injective L.trxHash)
    (hsha : Function.Injective L.digestOf) (hfees : FeesNonneg cfg.deps.fees)
    (h : ExclusiveInv R cfg G s) : Exclusivity R cfg G s where
  rivals := h.rivals
  slot := by
    intro e he f hf hid hle hlf
    obtain ⟨row, hr, hk | hd⟩ := (h.keyed e.actionId).effect he rfl
    · obtain ⟨row', hr', hk' | hd'⟩ := (h.keyed e.actionId).effect hf hid.symm
      · rw [hr, Option.some.injEq] at hr'
        subst hr'
        exact hk.sameSlot htrx hsha hk'
      · exact absurd hd' hlf
    · exact absurd hd hle
  deposit := by
    intro d hd e he hid
    have hbase := floor_le_baseFee d.amountMilliViz (pegInFeePolicyFor cfg.deps.fees d.remoteChain)
    have hfloor := hfees.floor d.remoteChain
    rcases hid with hid | hid | hid
    · obtain ⟨flag, hpay⟩ := payout_mint (h.sourced e he) hd hid
      have := derivedNet_le hfees d.remoteChain d.amountMilliViz flag
      omega
    · exact (payout_sweep (h.sourced e he) hd hid).2
    · have := payout_refund (h.sourced e he) hd hid
      have := hfees.refund
      omega
  mintAndSweep := by
    intro d hd e he f hf hid hid'
    obtain ⟨flag, hpay⟩ := payout_mint (h.sourced e he) hd hid
    have := (payout_sweep (h.sourced f hf) hd hid').1
    have := derivedNet_le hfees d.remoteChain d.amountMilliViz flag
    omega
  burn := by
    intro b hb e he hid
    have := hfees.refund
    rcases hid with hid | hid
    · exact (payout_release (h.sourced e he) hb hid).le
    · have := payout_return (h.sourced e he) hb hid
      omega
  solana := fun e he hid => payout_solana (h.sourced e he) hid

/-- While every request finds its rivals' rows absent or dead, no rival of a live payout is ever
authorised and no event is paid more than its gross amount. -/
theorem exclusive_run (htrx : Function.Injective L.trxHash) (hsha : Function.Injective L.digestOf)
    (hfees : FeesNonneg cfg.deps.fees) {landed : List (List UInt8)} {headMs : ℤ}
    {es : List SignerEvent}
    (h : Meets (SignerWorld.step R cfg)
      (fun s ev => TruthfulAt L G s ev ∧ Unrivalled cfg L s ev) (.init landed headMs) es) :
    Exclusivity R cfg G (run (SignerWorld.step R cfg) (.init landed headMs) es) := by
  have hinv := run_inv (fun s ev (hs : ExclusiveInv R cfg G s) hmeets =>
    hs.step htrx hmeets.1 hmeets.2) (exclusiveInv_init landed headMs) h
  exact hinv.exclusivity htrx hsha hfees

end

/-! ## On the sample nodes -/

/-- The sample deposit is minted. -/
def mintedWorld : SignerWorld :=
  run (SignerWorld.step sampleChain sampleConfig) (.init [] 1767225600000)
    [.approve (sampleRequestView []) sampleMintRequest]

/-- Then its refund is signed as well, for more than the deposit together. -/
theorem refund_afterMint :
    Truthful sampleLibs sampleLedger (sampleRequestView []).nodes
      ∧ (⟨sampleDeposit.id, .gramOrder ⟨0, sampleOrderHash⟩
            (.mint ⟨0, sampleRecipientHash⟩ 240000), 240000⟩ : Authorised)
          ∈ mintedWorld.authorised
      ∧ ((approve sampleLibs sampleConfig (sampleRequestView []) mintedWorld.ledger
            sampleRefundRequest).1.map Approval.actionId) = .ok (sampleDeposit.id ++ refundSuffix)
      ∧ payoutOf sampleConfig sampleRefundAction sampleRefundRequest.proposal = 245000
      ∧ sampleDeposit.amountMilliViz = 250000 :=
  ⟨sampleView_truthful [], by decide +kernel, by decide +kernel, by decide +kernel, rfl⟩

theorem sampleFees_nonneg : FeesNonneg sampleConfig.deps.fees where
  floor := by rintro (_ | _) <;> decide
  surcharge := by rintro (_ | _) <;> decide
  refund := by decide

/-- The mint alone is within the deposit. -/
theorem exclusive_run_mint : Exclusivity sampleChain sampleConfig sampleLedger mintedWorld := by
  have haction : actionFromWire sampleMintRequest.action
      = some (canonicalPegIn sampleLibs.digestOf sampleDeposit) := by decide +kernel
  have htruth : TruthfulAt sampleLibs sampleLedger (.init [] 1767225600000)
      (.approve (sampleRequestView []) sampleMintRequest) := by
    refine ⟨sampleView_truthful [], fun ms hms => ?_, fun b hb => absurd hb List.not_mem_nil⟩
    have hhead : headBlockTimeMs sampleLibs (sampleRequestView []).nodes.viz
        = .ok 1767225600000 := by decide +kernel
    rw [hhead, Except.ok.injEq] at hms
    exact hms.ge
  have hunrivalled : Unrivalled sampleConfig sampleLibs (.init [] 1767225600000)
      (.approve (sampleRequestView []) sampleMintRequest) := by
    intro action ha
    rw [haction, Option.some.injEq] at ha
    subst ha
    refine ⟨⟨by decide, by decide⟩, fun h => absurd h.2 (by decide), fun _ _ _ hrow => ?_, ?_⟩
    · simp [SignerWorld.init] at hrow
    · intro d parent hread
      obtain ⟨key, -, -, -, hid⟩ := reReadParentPegIn_eq_ok.1 hread
      have hsuf : endsWith (canonicalPegIn sampleLibs.digestOf sampleDeposit).id
          feeSweepSuffix = true := by rw [hid, endsWith_append]
      exact absurd hsuf (by decide)
  have hmeets : Meets (SignerWorld.step sampleChain sampleConfig)
      (fun s ev => TruthfulAt sampleLibs sampleLedger s ev ∧ Unrivalled sampleConfig sampleLibs s ev)
      (.init [] 1767225600000) [.approve (sampleRequestView []) sampleMintRequest] :=
    ⟨⟨htruth, hunrivalled⟩, trivial⟩
  exact exclusive_run sampleLibs_trxHash sampleLibs_digestOf sampleFees_nonneg hmeets

end VizGateway
