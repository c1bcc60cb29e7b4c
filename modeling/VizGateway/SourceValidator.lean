import VizGateway.Fees
import VizGateway.RemoteChains

/-!
# Source validation

Before any proposal is looked at, the signer re-reads the source event of an action from its own
nodes, rebuilds the canonical action and compares. Every failure, a reader's included, is a
refusal.
-/

namespace VizGateway

open Checks Text

/-- What the operator's own nodes answer at one moment. -/
structure NodeView where
  viz : VizNode
  solana : SolanaNode
  gram : GramNode

/-- The operator's own configuration. -/
structure SourceValidatorDeps where
  reader : VizReader
  depositProgramId : String
  wvizMint : String
  fees : GatewayFeeConfig
  feesGateAccount : String

/-- A refusal: the action deviates from its source, or a reader threw. -/
inductive ValidateError
  | sourceMismatch (message : String)
  | thrown (message : String)
  deriving DecidableEq, Repr

open ValidateError (sourceMismatch thrown)

def feeSweepSuffix : String := ":fee"

def refundSuffix : String := ":refund"

def returnSuffix : String := ":return"

/-- `SOLANA_SIGNATURE_RE`. -/
def looksLikeSolanaSignature (id : String) : Bool :=
  86 ≤ id.toList.length && id.toList.length ≤ 90 && id.toList.all isBase58Char

def isHexChar (c : Char) : Bool :=
  ('0' ≤ c && c ≤ '9') || ('a' ≤ c && c ≤ 'f') || ('A' ≤ c && c ≤ 'F')

/-- `GRAM_TX_HASH_RE`. -/
def looksLikeTonTxHash (id : String) : Bool :=
  id.toList.length == 64 && id.toList.all isHexChar

/-- A peg-in source id `<trxId>:<opIndex>` cut at its first colon. -/
def splitSourceId (id : String) : Option (String × ℕ) :=
  match indexOf id ':' with
  | some (n + 1) =>
    let opStr := dropStr id (n + 2)
    if isDigits opStr then some (takeStr id (n + 1), parseNat opStr) else none
  | _ => none

/-- `assertSameAction`. -/
def assertSameAction (derived wire : CanonicalAction) : Except ValidateError Unit := do
  require (derived.id = wire.id) (sourceMismatch s!"id {wire.id} != source-derived {derived.id}")
  require (derived.direction = wire.direction)
    (sourceMismatch s!"direction {wire.direction.toString Direction.toString} != source-derived {derived.direction.toString Direction.toString} ({wire.id})")
  require (derived.recipient = wire.recipient)
    (sourceMismatch s!"recipient {wire.recipient} != source-derived {derived.recipient} ({wire.id})")
  require (derived.amountMilliViz = wire.amountMilliViz)
    (sourceMismatch s!"amount {wire.amountMilliViz} != source-derived {derived.amountMilliViz} ({wire.id})")
  require (derived.remoteChain = wire.remoteChain)
    (sourceMismatch s!"remoteChain != source-derived ({wire.id})")
  require (derived.digest = wire.digest)
    (sourceMismatch s!"digest {wire.digest} != source-derived {derived.digest} ({wire.id})")

section

variable (L : Libs) (deps : SourceValidatorDeps) (view : NodeView)

/-- `reReadParentPegIn`: the parent deposit a child settles, and the parent action. -/
def reReadParentPegIn (action : CanonicalAction) (suffix : String) (hint : Option ℕ) :
    Except ValidateError (VizDeposit × CanonicalAction) := do
  let parentId := dropEnd action.id suffix.toList.length
  let key ← found (splitSourceId parentId) (sourceMismatch
    s!"malformed {suffix} child id {action.id} (expected <trxId>:<opIndex>{suffix})")
  let deposit? ← (getDeposit L deps.reader view.viz key.1 key.2 hint).mapError thrown
  let deposit ← found deposit? (sourceMismatch
    s!"parent PEG_IN {parentId} for {action.id} not found or not yet irreversible on VIZ")
  let parent := canonicalPegIn L.digestOf deposit
  require (action.id = parent.id ++ suffix) (sourceMismatch
    s!"non-canonical child id {action.id} for parent {parent.id} (canonical is {parent.id}{suffix}) — refusing to sign a duplicate")
  return (deposit, parent)

/-- `validateFeeSweep`. -/
def validateFeeSweep (action : CanonicalAction) (hint : Option ℕ) :
    Except ValidateError Unit := do
  let (deposit, parent) ← reReadParentPegIn L deps view action feeSweepSuffix hint
  require (action.remoteChain = some (.known deposit.remoteChain)) (sourceMismatch
    s!"FEE_SWEEP remoteChain != parent deposit chain {deposit.remoteChain.toString} ({action.id})")
  require (action.recipient = deps.feesGateAccount) (sourceMismatch
    s!"FEE_SWEEP recipient {action.recipient} != operator's own fees.gate {deps.feesGateAccount} ({action.id})")
  require (action.digest = parent.digest ++ feeSweepSuffix) (sourceMismatch
    s!"FEE_SWEEP digest not bound to parent PEG_IN {parent.id} ({action.id})")
  let base := baseFee deposit.amountMilliViz (pegInFeePolicyFor deps.fees deposit.remoteChain)
  require (action.amountMilliViz = base) (sourceMismatch
    s!"FEE_SWEEP amount {action.amountMilliViz} != exact derived base fee {base} for {action.id} (activation surcharge is never swept — retained as gateway backing surplus)")

/-- `validateRefund`. -/
def validateRefund (action : CanonicalAction) (hint : Option ℕ) : Except ValidateError Unit := do
  let (deposit, parent) ← reReadParentPegIn L deps view action refundSuffix hint
  require (action.remoteChain = some (.known deposit.remoteChain)) (sourceMismatch
    s!"REFUND remoteChain != parent deposit chain {deposit.remoteChain.toString} ({action.id})")
  require (action.recipient = deposit.sender) (sourceMismatch
    s!"REFUND recipient {action.recipient} != deposit sender {deposit.sender} ({action.id})")
  let net := deposit.amountMilliViz - deps.fees.refundFeeMilliViz
  require (0 < net) (sourceMismatch
    s!"REFUND {action.id} gross {deposit.amountMilliViz} <= refund fee {deps.fees.refundFeeMilliViz} — dust must be retained, never refunded")
  require (action.amountMilliViz = net) (sourceMismatch
    s!"REFUND amount {action.amountMilliViz} != gross {deposit.amountMilliViz} − refund fee {deps.fees.refundFeeMilliViz} ({action.id})")
  require (action.digest = parent.digest ++ refundSuffix) (sourceMismatch
    s!"REFUND digest not bound to parent PEG_IN {parent.id} ({action.id})")

/-- `validateGramReturn`. -/
def validateGramReturn (action : CanonicalAction) : Except ValidateError Unit := do
  let parentId := dropEnd action.id returnSuffix.toList.length
  require (looksLikeTonTxHash parentId = true) (sourceMismatch
    s!"malformed {returnSuffix} child id {action.id} (expected <tonTxHash>{returnSuffix})")
  let burn? ← (getBurn L view.gram parentId).mapError thrown
  let burn ← found burn? (sourceMismatch
    s!"GRAM_RETURN parent burn {parentId} not found or not yet final on TON ({action.id})")
  let parent := canonicalPegOut L.digestOf burn
  let destination ← (accountExists view.viz burn.homeDestination).mapError thrown
  require (destination = false) (sourceMismatch
    s!"GRAM_RETURN {action.id} destination {burn.homeDestination} exists on VIZ — return unwarranted (release the peg-out, do not return)")
  require (action.remoteChain = some (.known burn.chain)) (sourceMismatch
    s!"GRAM_RETURN remoteChain != burn chain {burn.chain.toString} ({action.id})")
  require (action.recipient = burn.sender) (sourceMismatch
    s!"GRAM_RETURN recipient {action.recipient} != burn sender {burn.sender} ({action.id})")
  let net := burn.amountMilliViz - deps.fees.refundFeeMilliViz
  require (0 < net) (sourceMismatch
    s!"GRAM_RETURN {action.id} gross {burn.amountMilliViz} <= refund fee {deps.fees.refundFeeMilliViz} — dust must be retained, never returned")
  require (action.amountMilliViz = net) (sourceMismatch
    s!"GRAM_RETURN amount {action.amountMilliViz} != gross {burn.amountMilliViz} − refund fee {deps.fees.refundFeeMilliViz} ({action.id})")
  require (action.digest = parent.digest ++ returnSuffix) (sourceMismatch
    s!"GRAM_RETURN digest not bound to parent PEG_OUT {parent.id} ({action.id})")

/-- `validatePegIn`. -/
def validatePegIn (action : CanonicalAction) (hint : Option ℕ) : Except ValidateError Unit := do
  let key ← found (splitSourceId action.id) (sourceMismatch
    s!"malformed PEG_IN source id {action.id} (expected <trxId>:<opIndex>)")
  let deposit? ← (getDeposit L deps.reader view.viz key.1 key.2 hint).mapError thrown
  let deposit ← found deposit? (sourceMismatch
    s!"PEG_IN source {action.id} not found or not yet irreversible on VIZ")
  require (deposit.destinationValid = true) (sourceMismatch
    s!"PEG_IN {action.id} has an invalid/empty destination on VIZ — never mintable (auto-refund only)")
  assertSameAction (canonicalPegIn L.digestOf deposit) action

/-- The burn a Solana deposit transfer stands for, its destination taken from the action. -/
def solanaBurn (action : CanonicalAction) (ata : String) (dep : DepositTransfer) : RemoteBurn where
  chain := .solana
  sourceId := action.id
  height := dep.slot
  sender := ata
  amountMilliViz := dep.amountBaseUnits
  homeDestination := action.recipient

/-- `validateSolanaPegOut`. -/
def validateSolanaPegOut (action : CanonicalAction) : Except ValidateError Unit := do
  require (deps.depositProgramId ≠ "" ∧ deps.wvizMint ≠ "") (sourceMismatch
    s!"SOLANA_DEPOSIT_PROGRAM_ID/SOLANA_WVIZ_MINT not configured; cannot validate Solana peg-out {action.id}")
  let ata ← found (L.depositAta deps.depositProgramId action.recipient deps.wvizMint)
    (thrown "vizAccount required")
  let dep? ← (getDepositTransfer view.solana action.id ata).mapError thrown
  let dep ← found dep? (sourceMismatch
    s!"PEG_OUT deposit {action.id} not found, not yet finalized, or not a wVIZ transfer into {ata} (the deposit ATA derived for {action.recipient}) on Solana")
  assertSameAction (canonicalPegOut L.digestOf (solanaBurn action ata dep)) action

/-- `validateTonPegOut`. -/
def validateTonPegOut (action : CanonicalAction) : Except ValidateError Unit := do
  let burn? ← (getBurn L view.gram action.id).mapError thrown
  let burn ← found burn? (sourceMismatch
    s!"PEG_OUT burn {action.id} not found or not yet final on TON")
  assertSameAction (canonicalPegOut L.digestOf burn) action

/-- `validateActionInner`: the branch is taken on the id's shape, never on the wire's chain. -/
def validateActionInner (action : CanonicalAction) (hint : Option ℕ) :
    Except ValidateError Unit :=
  if action.direction = .known .pegIn then validatePegIn L deps view action hint
  else if endsWith action.id feeSweepSuffix then validateFeeSweep L deps view action hint
  else if endsWith action.id refundSuffix then validateRefund L deps view action hint
  else if endsWith action.id returnSuffix then validateGramReturn L deps view action
  else if looksLikeSolanaSignature action.id then validateSolanaPegOut L deps view action
  else if looksLikeTonTxHash action.id then validateTonPegOut L view action
  else .error (sourceMismatch
    s!"PEG_OUT {action.id} matches no known source-id shape (Solana signature, TON tx hash, or FEE_SWEEP/REFUND/RETURN child) — refusing to sign without an independent source check")

/-- `validateAction`: every failure becomes a mismatch. -/
def validateAction (action : CanonicalAction) (hint : Option ℕ) : Except String Unit :=
  (validateActionInner L deps view action hint).mapError fun
    | .sourceMismatch m => m
    | .thrown m => s!"source validation failed for {action.id}: {m}"

end

/-! ## Each branch as a conjunction of its checks -/

theorem assertSameAction_eq_ok {derived wire : CanonicalAction} :
    assertSameAction derived wire = .ok () ↔ wire = derived := by
  unfold assertSameAction
  simp only [bind_eq_ok, require_eq_ok]
  constructor
  · rintro ⟨-, hid, -, hdir, -, hrec, -, hamt, -, hch, hdig⟩
    cases derived
    cases wire
    simp_all
  · rintro rfl
    exact ⟨⟨⟩, rfl, ⟨⟩, rfl, ⟨⟩, rfl, ⟨⟩, rfl, ⟨⟩, rfl, rfl⟩

section

variable {L : Libs} {deps : SourceValidatorDeps} {view : NodeView} {action : CanonicalAction}
  {hint : Option ℕ}

theorem validateAction_eq_ok :
    validateAction L deps view action hint = .ok ()
      ↔ validateActionInner L deps view action hint = .ok () := by
  unfold validateAction
  rw [mapError_eq_ok]

theorem reReadParentPegIn_eq_ok {suffix : String} {d : VizDeposit} {p : CanonicalAction} :
    reReadParentPegIn L deps view action suffix hint = .ok (d, p) ↔
      ∃ key, splitSourceId (dropEnd action.id suffix.toList.length) = some key
        ∧ getDeposit L deps.reader view.viz key.1 key.2 hint = .ok (some d)
        ∧ p = canonicalPegIn L.digestOf d ∧ action.id = p.id ++ suffix := by
  unfold reReadParentPegIn
  simp only [bind_eq_ok, found_eq_ok, mapError_eq_ok, require_eq_ok, pure_eq_ok, Prod.mk.injEq]
  constructor
  · rintro ⟨key, hkey, d?, hd, deposit, rfl, -, hid, rfl, rfl⟩
    exact ⟨key, hkey, hd, rfl, hid⟩
  · rintro ⟨key, hkey, hd, rfl, hid⟩
    exact ⟨key, hkey, some d, hd, d, rfl, ⟨⟩, hid, rfl, rfl⟩

theorem validateFeeSweep_eq_ok :
    validateFeeSweep L deps view action hint = .ok () ↔
      ∃ d p, reReadParentPegIn L deps view action feeSweepSuffix hint = .ok (d, p)
        ∧ action.remoteChain = some (.known d.remoteChain) ∧ action.recipient = deps.feesGateAccount
        ∧ action.digest = p.digest ++ feeSweepSuffix
        ∧ action.amountMilliViz
          = baseFee d.amountMilliViz (pegInFeePolicyFor deps.fees d.remoteChain) := by
  unfold validateFeeSweep
  simp only [bind_eq_ok, require_eq_ok, Prod.exists]
  constructor
  · rintro ⟨d, p, hp, -, h1, -, h2, -, h3, h4⟩
    exact ⟨d, p, hp, h1, h2, h3, h4⟩
  · rintro ⟨d, p, hp, h1, h2, h3, h4⟩
    exact ⟨d, p, hp, ⟨⟩, h1, ⟨⟩, h2, ⟨⟩, h3, h4⟩

theorem validateRefund_eq_ok :
    validateRefund L deps view action hint = .ok () ↔
      ∃ d p, reReadParentPegIn L deps view action refundSuffix hint = .ok (d, p)
        ∧ action.remoteChain = some (.known d.remoteChain) ∧ action.recipient = d.sender
        ∧ 0 < d.amountMilliViz - deps.fees.refundFeeMilliViz
        ∧ action.amountMilliViz = d.amountMilliViz - deps.fees.refundFeeMilliViz
        ∧ action.digest = p.digest ++ refundSuffix := by
  unfold validateRefund
  simp only [bind_eq_ok, require_eq_ok, Prod.exists]
  constructor
  · rintro ⟨d, p, hp, -, h1, -, h2, -, h3, -, h4, h5⟩
    exact ⟨d, p, hp, h1, h2, h3, h4, h5⟩
  · rintro ⟨d, p, hp, h1, h2, h3, h4, h5⟩
    exact ⟨d, p, hp, ⟨⟩, h1, ⟨⟩, h2, ⟨⟩, h3, ⟨⟩, h4, h5⟩

theorem validateGramReturn_eq_ok :
    validateGramReturn L deps view action = .ok () ↔
      looksLikeTonTxHash (dropEnd action.id returnSuffix.toList.length) = true
        ∧ ∃ b, getBurn L view.gram (dropEnd action.id returnSuffix.toList.length) = .ok (some b)
          ∧ accountExists view.viz b.homeDestination = .ok false
          ∧ action.remoteChain = some (.known b.chain) ∧ action.recipient = b.sender
          ∧ 0 < b.amountMilliViz - deps.fees.refundFeeMilliViz
          ∧ action.amountMilliViz = b.amountMilliViz - deps.fees.refundFeeMilliViz
          ∧ action.digest = (canonicalPegOut L.digestOf b).digest ++ returnSuffix := by
  unfold validateGramReturn
  simp only [bind_eq_ok, found_eq_ok, mapError_eq_ok, require_eq_ok]
  constructor
  · rintro ⟨-, hsh, b?, hb, b, rfl, dest, hdest, -, rfl, -, h1, -, h2, -, h3, -, h4, h5⟩
    exact ⟨hsh, b, hb, hdest, h1, h2, h3, h4, h5⟩
  · rintro ⟨hsh, b, hb, hdest, h1, h2, h3, h4, h5⟩
    exact ⟨⟨⟩, hsh, some b, hb, b, rfl, false, hdest, ⟨⟩, rfl, ⟨⟩, h1, ⟨⟩, h2, ⟨⟩, h3, ⟨⟩, h4, h5⟩

theorem validatePegIn_eq_ok :
    validatePegIn L deps view action hint = .ok () ↔
      ∃ key d, splitSourceId action.id = some key
        ∧ getDeposit L deps.reader view.viz key.1 key.2 hint = .ok (some d)
        ∧ d.destinationValid = true ∧ action = canonicalPegIn L.digestOf d := by
  unfold validatePegIn
  simp only [bind_eq_ok, found_eq_ok, mapError_eq_ok, require_eq_ok, assertSameAction_eq_ok]
  constructor
  · rintro ⟨key, hkey, d?, hd, d, rfl, -, hv, ha⟩
    exact ⟨key, d, hkey, hd, hv, ha⟩
  · rintro ⟨key, d, hkey, hd, hv, ha⟩
    exact ⟨key, hkey, some d, hd, d, rfl, ⟨⟩, hv, ha⟩

theorem validateSolanaPegOut_eq_ok :
    validateSolanaPegOut L deps view action = .ok () ↔
      (deps.depositProgramId ≠ "" ∧ deps.wvizMint ≠ "")
        ∧ ∃ ata dep, L.depositAta deps.depositProgramId action.recipient deps.wvizMint = some ata
          ∧ getDepositTransfer view.solana action.id ata = .ok (some dep)
          ∧ action = canonicalPegOut L.digestOf (solanaBurn action ata dep) := by
  unfold validateSolanaPegOut
  simp only [bind_eq_ok, found_eq_ok, mapError_eq_ok, require_eq_ok, assertSameAction_eq_ok]
  constructor
  · rintro ⟨-, hconf, ata, hata, dep?, hdep, dep, rfl, ha⟩
    exact ⟨hconf, ata, dep, hata, hdep, ha⟩
  · rintro ⟨hconf, ata, dep, hata, hdep, ha⟩
    exact ⟨⟨⟩, hconf, ata, hata, some dep, hdep, dep, rfl, ha⟩

theorem validateTonPegOut_eq_ok :
    validateTonPegOut L view action = .ok () ↔
      ∃ b, getBurn L view.gram action.id = .ok (some b)
        ∧ action = canonicalPegOut L.digestOf b := by
  unfold validateTonPegOut
  simp only [bind_eq_ok, found_eq_ok, mapError_eq_ok, assertSameAction_eq_ok]
  constructor
  · rintro ⟨b?, hb, b, rfl, ha⟩
    exact ⟨b, hb, ha⟩
  · rintro ⟨b, hb, ha⟩
    exact ⟨some b, hb, b, rfl, ha⟩

end

end VizGateway
