import VizGateway.Dispatcher
import VizGateway.GramApprove
import VizGateway.Signer

/-!
# The coordinator

Keyless but for the Solana submitter: it builds the one proposal of an action, has the signers
approve it and sees it executed, one await at a time. Above it stand the dispatcher's fetch, which
posts a delivery and awaits its answer, and the boot-time redirect of refunds to mints.
-/

namespace VizGateway

open ActionStatus Text

/-! ## Proposals -/

deriving instance DecidableEq for GramMintProposal

/-- An order as the coordinator describes it. -/
structure GramOrderProposal extends GramMintProposal where
  orderSeqno : String
  destProvisioned : Bool
  deriving DecidableEq

structure SolanaMintProposal where
  recipient : String
  amountMilliViz : ℤ
  destProvisioned : Bool
  mint : String
  multisig : String
  signers : List String
  feePayer : String
  nonceAccount : String
  nonceValue : String
  decimals : ℕ
  messageB64 : String
  actionId : String
  deriving DecidableEq

inductive Proposal
  | release (p : VizReleaseProposal)
  | order (p : GramOrderProposal)
  | mint (p : SolanaMintProposal)
  deriving DecidableEq

def GramOrderProposal.toJson (p : GramOrderProposal) : JsonObject :=
  [("orderSeqno", .str p.orderSeqno), ("orderAddr", .str p.orderAddr), ("toAddress", .str p.toAddress),
    ("amountMilliViz", .str (bigintText p.amountMilliViz)),
    ("destProvisioned", .bool p.destProvisioned), ("orderHashHex", .str p.orderHashHex),
    ("actionId", .str p.actionId)]

def SolanaMintProposal.toJson (p : SolanaMintProposal) : JsonObject :=
  [("recipient", .str p.recipient), ("amountMilliViz", .str (bigintText p.amountMilliViz)),
    ("destProvisioned", .bool p.destProvisioned), ("mint", .str p.mint),
    ("multisig", .str p.multisig), ("signers", .strs p.signers), ("feePayer", .str p.feePayer),
    ("nonceAccount", .str p.nonceAccount), ("nonceValue", .str p.nonceValue),
    ("decimals", .num p.decimals), ("messageB64", .str p.messageB64),
    ("actionId", .str p.actionId)]

def Proposal.toJson : Proposal → JsonObject
  | release p => p.toJson
  | order p => p.toJson
  | mint p => p.toJson

/-- The transaction of a mint proposal. -/
def SolanaMintProposal.tx (p : SolanaMintProposal) : SolanaMintTx :=
  buildMintTx p.toJson p.amountMilliViz

/-- An operator's `/approve` reply. -/
structure SignerReply where
  actionId : String
  operatorId : String
  signature : String
  deriving DecidableEq

/-! ## Threshold -/

/-- The approvals collected so far, one an operator and action. -/
abbrev ApprovalSet := List SignerReply

namespace ApprovalSet

def add (operators : List String) (set : ApprovalSet) (a : SignerReply) : ApprovalSet :=
  if a.operatorId ∉ operators then set
  else if set.any fun b => b.actionId = a.actionId ∧ b.operatorId = a.operatorId then set
  else set ++ [a]

def approvals (set : ApprovalSet) (actionId : String) : List SignerReply :=
  set.filter (·.actionId = actionId)

def isMet (set : ApprovalSet) (actionId : String) (threshold : ℕ) : Bool :=
  threshold ≤ (set.approvals actionId).length

end ApprovalSet

/-! ## What the services await -/

/-- A transaction on Solana that mentions the mint: one of the multisig's, or anyone's. -/
inductive SolanaMessage
  | mint (tx : SolanaMintTx)
  | other (raw : String) (memo : Option String)
  deriving DecidableEq

/-- The text of the first memo instruction. -/
def SolanaMessage.memo : SolanaMessage → Option String
  | mint tx => match tx.memo with
    | some (.str text) => some text
    | _ => none
  | other _ memo => memo

inductive SignatureStatus
  | unknown
  | failed
  | confirmed
  deriving DecidableEq

structure SignatureInfo where
  signature : String
  err : Bool
  deriving DecidableEq

structure NextOrder where
  orderAddr : String
  seqno : String
  deriving DecidableEq

/-- The calls of the dispatcher's fetch, the handlers and the redirect; a call about one action
names it. -/
inductive GatewayOp
  | store (o : StoreOp)
  | dateNow
  /-- The request leaves for the coordinator. -/
  | post (rec : OutboxRecord)
  /-- Its answer comes back. -/
  | await (rec : OutboxRecord)
  | receive (rec : OutboxRecord)
  | respond (rec : OutboxRecord) (result : DeliveryResult)
  | liveSigners
  | isDestinationProvisioned (chain : RemoteChainId) (id recipient : String)
  | nextOrderAddress (id : String)
  | orderExecuted (id orderAddr : String)
  /-- `Date.now() < deadline`. -/
  | beforeDeadline
  | getNonce (id : String)
  | approve (operatorId : String) (action : CanonicalAction) (proposal : Proposal)
      (sourceBlockNum : Option ℕ)
  | sendRawTransaction (id : String) (tx : SolanaMintTx)
  | getSignatureStatus (id signature : String) (attemptsLeft : ℕ)
  | getSignaturesForAddress (id : String)
  | getParsedTransaction (id signature : String)
  | getPin (id : String)
  | setPin (id : String) (p : VizReleaseProposal)
  | deletePin (id : String)
  | buildReleaseProposal (action : CanonicalAction) (gatewayAccount : String)
  | activeAuthority (account : String)
  | broadcastTransaction (id : String) (p : VizReleaseProposal)
  | confirmReleaseByTxId (id txid : String)
  /-- Whether a directive's marker is set. -/
  | getState (parentId : String)
  | setState (parentId : String)

def GatewayOp.Ans : GatewayOp → Type
  | store o => o.Ans
  | dateNow => ℤ
  | await _ => DeliveryResult
  | liveSigners => List String
  | isDestinationProvisioned .. => Bool
  | nextOrderAddress _ => NextOrder
  | orderExecuted .. => Bool
  | beforeDeadline => Bool
  | getNonce _ => String
  | approve .. => SignerReply
  | sendRawTransaction .. => String
  | getSignatureStatus .. => SignatureStatus
  | getSignaturesForAddress _ => List SignatureInfo
  | getParsedTransaction .. => Option SolanaMessage
  | getPin _ => Option VizReleaseProposal
  | buildReleaseProposal .. => VizReleaseProposal
  | confirmReleaseByTxId .. => Bool
  | getState _ => Bool
  | _ => Unit

abbrev GatewayM := Prog GatewayOp GatewayOp.Ans String

namespace Gateway

def get (id : String) : GatewayM (Option OutboxRecord) := Prog.ask (GatewayOp.store (.get id))

def setStatus (id : String) (status : ActionStatus) (patch : StatusPatch) : GatewayM Unit :=
  Prog.ask (GatewayOp.store (.setStatus id status patch))

/-- The dispatcher's call to `/submit`: whatever throws is a failed delivery. -/
def submit (rec : OutboxRecord) : GatewayM DeliveryResult :=
  tryCatch (do
    let _ : Unit ← Prog.ask (GatewayOp.post rec)
    Prog.ask (GatewayOp.await rec))
  fun e => pure { broadcast := false, error := some e }

/-- The dispatcher's calls as the gateway's. -/
def fetch : (o : DispatcherOp) → GatewayM o.Ans
  | .store o => Prog.ask (GatewayOp.store o)
  | .now => Prog.ask GatewayOp.dateNow
  | .submit rec => submit rec

end Gateway

/-! ## Broadcasters -/

structure BuildResult (P : Type) where
  proposal : P
  feeMilliViz : ℤ

structure ExecutedCheck where
  executed : Bool
  txid : Option String := none

/-- What drives one kind of action; `P` is the kind's proposal. -/
structure Broadcaster (P : Type) where
  toProposal : P → Proposal
  buildProposal : CanonicalAction → GatewayM (BuildResult P)
  broadcast : CanonicalAction → P → List String → GatewayM String
  actionExecuted : CanonicalAction → GatewayM ExecutedCheck

structure SolanaWriter where
  mint : String
  multisig : String
  nonceAccount : String
  feePayer : String
  /-- The committed signing subset, sorted. -/
  signers : List String

structure CoordinatorConfig where
  threshold : ℕ
  operators : List String
  accounts : GatewayAccounts
  fees : GatewayFeeConfig
  hasGram : Bool
  solana : Option SolanaWriter
  /-- `sourceBlockNum` of the directive file, by parent id. -/
  sourceHints : String → Option ℕ
  /-- The `resolution: "mint"` directives. -/
  mintDirectives : List String
  /-- How many polls fit into the wait for an order. -/
  executePolls : ℕ

section

variable (L : Libs) (cfg : CoordinatorConfig)

/-- The outbox row's `txid`, unless it is null or empty. -/
def txidOf (rec : Option OutboxRecord) : Option String := truthy (rec.bind (·.txid))

namespace VizReleaseBroadcaster

def releaseReuseMinRemainingMs : ℤ := 90000

def releaseConfirmPolls : ℕ := 20

/-- A pinned body is reused while enough of its validity remains. -/
def reusable (prev : VizReleaseProposal) (now : ℤ) : Bool :=
  (L.dateParse (prev.expiration ++ "Z")).any fun ms => ms - now > releaseReuseMinRemainingMs

def build (action : CanonicalAction) (account : String) :
    GatewayM (BuildResult VizReleaseProposal) := do
  let proposal : VizReleaseProposal ← Prog.ask (GatewayOp.buildReleaseProposal action account)
  let _ : Unit ← Prog.ask (GatewayOp.setPin action.id proposal)
  pure ⟨proposal, 0⟩

def buildProposal (action : CanonicalAction) : GatewayM (BuildResult VizReleaseProposal) :=
  match action.remoteChain with
  | none => throw s!"release {action.id} missing remoteChain — cannot select backing account"
  | some (.other raw) => throw s!"[gateway-accounts] no backing account for chain {raw}"
  | some (.known chain) => do
    let prev : Option VizReleaseProposal ← Prog.ask (GatewayOp.getPin action.id)
    match prev with
    | none => build action (cfg.accounts.accountFor chain)
    | some prev => do
      let now : ℤ ← Prog.ask GatewayOp.dateNow
      if reusable L prev now then pure ⟨prev, 0⟩
      else build action (cfg.accounts.accountFor chain)

def pollConfirmed (id txid : String) : ℕ → GatewayM String
  | 0 => throw s!"viz release {txid} not confirmed"
  | polls + 1 => do
    let found : Bool ← Prog.ask (GatewayOp.confirmReleaseByTxId id txid)
    if found then pure txid else pollConfirmed id txid polls

/-- An asynchronous broadcast, whose own error decides nothing, then polls by the exact id. -/
def broadcastRelease (id txid : String) (p : VizReleaseProposal) (signatures : List String) :
    GatewayM String :=
  if signatures = [] then throw "no signatures to broadcast"
  else do
    let _ : Unit ← Prog.ask (GatewayOp.activeAuthority p.sender)
    let _ : Unit ← tryCatch (Prog.ask (GatewayOp.broadcastTransaction id p)) fun _ => pure ()
    pollConfirmed id txid releaseConfirmPolls

/-- The deterministic id is persisted before anything is sent. -/
def broadcast (action : CanonicalAction) (p : VizReleaseProposal) (signatures : List String) :
    GatewayM String :=
  match releaseTxId L p.toJson with
  | none => throw "unserializable release proposal"
  | some txid => do
    Gateway.setStatus action.id ActionStatus.broadcast { txid := some (some txid) }
    let sent ← broadcastRelease action.id txid p signatures
    let _ : Unit ← Prog.ask (GatewayOp.deletePin action.id)
    pure (if sent = "" then txid else sent)

def actionExecuted (action : CanonicalAction) : GatewayM ExecutedCheck := do
  let rec ← Gateway.get action.id
  match txidOf rec with
  | none => pure { executed := false }
  | some txid => do
    let found : Bool ← Prog.ask (GatewayOp.confirmReleaseByTxId action.id txid)
    pure (if found then { executed := true, txid := some txid } else { executed := false })

end VizReleaseBroadcaster

/-- PEG_OUT, FEE_SWEEP and REFUND. -/
def vizReleaseBroadcaster : Broadcaster VizReleaseProposal where
  toProposal := .release
  buildProposal := VizReleaseBroadcaster.buildProposal L cfg
  broadcast := VizReleaseBroadcaster.broadcast L
  actionExecuted := VizReleaseBroadcaster.actionExecuted

namespace GramBroadcaster

/-- The pinned order address, or the next one, pinned before anyone proposes. -/
def pinOrder (action : CanonicalAction) : GatewayM NextOrder := do
  let rec ← Gateway.get action.id
  match txidOf rec with
  | some txid => pure ⟨txid, ""⟩
  | none => do
    let next : NextOrder ← Prog.ask (GatewayOp.nextOrderAddress action.id)
    Gateway.setStatus action.id ActionStatus.broadcast { txid := some (some next.orderAddr) }
    pure next

/-- The hash of an order's packed body. -/
def orderHashFor (body : TonAddress → ℤ → OrderBody) (toAddress : String) (amount : ℤ) :
    Except String String :=
  match L.addressParse toAddress with
  | none => .error s!"Unknown address type: {toAddress}"
  | some a => Checks.found (L.orderHash (body a amount)) "unpackable order"

def propose (action : CanonicalAction) (amount : ℤ) (destProvisioned : Bool) (fee : ℤ)
    (orderHashHex : String) : GatewayM (BuildResult GramOrderProposal) := do
  let next ← pinOrder action
  pure {
    proposal := {
      actionId := action.id, toAddress := action.recipient, amountMilliViz := amount
      orderAddr := next.orderAddr, orderHashHex, orderSeqno := next.seqno, destProvisioned }
    feeMilliViz := fee }

/-- `GramMintBroadcaster.buildProposal`. -/
def buildMint (action : CanonicalAction) : GatewayM (BuildResult GramOrderProposal) := do
  let destProvisioned : Bool ←
    Prog.ask (GatewayOp.isDestinationProvisioned .gram action.id action.recipient)
  match quotePegIn action.amountMilliViz destProvisioned (pegInFeePolicyFor cfg.fees .gram) with
  | .belowMin minMilliViz =>
    throw s!"PEG_IN {action.id} below minimum (refund): need >= {minMilliViz} mVIZ"
  | .ok b => do
    let orderHashHex ← Prog.ofExcept (orderHashFor L .mint action.recipient b.net)
    propose action b.net destProvisioned b.fee orderHashHex

/-- `GramReturnBroadcaster.buildProposal`. -/
def buildReturn (action : CanonicalAction) : GatewayM (BuildResult GramOrderProposal) := do
  let orderHashHex ←
    Prog.ofExcept (orderHashFor L .giveBack action.recipient action.amountMilliViz)
  propose action action.amountMilliViz false 0 orderHashHex

def waitExecuted (id orderAddr : String) : ℕ → GatewayM String
  | 0 => throw s!"GRAM order {orderAddr} for {id} not executed in time"
  | polls + 1 => do
    let executed : Bool ← Prog.ask (GatewayOp.orderExecuted id orderAddr)
    if executed then pure orderAddr
    else do
      let waiting : Bool ← Prog.ask GatewayOp.beforeDeadline
      if waiting then waitExecuted id orderAddr polls
      else throw s!"GRAM order {orderAddr} for {id} not executed in time"

/-- Nothing to submit: the order executes on its threshold. -/
def broadcast (action : CanonicalAction) (p : GramOrderProposal) (_ : List String) :
    GatewayM String := waitExecuted action.id p.orderAddr cfg.executePolls

def actionExecuted (action : CanonicalAction) : GatewayM ExecutedCheck := do
  let rec ← Gateway.get action.id
  match txidOf rec with
  | none => pure { executed := false }
  | some txid => do
    let executed : Bool ← Prog.ask (GatewayOp.orderExecuted action.id txid)
    pure (if executed then { executed := true, txid := some txid } else { executed := false })

end GramBroadcaster

def gramMintBroadcaster : Broadcaster GramOrderProposal where
  toProposal := .order
  buildProposal := GramBroadcaster.buildMint L cfg
  broadcast := GramBroadcaster.broadcast cfg
  actionExecuted := GramBroadcaster.actionExecuted

def gramReturnBroadcaster : Broadcaster GramOrderProposal where
  toProposal := .order
  buildProposal := GramBroadcaster.buildReturn L
  broadcast := GramBroadcaster.broadcast cfg
  actionExecuted := GramBroadcaster.actionExecuted

namespace SolanaMintBroadcaster

def confirmAttempts : ℕ := 30

/-- The proposal before its message is compiled. -/
def mintProposal (w : SolanaWriter) (action : CanonicalAction) (net : ℤ) (destProvisioned : Bool)
    (nonceValue : String) : SolanaMintProposal where
  recipient := action.recipient
  amountMilliViz := net
  destProvisioned
  mint := w.mint
  multisig := w.multisig
  signers := w.signers
  feePayer := w.feePayer
  nonceAccount := w.nonceAccount
  nonceValue
  decimals := 3
  messageB64 := ""
  actionId := action.id

def buildMintProposal (w : SolanaWriter) (action : CanonicalAction) (net : ℤ)
    (destProvisioned : Bool) : GatewayM SolanaMintProposal := do
  let nonceValue : String ← Prog.ask (GatewayOp.getNonce action.id)
  let p := mintProposal w action net destProvisioned nonceValue
  match L.serializeMessage p.tx with
  | none => throw "unserializable mint proposal"
  | some messageB64 => pure { p with messageB64 }

def buildProposal (w : SolanaWriter) (action : CanonicalAction) :
    GatewayM (BuildResult SolanaMintProposal) := do
  let destProvisioned : Bool ←
    Prog.ask (GatewayOp.isDestinationProvisioned .solana action.id action.recipient)
  match quotePegIn action.amountMilliViz destProvisioned (pegInFeePolicyFor cfg.fees .solana) with
  | .belowMin minMilliViz =>
    throw s!"PEG_IN {action.id} below minimum (refund): need >= {minMilliViz} mVIZ"
  | .ok b => do
    let proposal ← buildMintProposal L w action b.net destProvisioned
    pure ⟨proposal, b.fee⟩

/-- `confirmSignature`: polls to `confirmed`, and returns as well once the polls are over. -/
def confirmSignature (id signature : String) : ℕ → GatewayM Unit
  | 0 => pure ()
  | attempts + 1 => do
    let status : SignatureStatus ←
      Prog.ask (GatewayOp.getSignatureStatus id signature attempts)
    match status with
    | .failed => throw s!"mint tx {signature} failed on-chain"
    | .confirmed => pure ()
    | .unknown => confirmSignature id signature attempts

/-- `submitMint`. -/
def broadcast (action : CanonicalAction) (p : SolanaMintProposal) (mintAuth : List String) :
    GatewayM String :=
  if p.signers = [] then throw "proposal has no signers"
  else if mintAuth.length < p.signers.length then throw "mintAuth lacks signatures"
  else do
    let signature : String ← Prog.ask (GatewayOp.sendRawTransaction action.id p.tx)
    confirmSignature action.id signature confirmAttempts
    pure signature

/-- The first of the scanned transactions whose memo is the action's id. -/
def scanMints (id : String) : List SignatureInfo → GatewayM (Option String)
  | [] => pure none
  | s :: sigs =>
    if s.err then scanMints id sigs
    else do
      let tx : Option SolanaMessage ← Prog.ask (GatewayOp.getParsedTransaction id s.signature)
      if tx.bind SolanaMessage.memo = some id then pure (some s.signature) else scanMints id sigs

def mintByActionId (id : String) : GatewayM (Option String) := do
  let sigs : List SignatureInfo ← Prog.ask (GatewayOp.getSignaturesForAddress id)
  scanMints id sigs

/-- A persisted `txid` counts as landed; a retried row is looked for by its memo. -/
def actionExecuted (action : CanonicalAction) : GatewayM ExecutedCheck := do
  let rec ← Gateway.get action.id
  match txidOf rec with
  | some txid => pure { executed := true, txid := some txid }
  | none =>
    if rec.any fun r => 0 < r.attempts then do
      let found ← mintByActionId action.id
      pure (match found with
        | some txid => { executed := true, txid := some txid }
        | none => { executed := false })
    else pure { executed := false }

end SolanaMintBroadcaster

def solanaMintBroadcaster (w : SolanaWriter) : Broadcaster SolanaMintProposal where
  toProposal := .mint
  buildProposal := SolanaMintBroadcaster.buildProposal L cfg w
  broadcast := SolanaMintBroadcaster.broadcast
  actionExecuted := SolanaMintBroadcaster.actionExecuted

/-! ## Orchestration -/

namespace Orchestrator

/-- Pins a positive peg-in fee onto the row; best effort. -/
def pinFee (action : CanonicalAction) (feeMilliViz : ℤ) : GatewayM Unit :=
  if action.direction ≠ .known .pegIn ∨ feeMilliViz ≤ 0 then pure ()
  else tryCatch (Prog.ask (GatewayOp.store (.setFee action.id feeMilliViz))) fun _ => pure ()

/-- Asks the signers one after the other until the threshold is met. -/
def collect (action : CanonicalAction) (proposal : Proposal) (hint : Option ℕ) :
    List String → ApprovalSet → GatewayM ApprovalSet
  | [], set => pure set
  | operatorId :: rest, set => do
    let reply : Option SignerReply ←
      tryCatch (do
        let a : SignerReply ← Prog.ask (GatewayOp.approve operatorId action proposal hint)
        pure (some a))
      fun _ => pure none
    let set' := reply.elim set (set.add cfg.operators)
    if set'.isMet action.id cfg.threshold then pure set' else collect action proposal hint rest set'

section

variable {P : Type} (b : Broadcaster P)

/-- An action that is executed already only has its fee read again, and that best effort. -/
def recover (action : CanonicalAction) (txid : Option String) : GatewayM DeliveryResult := do
  let feeMilliViz ← tryCatch (do
      let built ← b.buildProposal action
      pinFee action built.feeMilliViz
      pure built.feeMilliViz)
    fun _ => pure (0 : ℤ)
  pure { broadcast := true, txid, feeMilliViz := some feeMilliViz }

/-- The broadcast of an approved proposal: what it throws is the result's error. -/
def finish (action : CanonicalAction) (built : BuildResult P) (set : ApprovalSet) :
    GatewayM DeliveryResult :=
  tryCatch (do
    let txid ← b.broadcast action built.proposal ((set.approvals action.id).map (·.signature))
    pure { broadcast := true, txid := some txid, feeMilliViz := some built.feeMilliViz })
  fun e => pure { broadcast := false, feeMilliViz := some built.feeMilliViz, error := some e }

/-- The round of an action that is not executed yet. -/
def drive (signers : List String) (action : CanonicalAction) (hint : Option ℕ) :
    GatewayM DeliveryResult := do
  let built ← b.buildProposal action
  pinFee action built.feeMilliViz
  let set ← collect cfg action (b.toProposal built.proposal) hint signers []
  if set.isMet action.id cfg.threshold then finish b action built set
  else pure { broadcast := false, feeMilliViz := some built.feeMilliViz }

def process (signers : List String) (action : CanonicalAction) (hint : Option ℕ) :
    GatewayM DeliveryResult := do
  let check ← b.actionExecuted action
  if check.executed then recover b action check.txid
  else drive cfg b signers action hint

end

end Orchestrator

/-- The peg-in whose VIZ block backs an action. -/
def parentPegInIdOf (action : CanonicalAction) : Option String :=
  if action.direction = .known .pegIn then some action.id
  else if endsWith action.id refundSuffix then
    some (dropEnd action.id refundSuffix.toList.length)
  else if endsWith action.id feeSweepSuffix then
    some (dropEnd action.id feeSweepSuffix.toList.length)
  else none

/-- The row's block number, or the directive file's where the row has none. -/
def resolveSourceHint (action : CanonicalAction) : GatewayM (Option ℕ) :=
  match truthy (parentPegInIdOf action) with
  | none => pure none
  | some parentId => do
    let rec ← Gateway.get parentId
    match rec.bind (·.blockNum) with
    | some n => pure (some n)
    | none => pure (cfg.sourceHints parentId)

/-- Resolves the hint and the live signers and runs the round. -/
def runRound {P : Type} (b : Broadcaster P) (action : CanonicalAction) :
    GatewayM DeliveryResult := do
  let hint ← resolveSourceHint cfg action
  let signers : List String ← Prog.ask GatewayOp.liveSigners
  Orchestrator.process cfg b signers action hint

def orchestrate (action : CanonicalAction) : GatewayM DeliveryResult :=
  if action.direction = .known .gramReturn then
    if cfg.hasGram then runRound cfg (gramReturnBroadcaster L cfg) action
    else throw s!"GRAM_RETURN {action.id} but GRAM not configured"
  else if action.direction = .known .pegOut then runRound cfg (vizReleaseBroadcaster L cfg) action
  else match action.remoteChain with
    | some (.known .solana) =>
      match cfg.solana with
      | none => throw s!"Solana PEG_IN {action.id} but Solana mint not configured"
      | some w => runRound cfg (solanaMintBroadcaster L cfg w) action
    | some (.known .gram) =>
      if cfg.hasGram then runRound cfg (gramMintBroadcaster L cfg) action
      else throw s!"GRAM PEG_IN {action.id} but GRAM minter not configured"
    | _ => throw s!"PEG_IN {action.id} has unknown/absent remoteChain"

/-- The `/submit` handler: `423` while the gateway is paused, `500` for whatever throws. -/
def handleSubmit (rec : OutboxRecord) : GatewayM Unit := do
  let _ : Unit ← Prog.ask (GatewayOp.receive rec)
  let reply ← tryCatch (do
      let paused : Bool ← Prog.ask (GatewayOp.store .isPaused)
      if paused then pure { broadcast := false, error := some "coordinator paused" }
      else orchestrate L cfg (recordToAction rec))
    fun _ => pure { broadcast := false, error := some "coordinator HTTP 500" }
  Prog.ask (GatewayOp.respond rec reply)

/-! ## The redirect at boot -/

namespace SourceHints

/-- A refund child that was delivered, or may be on its way. -/
def mayBeOnChain (child : OutboxRecord) : Bool := child.status = confirmed || child.txid.isSome

/-- The refund child is given up first, so that it is never broadcast. -/
def abandon (parentId : String) : Option OutboxRecord → GatewayM Unit
  | none => pure ()
  | some child => Gateway.setStatus child.id failed
    { lastError := some (some s!"abandoned by source-hint mint redirect for {parentId}") }

def redirect (parentId : String) (child : Option OutboxRecord) : GatewayM Unit := do
  abandon parentId child
  let now : ℤ ← Prog.ask GatewayOp.dateNow
  Gateway.setStatus parentId queued
    { lastError := some (some "re-driven to mint by source-hint directive")
      nextAttemptAt := some now }
  Prog.ask (GatewayOp.setState parentId)

/-- One directive: only a peg-in that was given up, and never over a refund that may be out. -/
def applyOne (parentId : String) : GatewayM Unit := do
  let applied : Bool ← Prog.ask (GatewayOp.getState parentId)
  if applied then pure ()
  else do
    let parent ← Gateway.get parentId
    match parent with
    | none => pure ()
    | some parent =>
      if parent.direction ≠ .pegIn ∨ parent.status = confirmed then
        Prog.ask (GatewayOp.setState parentId)
      else if parent.status ≠ refunding ∧ parent.status ≠ refunded ∧ parent.status ≠ held then
        pure ()
      else do
        let child ← Gateway.get (parentId ++ refundSuffix)
        if child.any mayBeOnChain then Prog.ask (GatewayOp.setState parentId)
        else redirect parentId child

end SourceHints

/-- Run once at boot, and only while the gateway is paused. -/
def applySourceHintResolutions : GatewayM Unit :=
  if cfg.mintDirectives = [] then pure ()
  else do
    let paused : Bool ← Prog.ask (GatewayOp.store .isPaused)
    if paused then Prog.forEach SourceHints.applyOne cfg.mintDirectives else pure ()

end

end VizGateway
