import VizGateway.SolanaScan
import VizGateway.SqliteStore
import VizGateway.Watchers

/-!
# The peg-out scanner

Rotates over the registered deposit addresses. A transfer found at one is claimed in SEEN, checked and
burned; the burn's signature is written onto the row, and the row is handed to the dispatcher. What a
crash leaves in SEEN is decided by whether that burn landed.
-/

namespace VizGateway

open ActionStatus Text Checks

/-- The burn transaction: the submitter pays for one `burn_deposit` instruction, its accounts derived
from the name. -/
structure BurnTx where
  vizAccount : String
  amount : ℤ
  blockhash : String
  deriving DecidableEq, Repr

deriving instance DecidableEq for CapOp

/-- What the scanner awaits; a burn is sent on behalf of the claim `id`. -/
inductive ScannerOp
  | store (o : StoreOp)
  | cap (o : CapOp)
  | dateNow
  | signatureLanded (signature : String)
  | finalizedHeight
  | depositAddressesForScan (limit : ℤ)
  | touchDepositScan (vizAccount : String) (now : ℤ)
  | getSignaturesForAddress (ata : String) (limit : ℕ)
  | getParsedTransaction (signature : String)
  | accountExists (name : String)
  | getLatestBlockhash
  | sendRawTransaction (id : String) (tx : BurnTx)
  deriving DecidableEq

def ScannerOp.Ans : ScannerOp → Type
  | store o => o.Ans
  | cap o => o.Ans
  | dateNow => ℤ
  | signatureLanded _ => Bool
  | finalizedHeight => ℕ
  | depositAddressesForScan _ => List DepositAddressRecord
  | touchDepositScan .. => Unit
  | getSignaturesForAddress .. => List ScanSig
  | getParsedTransaction _ => Option ParsedTx
  | accountExists _ => Bool
  | getLatestBlockhash => String
  | sendRawTransaction .. => String

abbrev ScannerM := Prog ScannerOp ScannerOp.Ans String

/-! ## Decisions -/

inductive PegOutGuard
  | burn
  | hold (reason : String) (pause : Option String)
  deriving DecidableEq, Repr

def guardPegOut (cap : Option CapRejection) (accountExists : Bool) : PegOutGuard :=
  match cap with
  | some reason =>
    .hold reason.toString
      (if reason = .over24h then some "Solana peg-out 24h cap exceeded" else none)
  | none => if accountExists then .burn else .hold "VIZ account does not exist" none

inductive SeenRecovery
  | alert
  | requeue
  | release
  deriving DecidableEq, Repr

def classifySeenRecovery (hasBurnCheckpoint burnLanded : Bool) : SeenRecovery :=
  if hasBurnCheckpoint = false then .alert else if burnLanded then .requeue else .release

structure PegoutScannerConfig where
  depositProgramId : String
  wvizMint : String
  finalitySlots : ℕ
  maxSignatures : ℕ
  scanAddressBatch : ℤ
  caps : CapPolicy

namespace PegoutScanner

def setStatus (id : String) (status : ActionStatus) (patch : StatusPatch := {}) : ScannerM Unit :=
  Prog.ask (ScannerOp.store (.setStatus id status patch))

def enqueue (input : EnqueueInput) : ScannerM Bool := Prog.ask (ScannerOp.store (.enqueue input))

def delete (id : String) : ScannerM Unit := Prog.ask (ScannerOp.store (.delete id))

def dateNow : ScannerM ℤ := Prog.ask ScannerOp.dateNow

def check (policy : CapPolicy) (amount : ℤ) : ScannerM (Option CapRejection) :=
  (CircuitBreaker.check policy amount.toNat).translate fun o => Prog.ask (ScannerOp.cap o)

def record (amount : ℤ) : ScannerM Unit :=
  (CircuitBreaker.record amount.toNat).translate fun o => Prog.ask (ScannerOp.cap o)

/-! ## Claims left in SEEN -/

/-- Whether the checkpointed burn landed; no answer where the node gives none. -/
def burnLanded (txid : Option String) : ScannerM (Option Bool) :=
  match truthy txid with
  | none => pure (some false)
  | some signature =>
    tryCatch (do
      let landed : Bool ← Prog.ask (ScannerOp.signatureLanded signature)
      return some landed) fun _ => pure none

def recoverRow (r : OutboxRecord) : ScannerM Unit :=
  if r.direction ≠ .pegOut then pure ()
  else do
    match ← burnLanded r.txid with
    | none => pure ()
    | some landed =>
      match classifySeenRecovery (truthy r.txid).isSome landed with
      | .requeue => setStatus r.id queued
      | .release => delete r.id
      | .alert => pure ()

def recoverStale : ScannerM Unit := do
  let now ← dateNow
  let rows : List OutboxRecord ← Prog.ask (ScannerOp.store (.stale now staleSeenMs [seen]))
  Prog.forEach recoverRow rows

/-! ## One transfer -/

structure IncomingTransfer where
  signature : String
  slot : ℕ
  amountBaseUnits : ℤ
  deriving DecidableEq, Repr

variable (L : Libs) (cfg : PegoutScannerConfig)

/-- The source event of a transfer into the address of `dep`. -/
def burnOf (dep : DepositAddressRecord) (t : IncomingTransfer) : RemoteBurn where
  chain := .solana
  sourceId := t.signature
  height := t.slot
  sender := dep.solAddress
  amountMilliViz := t.amountBaseUnits
  homeDestination := dep.vizAccount

/-- The row a transfer claims. -/
def claim (dep : DepositAddressRecord) (t : IncomingTransfer) : EnqueueInput :=
  let action := canonicalPegOut L.digestOf (burnOf dep t)
  { id := action.id
    direction := .pegOut
    remoteChain := some .solana
    recipient := action.recipient
    amountMilliViz := action.amountMilliViz
    digest := action.digest
    status := some seen }

/-- `buildBurnTxForTest`, its blockhash still to come. -/
def buildBurnTx (vizAccount : String) (amount : ℤ) : Except String (String → BurnTx) := do
  let _ ← found (L.depositAta cfg.depositProgramId vizAccount cfg.wvizMint) "vizAccount required"
  require (amount.natAbs < 2 ^ 64) "byte array longer than desired length"
  return fun blockhash => { vizAccount, amount, blockhash }

def burnFromDeposit (id vizAccount : String) (amount : ℤ) : ScannerM String := do
  let tx ← Prog.ofExcept (buildBurnTx L cfg vizAccount amount)
  let blockhash : String ← Prog.ask ScannerOp.getLatestBlockhash
  Prog.ask (ScannerOp.sendRawTransaction id (tx blockhash))

/-- The irreversible part: burn, record, checkpoint, hand over. Whatever throws in it releases the
claim. -/
def burnAndHandOver (id vizAccount : String) (amount : ℤ) : ScannerM Unit :=
  tryCatch (do
    let burnSig ← burnFromDeposit L cfg id vizAccount amount
    record amount
    setStatus id seen { txid := some (some burnSig) }
    setStatus id queued) fun _ => delete id

/-- The account is only asked for when the caps pass. -/
def accountKnown (cap : Option CapRejection) (vizAccount : String) : ScannerM Bool :=
  if cap = none then Prog.ask (ScannerOp.accountExists vizAccount) else pure false

/-- What follows a fresh claim. -/
def decide (id vizAccount : String) (amount : ℤ) : ScannerM Unit := do
  let cap ← check cfg.caps amount
  let known ← accountKnown cap vizAccount
  match guardPegOut cap known with
  | .hold reason pause => do
    setStatus id held { lastError := some (some reason) }
    match pause with
    | some reason => Prog.ask (ScannerOp.store (.pause reason))
    | none => pure ()
  | .burn => burnAndHandOver L cfg id vizAccount amount

def handleTransfer (dep : DepositAddressRecord) (t : IncomingTransfer) : ScannerM Unit := do
  let first ← enqueue (claim L dep t)
  if first then decide L cfg t.signature dep.vizAccount t.amountBaseUnits else pure ()

/-! ## One address after the other -/

/-- A signature of the address: a failed, a young and an unreadable transaction are passed over. -/
def readTransfer (ata : String) (safeSlot : ℤ) (s : ScanSig) : ScannerM (List IncomingTransfer) :=
  if s.err then pure []
  else if safeSlot < s.slot then pure []
  else do
    let tx : Option ParsedTx ← Prog.ask (ScannerOp.getParsedTransaction s.signature)
    match tx with
    | none => return []
    | some tx => do
      let parsed ← Prog.ofExcept (parseGatewayDeposit tx ata)
      return parsed.toList.map fun p => ⟨s.signature, s.slot, p.amountBaseUnits⟩

def readTransfers (ata : String) (safeSlot : ℤ) : List ScanSig → ScannerM (List IncomingTransfer)
  | [] => pure []
  | s :: rest => do
    let here ← readTransfer ata safeSlot s
    let later ← readTransfers ata safeSlot rest
    return here ++ later

/-- `incomingTransfersTo`: one page of the address's signatures, the newest. -/
def incomingTransfersTo (ata : String) (toSlot : ℕ) : ScannerM (List IncomingTransfer) := do
  let sigs : List ScanSig ←
    Prog.ask (ScannerOp.getSignaturesForAddress ata (max 1 cfg.maxSignatures))
  readTransfers ata ((toSlot : ℤ) - cfg.finalitySlots) sigs

def scanAddress (slot : ℕ) (dep : DepositAddressRecord) : ScannerM Unit := do
  let transfers ← incomingTransfersTo cfg dep.wvizAta slot
  Prog.forEach (handleTransfer L cfg dep) transfers
  let now ← dateNow
  Prog.ask (ScannerOp.touchDepositScan dep.vizAccount now)

def scanBatch : ScannerM Unit := do
  let slot : ℕ ← Prog.ask ScannerOp.finalizedHeight
  let batch : List DepositAddressRecord ←
    Prog.ask (ScannerOp.depositAddressesForScan cfg.scanAddressBatch)
  Prog.forEach (scanAddress L cfg slot) batch

/-- The try block of one iteration. -/
def body : ScannerM Unit := do
  let paused : Bool ← Prog.ask (ScannerOp.store .isPaused)
  if paused then pure ()
  else do
    recoverStale
    scanBatch L cfg

def tick : ScannerM Unit := tryCatch (body L cfg) fun _ => pure ()

end PegoutScanner

/-! ## The scanner among the other services -/

/-- The submitter signs deterministically: a transaction has one signature. -/
structure BurnSigner where
  signature : BurnTx → String
  signature_inj : Function.Injective signature

/-- A burn that went out for a claim. -/
structure SentBurn where
  id : String
  tx : BurnTx
  deriving DecidableEq

/-- The shared store and the chain; `claims` to `existing` are kept for the statements only. -/
structure ScannerState where
  outbox : Outbox := .empty
  caps : CapWindow := ⟨[]⟩
  deposits : List DepositAddressRecord := []
  /-- Burns that may still land. -/
  pool : List SentBurn := []
  landed : List SentBurn := []
  /-- The ids the scanner holds a claim on. -/
  claims : List String := []
  /-- The claims a burn went out for. -/
  burned : List String := []
  sent : List SentBurn := []
  /-- The accounts the VIZ node knew. -/
  existing : List String := []

/-- How one call comes out. -/
structure ScannerInput where
  clock : ℤ := 0
  fails : Option String := none
  /-- A send that throws may have gone through. -/
  goesThrough : Bool := false
  flag : Bool := false
  slot : ℕ := 0
  text : String := ""
  sigs : List ScanSig := []
  tx : Option ParsedTx := none
  planner : Planner := .inOrder

namespace ScannerOp

variable (N : BurnSigner)

/-- A call that is answered. -/
def run (i : ScannerInput) (s : ScannerState) : (o : ScannerOp) → ScannerState × o.Ans
  | store (.enqueue input) =>
    let r := s.outbox.enqueue i.clock input
    ({ s with outbox := r.2, claims := if r.1 then input.id :: s.claims else s.claims }, r.1)
  | store (.delete id) =>
    ({ s with
        outbox := s.outbox.delete id
        claims := s.claims.filter (· ≠ id)
        burned := s.burned.filter (· ≠ id) }, ())
  | store o => ({ s with outbox := (o.exec i.clock s.outbox).1 }, (o.exec i.clock s.outbox).2)
  | cap o =>
    ({ s with caps := (o.run { clock := i.clock } s.caps).1 }, (o.run { clock := i.clock } s.caps).2)
  | dateNow => (s, i.clock)
  | signatureLanded _ => (s, i.flag)
  | finalizedHeight => (s, i.slot)
  | depositAddressesForScan n =>
    (s, Database.limit n ((i.planner.deposits s.deposits).mergeSort Database.scanLe))
  | touchDepositScan vizAccount now =>
    ({ s with
        deposits := Keyed.update DepositAddressRecord.vizAccount vizAccount
          (fun d => { d with scanTime := now }) s.deposits }, ())
  | getSignaturesForAddress .. => (s, i.sigs)
  | getParsedTransaction _ => (s, i.tx)
  | accountExists name =>
    (if i.flag then { s with existing := name :: s.existing } else s, i.flag)
  | getLatestBlockhash => (s, i.text)
  | sendRawTransaction id tx =>
    ({ s with
        pool := s.pool ++ [⟨id, tx⟩]
        burned := id :: s.burned
        sent := s.sent ++ [⟨id, tx⟩] }, N.signature tx)

/-- A call that throws has changed nothing, but for a send that went through all the same. -/
def exec (o : ScannerOp) (i : ScannerInput) (s : ScannerState) :
    ScannerState × Except String o.Ans :=
  match i.fails with
  | none => ((o.run N i s).1, .ok (o.run N i s).2)
  | some e =>
    match o with
    | .sendRawTransaction id tx =>
      (if i.goesThrough then ((ScannerOp.sendRawTransaction id tx).run N i s).1 else s, .error e)
    | _ => (s, .error e)

end ScannerOp

/-- What the other services and the chain do between two steps of the scanner. -/
inductive ScannerAct
  | store (clock : ℤ) (o : StoreOp)
  | cap (clock : ℤ) (o : CapOp)
  | unpause
  | register (clock : ℤ) (vizAccount solAddress wvizAta : String)
  | land (n : ℕ)
  | expire (n : ℕ)

/-- The others leave the scanner's claims to it, put no row back to SEEN and delete none. -/
def ScannerState.leaves (s : ScannerState) : StoreOp → Bool
  | .delete _ => false
  | .setStatus id status _ =>
    status ≠ seen && (id ∉ s.claims || (s.outbox.get id).all (·.status ≠ seen))
  | _ => true

def ScannerAct.apply (s : ScannerState) : ScannerAct → ScannerState
  | store clock o =>
    if s.leaves o then { s with outbox := (o.exec clock s.outbox).1 } else s
  | cap clock o => { s with caps := (o.run { clock } s.caps).1 }
  | unpause => { s with outbox := { s.outbox with paused := none } }
  | register clock vizAccount solAddress wvizAta =>
    { s with
      deposits := Keyed.insertNew DepositAddressRecord.vizAccount
        ⟨vizAccount, solAddress, wvizAta, clock, 0, 0⟩ s.deposits }
  -- a transaction is processed once, whoever sent it
  | land n =>
    match s.pool[n]? with
    | some b =>
      { s with
        pool := s.pool.eraseIdx n
        landed := if b.tx ∈ s.landed.map SentBurn.tx then s.landed else s.landed ++ [b] }
    | none => s
  | expire n => { s with pool := s.pool.eraseIdx n }

def scannerSystem (N : BurnSigner) (L : Libs) (cfg : PegoutScannerConfig) :
    LoopSystem ScannerOp ScannerOp.Ans String ScannerState Unit ScannerInput ScannerAct where
  boot := pure ()
  turn _ := PegoutScanner.tick L cfg
  exec := ScannerOp.exec N
  act m s := m.apply s

abbrev ScannerWorld := LoopWorld ScannerOp ScannerOp.Ans String ScannerState Unit

abbrev ScannerEvent := LoopEvent ScannerInput ScannerAct

def ScannerWorld.init : ScannerWorld := ⟨{}, .down⟩

/-- A send that throws has not gone through, nothing throws for a claim a burn went out for, and the
node's word that a checkpointed burn has not landed is final. -/
def ScannerInput.Settles (N : BurnSigner) (i : ScannerInput) (s : ScannerState) : ScannerOp → Prop
  | .sendRawTransaction .. => i.fails ≠ none → i.goesThrough = false
  | .store (.setStatus id ..) => id ∈ s.burned → i.fails = none
  | .cap (.dateNow .record) => i.fails = none
  | .cap (.recordCap ..) => i.fails = none
  | .signatureLanded signature =>
    i.fails = none → i.flag = false → ∀ b ∈ s.pool ++ s.landed, N.signature b.tx ≠ signature
  | _ => True

def Settled (N : BurnSigner) (w : ScannerWorld) : ScannerEvent → Prop
  | .await i => ∀ o, w.standsAt = some o → i.Settles N w.shared o
  | _ => True

end VizGateway
