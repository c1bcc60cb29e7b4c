import VizGateway.StoreOps
import VizGateway.CapWindow
import VizGateway.VizScan
import VizGateway.GramScan
import VizGateway.Lib.Loop

/-!
# The detection watchers

The VIZ watcher scans block windows for deposits, the TON watcher its wallet for burns. Each claims
what it finds in SEEN, decides it, and moves a cursor it keeps in memory and in the store; each
starts a tick by recovering the rows an earlier one left in SEEN.
-/

namespace VizGateway

open ActionStatus

/-- What a watcher awaits. -/
inductive WatchOp
  | store (o : StoreOp)
  | cap (o : CapOp)
  | dateNow
  | getCursor
  | setCursor (value : ℤ)
  | tryReserveSenderRate (sender : String) (maxPerWindow : ℕ) (windowMs now : ℤ)
  | accountExists (name : String)
  | lastIrreversibleBlock
  | getOpsInBlock (b : ℤ)
  | newestLt
  | finalizedBurnsPaginated (fromLt : ℕ)

def WatchOp.Ans : WatchOp → Type
  | store o => o.Ans
  | cap o => o.Ans
  | dateNow => ℤ
  | getCursor => ℤ
  | setCursor _ => Unit
  | tryReserveSenderRate .. => Bool
  | accountExists _ => Bool
  | lastIrreversibleBlock => ℤ
  | getOpsInBlock _ => Option (List OpWrapper)
  | newestLt => ℕ
  | finalizedBurnsPaginated _ => ScanResult

abbrev WatchM := Prog WatchOp WatchOp.Ans String

def CapRejection.toString : CapRejection → String
  | .overPerTx => "OVER_PER_TX"
  | .over24h => "OVER_24H"
  | .needsManualReview => "NEEDS_MANUAL_REVIEW"

namespace Watch

def isPaused : WatchM Bool := Prog.ask (WatchOp.store .isPaused)

def stale (now ageMs : ℤ) : WatchM (List OutboxRecord) :=
  Prog.ask (WatchOp.store (.stale now ageMs [seen]))

def enqueue (input : EnqueueInput) : WatchM Bool := Prog.ask (WatchOp.store (.enqueue input))

def setStatus (id : String) (status : ActionStatus) (patch : StatusPatch := {}) : WatchM Unit :=
  Prog.ask (WatchOp.store (.setStatus id status patch))

def pause (reason : String) : WatchM Unit := Prog.ask (WatchOp.store (.pause reason))

def dateNow : WatchM ℤ := Prog.ask WatchOp.dateNow

/-- The breaker's `checkAndRecord` on the shared window. -/
def checkAndRecord (policy : CapPolicy) (amount : ℤ) : WatchM (Option CapRejection) :=
  (CircuitBreaker.checkAndRecord policy amount.toNat).translate fun o => Prog.ask (WatchOp.cap o)

/-- The cap decision on a claimed row, live or recovered: held, and over the day's cap paused, or
handed to the dispatcher. -/
def capDecision (policy : CapPolicy) (capPauseReason id : String) (amount : ℤ) : WatchM Unit := do
  match ← checkAndRecord policy amount with
  | some reason => do
    setStatus id held { lastError := some (some reason.toString) }
    if reason = .over24h then pause capPauseReason else pure ()
  | none => setStatus id queued

/-- The memory's cursor moves first; a failed write to the store leaves it there. -/
def keepCursor (cursor : ℤ) : WatchM ℤ := do
  tryCatch (Prog.ask (WatchOp.setCursor cursor)) fun _ => pure ()
  return cursor

end Watch

open Watch

/-! ## Stale rows -/

/-- `STALE_SEEN_MS`. -/
def staleSeenMs : ℤ := 5 * 60 * 1000

/-- `recoverStaleSeen`, but for the outcome lists that feed alerts. -/
def recoverStaleSeen (policy : CapPolicy) (now : ℤ) (isMine : OutboxRecord → Bool)
    (capPauseReason : String) : WatchM Unit := do
  let rows ← stale now staleSeenMs
  Prog.forEach (fun r => capDecision policy capPauseReason r.id r.amountMilliViz)
    (rows.filter isMine)

/-! ## The VIZ watcher -/

structure VizWatcherConfig where
  reader : VizReader
  extraConfirmations : ℤ
  caps : CapPolicy
  maxPerWindow : ℕ
  windowMs : ℤ

namespace VizWatcher

variable (L : Libs) (cfg : VizWatcherConfig)

def isMine (r : OutboxRecord) : Bool := r.direction = .pegIn

def capPauseReason : String := "VIZ peg-in 24h cap exceeded"

/-- The row a deposit claims. -/
def claim (dep : VizDeposit) (status : ActionStatus) (lastError : Option String) : EnqueueInput :=
  let action := canonicalPegIn L.digestOf dep
  { id := action.id
    direction := .pegIn
    remoteChain := some dep.remoteChain
    recipient := action.recipient
    sender := some dep.sender
    amountMilliViz := action.amountMilliViz
    digest := action.digest
    status := some status
    lastError
    blockNum := some dep.blockNum }

/-- What follows a fresh claim. -/
def decide (policy : CapPolicy) (dep : VizDeposit) : WatchM Unit :=
  capDecision policy capPauseReason dep.id dep.amountMilliViz

/-- One deposit of the loop. -/
def handleDeposit (dep : VizDeposit) : WatchM Unit :=
  if dep.destinationValid = false then do
    let _ ← enqueue (claim L dep held (some "INVALID_DESTINATION"))
  else do
    let now ← dateNow
    let reserved : Bool ←
      Prog.ask (WatchOp.tryReserveSenderRate dep.sender cfg.maxPerWindow cfg.windowMs now)
    if reserved = false then do
      let _ ← enqueue (claim L dep held (some "RATE_LIMITED"))
    else do
      let first ← enqueue (claim L dep seen none)
      if first then decide cfg.caps dep else pure ()

/-- The deposits of the window, and what becomes of them. -/
def scanWindow (cursor scannedTo : ℤ) : WatchM Unit := do
  let deposits ← irreversibleDepositsSince L cfg.reader
    (fun b => (Prog.ask (WatchOp.getOpsInBlock b) : WatchM (Option (List OpWrapper)))) cursor
    scannedTo
  Prog.forEach (handleDeposit L cfg) deposits

/-- The try block of one iteration, from the memory's cursor to the next. -/
def body (cursor : ℤ) : WatchM ℤ := do
  if ← isPaused then return cursor
  else do
    let now ← dateNow
    recoverStaleSeen cfg.caps now isMine capPauseReason
    let lib : ℤ ← Prog.ask WatchOp.lastIrreversibleBlock
    let safeHead := lib - cfg.extraConfirmations
    if cursor = 0 then keepCursor safeHead
    else if cursor < safeHead then do
      let scannedTo := (nextScanWindow cursor safeHead).scannedTo
      scanWindow L cfg cursor scannedTo
      keepCursor scannedTo
    else return cursor

def tick (cursor : ℤ) : WatchM ℤ := tryCatch (body L cfg cursor) fun _ => pure cursor

end VizWatcher

/-! ## The TON watcher -/

structure GramWatcherConfig where
  scan : GramScanConfig
  caps : CapPolicy

/-- `coldStartAnchorLt`. -/
def coldStartAnchorLt (tipLt : ℕ) : ℕ := if 0 < tipLt then tipLt - 1 else 0

def returnInvalidDest : String := "RETURN_INVALID_DEST"

/-- `classifyPegOutDestination`. -/
def classifyPegOutDestination (destination : String) : WatchM String := do
  let ok : Bool ← Prog.ask (WatchOp.accountExists destination)
  return if ok then "" else returnInvalidDest

namespace GramWatcher

variable (L : Libs) (cfg : GramWatcherConfig)

def isMine (r : OutboxRecord) : Bool := r.direction = .pegOut && r.remoteChain = some .gram

def capPauseReason : String := "TON peg-out 24h cap exceeded"

def truncatedReason (cursor : ℤ) : String :=
  s!"TON peg-out scan truncated at lt {cursor}: burst exceeds scan window (maxScanPages={cfg.scan.maxScanPages})"

/-- The row a burn claims. -/
def claim (burn : RemoteBurn) : EnqueueInput :=
  let action := canonicalPegOut L.digestOf burn
  { id := action.id
    direction := .pegOut
    remoteChain := some burn.chain
    recipient := action.recipient
    sender := some burn.sender
    amountMilliViz := action.amountMilliViz
    digest := action.digest
    status := some seen }

/-- What follows a fresh claim. -/
def decide (policy : CapPolicy) (burn : RemoteBurn) : WatchM Unit := do
  let reason ← classifyPegOutDestination burn.homeDestination
  if reason ≠ "" then setStatus burn.sourceId held { lastError := some (some reason) }
  else capDecision policy capPauseReason burn.sourceId burn.amountMilliViz

/-- One burn of the loop. -/
def handleBurn (burn : RemoteBurn) : WatchM Unit := do
  let first ← enqueue (claim L burn)
  if first then decide cfg.caps burn else pure ()

/-- The try block of one iteration, from the memory's cursor to the next. -/
def body (cursor : ℤ) : WatchM ℤ := do
  if ← isPaused then return cursor
  else do
    let now ← dateNow
    recoverStaleSeen cfg.caps now isMine capPauseReason
    if cursor = 0 then do
      let tip : ℕ ← Prog.ask WatchOp.newestLt
      keepCursor (coldStartAnchorLt tip)
    else do
      let scan : ScanResult ← Prog.ask (WatchOp.finalizedBurnsPaginated cursor.toNat)
      Prog.forEach (handleBurn L cfg) scan.burns
      if scan.drained then keepCursor scan.newestFinalLt
      else do
        pause (truncatedReason cfg cursor)
        return cursor

def tick (cursor : ℤ) : WatchM ℤ := tryCatch (body L cfg cursor) fun _ => pure cursor

end GramWatcher

/-! ## The shared state -/

/-- A row of `pegin_rate`. -/
structure RateRow where
  sender : String
  ts : ℤ
  deriving DecidableEq

/-- What the watchers share: the outbox, the cap and rate windows, one watcher's cursor, and beside
them the blocks whose operations were read. -/
structure WatchState where
  outbox : Outbox
  caps : CapWindow
  rates : List RateRow
  cursor : ℤ
  scanned : List ℤ

namespace WatchState

def empty : WatchState := ⟨Outbox.empty, ⟨[]⟩, [], 0, []⟩

/-- The sender's slots in force. -/
def slots (s : WatchState) (sender : String) (windowMs now : ℤ) : ℕ :=
  s.rates.countP fun r => r.sender = sender ∧ now - windowMs < r.ts

/-- `tryReserveSenderRate`. -/
def tryReserveSenderRate (s : WatchState) (sender : String) (maxPerWindow : ℕ)
    (windowMs now : ℤ) : WatchState × Bool :=
  let pruned := { s with rates := s.rates.filter fun r => now - windowMs ≤ r.ts }
  if maxPerWindow ≤ pruned.slots sender windowMs now then (pruned, false)
  else ({ pruned with rates := pruned.rates ++ [⟨sender, now⟩] }, true)

end WatchState

/-- How one await comes out. -/
structure WatchInput where
  fails : Option String := none
  clock : ℤ := 0
  accounts : String → Bool := fun _ => false
  lib : ℤ := 0
  ops : ℤ → Option (List OpWrapper) := fun _ => none
  tip : ℕ := 0
  scan : ℕ → Except String ScanResult := fun n => .ok ⟨⟨[], n⟩, true⟩

def WatchOp.run (i : WatchInput) (s : WatchState) :
    (o : WatchOp) → WatchState × Except String o.Ans
  | store o => ({ s with outbox := (o.exec i.clock s.outbox).1 }, .ok (o.exec i.clock s.outbox).2)
  | cap o => ({ s with caps := (o.run { clock := i.clock } s.caps).1 },
      .ok (o.run { clock := i.clock } s.caps).2)
  | dateNow => (s, .ok i.clock)
  | getCursor => (s, .ok s.cursor)
  | setCursor value => (if value ≤ s.cursor then s else { s with cursor := value }, .ok ())
  | tryReserveSenderRate sender maxPerWindow windowMs now =>
    ((s.tryReserveSenderRate sender maxPerWindow windowMs now).1,
      .ok (s.tryReserveSenderRate sender maxPerWindow windowMs now).2)
  | accountExists name => (s, .ok (name ≠ "" && i.accounts name))
  | lastIrreversibleBlock => (s, .ok i.lib)
  | getOpsInBlock b => ({ s with scanned := b :: s.scanned }, .ok (i.ops b))
  | newestLt => (s, .ok i.tip)
  | finalizedBurnsPaginated fromLt => (s, i.scan fromLt)

/-- A call that throws has changed nothing. -/
def WatchOp.exec (o : WatchOp) (i : WatchInput) (s : WatchState) :
    WatchState × Except String o.Ans :=
  match i.fails with
  | some e => (s, .error e)
  | none => o.run i s

/-! ## A watcher among the other services -/

/-- What the others do to the shared state between two steps of a watcher. -/
inductive OutsideAct
  | store (clock : ℤ) (o : StoreOp)
  | cap (clock : ℤ) (o : CapOp)
  | unpause

def OutsideAct.apply : OutsideAct → WatchState → WatchState
  | store clock o, s => { s with outbox := (o.exec clock s.outbox).1 }
  | cap clock o, s => { s with caps := (o.run { clock } s.caps).1 }
  | unpause, s => { s with outbox := { s.outbox with paused := none } }

/-- Only the Solana scanner deletes rows, its own; a signature holds no colon. -/
def OutsideAct.Ok : OutsideAct → Prop
  | store _ (.delete id) => ':' ∉ id.toList
  | _ => True

def vizWatcherSystem (L : Libs) (cfg : VizWatcherConfig) :
    LoopSystem WatchOp WatchOp.Ans String WatchState ℤ WatchInput OutsideAct where
  boot := Prog.ask WatchOp.getCursor
  turn := VizWatcher.tick L cfg
  exec := WatchOp.exec
  act := OutsideAct.apply

abbrev WatchWorld := LoopWorld WatchOp WatchOp.Ans String WatchState ℤ

abbrev WatchEvent := LoopEvent WatchInput OutsideAct

/-- A block query that answers does so with all operations of the block. -/
def HonestBlocks {L : Libs} (ledger : VizLedger L) (w : WatchWorld) : WatchEvent → Prop
  | .await i => ∀ b, w.standsAt = some (.getOpsInBlock b) → ledger.Answers b (i.ops b)
  | .act m => m.Ok
  | _ => True

/-- Block `b` was read, and each of its transfers to a backing account has its row. -/
structure VizReader.Covered {L : Libs} (R : VizReader) (ledger : VizLedger L) (s : WatchState)
    (b : ℤ) : Prop where
  read : b ∈ s.scanned
  rows : ∀ {t id op} {i : ℕ}, t ∈ ledger.transactions b.toNat → computeTrxId L t.tx = some id →
    t.operations[i]? = some op → R.Backs op → (s.outbox.get (id ++ ":" ++ i.repr)).isSome = true

/-! ## The TON watcher and the wallet it watches -/

/-- The wallet as TON gives it: block times follow logical times. -/
structure TonWallet extends Wallet where
  ordered : txs.Pairwise fun a b => b.now ≤ a.now

/-- A committed wVIZ transfer to the gateway, once it is final. -/
def GramTx.Burns (L : Libs) (tx : GramTx) : Prop :=
  ∃ cutoff height b, burnFromTx L tx cutoff height = .ok (some b)

/-- What a node sees that has not the newest `lag` transactions yet. -/
def WalletHistory.seen (h : WalletHistory) (lag : ℕ) : WalletHistory where
  txs := h.txs.drop lag
  newestFirst := h.newestFirst.sublist (List.drop_sublist ..)

/-- `newestLt`. -/
def WalletHistory.newestLt (h : WalletHistory) : ℕ := (h.txs.head?.map GramTx.lt).getD 0

structure GramState extends WatchState where
  wallet : TonWallet
  /-- The tip the last cold start read. -/
  tip : ℕ

structure GramInput extends WatchInput where
  lag : ℕ := 0
  height : ℕ := 0

def GramState.exec (L : Libs) (cfg : GramScanConfig) (o : WatchOp) (i : GramInput)
    (s : GramState) : GramState × Except String o.Ans :=
  let seen := s.wallet.seen i.lag
  let answer : WatchInput := { i.toWatchInput with
    tip := seen.newestLt
    scan := finalizedBurnsPaginated L cfg seen i.clock i.height }
  let tip := match o, i.fails with
    | .newestLt, none => seen.newestLt
    | _, _ => s.tip
  ({ toWatchState := (o.exec answer s.toWatchState).1, wallet := s.wallet, tip },
    (o.exec answer s.toWatchState).2)

inductive GramAct
  | outside (m : OutsideAct)
  /-- Transactions arrive. -/
  | arrive (wallet : TonWallet)

def gramWatcherSystem (L : Libs) (cfg : GramWatcherConfig) :
    LoopSystem WatchOp WatchOp.Ans String GramState ℤ GramInput GramAct where
  boot := Prog.ask WatchOp.getCursor
  turn := GramWatcher.tick L cfg
  exec := GramState.exec L cfg.scan
  act
    | .outside m, s => { s with toWatchState := m.apply s.toWatchState }
    | .arrive wallet, s => { s with wallet }

abbrev GramWorld := LoopWorld WatchOp WatchOp.Ans String GramState ℤ

abbrev GramEvent := LoopEvent GramInput GramAct

/-- The chain only adds to the wallet, and no one deletes the row of one of its transactions. -/
def ChainOnlyAdds (w : GramWorld) : GramEvent → Prop
  | .act (.outside (.store _ (.delete id))) => id ∉ w.shared.wallet.txs.map GramTx.hash
  | .act (.arrive wallet) => w.shared.wallet.txs <:+ wallet.txs
  | _ => True

end VizGateway
