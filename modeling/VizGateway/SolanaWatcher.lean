import VizGateway.SolanaScan
import VizGateway.Watchers

/-!
# The Solana watcher

It follows the finalized slot and claims what the gateway's token account receives, as the other
two watchers do, but nothing recovers the rows it leaves in SEEN. Every page and every transaction
of a scan is an await of its own: the account's signature list grows while the scan walks it.
-/

namespace VizGateway

open ActionStatus Watch

inductive SolanaWatchOp
  | watch (o : WatchOp)
  | rpc (o : SolanaRpc)

def SolanaWatchOp.Ans : SolanaWatchOp → Type
  | watch o => o.Ans
  | rpc o => o.Ans

abbrev SolanaWatchM := Prog SolanaWatchOp SolanaWatchOp.Ans String

structure SolanaWatcherConfig where
  scan : SolanaScanConfig
  caps : CapPolicy

namespace SolanaWatcher

variable (L : Libs) (cfg : SolanaWatcherConfig)

def askWatch (o : WatchOp) : SolanaWatchM o.Ans := Prog.ask (SolanaWatchOp.watch o)

def askRpc (o : SolanaRpc) : SolanaWatchM o.Ans := Prog.ask (SolanaWatchOp.rpc o)

def lift {α : Type} (p : WatchM α) : SolanaWatchM α := p.translate askWatch

def liftRpc {α : Type} (p : Prog SolanaRpc SolanaRpc.Ans String α) : SolanaWatchM α :=
  p.translate askRpc

def capPauseReason : String := "Solana peg-out 24h cap exceeded"

def truncatedReason (cursor : ℤ) : String :=
  s!"Solana peg-out scan truncated at slot {cursor}: burst exceeds scan window (maxScanPages={cfg.scan.maxScanPages})"

/-- The row a burn claims; unlike the TON watcher's it keeps no sender. -/
def claim (burn : RemoteBurn) : EnqueueInput :=
  let action := canonicalPegOut L.digestOf burn
  { id := action.id
    direction := .pegOut
    remoteChain := some burn.chain
    recipient := action.recipient
    amountMilliViz := action.amountMilliViz
    digest := action.digest
    status := some seen }

/-- One burn of the loop. -/
def handleBurn (burn : RemoteBurn) : WatchM Unit := do
  let first ← enqueue (claim L burn)
  if first then capDecision cfg.caps capPauseReason burn.sourceId burn.amountMilliViz else pure ()

/-- The try block of one iteration, from the memory's cursor to the next. -/
def body (cursor : ℤ) : SolanaWatchM ℤ := do
  let paused : Bool ← lift isPaused
  if paused then return cursor
  else do
    let slot : ℕ ← askRpc .getSlot
    if cursor = 0 then lift (keepCursor slot)
    else if cursor < slot then do
      let scan ← liftRpc (finalizedBurnsBySlot cfg.scan cursor)
      lift (Prog.forEach (handleBurn L cfg) scan.burns)
      if scan.drained then lift (keepCursor scan.newestFinalSlot)
      else do
        lift (pause (truncatedReason cfg cursor))
        return cursor
    else return cursor

def tick (cursor : ℤ) : SolanaWatchM ℤ := tryCatch (body L cfg cursor) fun _ => pure cursor

end SolanaWatcher

/-! ## The account it watches -/

/-- A token account as the node has indexed it: its signatures and their transactions. -/
structure SolanaAccount extends SigHistory where
  tx : String → Option ParsedTx

/-- A transaction that paid wVIZ into the account and did not fail. -/
def SolanaAccount.Pays (a : SolanaAccount) (ata : String) (s : ScanSig) : Prop :=
  s ∈ a.sigs ∧ s.err = false
    ∧ ∃ tx p, a.tx s.signature = some tx ∧ parseGatewayDeposit tx ata = .ok (some p)

/-- The account some time later: it keeps its signatures in their order and their transactions, and
what is new is above the slot. -/
structure SolanaAccount.Extends (a b : SolanaAccount) (slot : ℤ) : Prop where
  keeps : a.sigs.Sublist b.sigs
  tx : ∀ s ∈ a.sigs, b.tx s.signature = a.tx s.signature
  adds : ∀ s ∈ b.sigs, s ∈ a.sigs ∨ slot < s.slot

structure SolanaWatchState extends WatchState where
  account : SolanaAccount
  /-- The newest slot a node has reported as finalized. -/
  height : ℕ
  /-- The first cursor the store was given. -/
  first : ℤ

structure SolanaInput extends WatchInput where
  slot : ℕ := 0
  /-- The node does not have the transaction yet. -/
  unread : Bool := false

namespace SolanaWatchState

def answer (i : SolanaInput) (s : SolanaWatchState) : (o : SolanaRpc) → o.Ans
  | .getSlot => i.slot
  | .getSignaturesForAddress limit before => s.account.page limit before
  | .getParsedTransaction signature => if i.unread then none else s.account.tx signature

def exec (o : SolanaWatchOp) (i : SolanaInput) (s : SolanaWatchState) :
    SolanaWatchState × Except String o.Ans :=
  match o with
  | .watch o =>
    let t := (o.exec i.toWatchInput s.toWatchState).1
    ({ s with toWatchState := t, first := if s.cursor = 0 then t.cursor else s.first },
      (o.exec i.toWatchInput s.toWatchState).2)
  | .rpc o =>
    match i.fails with
    | some e => (s, .error e)
    | none =>
      let height := match o with
        | .getSlot => max s.height i.slot
        | _ => s.height
      ({ s with height }, .ok (answer i s o))

end SolanaWatchState

inductive SolanaAct
  | outside (m : OutsideAct)
  /-- The node has indexed more transactions. -/
  | arrive (account : SolanaAccount)

def solanaWatcherSystem (L : Libs) (cfg : SolanaWatcherConfig) :
    LoopSystem SolanaWatchOp SolanaWatchOp.Ans String SolanaWatchState ℤ SolanaInput SolanaAct where
  boot := SolanaWatcher.askWatch .getCursor
  turn := SolanaWatcher.tick L cfg
  exec := SolanaWatchState.exec
  act
    | .outside m, s => { s with toWatchState := m.apply s.toWatchState }
    | .arrive account, s => { s with account }

abbrev SolanaWorld := LoopWorld SolanaWatchOp SolanaWatchOp.Ans String SolanaWatchState ℤ

abbrev SolanaEvent := LoopEvent SolanaInput SolanaAct

/-- The finality margin is enough for the node's index, every transaction it lists it has, and no
one deletes the row of one of them. -/
def IndexSettles (cfg : SolanaWatcherConfig) (w : SolanaWorld) : SolanaEvent → Prop
  | .await i => ∀ signature, w.standsAt = some (.rpc (.getParsedTransaction signature)) →
      i.unread = false
  | .act (.outside (.store _ (.delete id))) => id ∉ w.shared.account.sigs.map ScanSig.signature
  | .act (.arrive account) =>
    w.shared.account.Extends account ((w.shared.height : ℤ) - cfg.scan.finalitySlots)
  | _ => True

end VizGateway
