import VizGateway.RemoteChains

/-!
# The peg-out scan on TON

The watcher pages the gateway wallet's transactions from the newest down to its cursor and parses
every final one. The parser reads attacker-chosen bits; what it throws, the whole scan throws.
-/

namespace VizGateway

open Checks Text

/-! ## Bodies the parser can read -/

/-- `rest` follows a coin amount. -/
def CoinsThen (bits rest : List Bool) : Prop :=
  ∃ size value, size.length = 4 ∧ value.length = bitsToNat size * 8 ∧ bits = size ++ (value ++ rest)

/-- `rest` follows a standard address. -/
def AddressThen (bits rest : List Bool) : Prop :=
  ∃ wc hash, wc.length = 8 ∧ hash.length = 256 ∧ bits = [true, false, false] ++ (wc ++ (hash ++ rest))

/-- `rest` follows an address or none. -/
def MaybeAddressThen (bits rest : List Bool) : Prop :=
  bits = [false, false] ++ rest ∨ AddressThen bits rest

/-- A string tail: whole bytes, in a chain of cells each full but for the last. -/
def StringTail : Cell → Prop
  | .mk bits [] => bits.length % 8 = 0
  | .mk bits [next] => bits.length % 8 = 0 ∧ 1016 ≤ bits.length ∧ StringTail next
  | .mk _ (_ :: _ :: _) => False

/-- A payload: too short for a tag, tagged as something else, or a text comment. -/
def PayloadOk (s : Slice) : Prop :=
  s.bits.length < 32 ∨ bitsToNat (s.bits.take 32) ≠ 0 ∨ StringTail (.mk (s.bits.drop 32) s.refs)

/-- The forward payload: inline after a 0, in a reference after a 1. -/
def ForwardOk (bits : List Bool) (refs : List Cell) : Prop :=
  ∃ inRef rest, bits = inRef :: rest ∧
    match inRef with
    | false => PayloadOk ⟨rest, refs⟩
    | true => ∃ c tail, refs = c :: tail ∧ PayloadOk c.beginParse

/-- A body whose reading does not run out of bits, references or whole bytes: any body under
another op, or a jetton message with all its fields. -/
def Readable (body : Slice) : Prop :=
  body.bits.length < 32
    ∨ (bitsToNat (body.bits.take 32) ≠ opTransferNotification
        ∧ bitsToNat (body.bits.take 32) ≠ opInternalTransfer)
    ∨ ∃ queryId amount sender : List Bool, queryId.length = 64
        ∧ body.bits.drop 32 = queryId ++ amount ∧ CoinsThen amount sender
        ∧ ∃ afterSender, AddressThen sender afterSender
          ∧ if bitsToNat (body.bits.take 32) = opInternalTransfer then
              ∃ forward payload, MaybeAddressThen afterSender forward
                ∧ CoinsThen forward payload ∧ ForwardOk payload body.refs
            else ForwardOk afterSender body.refs

/-- A transaction the scan can turn into a burn or nothing: not yet final, not committed, without
a body, or with a readable one. -/
def ReadableTx (tx : GramTx) (cutoff : ℤ) : Prop :=
  tx.now ≤ cutoff → txComputeSucceeded tx = true → ∀ body, tx.inMessageBody = some body →
    Readable body.beginParse

/-! ## The page loop -/

structure Scan where
  burns : List RemoteBurn
  newestFinalLt : ℕ
  deriving DecidableEq

/-- What one page has been scanned to. -/
structure PageScan extends Scan where
  drained : Bool := false
  sawFresh : Bool := false

structure ScanResult extends Scan where
  drained : Bool
  deriving DecidableEq

section

variable (fromLt : ℕ) (cutoff : ℤ) (toBurn : GramTx → Except String (Option RemoteBurn))

/-- A fresh transaction: a final one counts and is parsed, a younger one is left for later. -/
def scanTx (acc : Scan) (tx : GramTx) : Except String Scan :=
  if tx.now ≤ cutoff then do
    let burn ← toBurn tx
    return { burns := acc.burns ++ burn.toList, newestFinalLt := max acc.newestFinalLt tx.lt }
  else .ok acc

/-- One page: the repeated anchor is skipped, the cursor ends the scan. -/
def scanPage (anchorLt : Option ℕ) : List GramTx → PageScan → Except String PageScan
  | [], acc => .ok acc
  | tx :: rest, acc =>
    if anchorLt.any (· ≤ tx.lt) then scanPage anchorLt rest acc
    else if tx.lt ≤ fromLt then .ok { acc with drained := true }
    else do
      let scan ← scanTx cutoff toBurn acc.toScan tx
      scanPage anchorLt rest { acc with toScan := scan, sawFresh := true }

/-- `paginateBurnsByLt`, with `pages` more pages to go. -/
def paginateBurnsByLt (limit : ℕ) (fetchPage : Option (ℕ × String) → Except String (List GramTx)) :
    ℕ → Option (ℕ × String) → Scan → Except String ScanResult
  | 0, _, acc => .ok { acc with drained := false }
  | pages + 1, anchor, acc => do
    let page ← fetchPage anchor
    if page = [] then return { acc with drained := true }
    else
      let scanned ← scanPage fromLt cutoff toBurn (anchor.map (·.1)) page { toScan := acc }
      if scanned.drained then return { scanned.toScan with drained := true }
      else
        match page.getLast? with
        | none => return { scanned.toScan with drained := true }
        | some last =>
          if scanned.sawFresh = false ∨ page.length < limit then
            return { scanned.toScan with drained := true }
          else
            paginateBurnsByLt limit fetchPage pages (some (last.lt, last.hash)) scanned.toScan

end

/-! ## The scan of a wallet -/

/-- The gateway wallet's transactions, newest first; no two share a logical time. -/
structure WalletHistory where
  txs : List GramTx
  newestFirst : txs.Pairwise fun a b => b.lt < a.lt

/-- `getTransactions`, from the newest or from an anchor on, the anchor included. -/
def WalletHistory.getTransactions (h : WalletHistory) (limit : ℕ) (anchor : Option (ℕ × String)) :
    List GramTx :=
  match anchor with
  | none => h.txs.take limit
  | some a => (h.txs.dropWhile fun tx => a.1 < tx.lt).take limit

structure GramScanConfig where
  finalityBufferSec : ℤ
  maxTransactions : ℕ
  maxScanPages : ℕ

/-- The page size in force. -/
def GramScanConfig.limit (cfg : GramScanConfig) : ℕ := max 1 cfg.maxTransactions

def GramScanConfig.pages (cfg : GramScanConfig) : ℕ := max 1 cfg.maxScanPages

/-- `GramHttpChain.finalizedBurnsPaginated`, on a node that answers. -/
def finalizedBurnsPaginated (L : Libs) (cfg : GramScanConfig) (h : WalletHistory) (nowMs : ℤ)
    (height fromLt : ℕ) : Except String ScanResult :=
  let cutoff := nowMs / 1000 - cfg.finalityBufferSec
  paginateBurnsByLt fromLt cutoff (fun tx => burnFromTx L tx cutoff height) cfg.limit
    (fun anchor => .ok (h.getTransactions cfg.limit anchor)) cfg.pages none ⟨[], fromLt⟩

/-- A wallet's history as the chain gives it: a hash names one transaction, and logical times are
positive. -/
structure Wallet extends WalletHistory where
  hashes : (txs.map GramTx.hash).Nodup
  positive : ∀ tx ∈ txs, 0 < tx.lt

/-- The node an operator's `getBurn` asks. -/
def Wallet.node (w : Wallet) (cfg : GramScanConfig) (nowMs : ℤ) (height : ℕ) : GramNode where
  gatewayWallet := true
  finalityBufferSec := cfg.finalityBufferSec
  nowMs
  getTransactions := .ok (w.getTransactions cfg.limit none)
  latestSeqno := .ok height

/-! ## The range of a scan -/

/-- The transactions above the cursor, down to the first one at it. -/
def fresh (fromLt : ℕ) (txs : List GramTx) : List GramTx := txs.takeWhile (fromLt < ·.lt)

/-- How many transactions one scan looks through at most: the pages overlap in one. -/
def GramScanConfig.window (cfg : GramScanConfig) : ℕ :=
  cfg.limit + (cfg.pages - 1) * (cfg.limit - 1)

/-- The range of a scan: the transactions above the cursor, within the page budget. -/
def WalletHistory.range (h : WalletHistory) (cfg : GramScanConfig) (fromLt : ℕ) : List GramTx :=
  fresh fromLt (h.txs.take cfg.window)

end VizGateway
