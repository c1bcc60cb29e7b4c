import VizGateway.Lib.Events
import VizGateway.RemoteChains

/-!
# The peg-out scan on Solana

The watcher pages the gateway token account's signatures from the newest down to its cursor and has
every final one of them parsed. Several transactions may share a slot; a failed one counts for the
paging and is not parsed.
-/

namespace VizGateway

open Text

/-- One entry of the signature list. -/
structure ScanSig where
  signature : String
  slot : ℕ
  err : Bool
  deriving DecidableEq, Repr

/-- What the page walk awaits. -/
inductive ScanOp
  | fetchPage (before : Option String)
  | toBurn (signature : String) (slot : ℕ)
  deriving DecidableEq

def ScanOp.Ans : ScanOp → Type
  | fetchPage _ => List ScanSig
  | toBurn _ _ => Option RemoteBurn

abbrev ScanM := Prog ScanOp ScanOp.Ans String

structure SlotScan where
  burns : List RemoteBurn
  newestFinalSlot : ℤ
  deriving DecidableEq

/-- What one page has been scanned to. -/
structure SlotPage extends SlotScan where
  drained : Bool := false
  sawFresh : Bool := false

structure SlotResult extends SlotScan where
  drained : Bool
  deriving DecidableEq

section

variable (fromSlot safeSlot : ℤ)

/-- A fresh signature: a failed one is passed over, a final one counts and is parsed, a younger one
is left for a later tick. -/
def scanSig (acc : SlotScan) (s : ScanSig) : ScanM SlotScan :=
  if s.err then pure acc
  else if s.slot ≤ safeSlot then do
    let burn ← Prog.ask (ScanOp.toBurn s.signature s.slot)
    return { burns := acc.burns ++ burn.toList, newestFinalSlot := max acc.newestFinalSlot s.slot }
  else pure acc

/-- One page, down to the cursor. -/
def scanSigs : List ScanSig → SlotPage → ScanM SlotPage
  | [], acc => pure acc
  | s :: rest, acc =>
    if s.slot ≤ fromSlot then pure { acc with drained := true }
    else do
      let scan ← scanSig safeSlot acc.toSlotScan s
      scanSigs rest { acc with toSlotScan := scan, sawFresh := true }

/-- `paginateBurnsBySlot`, with `pages` more pages to go. -/
def paginateBurnsBySlot (limit : ℕ) : ℕ → Option String → SlotScan → ScanM SlotResult
  | 0, _, acc => pure { acc with drained := false }
  | pages + 1, before, acc => do
    let page ← Prog.ask (ScanOp.fetchPage before)
    match List.getLast? page with
    | none => return { acc with drained := true }
    | some last =>
      let scanned ← scanSigs fromSlot safeSlot page { toSlotScan := acc }
      if scanned.drained ∨ scanned.sawFresh = false ∨ List.length page < limit then
        return { scanned.toSlotScan with drained := true }
      else paginateBurnsBySlot limit pages (some last.signature) scanned.toSlotScan

end

/-! ## The signature list -/

/-- The account's signatures, newest first; each names one transaction. -/
structure SigHistory where
  sigs : List ScanSig
  nodup : (sigs.map ScanSig.signature).Nodup
  newestFirst : sigs.Pairwise fun a b => b.slot ≤ a.slot

/-- `fetchPage`: the next `limit` entries strictly after `before`. -/
def SigHistory.page (h : SigHistory) (limit : ℕ) (before : Option String) : List ScanSig :=
  match before with
  | none => h.sigs.take limit
  | some sig => ((h.sigs.dropWhile (·.signature ≠ sig)).drop 1).take limit

/-! ## The scan of the gateway account -/

inductive SolanaRpc
  | getSlot
  | getSignaturesForAddress (limit : ℕ) (before : Option String)
  | getParsedTransaction (signature : String)

def SolanaRpc.Ans : SolanaRpc → Type
  | getSlot => ℕ
  | getSignaturesForAddress _ _ => List ScanSig
  | getParsedTransaction _ => Option ParsedTx

structure SolanaScanConfig where
  gatewayTokenAccount : Option String
  finalitySlots : ℕ
  maxSignatures : ℕ
  maxScanPages : ℕ

/-- The page size in force. -/
def SolanaScanConfig.limit (cfg : SolanaScanConfig) : ℕ := max 1 cfg.maxSignatures

def SolanaScanConfig.pages (cfg : SolanaScanConfig) : ℕ := max 1 cfg.maxScanPages

/-- What the walk's operations ask of the node. -/
def carryScan (limit : ℕ) (acct : String) : (o : ScanOp) → Prog SolanaRpc SolanaRpc.Ans String o.Ans
  | .fetchPage before => Prog.ask (SolanaRpc.getSignaturesForAddress limit before)
  | .toBurn signature slot => do
    let tx ← Prog.ask (SolanaRpc.getParsedTransaction signature)
    match tx with
    | none => return none
    | some tx =>
      let parsed ← Prog.ofExcept (parseGatewayDeposit tx acct)
      return parsed.map fun p =>
        { chain := .solana, sourceId := signature, height := slot, sender := p.sender,
          amountMilliViz := p.amountBaseUnits, homeDestination := trim p.memo }

/-- `SolanaChain.finalizedBurnsPaginated`. -/
def finalizedBurnsBySlot (cfg : SolanaScanConfig) (fromSlot : ℤ) :
    Prog SolanaRpc SolanaRpc.Ans String SlotResult :=
  match cfg.gatewayTokenAccount with
  | none => pure { burns := [], newestFinalSlot := fromSlot, drained := true }
  | some acct => do
    let height : ℕ ← Prog.ask SolanaRpc.getSlot
    (paginateBurnsBySlot fromSlot ((height : ℤ) - cfg.finalitySlots) cfg.limit cfg.pages none
      ⟨[], fromSlot⟩).translate (carryScan cfg.limit acct)

end VizGateway
