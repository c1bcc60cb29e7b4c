import VizGateway.VizChain

/-!
# The block scan on VIZ

The watcher asks for the operations of one block after the other and keeps the transfers to a
backing account. What a node answers, virtual operations aside, are the operations of the block's
transactions, each under its transaction's id.
-/

namespace VizGateway

open Checks Text

def zeroTrx : String := "0000000000000000000000000000000000000000"

def maxBlocksPerScan : ℤ := 200

/-- One operation as `get_ops_in_block` returns it. -/
structure OpWrapper where
  trx_id : String
  block : ℕ
  op_in_trx : ℕ
  virtual_op : ℕ
  op : VizOp
  deriving DecidableEq, Repr

structure ScanWindow where
  scannedTo : ℤ
  caughtUp : Bool
  deriving DecidableEq

/-- `nextScanWindow`. -/
def nextScanWindow (cursor safeHead : ℤ) : ScanWindow :=
  let scannedTo := min safeHead (cursor + maxBlocksPerScan)
  { scannedTo, caughtUp := decide (safeHead ≤ scannedTo) }

section

variable (L : Libs) (R : VizReader)

/-- One turn of the loop over a block's operations: a skipped one gives nothing. -/
def scannedDeposit (w : OpWrapper) : Except String (Option VizDeposit) :=
  if w.virtual_op ≠ 0 then .ok none
  else if w.trx_id = zeroTrx then .ok none
  else if w.op.name ≠ "transfer" then .ok none
  else
    let receiver := jsStringOr "" (w.op.payload.get "to")
    match R.accounts.chainFor receiver with
    | none => .ok none
    | some chain => do
      let rawMemo := trim (jsStringOr "" (w.op.payload.get "memo"))
      let rawDestination := resolveMemoDestination L rawMemo (R.memoWifs receiver)
      let destinationValid := isValidRemoteAddress chain rawDestination
      let amountMilliViz ← found (vizToMilli (jsStringOr "0.000 VIZ" (w.op.payload.get "amount")))
        "Cannot convert to a BigInt"
      return some {
        trxId := w.trx_id, opIndex := w.op_in_trx, blockNum := w.block
        sender := jsStringOr "" (w.op.payload.get "from")
        receiver, amountMilliViz
        remoteChain := chain
        remoteDestination := if destinationValid then rawDestination else ""
        destinationValid }

/-- The deposits among a block's operations. -/
def blockDeposits : List OpWrapper → Except String (List VizDeposit)
  | [] => .ok []
  | w :: ws => do
    let d ← scannedDeposit L R w
    let ds ← blockDeposits ws
    return d.toList ++ ds

variable {m : Type → Type} [Monad m] [MonadExceptOf String m]
  (getOpsInBlock : ℤ → m (Option (List OpWrapper)))

/-- The loop over the blocks, each one asked for on its own. -/
def scanBlocks : List ℤ → m (List VizDeposit)
  | [] => pure []
  | b :: bs => do
    let ops ← getOpsInBlock b
    let here ← MonadExcept.ofExcept (blockDeposits L R (ops.getD []))
    let rest ← scanBlocks bs
    return here ++ rest

/-- The blocks from `start` to `stop`. -/
def blockRange (start stop : ℤ) : List ℤ :=
  (List.range (stop + 1 - start).toNat).map fun n : ℕ => start + (n : ℤ)

/-- `irreversibleDepositsSince`. -/
def irreversibleDepositsSince (fromBlock upToBlock : ℤ) : m (List VizDeposit) :=
  let start := fromBlock + 1
  if upToBlock < start then pure []
  else scanBlocks L R getOpsInBlock (blockRange start (min upToBlock (start + maxBlocksPerScan - 1)))

end

theorem mem_blockRange {start stop b : ℤ} : b ∈ blockRange start stop ↔ start ≤ b ∧ b ≤ stop := by
  unfold blockRange
  simp only [List.mem_map, List.mem_range]
  constructor
  · rintro ⟨n, hn, rfl⟩
    omega
  · rintro ⟨hstart, hstop⟩
    exact ⟨(b - start).toNat, by omega, by omega⟩

/-! ## What the chain holds -/

/-- A transfer to a backing account. -/
def VizReader.Backs (R : VizReader) (op : VizOp) : Prop :=
  op.name = "transfer" ∧ (R.accounts.chainFor (jsStringOr "" (op.payload.get "to"))).isSome = true

/-- The irreversible chain: each transaction in one block, under an id no other one has. -/
structure VizLedger (L : Libs) where
  transactions : ℕ → List BlockTransaction
  genesis : transactions 0 = []
  named : ∀ b, ∀ t ∈ transactions b, ∃ id, computeTrxId L t.tx = some id ∧ id ≠ zeroTrx ∧ id ≠ ""
  unique : ∀ {b b' t t' id}, t ∈ transactions b → t' ∈ transactions b' →
    computeTrxId L t.tx = some id → computeTrxId L t'.tx = some id → b = b' ∧ t = t'

namespace VizLedger

variable {L : Libs} (ledger : VizLedger L)

/-- The operations of one transaction, each with its place. -/
def wrap (L : Libs) (b : ℕ) (t : BlockTransaction) : List OpWrapper :=
  match computeTrxId L t.tx with
  | none => []
  | some id => t.operations.mapIdx fun i op =>
    { trx_id := id, block := b, op_in_trx := i, virtual_op := 0, op }

/-- The operations of one block. -/
def ops (b : ℤ) : List OpWrapper := (ledger.transactions b.toNat).flatMap (wrap L b.toNat)

/-- An answer that holds all operations of the block, and virtual ones besides. -/
def Answers (b : ℤ) (answer : Option (List OpWrapper)) : Prop :=
  (answer.getD []).filter (·.virtual_op = 0) = ledger.ops b

end VizLedger

end VizGateway
