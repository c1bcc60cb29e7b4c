import VizGateway.VizScan

/-!
# The ring of VIZ nodes

A reader asks the node its index points to. A transient error moves the index to the next node and
asks again, four times at most; any other error is thrown. The index stays where an answer was
found, and the other reads of the process move it as well.
-/

namespace VizGateway

/-- What a call to a node throws, and whether `isTransientRpcError` holds of it. -/
structure RpcError where
  message : String
  transient : Bool
  deriving DecidableEq

/-- The index of the reader, and how many attempts it has made. -/
structure RingState where
  idx : ℕ
  time : ℕ
  deriving DecidableEq

abbrev RingM := StateT RingState (Except String)

/-- The nodes as they answer each attempt. -/
structure VizRing where
  nodes : ℕ
  /-- Where the other reads leave the index before an attempt. -/
  others : ℕ → ℕ → ℕ
  lastIrreversibleBlock : ℕ → ℕ → Except RpcError ℤ
  getOpsInBlock : ℕ → ℕ → ℤ → Except RpcError (Option (List OpWrapper))

namespace VizRing

def rpcMaxAttempts : ℕ := 4

variable (ring : VizRing)

/-- The node after `idx`. -/
def next (idx : ℕ) : ℕ := if 1 < ring.nodes then (idx + 1) % ring.nodes else idx

/-- The loop of `call`, with some attempts to go. -/
def attempts {α : Type} (query : ℕ → ℕ → Except RpcError α) : ℕ → RingM α
  | 0 => throw "unreachable"
  | n + 1 => fun s =>
    let idx := ring.others s.time s.idx
    match query s.time idx with
    | .ok a => .ok (a, ⟨idx, s.time + 1⟩)
    | .error e =>
      if n = 0 ∨ e.transient = false then .error e.message
      else attempts query n ⟨ring.next idx, s.time + 1⟩

/-- `call`. -/
def call {α : Type} (query : ℕ → ℕ → Except RpcError α) : RingM α :=
  ring.attempts query rpcMaxAttempts

/-- The node that answered the attempt before `s`, and when. -/
def server (s : RingState) : ℕ × ℕ := (s.time - 1, s.idx)

def head : RingM ℤ := ring.call ring.lastIrreversibleBlock

def blockOps (b : ℤ) : RingM (Option (List OpWrapper)) :=
  ring.call fun time idx => ring.getOpsInBlock time idx b

/-- One scan of the watcher: the head from one call, the blocks from others. -/
def scanToHead (L : Libs) (R : VizReader) (cursor extraConfirmations : ℤ) :
    RingM (List VizDeposit) := do
  let lib ← ring.head
  irreversibleDepositsSince L R ring.blockOps cursor
    (nextScanWindow cursor (lib - extraConfirmations)).scannedTo

/-- Each node has some of the blocks at each moment: of those it has it answers all operations, of
the others none. -/
structure Honest {L : Libs} (ledger : VizLedger L) (has : ℕ → ℕ → ℤ → Prop) : Prop where
  full : ∀ {time idx b answer}, ring.getOpsInBlock time idx b = .ok answer → has time idx b →
    ledger.Answers b answer
  empty : ∀ {time idx b answer}, ring.getOpsInBlock time idx b = .ok answer → ¬ has time idx b →
    answer.getD [] = []

end VizRing

/-- The deposits of one block of the chain. -/
def VizLedger.deposits {L : Libs} (ledger : VizLedger L) (R : VizReader) (b : ℤ) : List VizDeposit :=
  (ledger.ops b).filterMap fun w =>
    match scannedDeposit L R w with
    | .ok d => d
    | .error _ => none

end VizGateway
