import VizGateway.Lib.Pool
import VizGateway.Signer

/-!
# Opening and approving orders on the multisig

The operator's approver, one await at a time, on a multisig other proposers use too. An order takes
the next number, its address is a function of that number alone, and its body is whatever the
message that opened it carried. A message that was sent lands later or never.
-/

namespace VizGateway

open Checks

/-- The multisig contract: distinct orders live at distinct addresses. -/
structure MultisigV2 where
  orderAddress : ℕ → TonAddress
  orderAddress_inj : Function.Injective orderAddress
  threshold : ℕ
  signers : List TonAddress

structure GramMintProposal where
  actionId : String
  toAddress : String
  amountMilliViz : ℤ
  orderAddr : String
  orderHashHex : String

/-- The order a call works on: the pinned address and the hash of the validated body. -/
structure PinnedOrder where
  addr : TonAddress
  hash : String
  deriving DecidableEq

/-- The place in the code an await stands at. -/
inductive ApproveStage
  | first
  /-- After the call sent its own `new_order`. -/
  | opened
  | lagging
  | approving
  deriving DecidableEq

inductive ApproveOp
  | getMultisigData
  | isInited (order : PinnedOrder) (stage : ApproveStage)
  | getOrderAddress (seqno : ℕ)
  | sendNewOrder (order : PinnedOrder) (myIdx : ℕ)
  /-- `Date.now() < deadline`. -/
  | beforeDeadline (order : PinnedOrder) (stage : ApproveStage)
  | getOrderData (order : PinnedOrder) (stage : ApproveStage)
  | sendApprove (order : PinnedOrder) (myIdx : ℕ)
  /-- The call returns its receipt. -/
  | receipt (order : PinnedOrder) (myIdx : ℕ) (role : TonApprovalRole)
  deriving DecidableEq

structure MultisigData where
  nextOrderSeqno : ℕ
  signers : List TonAddress

def ApproveOp.Ans : ApproveOp → Type
  | getMultisigData => MultisigData
  | isInited .. => Bool
  | getOrderAddress _ => TonAddress
  | beforeDeadline .. => Bool
  | getOrderData .. => OrderData
  | _ => Unit

abbrev ApproveM := Prog ApproveOp ApproveOp.Ans String

structure GramApproverOpts where
  /-- This operator's wallet addresses, v4 and v5r1. -/
  candidates : List TonAddress
  /-- How many polls fit into `maxWaitMs`. -/
  maxPolls : ℕ

namespace GramApprover

def waitForOrderInited (order : PinnedOrder) (stage : ApproveStage) : ℕ → ApproveM Unit
  | 0 => throw "TON order did not appear"
  | polls + 1 => do
    let waiting : Bool ← Prog.ask (ApproveOp.beforeDeadline order stage)
    if waiting then do
      let inited : Bool ← Prog.ask (ApproveOp.isInited order stage)
      if inited then pure () else waitForOrderInited order stage polls
    else throw "TON order did not appear"

def waitForApproval (order : PinnedOrder) (myIdx : ℕ) : ℕ → ApproveM Unit
  | 0 => throw "TON approval not reflected"
  | polls + 1 => do
    let waiting : Bool ← Prog.ask (ApproveOp.beforeDeadline order .approving)
    if waiting then do
      let od : OrderData ← Prog.ask (ApproveOp.getOrderData order .approving)
      if od.executed || od.approvals.getD myIdx false then pure ()
      else waitForApproval order myIdx polls
    else throw "TON approval not reflected"

/-- The approval of an order that exists: its deployed body must hash to the validated one. -/
def approveDeployed (opts : GramApproverOpts) (order : PinnedOrder) (myIdx : ℕ) :
    ApproveM TonApprovalRole := do
  let od : OrderData ← Prog.ask (ApproveOp.getOrderData order .first)
  if od.orderHash = some order.hash then
    if od.executed then pure .executed
    else if od.approvals.getD myIdx false then pure .already
    else do
      Prog.ask (ApproveOp.sendApprove order myIdx)
      waitForApproval order myIdx opts.maxPolls
      pure .approve
  else throw "TON on-chain order body does not match validated action"

/-- The order is absent: open it if it is next, else wait for it and approve it. -/
def openOrWait (opts : GramApproverOpts) (md : MultisigData) (order : PinnedOrder) (myIdx : ℕ) :
    ApproveM TonApprovalRole := do
  let liveNext : TonAddress ← Prog.ask (ApproveOp.getOrderAddress md.nextOrderSeqno)
  if liveNext = order.addr then do
    Prog.ask (ApproveOp.sendNewOrder order myIdx)
    waitForOrderInited order .opened opts.maxPolls
    pure .propose
  else do
    waitForOrderInited order .lagging opts.maxPolls
    approveDeployed opts order myIdx

/-- `sendOrApprove`, to its receipt. -/
def sendOrApprove (opts : GramApproverOpts) (order : PinnedOrder) : ApproveM Unit := do
  let md : MultisigData ← Prog.ask ApproveOp.getMultisigData
  match opts.candidates.findSome? fun c => md.signers.idxOf? c with
  | none => throw "TON approve: operator wallet is not in the multisig signer set"
  | some myIdx => do
    let inited : Bool ← Prog.ask (ApproveOp.isInited order .first)
    let role ←
      if inited then approveDeployed opts order myIdx else openOrWait opts md order myIdx
    Prog.ask (ApproveOp.receipt order myIdx role)

variable (L : Libs)

/-- The rebuilt order must hash to the proposal's. -/
def approveOrder (opts : GramApproverOpts) (proposal : GramMintProposal)
    (body : TonAddress → ℤ → OrderBody) : ApproveM Unit :=
  match L.addressParse proposal.toAddress with
  | none => throw "Unknown address type"
  | some toAddr =>
    if L.orderHash (body toAddr proposal.amountMilliViz) = some proposal.orderHashHex then
      match L.addressParse proposal.orderAddr with
      | none => throw "Unknown address type"
      | some orderAddr => sendOrApprove opts ⟨orderAddr, proposal.orderHashHex⟩
    else throw "TON order hash mismatch"

def approveMint (opts : GramApproverOpts) (proposal : GramMintProposal) : ApproveM Unit :=
  approveOrder L opts proposal .mint

def approveReturn (opts : GramApproverOpts) (proposal : GramMintProposal) : ApproveM Unit :=
  approveOrder L opts proposal .giveBack

end GramApprover

/-! ## The multisig -/

/-- A deployed order: the hash of its body and who approved it. -/
structure DeployedOrder where
  hash : String
  approvals : List ℕ
  deriving DecidableEq

/-- A `new_order` of this wallet on its way. -/
structure NewOrder where
  order : PinnedOrder
  myIdx : ℕ
  deriving DecidableEq

structure MultisigState where
  /-- The orders by their number. -/
  orders : List DeployedOrder := []
  inFlight : List NewOrder := []
  /-- The orders this wallet opened: the pinned address and the one it got. -/
  created : List (TonAddress × TonAddress) := []
  deriving DecidableEq

namespace MultisigState

variable (ms : MultisigV2) (s : MultisigState)

def nextAddr : TonAddress := ms.orderAddress s.orders.length

def orderAt (a : TonAddress) : Option DeployedOrder :=
  s.orders.zipIdx.findSome? fun x => if ms.orderAddress x.2 = a then some x.1 else none

/-- `new_order`: the order gets the next number, with its opener's approval. -/
def openOrder (hash : String) (idx : ℕ) : MultisigState :=
  { s with orders := s.orders ++ [⟨hash, [idx]⟩] }

def approve (a : TonAddress) (idx : ℕ) : MultisigState :=
  { s with
    orders := s.orders.mapIdx fun n o =>
      if ms.orderAddress n = a then { o with approvals := idx :: o.approvals } else o }

end MultisigState

def DeployedOrder.data (ms : MultisigV2) (o : DeployedOrder) : OrderData where
  orderHash := some o.hash
  executed := decide (ms.threshold ≤ o.approvals.dedup.length)
  approvals := (List.range ms.signers.length).map fun n => decide (n ∈ o.approvals)

/-- How one await comes out; a send that throws may still have gone out. -/
structure ApproveInput where
  fails : Option String := none
  sentAnyway : Bool := false
  beforeDeadline : Bool := true
  /-- Whether an approval lands at once; otherwise it lands later or never. -/
  lands : Bool := true

/-- `getContractState(addr).state === "active"`. -/
def initedAnswer (ms : MultisigV2) (i : ApproveInput) (s : MultisigState) (a : TonAddress) :
    Except String Bool :=
  match i.fails with
  | some e => .error e
  | none => .ok (s.orderAt ms a).isSome

/-- `getOrderData`, which throws where no order is deployed. -/
def orderDataAnswer (ms : MultisigV2) (i : ApproveInput) (s : MultisigState) (a : TonAddress) :
    Except String OrderData :=
  match i.fails, s.orderAt ms a with
  | some e, _ => .error e
  | none, some o => .ok (o.data ms)
  | none, none => .error "exit_code: -13"

def ApproveOp.exec (ms : MultisigV2) (i : ApproveInput) (s : MultisigState) :
    (o : ApproveOp) → MultisigState × Except String o.Ans
  | getMultisigData =>
    (s, i.fails.elim (.ok ⟨s.orders.length, ms.signers⟩) .error)
  | isInited order _ => (s, initedAnswer ms i s order.addr)
  | getOrderAddress seqno => (s, i.fails.elim (.ok (ms.orderAddress seqno)) .error)
  | sendNewOrder order myIdx =>
    (if i.fails.isNone || i.sentAnyway then { s with inFlight := s.inFlight ++ [⟨order, myIdx⟩] }
      else s, i.fails.elim (.ok ()) .error)
  | beforeDeadline .. => (s, .ok i.beforeDeadline)
  | getOrderData order _ =>
    (s, orderDataAnswer ms i s order.addr)
  | sendApprove order myIdx =>
    (if i.lands then s.approve ms order.addr myIdx else s, i.fails.elim (.ok ()) .error)
  | receipt .. => (s, .ok ())

/-- What happens on the multisig beside this wallet's calls. -/
inductive MultisigEvent
  /-- A message of this wallet lands. -/
  | land (n : ℕ)
  | expire (n : ℕ)
  /-- Another proposer opens an order with any body. -/
  | openOrder (hash : String) (idx : ℕ)
  | approve (a : TonAddress) (idx : ℕ)

def MultisigEvent.act (ms : MultisigV2) (s : MultisigState) : MultisigEvent → MultisigState
  | land n =>
    match s.inFlight[n]? with
    | some m =>
      { s.openOrder m.order.hash m.myIdx with
        inFlight := s.inFlight.eraseIdx n
        created := (m.order.addr, s.nextAddr ms) :: s.created }
    | none => s
  | expire n => { s with inFlight := s.inFlight.eraseIdx n }
  | openOrder hash idx => s.openOrder hash idx
  | approve a idx => s.approve ms a idx

inductive ApproveCall
  | mint (proposal : GramMintProposal)
  | giveBack (proposal : GramMintProposal)

def approveSystem (L : Libs) (ms : MultisigV2) (opts : GramApproverOpts) :
    PoolSystem ApproveOp ApproveOp.Ans String MultisigState ApproveCall ApproveInput
      MultisigEvent where
  body
    | .mint proposal => GramApprover.approveMint L opts proposal
    | .giveBack proposal => GramApprover.approveReturn L opts proposal
  exec o i s := o.exec ms i s
  act e s := e.act ms s

abbrev ApproveWorld := Pool ApproveOp ApproveOp.Ans String MultisigState

abbrev ApproveEvent := PoolEvent ApproveCall ApproveInput MultisigEvent

def ApproveWorld.init (orders : List DeployedOrder) : ApproveWorld := ⟨{ orders }, []⟩

/-- A receipt is handed out over another body than the validated one. -/
def WrongReceipt (ms : MultisigV2) (w : ApproveWorld) : ApproveEvent → Prop
  | .step n _ => ∃ order myIdx role, w.standsAt n = some (.receipt order myIdx role)
    ∧ (w.shared.orderAt ms order.addr).map (·.hash) ≠ some order.hash
  | _ => False

/-- The order a call waits for after it sent its own `new_order`. -/
def ApproveOp.awaited : ApproveOp → Option PinnedOrder
  | .beforeDeadline order .opened => some order
  | .isInited order .opened => some order
  | _ => none

/-- No call of this wallet waits for the next order with another body. -/
def Unawaited (ms : MultisigV2) (w : ApproveWorld) (hash : String) : Prop :=
  ∀ n o order, w.standsAt n = some o → o.awaited = some order →
    order.addr = w.shared.nextAddr ms → order.hash = hash

/-- The interleavings the approver survives. When the wallet sends a `new_order` the pinned order
is still the next one and no other message of the wallet is under way; until that message has
landed or expired nobody else opens an order, and nobody opens the order a call waits for with
another body. -/
def ApproveOrderly (ms : MultisigV2) (w : ApproveWorld) : ApproveEvent → Prop
  | .step n _ => ∀ order myIdx, w.standsAt n = some (.sendNewOrder order myIdx) →
    w.shared.inFlight = [] ∧ order.addr = w.shared.nextAddr ms
  | .act (.land n) => ∀ m, w.shared.inFlight[n]? = some m → Unawaited ms w m.order.hash
  | .act (.openOrder hash _) => w.shared.inFlight = [] ∧ Unawaited ms w hash
  | _ => True

end VizGateway
