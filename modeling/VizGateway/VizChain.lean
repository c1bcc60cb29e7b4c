import VizGateway.Libs
import VizGateway.Lib.Checks

/-!
# Reading the VIZ chain

A transfer to a backing account is read back from the operator's own node, by its transaction id
through `operation_history` or, once that is pruned, from the block log of any node of the ring.
The node itself is a record of its answers at one moment.
-/

namespace VizGateway

open Checks Text

/-- One operation, its name and its payload. -/
structure VizOp where
  name : String
  payload : JsonObject
  deriving DecidableEq, Repr

/-- The chain-account registry, checked when it is built. -/
structure GatewayAccounts where
  gram : String
  solana : String
  gram_ne : gram ≠ ""
  solana_ne : solana ≠ ""
  distinct : gram ≠ solana

namespace GatewayAccounts

def accountFor (a : GatewayAccounts) : RemoteChainId → String
  | .gram => a.gram
  | .solana => a.solana

/-- `chainFor`; `none` when it throws. -/
def chainFor (a : GatewayAccounts) (account : String) : Option RemoteChainId :=
  if account = a.gram then some .gram
  else if account = a.solana then some .solana
  else none

theorem chainFor_accountFor (a : GatewayAccounts) (c : RemoteChainId) :
    a.chainFor (a.accountFor c) = some c := by
  cases c
  · simp [chainFor, accountFor]
  · simp [chainFor, accountFor, Ne.symm a.distinct]

end GatewayAccounts

/-! ## Node answers -/

/-- A transaction `get_transaction` returns. -/
structure AnnotatedTransaction where
  transaction_id : Option String
  block_num : ℕ
  operations : Option (List VizOp)
  deriving DecidableEq, Repr

/-- A transaction out of a block: what is hashed, and its operations. -/
structure BlockTransaction where
  tx : VizTransaction
  operations : List VizOp
  deriving DecidableEq, Repr

/-- One node of the ring as the block-log fallback reads it. -/
structure BlockLogNode where
  getBlock : ℕ → Except String (Option (List BlockTransaction))
  lastIrreversibleBlock : Except String ℕ

/-- What the operator's VIZ node answers at one moment, retries included. -/
structure VizNode where
  getTransaction : String → Except String (Option AnnotatedTransaction)
  lastIrreversibleBlock : Except String ℕ
  /-- The ring, from the node selected at present. -/
  ring : List BlockLogNode
  /-- Whether `getAccounts([name])` has a first row. -/
  getAccount : String → Except String Bool
  /-- `getDynamicGlobalProperties().time`. -/
  time : Except String String

/-! ## Deposits -/

/-- `resolveMemoDestination`. -/
def resolveMemoDestination (L : Libs) (rawMemo : String) (memoWif : Option String) : String :=
  if startsWith rawMemo "#" then
    match truthy memoWif with
    | none => ""
    | some wif => match L.memoDecode wif rawMemo with
      | none => ""
      | some decoded => trim (if startsWith decoded "#" then dropStr decoded 1 else decoded)
  else rawMemo

/-- What a reader is configured with. -/
structure VizReader where
  accounts : GatewayAccounts
  memoWifs : String → Option String

/-- The deposit a transfer payload describes, its receiver's chain and its amount parsed. -/
def depositOf (L : Libs) (R : VizReader) (trxId : String) (opIndex blockNum : ℕ)
    (payload : JsonObject) (chain : RemoteChainId) (amountMilliViz : ℤ) : VizDeposit :=
  let receiver := jsStringOr "" (payload.get "to")
  let rawMemo := trim (jsStringOr "" (payload.get "memo"))
  let rawDestination := resolveMemoDestination L rawMemo (R.memoWifs receiver)
  let destinationValid := isValidRemoteAddress chain rawDestination
  { trxId, opIndex, blockNum
    sender := jsStringOr "" (payload.get "from")
    receiver, amountMilliViz
    remoteChain := chain
    remoteDestination := if destinationValid then rawDestination else ""
    destinationValid }

/-- `depositFromOps`: the deposit of one transfer op. -/
def depositFromOps (L : Libs) (R : VizReader) (trxId : String) (opIndex blockNum : ℕ)
    (ops : List VizOp) : Except String VizDeposit := do
  let op ← found ops[opIndex]? s!"getDeposit({trxId}:{opIndex}): no op at index {opIndex}"
  require (op.name = "transfer") s!"getDeposit({trxId}:{opIndex}): op is {op.name}, not a transfer"
  let receiver := jsStringOr "" (op.payload.get "to")
  let chain ← found (R.accounts.chainFor receiver)
    s!"getDeposit({trxId}:{opIndex}): transfer to ({receiver}) is not a backing account"
  let amount ← found (vizToMilli (jsStringOr "0.000 VIZ" (op.payload.get "amount")))
    "Cannot convert to a BigInt"
  return depositOf L R trxId opIndex blockNum op.payload chain amount

/-- `getDepositViaBlock`: the first node of the ring whose block log confirms the transaction. -/
def getDepositViaBlock (L : Libs) (R : VizReader) (trxId : String) (opIndex blockNum : ℕ) :
    List BlockLogNode → Except String (Option VizDeposit)
  | [] => .ok none
  | node :: rest =>
    match node.getBlock blockNum with
    | .error _ => getDepositViaBlock L R trxId opIndex blockNum rest
    | .ok block =>
      match (block.getD []).find? fun t => computeTrxId L t.tx = some trxId with
      | none => getDepositViaBlock L R trxId opIndex blockNum rest
      | some t =>
        match node.lastIrreversibleBlock with
        | .error _ => getDepositViaBlock L R trxId opIndex blockNum rest
        | .ok lib =>
          if blockNum > lib then getDepositViaBlock L R trxId opIndex blockNum rest
          else some <$> depositFromOps L R trxId opIndex blockNum t.operations

/-- The transaction `operation_history` has, an error counting as none. -/
def historyTx (node : VizNode) (trxId : String) :
    Option (Option String × ℕ × List VizOp) :=
  match node.getTransaction trxId with
  | .ok (some tx) => tx.operations.map fun ops => (tx.transaction_id, tx.block_num, ops)
  | _ => none

/-- `getDeposit`: one confirmed transfer op, re-read from the operator's own node. -/
def getDeposit (L : Libs) (R : VizReader) (node : VizNode) (trxId : String) (opIndex : ℕ)
    (blockNumHint : Option ℕ) : Except String (Option VizDeposit) :=
  match historyTx node trxId with
  | some (transaction_id, block_num, ops) => do
    require (truthy transaction_id = some trxId)
      s!"getDeposit({trxId}): node returned transaction_id {transaction_id.getD default} != requested {trxId}"
    let lib ← node.lastIrreversibleBlock
    if block_num > lib then return none
    else some <$> depositFromOps L R trxId opIndex block_num ops
  | none =>
    match blockNumHint with
    | some (n + 1) => getDepositViaBlock L R trxId opIndex (n + 1) node.ring
    | _ => .ok none

/-- `accountExists`. -/
def accountExists (node : VizNode) (name : String) : Except String Bool :=
  if name = "" then .ok false else node.getAccount name

/-- `headBlockTimeMs`. -/
def headBlockTimeMs (L : Libs) (node : VizNode) : Except String ℤ := do
  let time ← node.time
  found (L.dateParse (time ++ "Z")) s!"headBlockTimeMs: unparseable node time {time}"

/-- `confirmReleaseByTxId`: an error counts as not found. -/
def confirmReleaseByTxId (node : VizNode) (txid : String) : Option String :=
  if txid = "" then none
  else match node.getTransaction txid with
    | .ok (some _) => some txid
    | _ => none

/-! ## What a deposit read says -/

theorem depositFromOps_eq_ok {L : Libs} {R : VizReader} {trxId : String} {opIndex blockNum : ℕ}
    {ops : List VizOp} {d : VizDeposit} :
    depositFromOps L R trxId opIndex blockNum ops = .ok d ↔
      ∃ op chain amount, ops[opIndex]? = some op ∧ op.name = "transfer"
        ∧ R.accounts.chainFor (jsStringOr "" (op.payload.get "to")) = some chain
        ∧ vizToMilli (jsStringOr "0.000 VIZ" (op.payload.get "amount")) = some amount
        ∧ depositOf L R trxId opIndex blockNum op.payload chain amount = d := by
  unfold depositFromOps
  simp only [bind_eq_ok, found_eq_ok, require_eq_ok, pure_eq_ok]
  constructor
  · rintro ⟨op, hop, -, hname, chain, hchain, amount, hamount, hd⟩
    exact ⟨op, chain, amount, hop, hname, hchain, hamount, hd⟩
  · rintro ⟨op, chain, amount, hop, hname, hchain, hamount, hd⟩
    exact ⟨op, hop, ⟨⟩, hname, chain, hchain, amount, hamount, hd⟩

section

variable (L : Libs) (R : VizReader) (trxId : String) (opIndex blockNum : ℕ) (payload : JsonObject)
  (chain : RemoteChainId) (amount : ℤ)

@[simp] theorem depositOf_trxId :
    (depositOf L R trxId opIndex blockNum payload chain amount).trxId = trxId := rfl

@[simp] theorem depositOf_opIndex :
    (depositOf L R trxId opIndex blockNum payload chain amount).opIndex = opIndex := rfl

theorem depositOf_destination
    (h : (depositOf L R trxId opIndex blockNum payload chain amount).destinationValid = true) :
    isValidRemoteAddress (depositOf L R trxId opIndex blockNum payload chain amount).remoteChain
      (depositOf L R trxId opIndex blockNum payload chain amount).remoteDestination = true := by
  unfold depositOf at h ⊢
  simp only at h ⊢
  rw [if_pos h]
  exact h

/-- Nothing else depends on the block the transfer landed in. -/
theorem depositOf_blockNum (n : ℕ) :
    depositOf L R trxId opIndex n payload chain amount
      = { depositOf L R trxId opIndex blockNum payload chain amount with blockNum := n } := by
  simp only [depositOf]

end

/-- A deposit flagged valid names a mint target of its chain. -/
theorem depositFromOps_destination {L : Libs} {R : VizReader} {trxId : String}
    {opIndex blockNum : ℕ} {ops : List VizOp} {d : VizDeposit}
    (h : depositFromOps L R trxId opIndex blockNum ops = .ok d) (hv : d.destinationValid = true) :
    isValidRemoteAddress d.remoteChain d.remoteDestination = true := by
  obtain ⟨op, chain, amount, -, -, -, -, rfl⟩ := depositFromOps_eq_ok.1 h
  exact depositOf_destination _ _ _ _ _ _ _ _ hv

/-- A final transaction on the node: served with its own id below the last irreversible block, or
found in the block log under its recomputed id. -/
inductive VizNode.Final (L : Libs) (node : VizNode) (trxId : String) (ops : List VizOp) : Prop
  | history (block_num lib : ℕ) (h : historyTx node trxId = some (some trxId, block_num, ops))
      (hlib : node.lastIrreversibleBlock = .ok lib) (hle : block_num ≤ lib)
  | blockLog (n : BlockLogNode) (blockNum lib : ℕ) (block : List BlockTransaction)
      (t : BlockTransaction) (hn : n ∈ node.ring) (hb : n.getBlock blockNum = .ok (some block))
      (ht : t ∈ block) (hid : computeTrxId L t.tx = some trxId) (hops : t.operations = ops)
      (hlib : n.lastIrreversibleBlock = .ok lib) (hle : blockNum ≤ lib)

theorem getDepositViaBlock_eq_some {L : Libs} {R : VizReader} {trxId : String}
    {opIndex blockNum : ℕ} {d : VizDeposit} :
    ∀ {ring : List BlockLogNode},
      getDepositViaBlock L R trxId opIndex blockNum ring = .ok (some d) →
      ∃ n ∈ ring, ∃ lib block t, n.getBlock blockNum = .ok (some block) ∧ t ∈ block
        ∧ computeTrxId L t.tx = some trxId ∧ n.lastIrreversibleBlock = .ok lib ∧ blockNum ≤ lib
        ∧ depositFromOps L R trxId opIndex blockNum t.operations = .ok d
  | [], h => by simp [getDepositViaBlock] at h
  | node :: rest, h => by
    have later : getDepositViaBlock L R trxId opIndex blockNum rest = .ok (some d) →
        ∃ n ∈ node :: rest, ∃ lib block t, n.getBlock blockNum = .ok (some block) ∧ t ∈ block
          ∧ computeTrxId L t.tx = some trxId ∧ n.lastIrreversibleBlock = .ok lib ∧ blockNum ≤ lib
          ∧ depositFromOps L R trxId opIndex blockNum t.operations = .ok d := by
      intro h'
      obtain ⟨n, hn, hrest⟩ := getDepositViaBlock_eq_some h'
      exact ⟨n, List.mem_cons_of_mem _ hn, hrest⟩
    unfold getDepositViaBlock at h
    split at h
    · exact later h
    · next block hb =>
      split at h
      · exact later h
      · next t ht =>
        split at h
        · exact later h
        · next lib hlib =>
          split_ifs at h with hle
          · exact later h
          · cases hd : depositFromOps L R trxId opIndex blockNum t.operations with
            | error e => simp [hd, Functor.map, Except.map] at h
            | ok d' =>
              simp only [hd, Functor.map, Except.map, Except.ok.injEq, Option.some.injEq] at h
              subst h
              cases block with
              | none => simp at ht
              | some txs =>
                exact ⟨node, List.mem_cons_self, lib, txs, t, hb, List.mem_of_find?_eq_some ht,
                  by simpa using List.find?_some ht, hlib, Nat.not_lt.1 hle, hd⟩

/-- A deposit read back is the deposit of an op of a final transaction of that very id. -/
theorem getDeposit_eq_some {L : Libs} {R : VizReader} {node : VizNode} {trxId : String}
    {opIndex : ℕ} {hint : Option ℕ} {d : VizDeposit}
    (h : getDeposit L R node trxId opIndex hint = .ok (some d)) :
    ∃ blockNum ops, node.Final L trxId ops
      ∧ depositFromOps L R trxId opIndex blockNum ops = .ok d := by
  unfold getDeposit at h
  split at h
  · next transaction_id block_num ops hh =>
    simp only [bind_eq_ok, require_eq_ok] at h
    obtain ⟨-, hid, lib, hlib, h⟩ := h
    split_ifs at h with hle
    · simp [pure, Except.pure] at h
    · cases hd : depositFromOps L R trxId opIndex block_num ops with
      | error e => simp [hd, Functor.map, Except.map] at h
      | ok d' =>
        simp only [hd, Functor.map, Except.map, Except.ok.injEq, Option.some.injEq] at h
        subst h
        rw [(truthy_eq_some.1 hid).1] at hh
        exact ⟨block_num, ops, .history _ _ hh hlib (Nat.not_lt.1 hle), hd⟩
  · split at h
    · next n =>
      obtain ⟨node', hn, lib, block, t, hb, ht, hid, hlib, hle, hd⟩ := getDepositViaBlock_eq_some h
      exact ⟨n + 1, t.operations, .blockLog node' (n + 1) lib block t hn hb ht hid rfl hlib hle, hd⟩
    · simp at h

end VizGateway
