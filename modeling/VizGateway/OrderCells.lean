import VizGateway.Rotation
import VizGateway.TonCells

/-!
# The cells of a multisig order

An order is a dictionary of actions. A mint sends the minter a request, a return sends the gateway's
jetton wallet a transfer, and a rotation updates the multisig's signers. Each operator rebuilds the
cell from what it has validated and compares hashes.
-/

namespace VizGateway

open Checks PrefixCode

/-! ## Messages and actions -/

/-- What `internal` takes. -/
structure InternalMessage where
  dest : TonAddress
  value : ℤ
  body : Cell

structure TransferRequest where
  sendMode : ℤ
  message : InternalMessage

structure UpdateRequest where
  threshold : ℤ
  signers : List TonAddress
  proposers : List TonAddress

inductive OrderAction
  | transfer (transfer : TransferRequest)
  | update (update : UpdateRequest)

/-- `int_msg_info$0`: ihr disabled, bounce, not bounced, no source, the destination, the value
without extra currencies, no fees, no time, and no state init after it. -/
def messageInfo (dest : TonAddress) (value : ℤ) : Option Builder :=
  concat [storeBit false, storeBit true, storeBit true, storeBit false, storeNoAddress,
    storeAddress dest, storeCoins value, storeBit false, storeCoins 0, storeCoins 0,
    storeUint 0 64, storeUint 0 32, storeBit false]

/-- The body in the message's own cell if it fits, else in a reference. -/
def storeBody (info : Builder) (body : Cell) : Option Builder :=
  if info.bits.length + 1 + body.bits.length ≤ 1023 ∧ info.refs.length + body.refs.length ≤ 4 then
    concat [storeBit false, some body.asBuilder]
  else concat [storeBit true, storeRef body]

/-- `storeMessageRelaxed`. -/
def storeMessageRelaxed (m : InternalMessage) : Option Builder :=
  (messageInfo m.dest m.value).bind fun info => concat [some info, storeBody info m.body]

def opSendMessage : ℤ := 0xf1381e5b

def opUpdateMultisigParams : ℤ := 0x1d0cfbd3

def packTransferRequest (transfer : TransferRequest) : Option Cell :=
  (cellOf [storeMessageRelaxed transfer.message]).bind fun message =>
    cellOf [storeUint opSendMessage 32, storeUint transfer.sendMode 8, storeRef message]

def packUpdateRequest (update : UpdateRequest) : Option Cell :=
  (cellOf [storeDictDirect storeAddress update.signers]).bind fun signers =>
    cellOf [storeUint opUpdateMultisigParams 32, storeUint update.threshold 8, storeRef signers,
      storeDict storeAddress update.proposers]

def packAction : OrderAction → Option Cell
  | .transfer t => packTransferRequest t
  | .update u => packUpdateRequest u

def packOrder (actions : List OrderAction) : Option Cell :=
  if 255 < actions.length then none
  else (actions.mapM packAction).bind fun cells => cellOf [storeDictDirect storeRef cells]

/-! ## Mints and returns -/

def opMint : ℤ := 21

def opJettonTransfer : ℤ := 0x0f8a7ea5

/-- `SendMode.PAY_GAS_SEPARATELY`. -/
def payGasSeparately : ℤ := 1

/-- The `internal_transfer` that credits the recipient: no forward amount and no payload. -/
def mintMasterMsg (minter toAddr : TonAddress) (amountBaseUnits : ℤ) : Option Cell :=
  cellOf [storeUint opInternalTransfer 32, storeUint 0 64, storeCoins amountBaseUnits,
    storeAddress minter, storeAddress toAddr, storeCoins 0, storeBit false]

/-- The minter's message, with 0.05 TON to forward. -/
def mintBody (toAddr : TonAddress) (masterMsg : Cell) : Option Cell :=
  cellOf [storeUint opMint 32, storeUint 0 64, storeAddress toAddr, storeCoins 50000000,
    storeRef masterMsg]

def buildMintTransfer (minter toAddr : TonAddress) (amountBaseUnits : ℤ) :
    Option TransferRequest :=
  (mintMasterMsg minter toAddr amountBaseUnits).bind fun masterMsg =>
    (mintBody toAddr masterMsg).map fun body =>
      { sendMode := payGasSeparately
        message := { dest := minter, value := 60000000, body } }

def mintOrderCell (minter toAddr : TonAddress) (amountBaseUnits : ℤ) : Option Cell :=
  (buildMintTransfer minter toAddr amountBaseUnits).bind fun t => packOrder [.transfer t]

/-- The transfer out of the gateway's jetton wallet, with 0.05 TON to forward, no custom payload and
no forward payload. -/
def transferBody (toAddr : TonAddress) (amountBaseUnits : ℤ) : Option Cell :=
  cellOf [storeUint opJettonTransfer 32, storeUint 0 64, storeCoins amountBaseUnits,
    storeAddress toAddr, storeAddress toAddr, storeBit false, storeCoins 50000000, storeBit false]

def buildReturnTransfer (gatewayJettonWallet toAddr : TonAddress) (amountBaseUnits : ℤ) :
    Option TransferRequest :=
  (transferBody toAddr amountBaseUnits).map fun body =>
    { sendMode := payGasSeparately
      message := { dest := gatewayJettonWallet, value := 100000000, body } }

def returnOrderCell (gatewayJettonWallet toAddr : TonAddress) (amountBaseUnits : ℤ) :
    Option Cell :=
  (buildReturnTransfer gatewayJettonWallet toAddr amountBaseUnits).bind fun t =>
    packOrder [.transfer t]

/-! ## Rotations -/

/-- `Buffer.from(s, "hex")`: pairs of digits up to the first that is none. -/
def bytesOfHex : List Char → List ℕ
  | a :: b :: rest =>
    if digitValue a < 16 ∧ digitValue b < 16 then
      (digitValue a * 16 + digitValue b) :: bytesOfHex rest
    else []
  | _ => []

section

-- The address of a key's V4 wallet on workchain 0, and the text of an address.
variable (walletV4 : List ℕ → TonAddress) (addressToString : TonAddress → String)

def tonSignerAddress (tonPubkeyHex : String) : Except String TonAddress := do
  let publicKey := bytesOfHex tonPubkeyHex.toList
  require (publicKey.length = 32) s!"tonPubkey must be 32-byte ed25519 hex: {tonPubkeyHex}"
  return walletV4 publicKey

def buildUpdateAction (operators : List OperatorRef) (newThreshold : ℤ) :
    Except String UpdateRequest := do
  require (1 ≤ newThreshold ∧ newThreshold ≤ operators.length)
    s!"threshold {newThreshold} must be in 1..{operators.length}"
  let signers ← operators.mapM fun o => tonSignerAddress walletV4 o.tonPubkey
  require (signers.map addressToString).Nodup "duplicate tonPubkey in operator set"
  return { threshold := newThreshold, signers, proposers := [] }

def packRotationOrder (operators : List OperatorRef) (newThreshold : ℤ) : Except String Cell := do
  let update ← buildUpdateAction walletV4 addressToString operators newThreshold
  found (packOrder [.update update]) "unpackable order"

end

/-! ## Comparing hashes -/

section

variable (cellHash : Cell → String)

def assertDeployedOrderHash (deployed : Option Cell) (expectedHex orderAddr actionId : String) :
    Except String Unit :=
  let got := deployed.map cellHash
  let shown := got.getD "<none>"
  require (got = some expectedHex)
    s!"TON on-chain order body at {orderAddr} does not match validated action {actionId}: deployed {shown} != expected {expectedHex}"

def assertReturnOrderHash (gatewayJettonWallet toAddr : TonAddress) (amountBaseUnits : ℤ)
    (expectedHex : String) : Except String Unit := do
  let cell ← found (returnOrderCell gatewayJettonWallet toAddr amountBaseUnits) "unpackable order"
  require (cellHash cell = expectedHex)
    s!"TON return order hash mismatch: rebuilt {cellHash cell} != proposal {expectedHex}"

/-- Cells are equal when their hashes are. -/
def validateTonOrder (walletV4 : List ℕ → TonAddress) (addressToString : TonAddress → String)
    (onchainOrder : Cell) (newOperators : List OperatorRef) (newThreshold : ℤ) :
    Except String Unit := do
  let expected ← packRotationOrder walletV4 addressToString newOperators newThreshold
  require (cellHash onchainOrder = cellHash expected)
    "TON order action does not match the proposal (tampered or stale)"

end

end VizGateway
