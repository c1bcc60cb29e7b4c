import VizGateway.Json

/-!
# What the code takes from its libraries

Hashing, the VIZ and Solana serializers, memo decryption and TON addresses come from packages the
repository does not contain. They are the fields of one record, `none` standing for a throw, over
the structures the code hands them.
-/

namespace VizGateway

/-- A transaction as the VIZ serializer takes it. -/
structure VizTransaction where
  ref_block_num : Option Json
  ref_block_prefix : Option Json
  expiration : Option Json
  operations : List (String × List (String × Option Json))
  extensions : List Json
  deriving DecidableEq, Repr

/-- A parsed TON address. -/
structure TonAddress where
  workchain : ℤ
  hash : List Bool
  deriving DecidableEq, Repr

/-- The one action of a multisig order: `buildMintTransfer` or `buildReturnTransfer`, the minter
and the gateway wallet being fixed. -/
inductive OrderBody
  | mint (toAddr : TonAddress) (amountBaseUnits : ℤ)
  | giveBack (toAddr : TonAddress) (amountBaseUnits : ℤ)
  deriving DecidableEq, Repr

/-- The transaction `buildMintTx` assembles: a nonce advance, the idempotent creation of the
recipient's ATA, the mint and, with an action id, a memo. -/
structure SolanaMintTx where
  feePayer : Option Json
  nonceAccount : Option Json
  recentBlockhash : Option Json
  recipient : Option Json
  mint : Option Json
  multisig : Option Json
  amount : ℤ
  multiSigners : Option Json
  memo : Option Json
  deriving DecidableEq, Repr

structure Libs where
  /-- `sha256` of the UTF-8 bytes, in hex. -/
  digestOf : String → String
  /-- `txSerializer.toBuffer`. -/
  toBuffer : VizTransaction → Option (List UInt8)
  /-- The first twenty bytes of `sha256`, in hex. -/
  trxHash : List UInt8 → String
  /-- `Date.parse`. -/
  dateParse : String → Option ℤ
  /-- `viz.memo.decode(wif, memo)`. -/
  memoDecode : String → String → Option String
  /-- `depositAta(programId, vizAccount, mint)`. -/
  depositAta : String → String → String → Option String
  addressToString : TonAddress → String
  addressParse : String → Option TonAddress
  /-- The hash of a packed order cell, in hex. -/
  orderHash : OrderBody → Option String
  /-- The compiled Solana message, in base64. -/
  serializeMessage : SolanaMintTx → Option String
  /-- `Buffer.toString` of UTF-8 bytes. -/
  utf8 : List (List Bool) → String

/-- The hash of the serialized unsigned transaction. -/
def computeTrxId (L : Libs) (tx : VizTransaction) : Option String := (L.toBuffer tx).map L.trxHash

/-- The bytes of a transaction: ten of header, from the TaPoS fields and the expiration, then the
operations. -/
structure TransactionLayout (L : Libs) where
  header : Option Json → Option Json → Option Json → Option (List UInt8)
  body : List (String × List (String × Option Json)) → List Json → Option (List UInt8)
  toBuffer_eq : ∀ tx : VizTransaction, L.toBuffer tx =
    (header tx.ref_block_num tx.ref_block_prefix tx.expiration).bind fun h =>
      (body tx.operations tx.extensions).map (h ++ ·)
  header_length : ∀ {n p e h}, header n p e = some h → h.length = 10
  /-- A transfer of a canonical amount is read back from its bytes. -/
  body_inj : ∀ {s t m s' t' m' : String} {n n' : ℤ} {b : List UInt8},
    body [("transfer", [("from", some (.str s)), ("to", some (.str t)),
        ("amount", some (.str (milliToViz n))), ("memo", some (.str m))])] [] = some b →
    body [("transfer", [("from", some (.str s')), ("to", some (.str t')),
        ("amount", some (.str (milliToViz n'))), ("memo", some (.str m'))])] [] = some b →
    s = s' ∧ t = t' ∧ milliToViz n = milliToViz n' ∧ m = m'

end VizGateway
