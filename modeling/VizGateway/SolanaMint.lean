import VizGateway.DepositProgram
import VizGateway.Signer

/-!
# The Solana mint transaction

`buildMintTx` puts a nonce advance, the creation of the recipient's token account, the mint and a
memo into one transaction. Keys, the account derivation and the message compiler are the SDK's; the
instructions have the accounts and data its builders document.
-/

namespace VizGateway

/-- An account of an instruction. -/
structure AccountMeta (Key : Type) where
  pubkey : Key
  isSigner : Bool
  isWritable : Bool

structure TransactionInstruction (Key : Type) where
  programId : Key
  keys : List (AccountMeta Key)
  data : List UInt8

/-- An instruction as a message keeps it: the accounts' flags are merged into its header. -/
def TransactionInstruction.compiled {Key : Type} (i : TransactionInstruction Key) :
    Key × List Key × List UInt8 :=
  (i.programId, i.keys.map (·.pubkey), i.data)

structure SolanaSdk (Key : Type) where
  /-- `new PublicKey`. -/
  publicKey : Option Json → Option Key
  /-- `getAssociatedTokenAddressSync` of a mint and a wallet. -/
  associatedTokenAddress : Key → Key → Option Key
  /-- An amount as eight bytes of instruction data. -/
  u64 : ℤ → Option (List UInt8)
  /-- `Buffer.from(v, "utf-8")`. -/
  bufferFrom : Json → Option (List UInt8)
  bufferFrom_str : ∀ s, bufferFrom (.str s) = some (utf8Bytes s)
  systemProgram : Key
  recentBlockhashes : Key
  associatedTokenProgram : Key
  token2022Program : Key
  memoProgram : Key
  /-- The message of a fee payer, a blockhash and instructions, in base64. -/
  compile : Key → Option Json → List (TransactionInstruction Key) → Option String
  compile_inj : ∀ {k k' b b' is is' m}, compile k b is = some m → compile k' b' is' = some m →
    is.map (·.compiled) = is'.map (·.compiled)

namespace SolanaSdk

variable {Key : Type} (S : SolanaSdk Key)

/-- `SystemProgram.nonceAdvance`. -/
def nonceAdvance (noncePubkey authorizedPubkey : Key) : TransactionInstruction Key where
  programId := S.systemProgram
  keys := [⟨noncePubkey, false, true⟩, ⟨S.recentBlockhashes, false, false⟩,
    ⟨authorizedPubkey, true, false⟩]
  data := [4, 0, 0, 0]

/-- `createAssociatedTokenAccountIdempotentInstruction`. -/
def createAtaIdempotent (payer ata owner mint : Key) : TransactionInstruction Key where
  programId := S.associatedTokenProgram
  keys := [⟨payer, true, true⟩, ⟨ata, false, true⟩, ⟨owner, false, false⟩, ⟨mint, false, false⟩,
    ⟨S.systemProgram, false, false⟩, ⟨S.token2022Program, false, false⟩]
  data := [1]

/-- `createMintToInstruction`: under a multisig its members sign, not the authority. -/
def mintTo (mint destination authority : Key) (amount : ℤ) (multiSigners : List Key) :
    Option (TransactionInstruction Key) :=
  (S.u64 amount).map fun units =>
    { programId := S.token2022Program
      keys := [⟨mint, false, true⟩, ⟨destination, false, true⟩,
        ⟨authority, multiSigners.isEmpty, false⟩] ++ multiSigners.map (⟨·, true, false⟩)
      data := 7 :: units }

/-- The instruction with the action id. -/
def memo (data : List UInt8) : TransactionInstruction Key where
  programId := S.memoProgram
  keys := []
  data := data

/-- `p.signers.map((s) => new PublicKey(s))`. -/
def multiSigners : Option Json → Option (List Key)
  | some (.strs items) => items.mapM fun s => S.publicKey (some (.str s))
  | _ => none

/-- The memo instruction, for a proposal with an action id. -/
def memoInstructions : Option Json → Option (List (TransactionInstruction Key))
  | none => some []
  | some actionId => (S.bufferFrom actionId).map fun data => [S.memo data]

/-- The message of the assembled transaction. -/
def mintMessage (tx : SolanaMintTx) : Option String := do
  let submitter ← S.publicKey tx.feePayer
  let nonce ← S.publicKey tx.nonceAccount
  let mint ← S.publicKey tx.mint
  let recipient ← S.publicKey tx.recipient
  let ata ← S.associatedTokenAddress mint recipient
  let signers ← S.multiSigners tx.multiSigners
  let multisig ← S.publicKey tx.multisig
  let mintTo ← S.mintTo mint ata multisig tx.amount signers
  let memo ← S.memoInstructions tx.memo
  S.compile submitter tx.recentBlockhash
    ([S.nonceAdvance nonce submitter, S.createAtaIdempotent submitter ata recipient mint, mintTo]
      ++ memo)

end SolanaSdk

/-- The SDK behind the message of a mint. -/
structure MintSdk (L : Libs) (Key : Type) extends SolanaSdk Key where
  serializeMessage_eq : ∀ tx, L.serializeMessage tx = toSolanaSdk.mintMessage tx

/-! ## What is asked of a signed mint -/

section

variable {Key : Type} (S : SolanaSdk Key)

/-- The pinned nonce account advanced by the pinned fee payer, the recipient's token account, the
net minted into it from the pinned mint under the pinned multisig, and the action's id. -/
def BindsMint (fees : GatewayFeeConfig) (pins : SolanaPins) (feePayer : String)
    (action : CanonicalAction) (destProvisioned : Bool) (message : String) : Prop :=
  ∃ submitter nonce mint recipient ata multisig signers mintTo blockhash,
    S.publicKey (some (.str feePayer)) = some submitter ∧
    S.publicKey (some (.str pins.nonceAccount)) = some nonce ∧
    S.publicKey (some (.str pins.mint)) = some mint ∧
    S.publicKey (some (.str action.recipient)) = some recipient ∧
    S.associatedTokenAddress mint recipient = some ata ∧
    S.publicKey (some (.str pins.multisig)) = some multisig ∧
    S.mintTo mint ata multisig (derivedNet fees .solana action.amountMilliViz destProvisioned)
      signers = some mintTo ∧
    S.compile submitter blockhash
      [S.nonceAdvance nonce submitter, S.createAtaIdempotent submitter ata recipient mint, mintTo,
        S.memo (utf8Bytes action.id)] = some message

/-- The proposal's action id is the action's. -/
def NamesAction (action : CanonicalAction) (p : JsonObject) : Prop :=
  jsTruthy (p.get "actionId") ∧
    (p.get "actionId").bind S.bufferFrom = some (utf8Bytes action.id)

end

end VizGateway
