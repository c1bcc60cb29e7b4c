import VizGateway.Rotation
import VizGateway.SolanaMint

/-!
# Handing the mint over on Solana

The operators move the mint's two authorities from the multisig they are members of to a new one, in
one transaction that each of them signs on its own machine. The file that carries it comes from
whoever wrote it, so an operator rebuilds the message and reads the new multisig off the chain before
it signs.
-/

namespace VizGateway

open Checks JsonTree Text

/-- The SDK on the values of the rotation's files. -/
structure RotationSdk (Key : Type) extends SolanaSdk Key where
  /-- A file's value as the builders take it. -/
  ofTree : JsonTree → Json
  ofTree_str : ∀ s, ofTree (.str s) = .str s
  toBase58 : Key → String
  publicKey_toBase58 : ∀ k, publicKey (some (.str (toBase58 k))) = some k
  toBytes : Key → List UInt8
  ofBytes : List UInt8 → Option Key
  ofBytes_toBytes : ∀ k, ofBytes (toBytes k) = some k
  /-- The byte a threshold is written as. -/
  uint8 : Option JsonTree → Option ℕ
  uint8_num : ∀ n : ℕ, n < 256 → uint8 (some (.num n)) = some n
  system_ne_token : systemProgram ≠ token2022Program
  associated_ne_token : associatedTokenProgram ≠ token2022Program
  memo_ne_token : memoProgram ≠ token2022Program

/-- What the SDK's own functions throw. -/
def sdkError : String := "Error"

/-- An SPL multisig account, in the token program's bounds. Nothing changes it once it is there. -/
structure SplMultisig (Key : Type) where
  members : List Key
  threshold : ℕ
  bounds : (1 ≤ threshold ∧ threshold ≤ 11) ∧ 1 ≤ members.length ∧ members.length ≤ 11

inductive AuthorityType
  | mintTokens
  | freezeAccount
  deriving DecidableEq, Repr

def AuthorityType.byte : AuthorityType → UInt8
  | mintTokens => 0
  | freezeAccount => 1

/-! ## The transaction -/

namespace RotationSdk

variable {Key : Type} (S : RotationSdk Key)

/-- `createSetAuthorityInstruction`. -/
def setAuthority (account currentAuthority : Key) (authorityType : AuthorityType)
    (newAuthority : Key) (multiSigners : List Key) : TransactionInstruction Key where
  programId := S.token2022Program
  keys := [⟨account, false, true⟩, ⟨currentAuthority, multiSigners.isEmpty, false⟩] ++
    multiSigners.map (⟨·, true, false⟩)
  data := 6 :: authorityType.byte :: 1 :: S.toBytes newAuthority

/-- `new PublicKey(v)`. -/
def key (v : Option JsonTree) : Except String Key :=
  found (S.publicKey (v.map S.ofTree)) sdkError

/-- `p.signers.map((s) => new PublicKey(s))`. -/
def keys : Option JsonTree → Except String (List Key)
  | some (.arr items) => items.mapM fun s => S.key (some s)
  | _ => .error typeError

structure UnsignedTx (Key : Type) where
  feePayer : Key
  recentBlockhash : Option Json
  instructions : List (TransactionInstruction Key)

def buildHandoffTx (p : JsonTree) : Except String (UnsignedTx Key) := do
  let feePayer ← property (some p) "feePayer"
  let submitter ← S.key feePayer
  let oldMultisig ← property (some p) "oldMultisig"
  let oldMs ← S.key oldMultisig
  let newMultisig ← property (some p) "newMultisig"
  let newMs ← S.key newMultisig
  let mint ← property (some p) "mint"
  let mint ← S.key mint
  let signers ← property (some p) "signers"
  let multiSigners ← S.keys signers
  let nonceValue ← property (some p) "nonceValue"
  let nonceAccount ← property (some p) "nonceAccount"
  let noncePubkey ← S.key nonceAccount
  return {
    feePayer := submitter
    recentBlockhash := nonceValue.map S.ofTree
    instructions := [S.nonceAdvance noncePubkey submitter,
      S.setAuthority mint oldMs .mintTokens newMs multiSigners,
      S.setAuthority mint oldMs .freezeAccount newMs multiSigners] }

def handoffMessageB64 (p : JsonTree) : Except String String := do
  let tx ← S.buildHandoffTx p
  found (S.compile tx.feePayer tx.recentBlockhash tx.instructions) sdkError

/-- `items.includes(s)` of an array. -/
def includes (v : Option JsonTree) (s : String) : Bool :=
  match v with
  | some (.arr items) => items.contains (.str s)
  | _ => false

/-- The message a member signs. -/
def signHandoff (p : JsonTree) (member : Key) : Except String String := do
  let message ← S.handoffMessageB64 p
  let messageB64 ← property (some p) "messageB64"
  require (messageB64 = some (.str message))
    "rebuilt handoff message != proposal.messageB64; refusing to sign"
  let signers ← property (some p) "signers"
  require (includes signers (S.toBase58 member) = true)
    s!"signer {S.toBase58 member} is not in the current multisig signer set"
  return message

end RotationSdk

/-! ## The checks -/

/-- A multisig as `readMultisigMembers` returns it. -/
structure OnchainMultisig where
  members : List String
  threshold : ℕ
  deriving DecidableEq, Repr

/-- `a === b`. Two parsed objects are never the same one. -/
def strictEqual (a b : Option JsonTree) : Bool := a = b && a.all (·.isPrimitive)

/-- `!v`. -/
def falsy (v : Option JsonTree) : Bool := !v.any (·.truthy)

/-- `operators.map((o) => o.solanaPubkey)`. -/
def solanaKeys : Option JsonTree → Except String (List (Option JsonTree))
  | some (.arr operators) => operators.mapM fun o => property (some o) "solanaPubkey"
  | _ => .error typeError

section Checks

variable {Key : Type} (S : RotationSdk Key) (R : Runtime)

/-- `a.length === b.length && a.every((v, i) => v === b[i])`. -/
def sameItems (a b : List (Option JsonTree)) : Bool :=
  a.length = b.length && (a.zip b).all fun q => strictEqual q.1 q.2

def validateHandoffProposal (p master : JsonTree) (onchainNewMultisig : OnchainMultisig) :
    Except String Unit := do
  let version ← property (some p) "version"
  require (version = some (.num 1)) (complain R version fun s => s!"unsupported proposal version {s}")
  let chainId ← property (some p) "chainId"
  let expectedChain ← property (some master) "chainId"
  require (strictEqual chainId expectedChain = true)
    (((R.textOf chainId).bind fun s => (R.textOf expectedChain).map fun t =>
      s!"proposal chainId '{s}' != expected '{t}'").getD typeError)
  let message ← S.handoffMessageB64 p
  let messageB64 ← property (some p) "messageB64"
  require (messageB64 = some (.str message))
    "rebuilt handoff bytes != proposal.messageB64 (tampered or stale)"
  let operators ← property (some master) "newOperators"
  let expected ← solanaKeys operators
  require (expected.any falsy = false) "master proposal has an operator without a solanaPubkey"
  let newThreshold ← property (some master) "newThreshold"
  require (newThreshold = some (.num onchainNewMultisig.threshold))
    (complain R newThreshold fun s =>
      s!"new multisig threshold {onchainNewMultisig.threshold} != expected {s}")
  let a ← sortKeys R expected
  let b ← sortKeys R (onchainNewMultisig.members.map fun s => some (.str s))
  require (sameItems a b = true)
    "new multisig members do not match the proposal's new operator set"

end Checks

/-! ## The mint and the multisigs -/

/-- The accounts the rotation is about. A mint without an authority has none. -/
structure MintChain (Key : Type) where
  multisigs : Key → Option (SplMultisig Key)
  mintAuthority : Key → Option Key
  freezeAuthority : Key → Option Key

/-- A change of authority that a transaction asks the token program for. -/
structure AuthorityChange (Key : Type) where
  account : Key
  authority : Key
  kind : UInt8
  new : Option Key
  signers : List Key

section Chain

variable {Key : Type} [DecidableEq Key] (S : RotationSdk Key)

/-- An instruction as the token program reads it. -/
def authorityChange (i : Key × List Key × List UInt8) : Option (AuthorityChange Key) :=
  if i.1 = S.token2022Program then
    match i.2.2, i.2.1 with
    | 6 :: kind :: option :: bytes, account :: authority :: signers =>
      some ⟨account, authority, kind, if option = 0 then none else S.ofBytes bytes, signers⟩
    | _, _ => none
  else none

namespace MintChain

/-- Whether those who signed may act for an authority: so many members of a multisig, or itself. -/
def approves (c : MintChain Key) (authority : Key) (isSigner : Key → Bool) : Bool :=
  match c.multisigs authority with
  | some ms => ms.threshold ≤ ms.members.countP isSigner
  | none => isSigner authority

/-- The token program carries a change out, or fails the transaction. -/
def change (c : MintChain Key) (isSigner : Key → Bool) (ch : AuthorityChange Key) :
    Option (MintChain Key) :=
  let approved := c.approves ch.authority fun k =>
    isSigner k && (ch.signers.contains k || k = ch.authority)
  if ch.kind = AuthorityType.mintTokens.byte then
    if c.mintAuthority ch.account = some ch.authority ∧ approved = true then
      some { c with mintAuthority := Function.update c.mintAuthority ch.account ch.new }
    else none
  else if ch.kind = AuthorityType.freezeAccount.byte then
    if c.freezeAuthority ch.account = some ch.authority ∧ approved = true then
      some { c with freezeAuthority := Function.update c.freezeAuthority ch.account ch.new }
    else none
  else some c

/-- The instructions one after the other, all or none. -/
def exec (isSigner : Key → Bool) :
    List (Key × List Key × List UInt8) → MintChain Key → Option (MintChain Key)
  | [], c => some c
  | i :: rest, c =>
    match authorityChange S i with
    | some ch => (c.change isSigner ch).bind (exec isSigner rest)
    | none => exec isSigner rest c

/-- An account that is not there yet. -/
def create (c : MintChain Key) (address : Key) (ms : SplMultisig Key) : MintChain Key :=
  if (c.multisigs address).isSome then c
  else { c with multisigs := Function.update c.multisigs address (some ms) }

end MintChain

/-! ## The commands -/

variable (R : Runtime)

/-- The environment an operator runs the commands in. -/
structure SolanaRotationConfig (Key : Type) where
  oldMultisig : String
  mint : String
  nonceAccount : String
  /-- The key of the submitter's secret. -/
  submitter : Option Key
  /-- The key of the operator's own member secret. -/
  signer : Option Key
  chainId : String
  apply : Bool

def readMultisigMembers (chain : MintChain Key) (address : Key) : Except String OnchainMultisig := do
  let ms ← found (chain.multisigs address) sdkError
  return ⟨ms.members.map S.toBase58, ms.threshold⟩

/-- `signatures.some((s) => s.startsWith(marker))`. -/
def someStartsWith (marker : String) : List JsonTree → Except String Bool
  | [] => .ok false
  | .str s :: rest => if startsWith s marker then .ok true else someStartsWith marker rest
  | _ :: _ => .error typeError

def alreadySigned (member : String) : Option JsonTree → Except String Bool
  | some (.arr signatures) => someStartsWith (member ++ ":") signatures
  | _ => .error typeError

/-- `co-sign-solana`: the member key and the message it signs. -/
def coSignSolana (cfg : SolanaRotationConfig Key) (chain : MintChain Key) (proposal master : JsonTree)
    (nowMs : ℤ) : Except String (Option (Key × String)) := do
  let member ← found cfg.signer "SOLANA_SIGNER_SECRET (your member key) is required to co-sign"
  validateProposal R master ⟨cfg.chainId, nowMs, true⟩
  let newMultisig ← property (some proposal) "newMultisig"
  let address ← S.key newMultisig
  let onchain ← readMultisigMembers S chain address
  validateHandoffProposal S R proposal master onchain
  let signatures ← property (some proposal) "signatures"
  let already ← alreadySigned (S.toBase58 member) signatures
  if already then return none
  else do
    let message ← S.signHandoff proposal member
    return some (member, message)

/-- `propose-solana` up to the multisig it has created. -/
def newMultisigOf (cfg : SolanaRotationConfig Key) (master : JsonTree) (nowMs : ℤ) :
    Except String (SplMultisig Key) := do
  require (cfg.oldMultisig ≠ "" ∧ cfg.mint ≠ "" ∧ cfg.nonceAccount ≠ "")
    "SOLANA_MULTISIG, SOLANA_WVIZ_MINT, SOLANA_ROTATION_NONCE_ACCOUNT are required"
  require (cfg.submitter.isSome = true) "SOLANA_SUBMITTER_SECRET (proposer/submitter) is required"
  validateProposal R master ⟨cfg.chainId, nowMs, true⟩
  let operators ← property (some master) "newOperators"
  let newSolKeys ← solanaKeys operators
  require (newSolKeys.any falsy = false) "master proposal has an operator without solanaPubkey"
  require (allDistinct newSolKeys) "duplicate solanaPubkey in new set"
  let members ← newSolKeys.mapM S.key
  let newThreshold ← property (some master) "newThreshold"
  let threshold ← found (S.uint8 newThreshold) sdkError
  if h : (1 ≤ threshold ∧ threshold ≤ 11) ∧ 1 ≤ members.length ∧ members.length ≤ 11 then
    return ⟨members, threshold, h⟩
  else throw sdkError

/-- The file `propose-solana` writes, before its own signature. -/
def handoffProposal (cfg : SolanaRotationConfig Key) (chain : MintChain Key) (newMultisig : Key)
    (nonce : Option String) : Except String JsonTree := do
  let submitter ← found cfg.submitter "SOLANA_SUBMITTER_SECRET (proposer/submitter) is required"
  let oldMultisig ← S.key (some (.str cfg.oldMultisig))
  let current ← readMultisigMembers S chain oldMultisig
  let _ ← S.key (some (.str cfg.nonceAccount))
  let nonceValue ← found nonce s!"rotation nonce account {cfg.nonceAccount} not found/initialized"
  let signers ← sortKeys R (current.members.map fun s => some (.str s))
  let proposal := JsonTree.obj [("version", .num 1), ("chainId", .str cfg.chainId),
    ("oldMultisig", .str cfg.oldMultisig), ("newMultisig", .str (S.toBase58 newMultisig)),
    ("mint", .str cfg.mint), ("nonceAccount", .str cfg.nonceAccount), ("nonceValue", .str nonceValue),
    ("feePayer", .str (S.toBase58 submitter)), ("signers", .arr signers.reduceOption),
    ("messageB64", .str ""), ("signatures", .arr [])]
  let message ← S.handoffMessageB64 proposal
  return proposal.set "messageB64" (.str message)

/-- The proposer's own signature, if it is one of the members. -/
def proposerSignature (cfg : SolanaRotationConfig Key) (proposal : JsonTree) :
    Except String (Option (Key × String)) :=
  match cfg.signer with
  | none => .ok none
  | some member => do
    let signers ← property (some proposal) "signers"
    if RotationSdk.includes signers (S.toBase58 member) then do
      let message ← S.signHandoff proposal member
      return some (member, message)
    else return none

/-! ## The ceremony -/

/-- The chain and the signatures that exist; the masters an operator signed for are kept for the
statements only. -/
structure HandoffWorld (Key : Type) where
  chain : MintChain Key
  signed : List (Key × String) := []
  accepted : List JsonTree := []

/-- The honest operators run the commands, on whatever files they are given, and sign mints. Everyone
else signs and sends what they like. -/
inductive HandoffEvent (Key : Type)
  | create (address : Key) (ms : SplMultisig Key)
  | propose (cfg : SolanaRotationConfig Key) (master : JsonTree) (nowMs : ℤ) (newMultisig : Key)
    (nonce : Option String)
  | coSign (cfg : SolanaRotationConfig Key) (proposal master : JsonTree) (nowMs : ℤ)
  | signMint (member : Key) (tx : SolanaMintTx)
  | sign (key : Key) (message : String)
  | land (feePayer : Key) (recentBlockhash : Option Json)
    (instructions : List (TransactionInstruction Key))

namespace HandoffWorld

def addSigned (w : HandoffWorld Key) (master : JsonTree) : Option (Key × String) → HandoffWorld Key
  | some s => { w with signed := s :: w.signed, accepted := master :: w.accepted }
  | none => w

/-- Every account that is marked as a signer. -/
def signerKeys (feePayer : Key) (instructions : List (TransactionInstruction Key)) : List Key :=
  feePayer :: instructions.flatMap fun i => (i.keys.filter (·.isSigner)).map (·.pubkey)

variable (honest : Key → Bool)

def step (w : HandoffWorld Key) : HandoffEvent Key → HandoffWorld Key
  | .create address ms => { w with chain := w.chain.create address ms }
  | .propose cfg master nowMs newMultisig nonce =>
    match newMultisigOf S R cfg master nowMs with
    | .error _ => w
    | .ok ms =>
      if cfg.apply = false ∨ (w.chain.multisigs newMultisig).isSome then w
      else
        let w := { w with chain := w.chain.create newMultisig ms }
        match handoffProposal S R cfg w.chain newMultisig nonce >>= proposerSignature S cfg with
        | .error _ => w
        | .ok signature => w.addSigned master signature
  | .coSign cfg proposal master nowMs =>
    match coSignSolana S R cfg w.chain proposal master nowMs with
    | .error _ => w
    | .ok signature => w.addSigned master signature
  | .signMint member tx =>
    match S.mintMessage tx with
    | some message => { w with signed := (member, message) :: w.signed }
    | none => w
  | .sign key message => if honest key then w else { w with signed := (key, message) :: w.signed }
  | .land feePayer recentBlockhash instructions =>
    match S.compile feePayer recentBlockhash instructions with
    | none => w
    | some message =>
      let signers := signerKeys feePayer instructions
      if ∀ k ∈ signers, (k, message) ∈ w.signed then
        match MintChain.exec S (fun k => signers.contains k) (instructions.map (·.compiled)) w.chain with
        | some chain => { w with chain := chain }
        | none => w
      else w

end HandoffWorld

end Chain

end VizGateway
