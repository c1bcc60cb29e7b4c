import VizGateway.DepositProgram
import VizGateway.Lib.Handover
import VizGateway.Rotation
import VizGateway.SignerRegistry
import VizGateway.VizSign

/-!
# Handing the gateway account over on VIZ

The operators move the gateway account's active authority to a new set of keys by one transaction
that enough of the present keys have signed. The same keys sign releases and the registrations of the
operators' signers, so what one signature is for must not serve for another.
-/

namespace VizGateway

open Checks JsonTree

/-- An operation as the chain reads it: whether an update names a master authority too, and the active
authority it sets. -/
inductive ChainOperation
  | accountUpdate (account : String) (master : Bool) (active : Option VizAuthority)
  | other
  deriving DecidableEq, Repr

/-- The library on the rotation's transactions, and the chain's reading of its bytes. -/
structure RotationSerializer where
  chainId : List UInt8
  /-- A transaction's bytes, its signatures apart. -/
  toBuffer : JsonTree → Option (List UInt8)
  /-- The signature of a key over some bytes. -/
  sign : String → List UInt8 → String
  operations : List UInt8 → List ChainOperation

namespace RotationSerializer

variable (V : RotationSerializer)

/-- What a key signs of a transaction. -/
def signTransaction (key : String) (tx : JsonTree) : Except String String := do
  let bytes ← found (V.toBuffer tx) "Error"
  return V.sign key (V.chainId ++ bytes)

end RotationSerializer

/-- `rotate propose`: the file, and the transaction with the proposer's signature. -/
def proposeRotation (R : Runtime) (signTransaction : JsonTree → Except String String)
    (a : BuildProposalArgs) : Except String (JsonTree × JsonTree × String) := do
  let _ ← buildActiveAuthority R (some (.arr (a.newOperators.map OperatorRef.toTree)))
    (some (.num a.newThreshold))
  let p ← buildProposal R a
  let vizTx ← property (some p) "vizTx"
  let tx := (vizTx.getD .null).set "signatures" (.arr [])
  let signature ← signTransaction tx
  return (p, tx, signature)

/-! ## The chain -/

namespace VizAuthority

/-- Whether the keys that signed are enough. -/
def approves (a : VizAuthority) (isSigner : String → Bool) : Bool :=
  a.weight_threshold ≤ Handover.weight a.key_auths isSigner

end VizAuthority

section Chain

-- whether some keys reach an account's master authority, which also stands for the active one
variable (recovers : String → (String → Bool) → Bool)

namespace ChainOperation

/-- The authorities an operation needs are asked for before anything is carried out. -/
def permitted (active : String → Option VizAuthority) (isSigner : String → Bool) :
    ChainOperation → Bool
  | accountUpdate account master _ =>
    recovers account isSigner ||
      (!master && (active account).any fun a => a.approves isSigner)
  | other => true

def apply (active : String → Option VizAuthority) : ChainOperation → String → Option VizAuthority
  | accountUpdate account _ (some a) => Function.update active account (some a)
  | _ => active

end ChainOperation

/-! ## The ceremony -/

/-- The accounts' active authorities and the signatures that exist; the proposals an operator signed
for are kept for the statements only. -/
structure VizHandoffWorld where
  active : String → Option VizAuthority
  signed : List (String × List UInt8) := []
  reviewed : List JsonTree := []

/-- The honest operators run the commands, on whatever files they are given, sign releases and register
their signers. Everyone else signs and sends what they like. -/
inductive VizHandoffEvent
  | propose (key : String) (a : BuildProposalArgs)
  | coSign (key : String) (confirmed : Bool) (p : JsonTree) (ctx : ValidateContext)
  | release (key : String) (p : JsonObject)
  | register (key operatorId url nonce : String)
  | sign (key : String) (buffer : List UInt8)
  | land (tx : List UInt8)

namespace VizHandoffWorld

variable (L : Libs) (V : RotationSerializer) (R : Runtime) (honest : String → Bool)

def addSigned (w : VizHandoffWorld) (key : String) (p tx : JsonTree) : VizHandoffWorld :=
  match V.toBuffer tx with
  | some bytes =>
    { w with signed := (key, V.chainId ++ bytes) :: w.signed, reviewed := p :: w.reviewed }
  | none => w

/-- The keys that signed a transaction. -/
def signers (w : VizHandoffWorld) (tx : List UInt8) (key : String) : Bool :=
  w.signed.contains (key, V.chainId ++ tx)

def step (w : VizHandoffWorld) : VizHandoffEvent → VizHandoffWorld
  | .propose key a =>
    match proposeRotation R (V.signTransaction key) a with
    | .ok (p, tx, _) => w.addSigned V key p tx
    | .error _ => w
  | .coSign key confirmed p ctx =>
    match coSign R (V.signTransaction key) confirmed p ctx with
    | .ok (some (tx, _)) => w.addSigned V key p tx
    | _ => w
  | .release key p =>
    match L.toBuffer (buildReleaseTx p) with
    | some bytes => { w with signed := (key, V.chainId ++ bytes) :: w.signed }
    | none => w
  | .register key operatorId url nonce =>
    { w with signed := (key, utf8Bytes (challengeMessage operatorId url nonce)) :: w.signed }
  | .sign key buffer => if honest key then w else { w with signed := (key, buffer) :: w.signed }
  | .land tx =>
    if (V.operations tx).all (·.permitted recovers w.active (w.signers V tx)) then
      { w with active := (V.operations tx).foldl ChainOperation.apply w.active }
    else w

end VizHandoffWorld

end Chain

end VizGateway
