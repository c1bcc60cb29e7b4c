import VizGateway.ReplayLedger

/-!
# The signatures of a release

The federation may collect more signatures than the backing account's active authority needs, and
the chain drops a transfer that carries one too many. So each signature is attributed to a key,
and those of distinct keys of the authority are taken until their weight reaches the threshold.
-/

namespace VizGateway

/-- What recovery takes from the signing library: the chain's id and the key behind a signature
of some bytes, if any. -/
structure KeyRecovery where
  chainId : List UInt8
  recoverPublicKeyFromBuffer : String → List UInt8 → Option String

/-- An account's active authority. -/
structure VizAuthority where
  weight_threshold : ℕ
  key_auths : List (String × ℕ)
  deriving DecidableEq, Repr

/-- `new Map(key_auths)`: of two entries for a key the later one counts. -/
def VizAuthority.weightOf (authority : VizAuthority) (key : String) : Option ℕ :=
  authority.key_auths.reverse.lookup key

/-- The key that made a release signature. -/
def recoverReleaseSigner (L : Libs) (R : KeyRecovery) (p : VizReleaseProposal)
    (signatureHex : String) : Option String :=
  (L.toBuffer (buildReleaseTx p.toJson)).bind fun buf =>
    R.recoverPublicKeyFromBuffer signatureHex (R.chainId ++ buf)

/-- What the loop has taken so far. -/
structure Selection where
  chosen : List String := []
  usedKeys : List String := []
  weight : ℕ := 0
  deriving DecidableEq, Repr

section

variable (recover : String → Option String) (authority : VizAuthority)

/-- One signature. Once the threshold is reached the loop is left, so no later one is looked at. -/
def Selection.take (s : Selection) (sig : String) : Selection :=
  if authority.weight_threshold ≤ s.weight then s
  else
    match recover sig with
    | none => s
    | some key =>
      match authority.weightOf key with
      | none => s
      | some w =>
        if key ∈ s.usedKeys then s
        else
          { chosen := s.chosen ++ [sig], usedKeys := s.usedKeys ++ [key], weight := s.weight + w }

end

def selectAuthoritySignatures (L : Libs) (R : KeyRecovery) (p : VizReleaseProposal)
    (signatures : List String) (authority : VizAuthority) : Except String (List String) :=
  let s := signatures.foldl (Selection.take (recoverReleaseSigner L R p) authority) {}
  if s.weight < authority.weight_threshold then
    .error s!"release {p.sender}: relevant signatures reach weight {s.weight}, active authority needs {authority.weight_threshold}"
  else .ok s.chosen

end VizGateway
