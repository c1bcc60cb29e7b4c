import VizGateway.Rotation

/-!
# The signer registry

A signer asks for a nonce, signs it together with its operator id and its address, and is listed
until its lease runs out. Who it is follows from the key its signature recovers to. A nonce is gone
after the first attempt with it, whatever comes of the attempt.
-/

namespace VizGateway

open Checks

structure Registration where
  operatorId : String
  url : String
  expiresAt : ℤ
  deriving DecidableEq, Repr

structure NonceRecord where
  operatorId : String
  expiresAt : ℤ
  deriving DecidableEq, Repr

structure RegistryConfig where
  operators : List OperatorRef
  leaseMs : ℤ
  nonceTtlMs : ℤ
  deriving DecidableEq, Repr

/-- The two maps. -/
structure SignerRegistry where
  byId : String → Option Registration
  nonces : String → Option NonceRecord

def SignerRegistry.empty : SignerRegistry := ⟨fun _ => none, fun _ => none⟩

def challengeMessage (operatorId url nonce : String) : String :=
  s!"viz-gateway-register\n{operatorId}\n{url}\n{nonce}"

/-- `idOfPubkey.get(key)`: the last operator of a key has it. -/
def RegistryConfig.idOfPubkey (cfg : RegistryConfig) (key : String) : Option String :=
  (cfg.operators.reverse.find? fun o => o.vizPubkey != "" && o.vizPubkey == key).map (·.id)

section

variable (cfg : RegistryConfig) (recoverPublicKey : String → String → Except String String)

/-- `nonce` is what `randomBytes` gives this call. -/
def issueChallenge (operatorId nonce : String) (t : ℤ) (s : SignerRegistry) :
    Except String String × SignerRegistry :=
  if operatorId ∈ cfg.operators.map (·.id) then
    let swept := fun n => (s.nonces n).filter fun record => ¬ record.expiresAt ≤ t
    (.ok nonce, { s with
      nonces := Function.update swept nonce (some ⟨operatorId, t + cfg.nonceTtlMs⟩) })
  else (.error s!"unknown operator '{operatorId}'", s)

/-- `recoverChallengeSigner`. -/
def recoverChallengeSigner (operatorId url nonce sigHex : String) : Except String String :=
  recoverPublicKey (challengeMessage operatorId url nonce) sigHex

/-- The checks of `register` on the record its nonce had. -/
def checkRegistration (operatorId url nonce sigHex : String) (record : Option NonceRecord) (t : ℤ) :
    Except String Unit := do
  let record ← found record "unknown or already-used nonce"
  require (record.operatorId = operatorId) "nonce was not issued to this operator"
  require (¬ record.expiresAt < t) "challenge nonce expired"
  let recovered ← (recoverChallengeSigner recoverPublicKey operatorId url nonce sigHex).mapError
    fun err => s!"registration signature unrecoverable: {err}"
  let keyOwnerId ← found ((cfg.idOfPubkey recovered).filter (· ≠ ""))
    s!"registration key {recovered} is not in the federation key set"
  require (keyOwnerId = operatorId)
    (s!"registration key mismatch: this box claims OPERATOR_ID '{operatorId}' but its VIZ key " ++
      s!"is labeled '{keyOwnerId}' in federation.json — fix OPERATOR_ID or correct the manifest " ++
      "pairing")

/-- The clock is read for the nonce at `t` and for the lease at `t'`. -/
def register (operatorId url nonce sigHex : String) (t t' : ℤ) (s : SignerRegistry) :
    Except String Registration × SignerRegistry :=
  let nonces := Function.update s.nonces nonce none
  match checkRegistration cfg recoverPublicKey operatorId url nonce sigHex (s.nonces nonce) t with
  | .error e => (.error e, { s with nonces })
  | .ok _ =>
    let reg := ⟨operatorId, url, t' + cfg.leaseMs⟩
    (.ok reg, { byId := Function.update s.byId operatorId (some reg), nonces })

def live (t : ℤ) (s : SignerRegistry) : List Registration × SignerRegistry :=
  let byId := fun id => (s.byId id).filter fun reg => ¬ reg.expiresAt ≤ t
  (cfg.operators.filterMap fun o => byId o.id, { s with byId })

/-! ## Runs -/

inductive RegistryCall
  | issueChallenge (operatorId nonce : String) (t : ℤ)
  | register (operatorId url nonce sigHex : String) (t t' : ℤ)
  | live (t : ℤ)
  deriving DecidableEq, Repr

inductive RegistryReply
  | challenge (reply : Except String String)
  | registration (reply : Except String Registration)
  | registrations (list : List Registration)

def SignerRegistry.answer (s : SignerRegistry) : RegistryCall → RegistryReply × SignerRegistry
  | .issueChallenge operatorId nonce t =>
    let r := issueChallenge cfg operatorId nonce t s
    (.challenge r.1, r.2)
  | .register operatorId url nonce sigHex t t' =>
    let r := register cfg recoverPublicKey operatorId url nonce sigHex t t' s
    (.registration r.1, r.2)
  | .live t =>
    let r := live cfg t s
    (.registrations r.1, r.2)

/-- The registry and all that was asked of it and answered. -/
structure RegistryRun where
  registry : SignerRegistry
  log : List (RegistryCall × RegistryReply)

def RegistryRun.step (w : RegistryRun) (c : RegistryCall) : RegistryRun :=
  let r := w.registry.answer cfg recoverPublicKey c
  ⟨r.2, w.log ++ [(c, r.1)]⟩

def RegistryRun.start : RegistryRun := ⟨.empty, []⟩

end

end VizGateway
