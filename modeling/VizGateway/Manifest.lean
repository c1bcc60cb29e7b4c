import VizGateway.Fees
import VizGateway.Json
import VizGateway.Rotation

/-!
# The federation manifest

The committed file every operator's gateway reads: the operator set, and sections that pin what all
operators have to agree on, each with defaults or absent. `broadcastViz` writes the file anew after
a rotation.
-/

namespace VizGateway

open Checks JsonTree

structure ManifestFees where
  floorMilliViz : ℤ
  bps : JsNumber
  activationSurchargeMilliViz : PerChain
  mintGasFloorMilliViz : PerChain
  mintGasTon : JsNumber
  walletDeployGasTon : JsNumber
  margin : JsNumber
  gramVizPerTon : JsNumber
  refundFeeMilliViz : ℤ
  deriving DecidableEq, Repr

structure ManifestGram where
  jettonMinterAddress : Option String
  multisigAddress : Option String
  gatewayJettonWallet : Option String
  frozenMilliViz : Option ℤ
  deriving DecidableEq, Repr

structure ManifestAccounts where
  gram : Option String
  solana : Option String
  fees : Option String
  deriving DecidableEq, Repr

structure ManifestRpc where
  vizNodeUrls : Option String
  gramEndpoints : Option String
  gramOrbsFallback : Option Bool
  deriving DecidableEq, Repr

structure FederationManifest where
  n : ℤ
  threshold : ℤ
  operators : List OperatorRef
  fees : Option ManifestFees
  gram : Option ManifestGram
  accounts : Option ManifestAccounts
  rpc : Option ManifestRpc
  deriving DecidableEq, Repr

/-- The integer a number is, if it is one. -/
def asInteger : JsNumber → Option ℤ
  | .finite x => if x.den = 1 then some x.num else none
  | _ => none

section

variable (R : Runtime)

/-- `Number(v)`. -/
def number (v : Option JsonTree) : Except String JsNumber := found (R.toNumber v) typeError

/-- `BigInt(v)`. -/
def bigInt : Option JsonTree → Except String ℤ
  | none | some .null => .error typeError
  | some (.bool b) => .ok (if b then 1 else 0)
  | some (.num x) => found (asInteger (.finite x)) typeError
  | some (.str s) => found (bigIntOfString s) typeError
  | some v => found ((R.text v).bind bigIntOfString) typeError

/-- `String(v)`, `undefined` for an absent value or null. -/
def optStr : Option JsonTree → Except String (Option String)
  | none | some .null => .ok none
  | some v => some <$> found (R.text v) typeError

/-- An array's items with commas between them, or any other value as its text. -/
def optList : Option JsonTree → Except String (Option String)
  | none | some .null => .ok none
  | some (.arr items) => do
    let texts ← items.mapM fun v => found (R.text v) typeError
    return some (String.intercalate "," texts)
  | some v => some <$> found (R.text v) typeError

/-- `f[key] === undefined ? dflt : read(f[key])`. -/
def orDefault {α : Type} (read : Option JsonTree → Except String α) (dflt : α)
    (v : Option JsonTree) : Except String α :=
  match v with
  | none => .ok dflt
  | v => read v

def manifestOperator (x : JsonTree × ℕ) : Except String OperatorRef := do
  let id ← property (some x.1) "id"
  let id ← stringOrEmpty R id
  let vizPubkey ← property (some x.1) "vizPubkey"
  let vizPubkey ← stringOrEmpty R vizPubkey
  let tonPubkey ← property (some x.1) "tonPubkey"
  let tonPubkey ← stringOrEmpty R tonPubkey
  let solanaPubkey ← property (some x.1) "solanaPubkey"
  let solanaPubkey ← stringOrEmpty R solanaPubkey
  require (id ≠ "") s!"federation manifest: operators[{x.2}] missing id"
  return { id, vizPubkey, tonPubkey, solanaPubkey }

def perChain (v : Option JsonTree) : Except String PerChain := do
  let solana ← property v "SOLANA"
  let solana ← bigInt R solana
  let gram ← property v "GRAM"
  let gram ← bigInt R gram
  return { solana, gram }

/-! ## Sections -/

def parseFees (f : JsonTree) : Except String ManifestFees := do
  let act ← property (some f) "activationSurchargeMilliViz"
  let gas ← property (some f) "mintGasFloorMilliViz"
  let floorMilliViz ← bigInt R (f.get "floorMilliViz")
  let bps ← number R (f.get "bps")
  let activationSurchargeMilliViz ← perChain R act
  let mintGasFloorMilliViz ← perChain R gas
  let mintGasTon ← orDefault (number R) (.finite (6 / 100)) (f.get "mintGasTon")
  let walletDeployGasTon ← orDefault (number R) (.finite (5 / 100)) (f.get "walletDeployGasTon")
  let margin ← orDefault (number R) (.finite (3 / 2)) (f.get "margin")
  let gramVizPerTon ← orDefault (number R) (.finite 500) (f.get "gramVizPerTon")
  let refundFeeMilliViz ← orDefault (bigInt R) 5000 (f.get "refundFeeMilliViz")
  return {
    floorMilliViz, bps, activationSurchargeMilliViz, mintGasFloorMilliViz, mintGasTon,
    walletDeployGasTon, margin, gramVizPerTon, refundFeeMilliViz }

def parseGram (g : JsonTree) : Except String ManifestGram := do
  let jettonMinterAddress ← property (some g) "jettonMinterAddress"
  let jettonMinterAddress ← optStr R jettonMinterAddress
  let multisigAddress ← optStr R (g.get "multisigAddress")
  let gatewayJettonWallet ← optStr R (g.get "gatewayJettonWallet")
  let frozenMilliViz ← orDefault (fun v => some <$> bigInt R v) none (g.get "frozenMilliViz")
  return { jettonMinterAddress, multisigAddress, gatewayJettonWallet, frozenMilliViz }

def parseAccounts (a : JsonTree) : Except String ManifestAccounts := do
  let gram ← property (some a) "gram"
  let gram ← optStr R gram
  let solana ← optStr R (a.get "solana")
  let fees ← optStr R (a.get "fees")
  return { gram, solana, fees }

def parseRpc (r : JsonTree) : Except String ManifestRpc := do
  let vizNodeUrls ← property (some r) "vizNodeUrls"
  let vizNodeUrls ← optList R vizNodeUrls
  let gramEndpoints ← optList R (r.get "gramEndpoints")
  return { vizNodeUrls, gramEndpoints, gramOrbsFallback := (r.get "gramOrbsFallback").map truthy }

/-- A section that may be absent. -/
def optSection {α : Type} (parse : JsonTree → Except String α) :
    Option JsonTree → Except String (Option α)
  | none => .ok none
  | some v => some <$> parse v

def parseManifest (raw : JsonTree) : Except String FederationManifest := do
  let n ← property (some raw) "n"
  let n ← number R n
  let threshold ← number R (raw.get "threshold")
  match raw.get "operators" with
  | some (.arr opsRaw) =>
    let operators ← opsRaw.zipIdx.mapM (manifestOperator R)
    let integers := "federation manifest: n and threshold must be integers"
    let n ← found (asInteger n) integers
    let threshold ← found (asInteger threshold) integers
    let texts := fun x : ℤ => R.numberText x
    require (operators.length = n)
      s!"federation manifest: operators.length {operators.length} != n {texts n}"
    require (¬ (threshold ≤ 0 ∨ n < threshold))
      s!"federation manifest: threshold {texts threshold} must be in 1..{texts n}"
    let fees ← optSection (parseFees R) (raw.get "fees")
    let gram ← optSection (parseGram R) (raw.get "gram")
    let accounts ← optSection (parseAccounts R) (raw.get "accounts")
    let rpc ← optSection (parseRpc R) (raw.get "rpc")
    return { n, threshold, operators, fees, gram, accounts, rpc }
  | _ => .error "federation manifest: operators must be an array"

/-! ## The rewrite -/

/-- `v.length`. -/
def lengthOf : Option JsonTree → Except String (Option JsonTree)
  | none | some .null => .error typeError
  | some (.arr items) => .ok (some (.num items.length))
  | some (.str s) => .ok (some (.num (Utf16.units s.toList).length))
  | some v => .ok (v.get "length")

/-- A value where a comparison wants a primitive one. -/
def toPrimitive : Option JsonTree → Except String (Option JsonTree)
  | some (.arr items) => found ((R.text (.arr items)).map fun s => some (.str s)) typeError
  | some (.obj props) => found ((R.text (.obj props)).map fun s => some (.str s)) typeError
  | v => .ok v

/-- `a < b`: two strings by their code units, anything else as numbers. -/
def lessThan (a b : Option JsonTree) : Except String Bool := do
  let a ← toPrimitive R a
  let b ← toPrimitive R b
  match a, b with
  | some (.str s), some (.str t) => return decide (Utf16.units s.toList < Utf16.units t.toList)
  | a, b =>
    let x ← number R a
    let y ← number R b
    return x.lt y

def diffOperators (prevKeys : List String) : Option JsonTree → Except String String
  | some (.arr next) => do
    let nextKeys ← next.mapM fun o => property (some o) "vizPubkey"
    let prev : List (Option JsonTree) := prevKeys.map fun k => some (.str k)
    let added ← ((next.zip nextKeys).filter fun x => x.2 ∉ prev).mapM fun x =>
      stringOrEmpty R (x.1.get "id")
    let removed := prev.filter (· ∉ nextKeys)
    let joined := String.intercalate ", " added
    let names := if joined = "" then "none" else joined
    return s!"added: [{names}]  removed-keys: {removed.length}"
  | _ => .error typeError

/-- The live authority: its hash and its keys. -/
structure LiveAuthority where
  hash : String
  keys : List String
  deriving DecidableEq, Repr

/-- What the tool meets: its configuration, the clock, the live authority, and the node's answer to
the broadcast. -/
structure RotateEnv where
  chainId : String
  nowMs : ℤ
  live : Except String LiveAuthority
  apply : Bool
  proposalFile : String
  broadcast : JsonTree → Except String Unit

/-- The files the tool leaves. -/
structure RotationFiles where
  state : JsonTree
  manifest : JsonTree
  deriving DecidableEq, Repr

/-- A key's property, left out where the value is `undefined`. -/
def given (key : String) (v : Option JsonTree) : List (String × JsonTree) :=
  (v.map fun v => (key, v)).toList

/-- `broadcastViz`, `none` for a dry run. -/
def broadcastViz (env : RotateEnv) (proposal : JsonTree) :
    Except String (Option RotationFiles) := do
  validateProposal R proposal ⟨env.chainId, env.nowMs, false⟩
  let vizTx ← property (some proposal) "vizTx"
  let signatures ← property vizTx "signatures"
  let have_ ← lengthOf signatures
  let newThreshold := proposal.get "newThreshold"
  let short ← lessThan R have_ newThreshold
  require (short = false)
    (complain R have_ fun collected => complain R newThreshold fun needed =>
      s!"only {collected}/{needed} partials collected")
  let live ← env.live
  require (proposal.get "currentActiveHash" = some (.str live.hash))
    ("live active authority changed since propose (another rotation landed?). " ++
      "Re-run propose against the current set.")
  let newOperators := proposal.get "newOperators"
  let _ ← diffOperators R live.keys newOperators
  let n ← lengthOf newOperators
  if env.apply = false then return none
  else
    env.broadcast (vizTx.getD .null)
    return some {
      state := .obj [("proposalFile", .str env.proposalFile), ("vizDone", .bool true),
        ("tonOrderAddress", .str ""), ("tonDone", .bool false), ("solanaNewMultisig", .str ""),
        ("solanaDone", .bool false)]
      manifest := .obj (given "chainId" (proposal.get "chainId") ++ given "n" n ++
        given "threshold" newThreshold ++ given "operators" newOperators) }

end

end VizGateway
