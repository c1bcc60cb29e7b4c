import VizGateway.Lib.Checks
import VizGateway.Lib.JsonTree
import VizGateway.Lib.LengthPrefix

/-!
# Rotating the gateway account's authority

A proposal file names the new operators and carries the transaction that the operators sign one
after the other. The file comes from whoever wrote it: every field of it is a JSON value of any
kind until a check has said otherwise.
-/

namespace VizGateway

open Checks JsonTree

structure OperatorRef where
  id : String
  vizPubkey : String
  tonPubkey : String
  solanaPubkey : String
  deriving DecidableEq, Repr

def OperatorRef.toTree (o : OperatorRef) : JsonTree :=
  .obj [("id", .str o.id), ("vizPubkey", .str o.vizPubkey), ("tonPubkey", .str o.tonPubkey),
    ("solanaPubkey", .str o.solanaPubkey)]

/-- What the runtime throws by itself. -/
def typeError : String := "TypeError"

/-- `v.key`. -/
def property (v : Option JsonTree) (key : String) : Except String (Option JsonTree) :=
  match v with
  | none | some .null => .error typeError
  | some v => .ok (v.get key)

section

variable (R : Runtime)

/-- A message that spells out a value. -/
def complain (v : Option JsonTree) (message : String → String) : String :=
  ((R.textOf v).map message).getD typeError

/-! ## The authority -/

/-- `new Set(keys).size === keys.length`. Two parsed objects are never the same one. -/
def allDistinct (keys : List (Option JsonTree)) : Prop :=
  keys.Pairwise fun a b => a = b → a.any (!·.isPrimitive) = true

instance (keys : List (Option JsonTree)) : Decidable (allDistinct keys) := by
  unfold allDistinct
  infer_instance

/-- `[...keys].sort()`: by text, in code units, `undefined` at the end. -/
def sortKeys (keys : List (Option JsonTree)) : Except String (List (Option JsonTree)) := do
  let present := keys.filter (·.isSome)
  require (present.length ≤ 1 ∨ ∀ k ∈ present, (R.textOf k).isSome) typeError
  let units := fun k => Utf16.units ((R.textOf k).getD "").toList
  return present.insertionSort (fun a b => ¬ units b < units a) ++ keys.filter (·.isNone)

def keyAuth (key : Option JsonTree) : JsonTree := .arr [key.getD .null, .num 1]

/-- The authority as its text has it: an `undefined` threshold is left out, an `undefined` key is
null. -/
def authorityTree (threshold : Option JsonTree) (keys : List (Option JsonTree)) : JsonTree :=
  .obj ((threshold.map fun t => ("weight_threshold", t)).toList ++
    [("account_auths", .arr []), ("key_auths", .arr (keys.map keyAuth))])

def buildActiveAuthority (ops threshold : Option JsonTree) : Except String JsonTree := do
  let t ← found (R.toNumber threshold) typeError
  require (t.lt (.finite 1) = false) "threshold must be >= 1"
  match ops with
  | some (.arr items) =>
    require (JsNumber.lt (.finite items.length) t = false)
      (complain R threshold fun s =>
        s!"threshold {s} exceeds operator count {items.length}")
    let keys ← items.mapM fun o => property (some o) "vizPubkey"
    require (allDistinct keys) "duplicate vizPubkey in operator set"
    let sorted ← sortKeys R keys
    return authorityTree threshold sorted
  -- nothing but an array has a `map` to call
  | _ => .error typeError

def buildRotationOp (account : String) (ops threshold : Option JsonTree)
    (memoKey jsonMetadata : String) : Except String JsonTree := do
  let auth ← buildActiveAuthority R ops threshold
  return .arr [.str "account_update", .obj [("account", .str account), ("active", auth),
    ("regular", auth), ("memo_key", .str memoKey), ("json_metadata", .str jsonMetadata)]]

/-! ## The proposal -/

structure TaPoS where
  refBlockNum : ℕ
  refBlockPrefix : ℕ
  expiration : String
  deriving DecidableEq, Repr

structure BuildProposalArgs where
  chainId : String
  account : String
  newOperators : List OperatorRef
  newThreshold : ℚ
  memoKey : String
  jsonMetadata : String
  currentActiveHash : String
  taPoS : TaPoS
  deriving DecidableEq, Repr

def buildProposal (a : BuildProposalArgs) : Except String JsonTree := do
  let operators := JsonTree.arr (a.newOperators.map OperatorRef.toTree)
  let op ← buildRotationOp R a.account (some operators) (some (.num a.newThreshold)) a.memoKey
    a.jsonMetadata
  return .obj [("version", .num 1), ("chainId", .str a.chainId), ("newOperators", operators),
    ("newThreshold", .num a.newThreshold), ("currentActiveHash", .str a.currentActiveHash),
    ("vizTx", .obj [("ref_block_num", .num a.taPoS.refBlockNum),
      ("ref_block_prefix", .num a.taPoS.refBlockPrefix), ("expiration", .str a.taPoS.expiration),
      ("operations", .arr [op]), ("extensions", .arr []), ("signatures", .arr [])])]

/-- `v?.length ?? 0`. -/
def lengthOr0 : Option JsonTree → JsonTree
  | some (.arr items) => .num items.length
  | some (.str s) => .num (Utf16.units s.toList).length
  | some (.obj props) => match JsonTree.get (.obj props) "length" with
    | none | some .null => .num 0
    | some v => v
  | _ => .num 0

def onlyItem : Option JsonTree → Option JsonTree
  | some (.arr [item]) => some item
  | _ => none

/-- `String(v ?? "")`. -/
def stringOrEmpty (v : Option JsonTree) : Except String String :=
  match v with
  | none | some .null => .ok ""
  | some v => found (R.text v) typeError

structure ValidateContext where
  chainId : String
  nowMs : ℤ
  skipExpiry : Bool
  deriving DecidableEq, Repr

def validateProposal (p : JsonTree) (ctx : ValidateContext) : Except String Unit := do
  let version ← property (some p) "version"
  require (version = some (.num 1)) (complain R version fun s => s!"unsupported proposal version {s}")
  let chainId ← property (some p) "chainId"
  require (chainId = some (.str ctx.chainId))
    (complain R chainId fun s => s!"proposal chainId '{s}' != expected '{ctx.chainId}'")
  let vizTx ← property (some p) "vizTx"
  let operations ← property vizTx "operations"
  let fileOp ← found (onlyItem operations) (complain R (some (lengthOr0 operations)) fun s =>
    s!"proposal must contain exactly one operation (got {s}) — " ++
      "a rotation tx carries only the account_update; extra operations would be co-signed too")
  let extensions ← property vizTx "extensions"
  require (extensions = some (.arr [])) "proposal vizTx.extensions must be empty"
  require (fileOp.truthy = true ∧ fileOp.index 0 = some (.str "account_update"))
    "proposal op is not account_update"
  let body := fileOp.index 1
  let master ← property body "master"
  require (master = none) "proposal op must not change master"
  let account ← property body "account"
  let account ← stringOrEmpty R account
  let newOperators ← property (some p) "newOperators"
  let newThreshold ← property (some p) "newThreshold"
  let memoKey ← property body "memo_key"
  let memoKey ← stringOrEmpty R memoKey
  let jsonMetadata ← property body "json_metadata"
  let jsonMetadata ← stringOrEmpty R jsonMetadata
  let expected ← buildRotationOp R account newOperators newThreshold memoKey jsonMetadata
  require (expected = fileOp)
    "proposal op does not match newOperators/newThreshold (tampered or stale)"
  let expiration ← property vizTx "expiration"
  let text ← found (R.textOf expiration) typeError
  let expMs ← found (R.dateParse s!"{text}Z") s!"bad expiration: {text}"
  require (ctx.skipExpiry = true ∨ ¬ expMs ≤ ctx.nowMs)
    "proposal expired (re-run propose for a fresh TaPoS window)"

/-- What the operator hands to the library to sign, once the file has passed. -/
def coSign (signTransaction : JsonTree → Except String String) (confirmed : Bool) (p : JsonTree)
    (ctx : ValidateContext) : Except String (Option (JsonTree × String)) := do
  validateProposal R p ctx
  if confirmed then
    let vizTx ← property (some p) "vizTx"
    let tx := (vizTx.getD .null).set "signatures" (.arr [])
    let signature ← signTransaction tx
    return some (tx, signature)
  else return none

end

end VizGateway
