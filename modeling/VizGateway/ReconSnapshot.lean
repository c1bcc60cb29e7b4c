import VizGateway.Json
import VizGateway.Lib.Checks
import VizGateway.Lib.JsonText

/-!
# Published reconciliation figures

The text a definitive check leaves in the store and the coordinator serves as proof of reserves. One
codec for the writer and the reader.
-/

namespace VizGateway

open Checks JsonText

inductive ReconStatus
  | ok
  | underBacked
  deriving DecidableEq, Repr

def ReconStatus.text : ReconStatus → List UInt16
  | .ok => ascii "OK"
  | .underBacked => ascii "UNDER_BACKED"

structure ReconSnapshot where
  chain : List UInt16
  lockedMilliViz : ℤ
  circulatingMilliViz : ℤ
  unsweptFeesMilliViz : ℤ
  driftMilliViz : ℤ
  status : ReconStatus
  /-- Milliseconds since the epoch. -/
  checkedAt : Binary64

/-- `String(n)` of a bigint. -/
def bigintUnits (n : ℤ) : List UInt16 := ascii (bigintText n)

def serializeReconSnapshot (s : ReconSnapshot) : List UInt16 :=
  stringify (.obj [
    (ascii "chain", .str s.chain),
    (ascii "lockedMilliViz", .str (bigintUnits s.lockedMilliViz)),
    (ascii "circulatingMilliViz", .str (bigintUnits s.circulatingMilliViz)),
    (ascii "unsweptFeesMilliViz", .str (bigintUnits s.unsweptFeesMilliViz)),
    (ascii "driftMilliViz", .str (bigintUnits s.driftMilliViz)),
    (ascii "status", .str s.status.text),
    (ascii "checkedAt", .num s.checkedAt)])

/-- What the runtime throws by itself. -/
inductive Thrown
  | syntaxError
  | typeError
  deriving DecidableEq, Repr

/-- `/^-?\d+$/.test(v)`. -/
def isDecimal (v : List UInt16) : Bool :=
  let ds := if v.head? = some (unit '-') then v.tail else v
  ds ≠ [] && ds.all fun u => (char u).isDigit

/-- `BigInt(v)`. -/
def bigIntOfUnits (v : List UInt16) : Except Thrown ℤ :=
  found (bigIntOfString (String.ofList (v.map char))) .syntaxError

def toBigInt : Option JsonValue → Option ℤ
  | some (.str v) =>
    if isDecimal v then
      match bigIntOfUnits v with
      | .ok n => some n
      | .error _ => none
    else none
  | _ => none

/-- `o[key]`, `none` for `undefined`. -/
def readProperty (o : JsonValue) (key : String) : Except Thrown (Option JsonValue) :=
  match o with
  | .null => .error .typeError
  | .obj props => .ok ((props.find? (·.1 = ascii key)).map (·.2))
  | _ => .ok none

def toStatus : Option JsonValue → Option ReconStatus
  | some (.str v) =>
    if v = ascii "OK" then some .ok
    else if v = ascii "UNDER_BACKED" then some .underBacked
    else none
  | _ => none

def toCheckTime : Option JsonValue → Option Binary64
  | some (.num x) => if x.isFinite then some x else none
  | _ => none

def toChain : Option JsonValue → Option (List UInt16)
  | some (.str v) => if v = [] then none else some v
  | _ => none

/-- The text is null or undefined where there is none. -/
def parseReconSnapshot (json : Option (List UInt16)) : Except Thrown (Option ReconSnapshot) :=
  match json with
  | none | some [] => .ok none
  | some text =>
    match parse text with
    -- the `SyntaxError` is caught
    | none => .ok none
    | some o =>
      match o with
      | .arr _ | .obj _ => do
        let locked := toBigInt (← readProperty o "lockedMilliViz")
        let circulating := toBigInt (← readProperty o "circulatingMilliViz")
        let unswept := toBigInt (← readProperty o "unsweptFeesMilliViz")
        let drift := toBigInt (← readProperty o "driftMilliViz")
        let status := toStatus (← readProperty o "status")
        let checkedAt := toCheckTime (← readProperty o "checkedAt")
        let chain := toChain (← readProperty o "chain")
        return do
          let lockedMilliViz ← locked
          let circulatingMilliViz ← circulating
          let unsweptFeesMilliViz ← unswept
          let driftMilliViz ← drift
          let status ← status
          let checkedAt ← checkedAt
          let chain ← chain
          return {
            chain, lockedMilliViz, circulatingMilliViz, unsweptFeesMilliViz, driftMilliViz, status,
            checkedAt }
      | _ => .ok none

end VizGateway
