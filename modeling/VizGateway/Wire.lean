import VizGateway.Coordinator
import VizGateway.HttpBody
import VizGateway.Lib.JsonBytes

/-!
# Requests as bytes

The bodies the dispatcher posts to the coordinator and the coordinator to the signers, and what
their handlers make of the bytes. A string of the runtime with half of a pair alone has no
counterpart among the handlers' values.
-/

namespace VizGateway

open JsonText Utf16

def textUnits (s : String) : List UInt16 := units s.toList

/-- None for a string with half of a pair alone. -/
def textOfUnits (s : List UInt16) : Option String :=
  if units (chars s) = s then some (String.ofList (chars s)) else none

mutual

/-- `String(v)`. -/
def valueText : JsonValue → List UInt16
  | .null => ascii "null"
  | .bool b => ascii (if b then "true" else "false")
  | .num x => (NumberText.numberText x).map unit
  | .str s => s
  | .arr items => joinText items
  | .obj _ => ascii "[object Object]"

/-- `items.join()`, where null is nothing. -/
def joinText : List JsonValue → List UInt16
  | [] => []
  | [.null] => []
  | [v] => valueText v
  | .null :: items => unit ',' :: joinText items
  | v :: items => valueText v ++ unit ',' :: joinText items

end

/-- An integer is a `Number`. -/
def Json.toValue : Json → JsonValue
  | .null => .null
  | .bool b => .bool b
  | .num n => .num (.ofRat n)
  | .str s => .str (textUnits s)
  | .strs items => .arr (items.map fun s => .str (textUnits s))
  | .other raw _ => (parse (textUnits raw)).getD .null

def stringItem : JsonValue → Option String
  | .str s => textOfUnits s
  | _ => none

/-- A value by its text. -/
def Json.otherOfValue (v : JsonValue) : Option Json := do
  let raw ← textOfUnits (stringify v)
  let text ← textOfUnits (valueText v)
  return .other raw text

def Json.ofValue : JsonValue → Option Json
  | .null => some .null
  | .bool b => some (.bool b)
  | .num (.finite x h) =>
    if x.den = 1 then some (.num x.num) else otherOfValue (.num (.finite x h))
  | .str s => (textOfUnits s).map .str
  | .arr items =>
    match items.mapM stringItem with
    | some texts => some (.strs texts)
    | none => otherOfValue (.arr items)
  | v => otherOfValue v

def JsonObject.toValue (o : JsonObject) : JsonValue :=
  .obj (o.map fun p => (textUnits p.1, p.2.toValue))

def propertyOfValue (p : List UInt16 × JsonValue) : Option (String × Json) := do
  let key ← textOfUnits p.1
  let v ← Json.ofValue p.2
  return (key, v)

def JsonObject.ofValue : JsonValue → Option JsonObject
  | .obj props => props.mapM propertyOfValue
  | _ => none

/-- `v[key]`. -/
def propertyOf : JsonValue → String → Option JsonValue
  | .obj props, key => (props.find? (·.1 = textUnits key)).map (·.2)
  | _, _ => none

/-! ## What is sent -/

/-- `actionToWire`; a remote chain that is undefined is not written. -/
def actionToWire (a : CanonicalAction) : WireAction :=
  ("direction", .str (a.direction.toString Direction.toString)) :: ("id", .str a.id) ::
    (a.remoteChain.toList.map fun c =>
      ("remoteChain", Json.str (c.toString RemoteChainId.toString))) ++
  [("recipient", .str a.recipient), ("amountMilliViz", .str (bigintText a.amountMilliViz)),
    ("digest", .str a.digest)]

/-- What the dispatcher posts to `/submit`. -/
def submitBody (rec : OutboxRecord) : JsonValue :=
  .obj [(textUnits "action", (actionToWire (recordToAction rec)).toValue)]

/-- What the coordinator posts to `/approve`. -/
def approveBody (action : CanonicalAction) (proposal : Proposal) (hint : Option ℕ) : JsonValue :=
  .obj ((textUnits "action", (actionToWire action).toValue) ::
    (textUnits "proposal", proposal.toJson.toValue) ::
    hint.toList.map fun (n : ℕ) => (textUnits "sourceBlockNum", Json.toValue (.num n)))

/-- The bytes of a request. -/
def bodyBytes (v : JsonValue) : List UInt8 := textBytes (stringify v)

/-! ## What is read -/

/-- The body a handler works on, if it is not refused before. -/
def readBody (maxBytes : ℕ) (events : List BodyEvent) : Option JsonValue :=
  match readLimitedBody maxBytes events with
  | some (.ok body) => parse (textUnits body)
  | _ => none

/-- The action `/submit` orchestrates. A request whose action is no object is refused as one
without an amount. -/
def readSubmit (maxBytes : ℕ) (events : List BodyEvent) : Option CanonicalAction := do
  let raw ← readBody maxBytes events
  let action ← propertyOf raw "action"
  actionFromWire (← JsonObject.ofValue action)

/-- The request `/approve` handles, where its action and proposal are objects. -/
def readApprove (maxBytes : ℕ) (events : List BodyEvent) : Option ApproveRequest := do
  let req ← readBody maxBytes events
  let action ← JsonObject.ofValue (← propertyOf req "action")
  let proposal ← JsonObject.ofValue (← propertyOf req "proposal")
  let sourceBlockNum ← match propertyOf req "sourceBlockNum" with
    | none => some none
    | some v => (Json.ofValue v).map some
  return { action, proposal, sourceBlockNum }

end VizGateway
