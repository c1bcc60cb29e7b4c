import VizGateway.Lib.Separated
import VizGateway.Rotation

/-!
# The operator list on the command line

`"op-1=<vizPub>:<tonPub>[:<solPub>],op-2=..."`, read by the rotation tool and written back for its
follow-up plan.
-/

namespace VizGateway

open Checks Text

/-- The keys of an entry, `solanaPubkey` empty where it is left out. -/
def operatorKeys (entry : String) : List String → Except String (String × String × String)
  | [viz, ton] => .ok (viz, ton, "")
  | [viz, ton, solana] => .ok (viz, ton, solana)
  | _ => .error s!"operator entry needs vizPub:tonPub[:solanaPub] (2 or 3 fields): {entry}"

/-- One entry: the id before the first `=`, two or three keys behind it. -/
def parseOperator (entry : String) : Except String OperatorRef := do
  let eq ← found (indexOf entry '=') s!"operator entry missing '=': {entry}"
  let id := trim (takeStr entry eq)
  let rest := trim (dropStr entry (eq + 1))
  let (vizPubkey, tonPubkey, solanaPubkey) ← operatorKeys entry ((split rest ':').map trim)
  require (id ≠ "" ∧ vizPubkey ≠ "" ∧ tonPubkey ≠ "")
    s!"operator entry incomplete (id, vizPub, tonPub required): {entry}"
  return { id, vizPubkey, tonPubkey, solanaPubkey }

def parseOperators (spec : String) : Except String (List OperatorRef) :=
  (((split spec ',').map trim).filter (· ≠ "")).mapM parseOperator

def serializeOperator (o : OperatorRef) : String :=
  o.id ++ "=" ++ o.vizPubkey ++ ":" ++ o.tonPubkey ++
    (if o.solanaPubkey = "" then "" else ":" ++ o.solanaPubkey)

/-- The inverse: the Solana key is left out where there is none. -/
def serializeOperators (ops : List OperatorRef) : String :=
  String.intercalate "," (ops.map serializeOperator)

end VizGateway
