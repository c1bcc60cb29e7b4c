import VizGateway.Lib.Events
import VizGateway.Lib.Sessions
import VizGateway.Lib.Text

/-!
# The ring of TON endpoints

Every read goes to the endpoint that a sticky index names. A transient error moves the index to the
next endpoint, waits and reads again, one pass through the ring; any other error is thrown. The
index belongs to the reader object, and every read under way on it shares it.
-/

namespace VizGateway

/-! ## Transient errors -/

/-- A piece of the pattern. What follows an optional or repeated one never starts like it, so taking
as much as there is loses nothing. -/
inductive PatternPiece
  | char (c : Char)
  | oneOf (cs : List Char)
  | optional (cs : List Char)
  | spaces
  | optionalSpace
  | boundary

def isWordChar (c : Char) : Bool := c.isAlphanum || c == '_'

/-- The pieces match a beginning of the text, `prev` being the character before it. -/
def matchesHere : List PatternPiece → Option Char → List Char → Bool
  | [], _, _ => true
  | .char p :: ps, _, c :: cs => c.toLower == p && matchesHere ps (some c) cs
  | .oneOf s :: ps, _, c :: cs => s.contains c.toLower && matchesHere ps (some c) cs
  | .char _ :: _, _, [] | .oneOf _ :: _, _, [] => false
  | .optional s :: ps, prev, cs =>
    match cs with
    | c :: rest => if s.contains c.toLower then matchesHere ps (some c) rest
      else matchesHere ps prev (c :: rest)
    | [] => matchesHere ps prev []
  | .spaces :: ps, prev, cs =>
    matchesHere ps ((cs.takeWhile Text.isSpace).getLast?.or prev) (cs.dropWhile Text.isSpace)
  | .optionalSpace :: ps, prev, cs =>
    match cs with
    | c :: rest => if Text.isSpace c then matchesHere ps (some c) rest
      else matchesHere ps prev (c :: rest)
    | [] => matchesHere ps prev []
  | .boundary :: ps, prev, cs =>
    (prev.any isWordChar != cs.head?.any isWordChar) && matchesHere ps prev cs

def matchesFrom (ps : List PatternPiece) : Option Char → List Char → Bool
  | prev, [] => matchesHere ps prev []
  | prev, c :: cs => matchesHere ps prev (c :: cs) || matchesFrom ps (some c) cs

def literal (s : String) : List PatternPiece := s.toList.map .char

/-- The alternatives of the pattern, in lower case for its flag `i`. -/
def transientPatterns : List (List PatternPiece) := [
  .boundary :: literal "429" ++ [.boundary],
  .boundary :: literal "50" ++ [.oneOf ['0', '2', '3', '4'], .boundary],
  literal "exit_code:" ++ .spaces :: literal "-13" ++ [.boundary],
  literal "too many requests", literal "bad gateway", literal "service unavailable",
  literal "gateway time" ++ .optional ['-'] :: literal "out",
  literal "time" ++ .optional ['-'] :: .optional ['d'] :: .optionalSpace :: literal "out",
  literal "etimedout", literal "econnreset", literal "econnrefused", literal "eai_again",
  literal "enotfound", literal "socket hang up", literal "network error",
  literal "disconnected before secure tls"]

/-- Of an error as the text its message, code, causes and parts are gathered to. -/
def isTransientTonError (haystack : String) : Bool :=
  transientPatterns.any fun ps => matchesFrom ps none haystack.toList

/-! ## Reads with failover -/

/-- What a read does to the reader object and asks of the endpoints. -/
inductive TonOp (Q : Type)
  | index
  | rotate
  | sleep (ms : ℕ)
  | request (endpoint : ℕ) (query : Q)
  deriving DecidableEq

abbrev TonOp.Ans {Q : Type} (A : Q → Type) : TonOp Q → Type
  | .index => ℕ
  | .rotate | .sleep _ => Unit
  | .request _ q => A q

abbrev TonProg (Q : Type) (A : Q → Type) := Prog (TonOp Q) (TonOp.Ans A) String

def TON_RETRY_BASE_MS : ℕ := 500

section

variable {Q : Type} {A : Q → Type} {α : Type}

def TonOp.askIndex : TonProg Q A ℕ := Prog.ask (.index : TonOp Q)

def TonOp.askRotate : TonProg Q A Unit := Prog.ask (.rotate : TonOp Q)

def TonOp.askSleep (ms : ℕ) : TonProg Q A Unit := Prog.ask (.sleep ms : TonOp Q)

def TonOp.ask (endpoint : ℕ) (q : Q) : TonProg Q A (A q) :=
  Prog.ask (.request endpoint q : TonOp Q)

open TonOp

/-- How the loop of `tonCall` goes on after an attempt, with so many left and `rest` to do them. -/
def afterAttempt (clients left : ℕ) (rest : TonProg Q A α) : Except String α → TonProg Q A α
  | .ok a => .ret a
  | .error err =>
    if left = 0 ∨ isTransientTonError err = false then .throw err
    else do
      askRotate
      askSleep (TON_RETRY_BASE_MS * 2 ^ (clients - left - 1))
      rest

/-- The loop with so many attempts to do. -/
def tonAttempts (clients : ℕ) (fn : TonProg Q A α) : ℕ → TonProg Q A α
  -- nothing was thrown yet
  | 0 => .throw "undefined"
  | left + 1 => fn.handle (afterAttempt clients left (tonAttempts clients fn left))

/-- `tonCall` over `clients` endpoints. -/
def tonCall (clients : ℕ) (fn : TonProg Q A α) : TonProg Q A α := tonAttempts clients fn clients

/-- `this.client`. -/
def client : TonProg Q A ℕ := askIndex

end

/-! ## The circulating supply -/

inductive SupplyQuery
  | getJettonData
  | getBalance
  | getContractState
  deriving DecidableEq

/-- The total supply, the balance, the state of the account. -/
abbrev SupplyQuery.Ans : SupplyQuery → Type
  | .getJettonData => ℤ
  | .getBalance => ℤ
  | .getContractState => String

abbrev SupplyProg := TonProg SupplyQuery SupplyQuery.Ans

section

open TonOp

/-- `this.clients[(this.idx + i) % this.clients.length]`. -/
def otherClient (clients i : ℕ) : SupplyProg ℕ := do
  let idx ← askIndex
  return (idx + i) % clients

/-- `wallet` is the gateway's jetton wallet. -/
def confirmZeroHeld (clients : ℕ) (wallet : String) : SupplyProg Unit :=
  Prog.forEach (fun i => do
    let other ← otherClient clients i
    let second ← TonOp.ask other .getBalance
    if second ≠ 0 then do
      let idx ← askIndex
      throw (s!"held-balance disagreement for {wallet}: endpoint[{idx}] read 0, " ++
        s!"another endpoint read {second} — refusing to treat the zero as a real reserve drop")
    else return ()) (List.range' 1 (clients - 1))

/-- What follows a failed read of the held balance, once the error is not transient. -/
def confirmInactive (clients : ℕ) (err : String) : SupplyProg Unit := do
  let current ← client
  let state ← TonOp.ask current .getContractState
  if state = "active" then throw err
  else Prog.forEach (fun i => do
    let other ← otherClient clients i
    let second ← TonOp.ask other .getContractState
    if second = "active" then throw err else return ()) (List.range' 1 (clients - 1))

/-- The supply that is not held, from the outcome of the read of the held balance. -/
def supplyFromHeld (clients : ℕ) (wallet : String) (total : ℤ) : Except String ℤ → SupplyProg ℤ
  | .error err =>
    if isTransientTonError err = true then throw err
    else do
      confirmInactive clients err
      return max total 0
  | .ok held =>
    (if held = 0 then confirmZeroHeld clients wallet else pure ()) >>= fun _ =>
      return max (total - held) 0

/-- The read of `circulatingSupplyMilliViz`, run again on each endpoint it comes to. -/
def readSupply (clients : ℕ) (frozenMilliViz : ℤ) (gatewayWallet : Option String) :
    SupplyProg ℤ := do
  let master ← client
  let totalSupply ← TonOp.ask master .getJettonData
  match gatewayWallet with
  | none => return max (totalSupply - frozenMilliViz) 0
  | some wallet =>
    let current ← client
    (TonOp.ask current .getBalance).handle
      (supplyFromHeld clients wallet (totalSupply - frozenMilliViz))

def circulatingSupplyMilliViz (clients : ℕ) (frozenMilliViz : ℤ) (gatewayWallet : Option String) :
    SupplyProg ℤ :=
  tonCall clients (readSupply clients frozenMilliViz gatewayWallet)

end

/-- The read of `finalizedHeight`: `getMasterchainInfo` has the sequence number of the last block. -/
def readHeight : TonProg Unit (fun _ => ℕ) ℕ := do
  let current ← client
  TonOp.ask current ()

def finalizedHeight (clients : ℕ) : TonProg Unit (fun _ => ℕ) ℕ := tonCall clients readHeight

/-! ## A read alone -/

/-- The endpoints as they answer, each request moving the state they answer from. -/
structure TonEndpoints (Q : Type) (A : Q → Type) (E : Type) where
  answer : E → ℕ → (q : Q) → E × Except String (A q)

/-- A read that shares its object with nobody: the index and the endpoints. -/
def TonEndpoints.exec {Q : Type} {A : Q → Type} {E : Type} (net : TonEndpoints Q A E)
    (clients : ℕ) : (o : TonOp Q) → ℕ × E → (ℕ × E) × Except String (TonOp.Ans A o)
  | .index, s => (s, .ok s.1)
  | .rotate, s => (((s.1 + 1) % clients, s.2), .ok ())
  | .sleep _, s => (s, .ok ())
  | .request endpoint q, s =>
    ((s.1, (net.answer s.2 endpoint q).1), (net.answer s.2 endpoint q).2)

/-! ## Reads that share their object -/

/-- What an endpoint says when it is up, and the transient error it gives when it is down. -/
structure TonInput (Q : Type) (A : Q → Type) where
  answer : (q : Q) → A q
  err : String
  transient : isTransientTonError err = true

/-- One operation on a shared index, some endpoints up throughout and the others down. -/
def ringExec {Q : Type} {A : Q → Type} (clients : ℕ) (up : ℕ → Prop) [DecidablePred up] :
    (o : TonOp Q) → TonInput Q A → ℕ → ℕ × Except String (TonOp.Ans A o)
  | .index, _, idx => (idx, .ok idx)
  | .rotate, _, idx => ((idx + 1) % clients, .ok ())
  | .sleep _, _, idx => (idx, .ok ())
  | .request endpoint q, i, idx => (idx, if up endpoint then .ok (i.answer q) else .error i.err)

/-- Any number of reads under way on one object. One operation is carried out at a time: the runtime
does several in a row, so whatever it does is one of these runs. -/
def tonReads {Q : Type} {A : Q → Type} {ρ : Type} {Out : ρ → Type} (clients : ℕ) (up : ℕ → Prop)
    [DecidablePred up] (fn : (r : ρ) → TonProg Q A (Out r)) :
    SessionSystem (TonOp Q) (TonOp.Ans A) String ℕ ρ Out (TonInput Q A) where
  body r := tonCall clients (fn r)
  exec := ringExec clients up

end VizGateway
