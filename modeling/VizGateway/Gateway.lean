import VizGateway.Coordinator
import VizGateway.DispatcherWorld

/-!
# The gateway at work

Dispatcher turns, `/submit` handlers and the boot-time redirect run side by side on one outbox and
three chains. Any call may throw, go through although it threw, or read a node that lags; any
program may die at any await; requests and answers are lost or late. What was read, asked and
answered is kept in a log beside the state, for the statements only.
-/

namespace VizGateway

open ActionStatus

/-- What the remote networks derive from what they are given: an order's address is a function of
its number, a transaction's signature of the transaction. -/
structure RemoteNets where
  orderAddress : ℕ → String
  orderAddress_inj : Function.Injective orderAddress
  orderAddress_ne : ∀ n, orderAddress n ≠ ""
  signature : SolanaMessage → String
  signature_inj : Function.Injective signature

/-- A deployed order, with the action whose proposal its opener held. -/
structure GramOrder where
  body : OrderBody
  actionId : Option String
  executed : Bool := false
  deriving DecidableEq

structure SolanaTx where
  message : SolanaMessage
  ok : Bool
  deriving DecidableEq

/-- What happened between the programs and the outside. -/
inductive Fact
  /-- The dispatcher was handed a row. -/
  | handed (rec : OutboxRecord)
  /-- The row of an id held this `txid` when it was read, or got it. -/
  | pinned (id txid : String)
  | feePinned (id : String) (feeMilliViz : ℤ)
  | feeLost (id : String)
  /-- A call that the action's proposal is built with threw. -/
  | callFailed (id : String)
  | received (rec : OutboxRecord)
  | answered (rec : OutboxRecord) (result : DeliveryResult)
  | provisioned (chain : RemoteChainId) (id : String) (flag : Bool)
  | nonce (id value : String)
  | asked (action : CanonicalAction) (proposal : Proposal)
  /-- The order at an address was found executed on behalf of an action. -/
  | executed (id orderAddr : String)
  | sent (id : String) (tx : SolanaMintTx)
  /-- A poll found the signature confirmed. -/
  | mintConfirmed (id signature : String)
  /-- The last poll for the signature found no status. -/
  | pollsOver (id signature : String)
  /-- A scan for an action's mint was given this signature, without an error. -/
  | clean (id signature : String)
  | parsed (id signature : String) (message : SolanaMessage)
  | releaseFound (id txid : String)
  deriving DecidableEq

structure GatewayState where
  outbox : Outbox := .empty
  /-- The directives already applied. -/
  applied : List String := []
  /-- The coordinator's memory of release bodies. -/
  pins : List (String × VizReleaseProposal) := []
  requests : List OutboxRecord := []
  responses : List (OutboxRecord × DeliveryResult) := []
  orders : List GramOrder := []
  solanaPool : List SolanaMessage := []
  solana : List SolanaTx := []
  vizPool : List VizReleaseProposal := []
  viz : List VizReleaseProposal := []
  log : List Fact := []

namespace GatewayState

variable (N : RemoteNets) (L : Libs) (s : GatewayState)

def note (facts : List Fact) : GatewayState := { s with log := facts ++ s.log }

def orderAt (addr : String) : Option GramOrder :=
  s.orders.zipIdx.findSome? fun x => if N.orderAddress x.2 = addr then some x.1 else none

def solanaAt (signature : String) : Option SolanaTx :=
  s.solana.find? fun t => N.signature t.message = signature

def releaseLanded (txid : String) : Bool :=
  s.viz.any fun p => releaseTxId L p.toJson = some txid

end GatewayState

/-- How one call comes out. -/
structure GatewayInput where
  clock : ℤ := 0
  fails : Option String := none
  /-- A call that throws may have gone through. -/
  goesThrough : Bool := false
  /-- The node does not show yet what happened. -/
  lags : Bool := false
  flag : Bool := false
  text : String := ""
  pick : ℕ := 0
  window : List ℕ := []
  signers : List String := []
  reply : SignerReply := ⟨"", "", ""⟩
  refBlockNum : ℕ := 0
  refBlockPrefix : ℕ := 0

namespace GatewayInput

variable {α : Type} (i : GatewayInput)

/-- The answer, unless the call throws. -/
def answer (a : α) : Except String α := i.fails.elim (.ok a) .error

/-- Whether the call has its effect. -/
def effective : Bool := i.fails.isNone || i.goesThrough

end GatewayInput

/-- A store call at its own clock; one that throws has changed nothing. -/
def StoreOp.carry (o : StoreOp) (i : GatewayInput) (s : Outbox) : Outbox × Except String o.Ans :=
  match i.fails with
  | some e => (s, .error e)
  | none => ((o.exec i.clock s).1, .ok (o.exec i.clock s).2)

section

variable (N : RemoteNets) (L : Libs)

/-- The status a node reports. -/
def signatureStatus (i : GatewayInput) (s : GatewayState) (signature : String) : SignatureStatus :=
  if i.lags then .unknown
  else match s.solanaAt N signature with
    | none => .unknown
    | some t => if t.ok then .confirmed else .failed

namespace GatewayOp

/-- One call: what it does to the state and what it answers. -/
def run : (o : GatewayOp) → GatewayInput → GatewayState → GatewayState × Except String o.Ans
  | store o, i, s =>
    let r := o.carry i s.outbox
    ({ s with outbox := r.1 }, r.2)
  | dateNow, i, s => (s, .ok i.clock)
  | post rec, i, s =>
    (if i.effective then { s with requests := s.requests ++ [rec] } else s, i.answer ())
  | await rec, i, s =>
    match i.fails, s.responses[i.pick]? with
    | some e, _ => (s, .error e)
    | none, some (rec', result) =>
      if rec' = rec then ({ s with responses := s.responses.eraseIdx i.pick }, .ok result)
      else (s, .error "The operation was aborted due to timeout")
    | none, none => (s, .error "The operation was aborted due to timeout")
  | receive rec, _, s =>
    if rec ∈ s.requests then ({ s with requests := s.requests.erase rec }, .ok ())
    else (s, .error "no request")
  | respond rec result, _, s => ({ s with responses := s.responses ++ [(rec, result)] }, .ok ())
  | liveSigners, i, s => (s, .ok i.signers)
  | isDestinationProvisioned .., i, s => (s, i.answer i.flag)
  | nextOrderAddress _, i, s =>
    (s, i.answer ⟨N.orderAddress s.orders.length, s.orders.length.repr⟩)
  | orderExecuted _ addr, i, s =>
    (s, i.answer (!i.lags && (s.orderAt N addr).any (·.executed)))
  | beforeDeadline, i, s => (s, .ok i.flag)
  | getNonce _, i, s => (s, i.answer i.text)
  | approve .., i, s => (s, i.answer i.reply)
  | sendRawTransaction _ tx, i, s =>
    let message := SolanaMessage.mint tx
    (if i.effective then { s with solanaPool := s.solanaPool ++ [message] } else s,
      i.answer (N.signature message))
  | getSignatureStatus _ signature _, i, s => (s, i.answer (signatureStatus N i s signature))
  | getSignaturesForAddress _, i, s =>
    (s, i.answer ((i.window.filterMap (s.solana[·]?)).map fun t => ⟨N.signature t.message, !t.ok⟩))
  | getParsedTransaction _ signature, i, s =>
    (s, i.answer (if i.lags then none else (s.solanaAt N signature).map (·.message)))
  | getPin id, _, s => (s, .ok ((s.pins.find? (·.1 = id)).map (·.2)))
  | setPin id p, _, s => ({ s with pins := (id, p) :: s.pins.filter (·.1 ≠ id) }, .ok ())
  | deletePin id, _, s => ({ s with pins := s.pins.filter (·.1 ≠ id) }, .ok ())
  | buildReleaseProposal action account, i, s =>
    (s, i.answer
      { refBlockNum := i.refBlockNum, refBlockPrefix := i.refBlockPrefix, expiration := i.text
        sender := account, receiver := action.recipient
        amount := milliToViz action.amountMilliViz, memo := action.id })
  | activeAuthority _, i, s => (s, i.answer ())
  | broadcastTransaction _ p, i, s =>
    (if i.effective then { s with vizPool := s.vizPool ++ [p] } else s, i.answer ())
  | confirmReleaseByTxId _ txid, i, s => (s, .ok (!i.lags && s.releaseLanded L txid))
  | getState parentId, i, s => (s, i.answer (decide (parentId ∈ s.applied)))
  | setState parentId, i, s =>
    (if i.fails.isNone then { s with applied := parentId :: s.applied } else s, i.answer ())

/-- What an answered call is remembered by. -/
def facts : (o : GatewayOp) → Except String o.Ans → List Fact
  | store (.get id), .ok (rec : Option OutboxRecord) =>
    ((rec.bind (·.txid)).map (Fact.pinned id)).toList
  | store (.due ..), .ok (rows : List OutboxRecord) => rows.map .handed
  | store (.stale ..), .ok (rows : List OutboxRecord) => rows.map .handed
  | store (.setStatus id _ patch), .ok _ => (patch.txid.join.map (Fact.pinned id)).toList
  | store (.setFee id fee), .ok _ => [.feePinned id fee]
  | store (.setFee id _), .error _ => [.feeLost id]
  | store (.get id), .error _ => [.callFailed id]
  | store (.setStatus id ..), .error _ => [.callFailed id]
  | isDestinationProvisioned _ id _, .error _ => [.callFailed id]
  | nextOrderAddress id, .error _ => [.callFailed id]
  | getNonce id, .error _ => [.callFailed id]
  | receive rec, .ok _ => [.received rec]
  | respond rec result, _ => [.answered rec result]
  | isDestinationProvisioned chain id _, .ok (flag : Bool) => [.provisioned chain id flag]
  | orderExecuted id addr, .ok (executed : Bool) => if executed then [.executed id addr] else []
  | getNonce id, .ok (value : String) => [.nonce id value]
  | approve _ action proposal _, _ => [.asked action proposal]
  | sendRawTransaction id tx, _ => [.sent id tx]
  | getSignatureStatus id signature _, .ok .confirmed => [.mintConfirmed id signature]
  | getSignatureStatus id signature 0, .ok .unknown => [.pollsOver id signature]
  | getSignaturesForAddress id, .ok (sigs : List SignatureInfo) =>
    (sigs.filter (!·.err)).map fun x => .clean id x.signature
  | getParsedTransaction id signature, .ok (tx : Option SolanaMessage) =>
    (tx.map (Fact.parsed id signature)).toList
  | confirmReleaseByTxId id txid, .ok (found : Bool) =>
    if found then [.releaseFound id txid] else []
  | _, _ => []

def exec (o : GatewayOp) (i : GatewayInput) (s : GatewayState) :
    GatewayState × Except String o.Ans :=
  ((o.run N L i s).1.note (o.facts (o.run N L i s).2), (o.run N L i s).2)

end GatewayOp

/-! ## The outside -/

/-- Which writes are a watcher's or the scanner's: a deposit's id has a colon and a burn's none,
the coordinator writes through its handlers, and only the scanner's own claims are checkpointed. -/
def OutboxWrite.ofWatcher (s : Outbox) : OutboxWrite → Bool
  | detect input =>
    input.feeMilliViz.isNone && input.parentId.isNone
      && (Text.hasChar input.id ':' == decide (input.direction = .pegIn))
  | checkpoint id _ => (s.get id).all (·.direction = .pegOut)
  | pin .. => false
  | setFee .. => false
  | _ => true

/-- The body a signer rebuilds from the proposal it is asked to approve. -/
def orderBodyOf (action : CanonicalAction) (p : GramOrderProposal) : Option OrderBody :=
  (L.addressParse p.toAddress).map fun a =>
    if action.direction = .known .gramReturn then .giveBack a p.amountMilliViz
    else .mint a p.amountMilliViz

inductive GatewayAct
  | write (clock : ℤ) (w : OutboxWrite)
  /-- An operator that was asked opens the order: it takes the next number. -/
  | openOrder (action : CanonicalAction) (p : GramOrderProposal)
  /-- Another proposer's order. -/
  | openOther (body : OrderBody)
  | executeOrder (n : ℕ)
  | landSolana (n : ℕ) (ok : Bool)
  | dropSolana (n : ℕ)
  /-- Someone's transaction that mentions the mint. -/
  | otherSolana (raw : String) (memo : Option String) (ok : Bool)
  | landViz (n : ℕ)
  | dropViz (n : ℕ)
  /-- The coordinator's memory is lost. -/
  | forget

def GatewayAct.apply (s : GatewayState) : GatewayAct → GatewayState
  | write clock w =>
    if w.ofWatcher s.outbox && w.fits s.outbox then { s with outbox := w.apply clock s.outbox }
    else s
  | openOrder action p =>
    match orderBodyOf L action p with
    | some body =>
      if Fact.asked action (.order p) ∈ s.log then
        { s with orders := s.orders ++ [{ body, actionId := some action.id }] }
      else s
    | none => s
  | openOther body => { s with orders := s.orders ++ [{ body, actionId := none }] }
  | executeOrder n =>
    { s with orders := s.orders.modify n fun o => { o with executed := true } }
  | landSolana n ok =>
    match s.solanaPool[n]? with
    | some message =>
      { s with solanaPool := s.solanaPool.eraseIdx n, solana := s.solana ++ [⟨message, ok⟩] }
    | none => s
  | dropSolana n => { s with solanaPool := s.solanaPool.eraseIdx n }
  | otherSolana raw memo ok => { s with solana := s.solana ++ [⟨.other raw memo, ok⟩] }
  | landViz n =>
    match s.vizPool[n]? with
    | some p => { s with vizPool := s.vizPool.eraseIdx n, viz := s.viz ++ [p] }
    | none => s
  | dropViz n => { s with vizPool := s.vizPool.eraseIdx n }
  | forget => { s with pins := [] }

/-- The programs that can be started. -/
inductive GatewayJob
  | turn
  | submit (rec : OutboxRecord)
  | redirect
  deriving DecidableEq

structure GatewayConfig where
  dispatcher : DispatcherOpts
  coordinator : CoordinatorConfig

def GatewayJob.body (cfg : GatewayConfig) : GatewayJob → GatewayM Unit
  | turn => (Dispatcher.turn cfg.dispatcher).translate Gateway.fetch
  | submit rec => handleSubmit L cfg.coordinator rec
  | redirect => applySourceHintResolutions cfg.coordinator

def gatewaySystem (cfg : GatewayConfig) :
    PoolSystem (GatewayJob × GatewayOp) (fun x => x.2.Ans) String GatewayState GatewayJob
      GatewayInput GatewayAct where
  body job := (job.body L cfg).tag job
  exec x i s := x.2.exec N L i s
  act a s := a.apply L s

end

abbrev GatewayWorld := Pool (GatewayJob × GatewayOp) (fun x => x.2.Ans) String GatewayState

abbrev GatewayEvent := PoolEvent GatewayJob GatewayInput GatewayAct

def GatewayWorld.init : GatewayWorld := ⟨{}, []⟩

end VizGateway
