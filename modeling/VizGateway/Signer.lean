import VizGateway.ReplayLedger

/-!
# The signer

`/approve` gates a request against the replay ledger, routes it by direction first and proposal
shape second, re-validates the source event and the proposal, and only then signs or approves. An
approval is recorded with the effect it authorises.
-/

namespace VizGateway

open Checks Text

/-- What an approval authorises: the signed bytes of a VIZ release, the body of the multisig order
at an address, or a compiled Solana message. -/
inductive Effect
  | vizRelease (bytes : List UInt8)
  | gramOrder (orderAddr : TonAddress) (body : OrderBody)
  | solanaMint (messageB64 : String)
  deriving DecidableEq, Repr

structure Approval where
  actionId : String
  operatorId : String
  effect : Effect
  deriving DecidableEq, Repr

structure SolanaPins where
  mint : String
  multisig : String
  nonceAccount : String
  feePayer : Option String
  deriving DecidableEq, Repr

structure SignerConfig where
  operatorId : String
  deps : SourceValidatorDeps
  vizWif : String
  solanaPins : Option SolanaPins
  /-- The member key behind `solanaSecret`, if one is set. -/
  solanaMember : Option String
  hasGramApprover : Bool

/-! ## Approving on the multisig -/

structure OrderData where
  orderHash : Option String
  executed : Bool
  approvals : List Bool
  deriving DecidableEq, Repr

/-- What the operator's approver reads of the multisig in one call, sends included. -/
structure OrderView where
  /-- This wallet's place in the signer set. -/
  myIdx : Except String (Option ℕ)
  inited : TonAddress → Except String Bool
  /-- The address of the next order. -/
  liveNext : Except String TonAddress
  sendNewOrder : Except String Unit
  /-- Whether the order appears before the deadline. -/
  waitForOrderInited : TonAddress → Except String Unit
  orderData : TonAddress → Except String OrderData
  sendApprove : Except String Unit
  waitForApproval : TonAddress → Except String Unit

inductive TonApprovalRole
  | propose
  | approve
  | already
  | executed
  deriving DecidableEq, Repr

/-- The approval of an order that exists: its deployed body must hash to the validated one. -/
def approveExisting (ov : OrderView) (orderAddr : TonAddress) (myIdx : ℕ) (expectedHex : String) :
    Except String TonApprovalRole := do
  let od ← ov.orderData orderAddr
  require (od.orderHash = some expectedHex)
    s!"TON on-chain order body does not match validated action: expected {expectedHex}"
  if od.executed then return .executed
  else if od.approvals.getD myIdx false then return .already
  else
    ov.sendApprove
    ov.waitForApproval orderAddr
    return .approve

/-- Open the order if it is absent and next, wait for it if it is absent and not next, and approve
it if it exists. -/
def sendOrApprove (ov : OrderView) (orderAddr : TonAddress) (expectedHex : String) :
    Except String TonApprovalRole := do
  let idx? ← ov.myIdx
  let myIdx ← found idx? "TON approve: operator wallet is not in the multisig signer set"
  let inited ← ov.inited orderAddr
  if inited then approveExisting ov orderAddr myIdx expectedHex
  else
    let liveNext ← ov.liveNext
    if liveNext = orderAddr then
      ov.sendNewOrder
      ov.waitForOrderInited orderAddr
      return .propose
    else
      ov.waitForOrderInited orderAddr
      approveExisting ov orderAddr myIdx expectedHex

/-- Everything one request is answered from: the nodes, the multisig and the pause flag. -/
structure RequestView where
  nodes : NodeView
  orders : OrderView
  pausedReason : Option String

/-! ## Signing -/

/-- `buildMintTx`. -/
def buildMintTx (p : JsonObject) (amount : ℤ) : SolanaMintTx where
  feePayer := p.get "feePayer"
  nonceAccount := p.get "nonceAccount"
  recentBlockhash := p.get "nonceValue"
  recipient := p.get "recipient"
  mint := p.get "mint"
  multisig := p.get "multisig"
  amount := amount
  multiSigners := p.get "signers"
  memo := if jsTruthy (p.get "actionId") then p.get "actionId" else none

/-- `mintMessageB64`. -/
def mintMessageB64 (L : Libs) (p : JsonObject) : Option String := do
  let amount ← bigIntOf (p.get "amountMilliViz")
  L.serializeMessage (buildMintTx p amount)

/-- `p.signers.includes(member)`. -/
def signersInclude (p : JsonObject) (member : String) : Bool :=
  match p.get "signers" with
  | some (.strs items) => items.contains member
  | _ => false

section

variable (L : Libs) (cfg : SignerConfig) (view : RequestView)

/-- The net of a peg-in under the proposal's flag. -/
def derivedNet (fees : GatewayFeeConfig) (chain : RemoteChainId) (gross : ℤ) (flag : Bool) : ℤ :=
  gross - baseFee gross (pegInFeePolicyFor fees chain)
    - activationFee flag (pegInFeePolicyFor fees chain)

def assertNet (action : CanonicalAction) (chain : RemoteChainId) (p : JsonObject) :
    Except String Unit := do
  let net := derivedNet cfg.deps.fees chain action.amountMilliViz
    (jsTruthy (p.get "destProvisioned"))
  require (0 < net) s!"net <= 0 for {action.id} (gross {action.amountMilliViz})"
  require (p.get "amountMilliViz" = some (.str (bigintText net)))
    s!"proposal net != derived net ({net}) for {action.id}"

/-- The account backing the action's chain. -/
def expectedFrom (accounts : GatewayAccounts) (action : CanonicalAction) : Except String String :=
  match action.remoteChain with
  | none => .error s!"release {action.id} missing remoteChain — cannot verify from-account"
  | some (.other raw) => .error s!"[gateway-accounts] no backing account for chain {raw}"
  | some (.known c) => .ok (accounts.accountFor c)

def signVizRelease (action : CanonicalAction) (p : JsonObject) (hint : Option ℕ) :
    Except String Effect := do
  require (action.direction = .known .pegOut) "signVizRelease expects a PEG_OUT action"
  validateAction L cfg.deps view.nodes action hint
  let expectedFrom ← expectedFrom cfg.deps.reader.accounts action
  require (p.get "from" = some (.str expectedFrom))
    s!"proposal.from != expected backing account {expectedFrom} ({action.id})"
  require (p.get "to" = some (.str action.recipient))
    s!"proposal.to != action.recipient ({action.recipient})"
  require (p.get "amount" = some (.str (milliToViz action.amountMilliViz)))
    s!"proposal.amount != action amount ({milliToViz action.amountMilliViz})"
  require (p.get "memo" = some (.str action.id)) s!"proposal.memo != action.id ({action.id})"
  require (cfg.vizWif ≠ "") "VIZ signing key (WIF) not set; refusing to sign"
  let bytes ← found (L.toBuffer (buildReleaseTx p)) "unserializable release proposal"
  return .vizRelease bytes

/-- `Address.parse` of a proposal's field. -/
def parsedAddress (p : JsonObject) (field : String) : Except String TonAddress :=
  match p.get field with
  | some (.str s) => found (L.addressParse s) s!"Unknown address type: {s}"
  | _ => .error "Unknown address type"

/-- The approver's own part: the rebuilt body must hash to the proposal's, then the order at the
pinned address is opened or approved. -/
def approveOrder (p : JsonObject) (body : OrderBody) : Except String Effect := do
  let hashHex ← found (L.orderHash body) "unpackable order"
  require (p.get "orderHashHex" = some (.str hashHex))
    s!"TON order hash mismatch: rebuilt {hashHex} != proposal"
  let orderAddr ← parsedAddress L p "orderAddr"
  let _ ← sendOrApprove view.orders orderAddr hashHex
  return .gramOrder orderAddr body

def approveGramMint (action : CanonicalAction) (p : JsonObject) (hint : Option ℕ) :
    Except String Effect := do
  require (action.direction = .known .pegIn) "approveGramMint expects a PEG_IN action"
  validateAction L cfg.deps view.nodes action hint
  require (p.get "toAddress" = some (.str action.recipient))
    s!"proposal.toAddress != action.recipient ({action.recipient})"
  assertNet cfg action .gram p
  require (cfg.hasGramApprover = true)
    "GRAM approver not configured on this signer; refusing to approve"
  let toAddr ← parsedAddress L p "toAddress"
  let amount ← found (bigIntOf (p.get "amountMilliViz")) "Cannot convert to a BigInt"
  approveOrder L view p (.mint toAddr amount)

def approveGramReturn (action : CanonicalAction) (p : JsonObject) (hint : Option ℕ) :
    Except String Effect := do
  require (action.direction = .known .gramReturn) "approveGramReturn expects a GRAM_RETURN action"
  validateAction L cfg.deps view.nodes action hint
  require (p.get "toAddress" = some (.str action.recipient))
    s!"proposal.toAddress != action.recipient ({action.recipient})"
  let amount ← found (bigIntOf (p.get "amountMilliViz")) "Cannot convert to a BigInt"
  require (amount = action.amountMilliViz)
    s!"proposal amount ({amount}) != action amount ({action.amountMilliViz}) for {action.id}"
  require (cfg.hasGramApprover = true)
    "GRAM approver not configured on this signer; refusing to approve"
  let toAddr ← parsedAddress L p "toAddress"
  approveOrder L view p (.giveBack toAddr amount)

/-- The pinned Solana accounts, each against the proposal's; without pins, nothing. -/
def assertPins (cfgPins : Option SolanaPins) (action : CanonicalAction) (p : JsonObject) :
    Except String Unit :=
  match cfgPins with
  | none => .ok ()
  | some pins => do
    require (p.get "mint" = some (.str pins.mint))
      s!"proposal.mint != signer-configured mint ({pins.mint}) for {action.id}"
    require (p.get "multisig" = some (.str pins.multisig))
      s!"proposal.multisig != signer-configured multisig ({pins.multisig}) for {action.id}"
    require (p.get "nonceAccount" = some (.str pins.nonceAccount))
      s!"proposal.nonceAccount != signer-configured nonceAccount ({pins.nonceAccount}) for {action.id}"
    require (pins.feePayer.all fun feePayer => p.get "feePayer" = some (.str feePayer))
      s!"proposal.feePayer != signer-configured feePayer for {action.id}"

def approveSolanaMint (action : CanonicalAction) (p : JsonObject) (hint : Option ℕ) :
    Except String Effect := do
  require (action.direction = .known .pegIn) "approveSolanaMint expects a PEG_IN action"
  validateAction L cfg.deps view.nodes action hint
  assertPins cfg.solanaPins action p
  require (p.get "recipient" = some (.str action.recipient))
    s!"proposal.recipient != action.recipient ({action.recipient})"
  assertNet cfg action .solana p
  let member ← found cfg.solanaMember "Solana signer secret not set; refusing to sign"
  let message ← found (mintMessageB64 L p) "unserializable mint proposal"
  require (p.get "messageB64" = some (.str message))
    "rebuilt mint message != proposal.messageB64; refusing to sign"
  require (signersInclude p member = true)
    s!"signer {member} is not in the proposal multisig signer set"
  return .solanaMint message

/-! ## Routing -/

/-- The chain the action carries, if it is not this one. -/
def otherChain (action : CanonicalAction) (chain : RemoteChainId) : Bool :=
  action.remoteChain ≠ none ∧ action.remoteChain ≠ some (.known chain)

/-- By direction first, by proposal shape second. -/
def routeApproval (action : CanonicalAction) (p : JsonObject) (hint : Option ℕ) :
    Except String Effect :=
  if action.direction = .known .gramReturn then
    if isGramMintProposal p = false then
      .error s!"GRAM_RETURN proposal shape not recognized for {action.id}"
    else approveGramReturn L cfg view action p hint
  else if action.direction = .known .pegOut then signVizRelease L cfg view action p hint
  else if isSolanaMintProposal p then
    if otherChain action .solana then .error s!"Solana proposal for another chain ({action.id})"
    else approveSolanaMint L cfg view action p hint
  else if isGramMintProposal p then
    if otherChain action .gram then .error s!"GRAM proposal for another chain ({action.id})"
    else approveGramMint L cfg view action p hint
  else .error
    s!"PEG_IN proposal shape not recognized (neither GRAM nor Solana) for {action.id}"

/-! ## The endpoint -/

structure ApproveRequest where
  action : WireAction
  proposal : JsonObject
  sourceBlockNum : Option Json
  deriving DecidableEq, Repr

/-- The untrusted block hint: a positive integer or nothing. -/
def hintFromRequest (req : ApproveRequest) : Option ℕ :=
  match req.sourceBlockNum with
  | some (.num n) => if 0 < n then some n.toNat else none
  | _ => none

/-- One `/approve` request, with no other in between: the outcome and the ledger after it. A claim
stands even when what follows it refuses. -/
def approve (m : SignedProposals) (req : ApproveRequest) :
    Except String Approval × SignedProposals :=
  match view.pausedReason with
  | some reason => (.error s!"paused: {reason}", m)
  | none =>
    match actionFromWire req.action with
    | none => (.error "Cannot convert to a BigInt", m)
    | some action =>
      match assertNotReplay L view.nodes.viz m action.id req.proposal with
      | .error e => (.error e, m)
      | .ok m' =>
        ((routeApproval L cfg view action req.proposal (hintFromRequest req)).map fun effect =>
          { actionId := action.id, operatorId := cfg.operatorId, effect }, m')

end

/-! ## What an approval vouches for -/

section

variable {L : Libs} {cfg : SignerConfig} {view : RequestView} {action : CanonicalAction}
  {p : JsonObject} {hint : Option ℕ} {effect : Effect}

theorem expectedFrom_eq_ok {accounts : GatewayAccounts} {a : String}
    (h : expectedFrom accounts action = .ok a) :
    ∃ c, action.remoteChain = some (.known c) ∧ a = accounts.accountFor c := by
  unfold expectedFrom at h
  split at h
  · simp at h
  · simp at h
  · next c hc => exact ⟨c, hc, (Except.ok.inj h).symm⟩

theorem signVizRelease_eq_ok (h : signVizRelease L cfg view action p hint = .ok effect) :
    action.direction = .known .pegOut
      ∧ validateAction L cfg.deps view.nodes action hint = .ok ()
      ∧ (∃ c, action.remoteChain = some (.known c)
          ∧ p.get "from" = some (.str (cfg.deps.reader.accounts.accountFor c)))
      ∧ p.get "to" = some (.str action.recipient)
      ∧ p.get "amount" = some (.str (milliToViz action.amountMilliViz))
      ∧ p.get "memo" = some (.str action.id)
      ∧ ∃ bytes, L.toBuffer (buildReleaseTx p) = some bytes ∧ effect = .vizRelease bytes := by
  unfold signVizRelease at h
  simp only [bind_eq_ok, require_eq_ok, found_eq_ok, pure_eq_ok] at h
  obtain ⟨-, hdir, _, hval, exp, hexp, -, hfrom, -, hto, -, hamt, -, hmemo, -, -, bytes, hb, he⟩ := h
  obtain ⟨c, hc, rfl⟩ := expectedFrom_eq_ok hexp
  exact ⟨hdir, hval, ⟨c, hc, hfrom⟩, hto, hamt, hmemo, bytes, hb, he.symm⟩

theorem parsedAddress_eq_ok {field : String} {a : TonAddress}
    (h : parsedAddress L p field = .ok a) :
    ∃ s, p.get field = some (.str s) ∧ L.addressParse s = some a := by
  unfold parsedAddress at h
  split at h
  · next s hs =>
    rw [found_eq_ok] at h
    exact ⟨s, hs, h⟩
  · simp at h

theorem approveOrder_eq_ok {body : OrderBody} (h : approveOrder L view p body = .ok effect) :
    ∃ hash s orderAddr, L.orderHash body = some hash
      ∧ p.get "orderHashHex" = some (.str hash) ∧ p.get "orderAddr" = some (.str s)
      ∧ L.addressParse s = some orderAddr ∧ effect = .gramOrder orderAddr body := by
  unfold approveOrder at h
  simp only [bind_eq_ok, require_eq_ok, found_eq_ok, pure_eq_ok] at h
  obtain ⟨hash, hhash, -, hp, orderAddr, haddr, role, -, he⟩ := h
  obtain ⟨s, hs, hparse⟩ := parsedAddress_eq_ok haddr
  exact ⟨hash, s, orderAddr, hhash, hp, hs, hparse, he.symm⟩

theorem assertNet_eq_ok {chain : RemoteChainId} (h : assertNet cfg action chain p = .ok ()) :
    0 < derivedNet cfg.deps.fees chain action.amountMilliViz (jsTruthy (p.get "destProvisioned"))
      ∧ p.get "amountMilliViz" = some (.str (bigintText
          (derivedNet cfg.deps.fees chain action.amountMilliViz
            (jsTruthy (p.get "destProvisioned"))))) := by
  unfold assertNet at h
  simp only [bind_eq_ok, require_eq_ok] at h
  obtain ⟨-, hpos, hnet⟩ := h
  exact ⟨hpos, hnet⟩

theorem approveGramMint_eq_ok (h : approveGramMint L cfg view action p hint = .ok effect) :
    action.direction = .known .pegIn
      ∧ validateAction L cfg.deps view.nodes action hint = .ok ()
      ∧ p.get "toAddress" = some (.str action.recipient)
      ∧ assertNet cfg action .gram p = .ok ()
      ∧ ∃ toAddr amount, L.addressParse action.recipient = some toAddr
          ∧ bigIntOf (p.get "amountMilliViz") = some amount
          ∧ approveOrder L view p (.mint toAddr amount) = .ok effect := by
  unfold approveGramMint at h
  simp only [bind_eq_ok, require_eq_ok, found_eq_ok] at h
  obtain ⟨-, hdir, _, hval, -, hto, _, hnet, -, -, toAddr, haddr, amount, hamt, ho⟩ := h
  obtain ⟨s, hs, hparse⟩ := parsedAddress_eq_ok haddr
  rw [hto, Option.some.injEq, Json.str.injEq] at hs
  subst hs
  exact ⟨hdir, hval, hto, hnet, toAddr, amount, hparse, hamt, ho⟩

theorem approveGramReturn_eq_ok (h : approveGramReturn L cfg view action p hint = .ok effect) :
    action.direction = .known .gramReturn
      ∧ validateAction L cfg.deps view.nodes action hint = .ok ()
      ∧ ∃ toAddr, L.addressParse action.recipient = some toAddr
          ∧ approveOrder L view p (.giveBack toAddr action.amountMilliViz) = .ok effect := by
  unfold approveGramReturn at h
  simp only [bind_eq_ok, require_eq_ok, found_eq_ok] at h
  obtain ⟨-, hdir, _, hval, -, hto, amount, -, -, rfl, -, -, toAddr, haddr, ho⟩ := h
  obtain ⟨s, hs, hparse⟩ := parsedAddress_eq_ok haddr
  rw [hto, Option.some.injEq, Json.str.injEq] at hs
  subst hs
  exact ⟨hdir, hval, toAddr, hparse, ho⟩

theorem approveSolanaMint_eq_ok (h : approveSolanaMint L cfg view action p hint = .ok effect) :
    action.direction = .known .pegIn
      ∧ validateAction L cfg.deps view.nodes action hint = .ok ()
      ∧ p.get "recipient" = some (.str action.recipient)
      ∧ assertNet cfg action .solana p = .ok ()
      ∧ ∃ message, mintMessageB64 L p = some message
          ∧ p.get "messageB64" = some (.str message) ∧ effect = .solanaMint message := by
  unfold approveSolanaMint at h
  simp only [bind_eq_ok, require_eq_ok, found_eq_ok, pure_eq_ok] at h
  obtain ⟨-, hdir, _, hval, -, -, -, hrec, _, hnet, member, -, message, hm, -, hp, -, -, he⟩ := h
  exact ⟨hdir, hval, hrec, hnet, message, hm, hp, he.symm⟩

theorem otherChain_eq_false {chain : RemoteChainId} {c : Wire RemoteChainId}
    (h : otherChain action chain = false) (hc : action.remoteChain = some c) :
    c = .known chain := by
  unfold otherChain at h
  rw [decide_eq_false_iff_not, not_and, not_not, hc] at h
  exact Option.some.inj (h (by simp))

/-- The route an approved request took. -/
theorem routeApproval_eq_ok (h : routeApproval L cfg view action p hint = .ok effect) :
    (action.direction = .known .gramReturn ∧ isGramMintProposal p = true
        ∧ approveGramReturn L cfg view action p hint = .ok effect)
      ∨ (action.direction = .known .pegOut ∧ signVizRelease L cfg view action p hint = .ok effect)
      ∨ (action.direction = .known .pegIn ∧ isSolanaMintProposal p = true
          ∧ otherChain action .solana = false
          ∧ approveSolanaMint L cfg view action p hint = .ok effect)
      ∨ (action.direction = .known .pegIn ∧ isSolanaMintProposal p = false
          ∧ isGramMintProposal p = true ∧ otherChain action .gram = false
          ∧ approveGramMint L cfg view action p hint = .ok effect) := by
  unfold routeApproval at h
  split_ifs at h with hret hgram hout hsol hoc hgr hoc'
  · exact .inl ⟨hret, by simpa using hgram, h⟩
  · exact .inr (.inl ⟨hout, h⟩)
  · exact .inr (.inr (.inl ⟨(approveSolanaMint_eq_ok h).1, hsol, by simpa using hoc, h⟩))
  · exact .inr (.inr (.inr
      ⟨(approveGramMint_eq_ok h).1, by simpa using hsol, hgr, by simpa using hoc', h⟩))

theorem approve_eq_ok {m : SignedProposals} {req : ApproveRequest} {a : Approval}
    (h : (approve L cfg view m req).1 = .ok a) :
    ∃ action row, actionFromWire req.action = some action
      ∧ proposalKey L req.proposal = .ok row
      ∧ runGate L view.nodes.viz m action.id row = .ok (approve L cfg view m req).2
      ∧ a.actionId = action.id
      ∧ routeApproval L cfg view action req.proposal (hintFromRequest req) = .ok a.effect := by
  generalize hr : approve L cfg view m req = r at h
  unfold approve at hr
  split at hr
  · subst hr
    simp at h
  · split at hr
    · subst hr
      simp at h
    · next action haction =>
      split at hr
      · subst hr
        simp at h
      · next m' hgate =>
        unfold assertNotReplay at hgate
        rw [bind_eq_ok] at hgate
        obtain ⟨row, hrow, hgate⟩ := hgate
        subst hr
        cases hroute : routeApproval L cfg view action req.proposal (hintFromRequest req) with
        | error e => simp [hroute, Except.map] at h
        | ok effect =>
          simp only [hroute, Except.map, Except.ok.injEq] at h
          subst h
          exact ⟨action, row, haction, hrow, hgate, rfl, hroute⟩

end

end VizGateway
