import VizGateway.SqliteStore

/-!
# The store in memory

The same methods on maps and arrays of one process. A map read as a whole is a list in insertion
order; one read by key alone is a function.
-/

namespace VizGateway

structure CapEntry where
  ts : ℤ
  amount : ℤ
  deriving DecidableEq, Repr

/-- `InMemoryGatewayStore`. -/
structure MemoryStore where
  rows : List OutboxRecord
  caps : List CapEntry
  deposits : List DepositAddressRecord
  cursors : String → Option ℤ
  paused : Bool
  reason : String
  rates : List PeginRateRow
  state : String → Option String
  signed : String → Option SignedProposal

namespace MemoryStore

def empty : MemoryStore := ⟨[], [], [], fun _ => none, false, "", [], fun _ => none, fun _ => none⟩

variable (s : MemoryStore)

def get (id : String) : Option OutboxRecord := Keyed.get OutboxRecord.id id s.rows

def pause (reason : String) : MemoryStore := { s with paused := true, reason }

def unpause : MemoryStore := { s with paused := false, reason := "" }

def enqueue (now : ℤ) (input : EnqueueInput) : MemoryStore × Bool :=
  match s.get input.id with
  | some existing =>
    if existing.digest ≠ input.digest then
      (s.pause (Outbox.collisionReason input.id existing.digest input.digest), false)
    else (s, false)
  | none => ({ s with rows := s.rows ++ [input.toRecord now] }, true)

def setStatus (now : ℤ) (id : String) (status : ActionStatus) (patch : StatusPatch) : MemoryStore :=
  { s with rows := Keyed.update OutboxRecord.id id (·.withStatus now status patch) s.rows }

def setFee (now : ℤ) (id : String) (feeMilliViz : ℤ) : MemoryStore :=
  { s with
    rows := Keyed.update OutboxRecord.id id (fun r => { r with feeMilliViz, updatedAt := now }) s.rows }

def due (now : ℤ) (statuses : List ActionStatus) : List OutboxRecord :=
  (s.rows.filter fun r => r.status ∈ statuses ∧ r.nextAttemptAt ≤ now).mergeSort
    fun a b => a.createdAt ≤ b.createdAt

def stale (now ageMs : ℤ) (statuses : List ActionStatus) : List OutboxRecord :=
  s.rows.filter fun r => r.status ∈ statuses ∧ r.updatedAt < now - ageMs

/-- A row on the chain, if one is given. -/
def onChain (chain : Option RemoteChainId) (r : OutboxRecord) : Bool :=
  chain.isNone ∨ r.remoteChain = chain

/-- A peg-in whose fee has been minted as surplus. -/
def isMinted (chain : Option RemoteChainId) (r : OutboxRecord) : Bool :=
  r.direction = .pegIn ∧ (r.status = .broadcast ∨ r.status = .confirmed) ∧ onChain chain r

def isSwept (chain : Option RemoteChainId) (r : OutboxRecord) : Bool :=
  r.direction = .feeSweep ∧ r.status = .confirmed ∧ onChain chain r

def unsweptFeesMilliViz (chain : Option RemoteChainId) : ℤ :=
  let minted := s.rows.foldl (fun acc r => if isMinted chain r then acc + r.feeMilliViz else acc) 0
  let swept := s.rows.foldl (fun acc r => if isSwept chain r then acc + r.amountMilliViz else acc) 0
  minted - swept

/-- A fee that does not count yet: the row is being minted and its fee not pinned. -/
def isUnpinned (r : OutboxRecord) : Bool := r.status = .broadcast ∧ r.feeMilliViz = 0

def lesserFee (chain : Option RemoteChainId) (min : Option ℤ) (r : OutboxRecord) : Option ℤ :=
  if isMinted chain r then
    if isUnpinned r then min
    else match min with
      | none => some r.feeMilliViz
      | some m => if r.feeMilliViz < m then some r.feeMilliViz else some m
  else min

def minPegInFeeMilliViz (chain : Option RemoteChainId) : Option ℤ :=
  s.rows.foldl (lesserFee chain) none

/-- A peg-in past the caps gate. -/
def isActive (r : OutboxRecord) : Bool :=
  r.direction = .pegIn ∧
    (r.status = .queued ∨ r.status = .signing ∨ r.status = .broadcast ∨ r.status = .confirmed)

/-- The chains seen so far, with that of a row. -/
def addActive (active : List RemoteChainId) (r : OutboxRecord) : List RemoteChainId :=
  match r.remoteChain with
  | some chain => if isActive r ∧ chain ∉ active then active ++ [chain] else active
  | none => active

def activeRemoteChains : List RemoteChainId := s.rows.foldl addActive []

def capSumMilliViz (sinceMs now : ℤ) : ℤ :=
  ((s.caps.filter fun e => sinceMs ≤ e.ts ∧ e.ts ≤ now).map (·.amount)).foldl (· + ·) 0

def tryReserveCap (amountMilliViz capMilliViz sinceMs now : ℤ) : MemoryStore × Bool :=
  if capMilliViz < s.capSumMilliViz sinceMs now + amountMilliViz then (s, false)
  else ({ s with caps := s.caps ++ [⟨now, amountMilliViz⟩] }, true)

def tryReserveSenderRate (sender : String) (maxPerWindow windowMs now : ℤ) : MemoryStore × Bool :=
  let cutoff := now - windowMs
  let count := (s.rates.filter fun r => r.sender = sender ∧ cutoff < r.ts).length
  if maxPerWindow ≤ count then (s, false)
  else ({ s with rates := s.rates ++ [⟨sender, now⟩] }, true)

def registerDepositAddress (now : ℤ) (vizAccount solAddress wvizAta : String) : MemoryStore :=
  { s with
    deposits := Keyed.insertNew DepositAddressRecord.vizAccount
      ⟨vizAccount, solAddress, wvizAta, now, 0, 0⟩ s.deposits }

def depositAddressBy (addressOrAta : String) : Option DepositAddressRecord :=
  s.deposits.find? fun d => d.solAddress = addressOrAta ∨ d.wvizAta = addressOrAta

/-- `b.priority - a.priority || a.scanTime - b.scanTime` is not positive. -/
def scanLe (a b : DepositAddressRecord) : Bool :=
  if b.priority - a.priority ≠ 0 then b.priority - a.priority ≤ 0 else a.scanTime - b.scanTime ≤ 0

/-- `slice(0, n)`; a negative end counts from the back. -/
def slice {α : Type} (n : ℤ) (l : List α) : List α :=
  if n < 0 then l.take (l.length + n).toNat else l.take n.toNat

def depositAddressesForScan (limit : ℤ) : List DepositAddressRecord :=
  slice limit (s.deposits.mergeSort scanLe)

def touchDepositScan (vizAccount : String) (now : ℤ) : MemoryStore :=
  { s with
    deposits := Keyed.update DepositAddressRecord.vizAccount vizAccount
      (fun d => { d with scanTime := now }) s.deposits }

def getCursor (name : String) : ℤ := (s.cursors name).getD 0

def setCursor (name : String) (value : ℤ) : MemoryStore :=
  if s.getCursor name < value then
    { s with cursors := Function.update s.cursors name (some value) }
  else s

def putSignedProposal (actionId key : String) (expiresAtMs : ℤ) (expectedPrevKey : Option String) :
    MemoryStore × Bool :=
  let prev := s.signed actionId
  if (expectedPrevKey = none ∧ prev.isSome) ∨
      (expectedPrevKey ≠ none ∧ prev.map (·.key) ≠ expectedPrevKey) then (s, false)
  else ({ s with signed := Function.update s.signed actionId (some ⟨key, expiresAtMs⟩) }, true)

/-- A method called when `Date.now()` is `now`. -/
def method (now : ℤ) (s : MemoryStore) : (c : StoreCall) → MemoryStore × c.Ans
  | .enqueue input => s.enqueue now input
  | .get id => (s, s.get id)
  | .setStatus id status patch => (s.setStatus now id status patch, ())
  | .setFee id feeMilliViz => (s.setFee now id feeMilliViz, ())
  | .delete id => ({ s with rows := Keyed.erase OutboxRecord.id id s.rows }, ())
  | .due t statuses => (s, s.due t statuses)
  | .stale t ageMs statuses => (s, s.stale t ageMs statuses)
  | .unsweptFeesMilliViz chain => (s, s.unsweptFeesMilliViz chain)
  | .minPegInFeeMilliViz chain => (s, s.minPegInFeeMilliViz chain)
  | .activeRemoteChains => (s, s.activeRemoteChains)
  | .recordCap amountMilliViz t => ({ s with caps := s.caps ++ [⟨t, amountMilliViz⟩] }, ())
  | .capSumMilliViz sinceMs t => (s, s.capSumMilliViz sinceMs t)
  | .tryReserveCap amount cap sinceMs t => s.tryReserveCap amount cap sinceMs t
  | .tryReserveSenderRate sender maxPerWindow windowMs t =>
    s.tryReserveSenderRate sender maxPerWindow windowMs t
  | .registerDepositAddress vizAccount solAddress wvizAta =>
    (s.registerDepositAddress now vizAccount solAddress wvizAta, ())
  | .depositAddressBy addressOrAta => (s, s.depositAddressBy addressOrAta)
  | .depositAddressesForScan limit => (s, s.depositAddressesForScan limit)
  | .touchDepositScan vizAccount t => (s.touchDepositScan vizAccount t, ())
  | .getCursor name => (s, s.getCursor name)
  | .setCursor name value => (s.setCursor name value, ())
  | .isPaused => (s, s.paused)
  | .pause reason => (s.pause reason, ())
  | .unpause => (s.unpause, ())
  | .pauseReason => (s, if s.reason = "" then none else some s.reason)
  | .getState key => (s, s.state key)
  | .setState key value =>
    ({ s with state := Function.update s.state key (some value) }, ())
  | .getSignedProposal actionId => (s, s.signed actionId)
  | .putSignedProposal actionId key expiresAtMs expectedPrevKey =>
    s.putSignedProposal actionId key expiresAtMs expectedPrevKey

end MemoryStore

end VizGateway
