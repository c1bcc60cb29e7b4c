import VizGateway.Lib.Keyed
import VizGateway.Lib.Sessions
import VizGateway.Outbox
import VizGateway.ReplayLedger

/-!
# The store on SQLite

Each method is a program of SQL statements, and a statement runs atomically; a transaction counts as
one statement. Amounts and cursors are stored as text. The rows of a query without an order come as
the planner meets them, and so do rows an order leaves tied.
-/

namespace VizGateway

/-- What a service asks of a store. -/
inductive StoreCall
  | enqueue (input : EnqueueInput)
  | get (id : String)
  | setStatus (id : String) (status : ActionStatus) (patch : StatusPatch)
  | setFee (id : String) (feeMilliViz : ℤ)
  | delete (id : String)
  | due (now : ℤ) (statuses : List ActionStatus)
  | stale (now ageMs : ℤ) (statuses : List ActionStatus)
  | unsweptFeesMilliViz (chain : Option RemoteChainId)
  | minPegInFeeMilliViz (chain : Option RemoteChainId)
  | activeRemoteChains
  | recordCap (amountMilliViz now : ℤ)
  | capSumMilliViz (sinceMs now : ℤ)
  | tryReserveCap (amountMilliViz capMilliViz sinceMs now : ℤ)
  | tryReserveSenderRate (sender : String) (maxPerWindow windowMs now : ℤ)
  | registerDepositAddress (vizAccount solAddress wvizAta : String)
  | depositAddressBy (addressOrAta : String)
  | depositAddressesForScan (limit : ℤ)
  | touchDepositScan (vizAccount : String) (now : ℤ)
  | getCursor (name : String)
  | setCursor (name : String) (value : ℤ)
  | isPaused
  | pause (reason : String)
  | unpause
  | pauseReason
  | getState (key : String)
  | setState (key value : String)
  | getSignedProposal (actionId : String)
  | putSignedProposal (actionId key : String) (expiresAtMs : ℤ) (expectedPrevKey : Option String)
  deriving DecidableEq, Repr

/-- A registered deposit address. -/
structure DepositAddressRecord where
  vizAccount : String
  solAddress : String
  wvizAta : String
  createdAt : ℤ
  scanTime : ℤ
  priority : ℤ
  deriving DecidableEq, Repr

abbrev StoreCall.Ans : StoreCall → Type
  | .enqueue _ => Bool
  | .get _ => Option OutboxRecord
  | .due .. => List OutboxRecord
  | .stale .. => List OutboxRecord
  | .unsweptFeesMilliViz _ => ℤ
  | .minPegInFeeMilliViz _ => Option ℤ
  | .activeRemoteChains => List RemoteChainId
  | .capSumMilliViz .. => ℤ
  | .tryReserveCap .. => Bool
  | .tryReserveSenderRate .. => Bool
  | .depositAddressBy _ => Option DepositAddressRecord
  | .depositAddressesForScan _ => List DepositAddressRecord
  | .getCursor _ => ℤ
  | .isPaused => Bool
  | .pauseReason => Option String
  | .getState _ => Option String
  | .getSignedProposal _ => Option SignedProposal
  | .putSignedProposal .. => Bool
  | _ => Unit

/-! ## The tables -/

/-- A row of `action_outbox`. -/
structure OutboxRow where
  id : String
  direction : OutboxDirection
  remote_chain : Option RemoteChainId
  recipient : String
  sender : Option String
  amount_milli_viz : String
  fee_milli_viz : String
  digest : String
  status : ActionStatus
  attempts : ℕ
  last_error : Option String
  txid : Option String
  created_at : ℤ
  updated_at : ℤ
  next_attempt_at : ℤ
  parent_id : Option String
  block_num : Option ℕ
  deriving DecidableEq, Repr

structure CapWindowRow where
  ts : ℤ
  amount_milli_viz : String
  deriving DecidableEq, Repr

structure PeginRateRow where
  sender : String
  ts : ℤ
  deriving DecidableEq, Repr

structure Database where
  action_outbox : List OutboxRow
  cap_window : List CapWindowRow
  pegin_rate : List PeginRateRow
  deposit_addresses : List DepositAddressRecord
  gateway_state : String → Option String
  signed_proposals : String → Option SignedProposal

def Database.empty : Database := ⟨[], [], [], [], fun _ => none, fun _ => none⟩

/-- The order in which a query meets the rows of a table. -/
structure Planner where
  outbox : List OutboxRow → List OutboxRow
  caps : List CapWindowRow → List CapWindowRow
  deposits : List DepositAddressRecord → List DepositAddressRecord
  outbox_perm : ∀ rows, (outbox rows).Perm rows
  caps_perm : ∀ rows, (caps rows).Perm rows
  deposits_perm : ∀ rows, (deposits rows).Perm rows

/-- The planner that meets rows in the order they were inserted. -/
def Planner.inOrder : Planner where
  outbox := id
  caps := id
  deposits := id
  outbox_perm _ := .rfl
  caps_perm _ := .rfl
  deposits_perm _ := .rfl

/-- `BigInt(s)` and `Number(s)` of a numeral. -/
def ofNumeral (s : String) : ℤ :=
  if Text.startsWith s "-" then -Text.parseNat (Text.dropStr s 1) else Text.parseNat s

theorem ofNumeral_repr (n : ℤ) : ofNumeral n.repr = n := by
  rw [Int.repr_eq_if]
  unfold ofNumeral
  rcases le_or_gt 0 n with hn | hn
  · have hminus : Text.startsWith n.toNat.repr "-" = false := by
      rw [Bool.eq_false_iff]
      intro h
      obtain ⟨r, hr⟩ := Text.startsWith_iff.1 h
      have hmem : '-' ∈ n.toNat.repr.toList := by
        rw [hr]
        simp
      exact Text.notMem_repr (by decide) n.toNat hmem
    rw [if_pos hn, hminus, if_neg (by decide), Text.parseNat_repr]
    omega
  · have hdrop : Text.dropStr ("-" ++ (-n).toNat.repr) 1 = (-n).toNat.repr :=
      Text.dropStr_append "-" _
    rw [if_neg hn.not_ge, if_pos (Text.startsWith_append _ _), hdrop, Text.parseNat_repr]
    omega

/-- `sumBigIntColumn`. -/
def sumBigIntColumn (vs : List String) : ℤ := vs.foldl (fun acc v => acc + ofNumeral v) 0

def rowToRecord (r : OutboxRow) : OutboxRecord where
  id := r.id
  direction := r.direction
  remoteChain := r.remote_chain
  recipient := r.recipient
  sender := r.sender
  amountMilliViz := ofNumeral r.amount_milli_viz
  feeMilliViz := ofNumeral r.fee_milli_viz
  digest := r.digest
  status := r.status
  attempts := r.attempts
  lastError := r.last_error
  txid := r.txid
  createdAt := r.created_at
  updatedAt := r.updated_at
  nextAttemptAt := r.next_attempt_at
  parentId := r.parent_id
  blockNum := r.block_num

/-- The row an enqueue inserts. -/
def EnqueueInput.toRow (input : EnqueueInput) (now : ℤ) : OutboxRow where
  id := input.id
  direction := input.direction
  remote_chain := input.remoteChain
  recipient := input.recipient
  sender := input.sender
  amount_milli_viz := input.amountMilliViz.repr
  fee_milli_viz := (input.feeMilliViz.getD 0).repr
  digest := input.digest
  status := input.status.getD .seen
  attempts := 0
  last_error := input.lastError
  txid := none
  created_at := now
  updated_at := now
  next_attempt_at := 0
  parent_id := input.parentId
  block_num := input.blockNum

@[simp] theorem EnqueueInput.toRow_id (input : EnqueueInput) (now : ℤ) :
    (input.toRow now).id = input.id := rfl

/-! ## The statements -/

/-- A statement, or a transaction under the write lock. -/
inductive SqlOp
  | insertOutbox (row : OutboxRow)
  | selectDigest (id : String)
  | selectById (id : String)
  | updateStatus (id : String) (status : ActionStatus) (patch : StatusPatch) (now : ℤ)
  | updateFee (id : String) (fee_milli_viz : String) (now : ℤ)
  | deleteById (id : String)
  | selectOutbox (wh : OutboxRow → Bool)
  | selectOldestFirst (wh : OutboxRow → Bool)
  | insertCap (row : CapWindowRow)
  | deleteCapBefore (sinceMs : ℤ)
  | selectCapUpTo (now : ℤ)
  | reserveCap (amountMilliViz capMilliViz sinceMs now : ℤ)
  | reserveRate (sender : String) (maxPerWindow windowMs now : ℤ)
  | insertDeposit (row : DepositAddressRecord)
  | selectDeposit (addressOrAta : String)
  | selectForScan (limit : ℤ)
  | updateScanTime (vizAccount : String) (now : ℤ)
  | selectKey (key : String)
  | upsertKey (key value : String)
  | selectSigned (actionId : String)
  | insertSigned (actionId : String) (p : SignedProposal)
  | updateSigned (actionId : String) (p : SignedProposal) (expectedPrevKey : String)

/-- The rows a statement returns, or how many rows it changed. -/
abbrev SqlOp.Ans : SqlOp → Type
  | .insertOutbox _ => ℕ
  | .selectDigest _ => Option String
  | .selectById _ => Option OutboxRow
  | .selectOutbox _ => List OutboxRow
  | .selectOldestFirst _ => List OutboxRow
  | .selectCapUpTo _ => List CapWindowRow
  | .reserveCap .. => Bool
  | .reserveRate .. => Bool
  | .selectDeposit _ => Option DepositAddressRecord
  | .selectForScan _ => List DepositAddressRecord
  | .selectKey _ => Option String
  | .selectSigned _ => Option SignedProposal
  | .insertSigned .. => ℕ
  | .updateSigned .. => ℕ
  | _ => Unit

namespace Database

/-- `UPDATE action_outbox SET status = ...`; `COALESCE` keeps a column its patch leaves out. -/
def updateStatus (r : OutboxRow) (status : ActionStatus) (patch : StatusPatch) (now : ℤ) :
    OutboxRow :=
  { r with
    status
    attempts := patch.attempts.getD r.attempts
    last_error := patch.lastError.getD r.last_error
    txid := patch.txid.getD r.txid
    fee_milli_viz := (patch.feeMilliViz.map Int.repr).getD r.fee_milli_viz
    next_attempt_at := patch.nextAttemptAt.getD r.next_attempt_at
    updated_at := now }

/-- `ORDER BY priority DESC, scan_time ASC`. -/
def scanLe (a b : DepositAddressRecord) : Bool :=
  b.priority < a.priority ∨ a.priority = b.priority ∧ a.scanTime ≤ b.scanTime

/-- `LIMIT`; a negative one is none. -/
def limit {α : Type} (n : ℤ) (rows : List α) : List α := if n < 0 then rows else rows.take n.toNat

variable (db : Database)

/-- `BEGIN IMMEDIATE`, the prune, the sum and the insert, `COMMIT`. -/
def reserveCap (pl : Planner) (amountMilliViz capMilliViz sinceMs now : ℤ) : Database × Bool :=
  let live := db.cap_window.filter fun r => sinceMs ≤ r.ts
  let rows := (pl.caps live).filter fun r => r.ts ≤ now
  if capMilliViz < sumBigIntColumn (rows.map (·.amount_milli_viz)) + amountMilliViz then
    ({ db with cap_window := live }, false)
  else ({ db with cap_window := live ++ [⟨now, amountMilliViz.repr⟩] }, true)

/-- `BEGIN IMMEDIATE`, the prune, the count and the insert, `COMMIT`. -/
def reserveRate (sender : String) (maxPerWindow windowMs now : ℤ) : Database × Bool :=
  let live := db.pegin_rate.filter fun r => now - windowMs ≤ r.ts
  let count := live.countP fun r => r.sender = sender ∧ now - windowMs < r.ts
  if maxPerWindow ≤ count then ({ db with pegin_rate := live }, false)
  else ({ db with pegin_rate := live ++ [⟨sender, now⟩] }, true)

/-- `INSERT OR IGNORE`, and how many rows it changed. -/
def insertOutbox (row : OutboxRow) : Database × ℕ :=
  ({ db with action_outbox := Keyed.insertNew OutboxRow.id row db.action_outbox },
    if (Keyed.get OutboxRow.id row.id db.action_outbox).isSome then 0 else 1)

def updateOutbox (id : String) (f : OutboxRow → OutboxRow) : Database :=
  { db with action_outbox := Keyed.update OutboxRow.id id f db.action_outbox }

def onDeposits (f : List DepositAddressRecord → List DepositAddressRecord) : Database :=
  { db with deposit_addresses := f db.deposit_addresses }

def setKey (key value : String) : Database :=
  { db with gateway_state := Function.update db.gateway_state key (some value) }

def putSigned (actionId : String) (p : SignedProposal) : Database :=
  { db with signed_proposals := Function.update db.signed_proposals actionId (some p) }

end Database

open Database in
/-- What a statement does. -/
def SqlOp.exec (pl : Planner) : (o : SqlOp) → Database → Database × o.Ans
  | .insertOutbox row, db => db.insertOutbox row
  | .selectDigest id, db => (db, (Keyed.get OutboxRow.id id db.action_outbox).map (·.digest))
  | .selectById id, db => (db, Keyed.get OutboxRow.id id db.action_outbox)
  | .updateStatus id status patch now, db =>
    (db.updateOutbox id fun r => Database.updateStatus r status patch now, ())
  | .updateFee id fee_milli_viz now, db =>
    (db.updateOutbox id fun r => { r with fee_milli_viz, updated_at := now }, ())
  | .deleteById id, db =>
    ({ db with action_outbox := Keyed.erase OutboxRow.id id db.action_outbox }, ())
  | .selectOutbox wh, db => (db, (pl.outbox db.action_outbox).filter wh)
  | .selectOldestFirst wh, db =>
    (db, ((pl.outbox db.action_outbox).filter wh).mergeSort fun a b => a.created_at ≤ b.created_at)
  | .insertCap row, db => ({ db with cap_window := db.cap_window ++ [row] }, ())
  | .deleteCapBefore sinceMs, db =>
    ({ db with cap_window := db.cap_window.filter fun r => sinceMs ≤ r.ts }, ())
  | .selectCapUpTo now, db => (db, (pl.caps db.cap_window).filter fun r => r.ts ≤ now)
  | .reserveCap amount cap sinceMs now, db => db.reserveCap pl amount cap sinceMs now
  | .reserveRate sender maxPerWindow windowMs now, db =>
    db.reserveRate sender maxPerWindow windowMs now
  | .insertDeposit row, db =>
    (db.onDeposits (Keyed.insertNew DepositAddressRecord.vizAccount row), ())
  | .selectDeposit addressOrAta, db =>
    (db, (pl.deposits db.deposit_addresses).find? fun d =>
      d.solAddress = addressOrAta ∨ d.wvizAta = addressOrAta)
  | .selectForScan n, db =>
    (db, limit n ((pl.deposits db.deposit_addresses).mergeSort scanLe))
  | .updateScanTime vizAccount now, db =>
    (db.onDeposits (Keyed.update DepositAddressRecord.vizAccount vizAccount
      fun d => { d with scanTime := now }), ())
  | .selectKey key, db => (db, db.gateway_state key)
  | .upsertKey key value, db => (db.setKey key value, ())
  | .selectSigned actionId, db => (db, db.signed_proposals actionId)
  | .insertSigned actionId p, db =>
    if (db.signed_proposals actionId).isSome then (db, 0) else (db.putSigned actionId p, 1)
  | .updateSigned actionId p expectedPrevKey, db =>
    if (db.signed_proposals actionId).map (·.key) = some expectedPrevKey then
      (db.putSigned actionId p, 1)
    else (db, 0)

abbrev SqlM (α : Type) := Prog SqlOp SqlOp.Ans Empty α

/-! ## The methods -/

namespace SqliteGatewayStore

/-- Running a prepared statement. -/
def sql (o : SqlOp) : SqlM o.Ans := Prog.ask o

def mintedStatuses : List ActionStatus := [.broadcast, .confirmed]

def activeChainStatuses : List ActionStatus := [.queued, .signing, .broadcast, .confirmed]

/-- The filter on a chain, if one is given. -/
def onChain (chain : Option RemoteChainId) (r : OutboxRow) : Bool :=
  chain.isNone ∨ r.remote_chain = chain

def setKey (key value : String) : SqlM Unit := sql (.upsertKey key value)

def getKey (key : String) : SqlM (Option String) := sql (.selectKey key)

def pause (reason : String) : SqlM Unit := do
  setKey "paused" "1"
  setKey "pause_reason" reason

def unpause : SqlM Unit := do
  setKey "paused" "0"
  setKey "pause_reason" ""

/-- The look of an enqueue that lost its insert. -/
def lookAtDigest (input : EnqueueInput) : SqlM Bool := do
  match ← sql (.selectDigest input.id) with
  | none => return false
  | some stored =>
    if stored ≠ input.digest then
      pause (Outbox.collisionReason input.id stored input.digest)
    return false

def enqueue (now : ℤ) (input : EnqueueInput) : SqlM Bool := do
  let changes ← sql (.insertOutbox (input.toRow now))
  if changes = 1 then return true else lookAtDigest input

def getCursor (name : String) : SqlM ℤ := do
  match ← getKey name with
  | none => return 0
  | some v => return if v = "" then 0 else ofNumeral v

def setCursor (name : String) (value : ℤ) : SqlM Unit := do
  let current ← getCursor name
  if value ≤ current then return ()
  setKey name value.repr

def unsweptFeesMilliViz (chain : Option RemoteChainId) : SqlM ℤ := do
  let minted ← sql (.selectOutbox fun r =>
    r.direction = .pegIn ∧ r.status ∈ mintedStatuses ∧ onChain chain r)
  let swept ← sql (.selectOutbox fun r =>
    r.direction = .feeSweep ∧ r.status = .confirmed ∧ onChain chain r)
  return sumBigIntColumn (minted.map (·.fee_milli_viz)) -
    sumBigIntColumn (swept.map (·.amount_milli_viz))

def minPegInFeeMilliViz (chain : Option RemoteChainId) : SqlM (Option ℤ) := do
  let rows ← sql (.selectOutbox fun r =>
    r.direction = .pegIn ∧ r.status ∈ mintedStatuses ∧
      ¬ (r.status = .broadcast ∧ r.fee_milli_viz = "0") ∧ onChain chain r)
  match rows.map fun r => ofNumeral r.fee_milli_viz with
  | [] => return none
  | v :: vs => return some ((v :: vs).foldl (fun m v => if v < m then v else m) v)

def activeRemoteChains : SqlM (List RemoteChainId) := do
  let rows ← sql (.selectOutbox fun r =>
    r.direction = .pegIn ∧ r.remote_chain.isSome ∧ r.status ∈ activeChainStatuses)
  return (rows.filterMap (·.remote_chain)).dedup

def capSumMilliViz (sinceMs now : ℤ) : SqlM ℤ := do
  sql (.deleteCapBefore sinceMs)
  let rows ← sql (.selectCapUpTo now)
  return sumBigIntColumn (rows.map (·.amount_milli_viz))

def putSignedProposal (actionId : String) (p : SignedProposal) :
    Option String → SqlM Bool
  | none => do
    let changes ← sql (.insertSigned actionId p)
    return changes = 1
  | some expectedPrevKey => do
    let changes ← sql (.updateSigned actionId p expectedPrevKey)
    return changes = 1

/-- A method called when `Date.now()` is `now`. -/
def method (now : ℤ) : (c : StoreCall) → SqlM c.Ans
  | .enqueue input => enqueue now input
  | .get id => do
    let r ← sql (.selectById id)
    return r.map rowToRecord
  | .setStatus id status patch => sql (.updateStatus id status patch now)
  | .setFee id feeMilliViz => sql (.updateFee id feeMilliViz.repr now)
  | .delete id => sql (.deleteById id)
  | .due t statuses => do
    if statuses = [] then return []
    let rows ← sql (.selectOldestFirst fun r => r.status ∈ statuses ∧ r.next_attempt_at ≤ t)
    return rows.map rowToRecord
  | .stale t ageMs statuses => do
    if statuses = [] then return []
    let rows ← sql (.selectOutbox fun r => r.status ∈ statuses ∧ r.updated_at < t - ageMs)
    return rows.map rowToRecord
  | .unsweptFeesMilliViz chain => unsweptFeesMilliViz chain
  | .minPegInFeeMilliViz chain => minPegInFeeMilliViz chain
  | .activeRemoteChains => activeRemoteChains
  | .recordCap amountMilliViz t => sql (.insertCap ⟨t, amountMilliViz.repr⟩)
  | .capSumMilliViz sinceMs t => capSumMilliViz sinceMs t
  | .tryReserveCap amount cap sinceMs t => sql (.reserveCap amount cap sinceMs t)
  | .tryReserveSenderRate sender maxPerWindow windowMs t =>
    sql (.reserveRate sender maxPerWindow windowMs t)
  | .registerDepositAddress vizAccount solAddress wvizAta =>
    sql (.insertDeposit ⟨vizAccount, solAddress, wvizAta, now, 0, 0⟩)
  | .depositAddressBy addressOrAta => sql (.selectDeposit addressOrAta)
  | .depositAddressesForScan n => sql (.selectForScan n)
  | .touchDepositScan vizAccount t => sql (.updateScanTime vizAccount t)
  | .getCursor name => getCursor name
  | .setCursor name value => setCursor name value
  | .isPaused => do
    let v ← getKey "paused"
    return v = some "1"
  | .pause reason => pause reason
  | .unpause => unpause
  | .pauseReason => getKey "pause_reason"
  | .getState key => getKey key
  | .setState key value => setKey key value
  | .getSignedProposal actionId => sql (.selectSigned actionId)
  | .putSignedProposal actionId key expiresAtMs expectedPrevKey =>
    putSignedProposal actionId ⟨key, expiresAtMs⟩ expectedPrevKey

/-- A method carried out with nobody else on the database. -/
def run {α : Type} (pl : Planner) : SqlM α → Database → Database × α
  | .ret a, db => (db, a)
  | .throw e, _ => e.elim
  | .call o k, db => run pl (k (.ok (o.exec pl db).2)) (o.exec pl db).1

variable {α β : Type} {pl : Planner} {db : Database}

@[simp] theorem run_pure (a : α) : run pl (pure a) db = (db, a) := rfl

@[simp] theorem run_sql (o : SqlOp) : run pl (sql o) db = o.exec pl db := rfl

@[simp] theorem run_setKey (key value : String) :
    run pl (setKey key value) db = (db.setKey key value, ()) := rfl

theorem run_pause (reason : String) :
    run pl (pause reason) db = ((db.setKey "paused" "1").setKey "pause_reason" reason, ()) := rfl

@[simp] theorem run_getKey (key : String) : run pl (getKey key) db = (db, db.gateway_state key) := rfl

@[simp] theorem run_bind (p : SqlM α) (f : α → SqlM β) :
    run pl (p >>= f) db = run pl (f (run pl p db).2) (run pl p db).1 := by
  induction p generalizing db with
  | ret a => rfl
  | throw e => exact e.elim
  | call o k ih => exact ih (.ok (o.exec pl db).2)

end SqliteGatewayStore

/-- The processes on one database: any calls at any time, each with its `Date.now()`. -/
def sqliteSystem :
    SessionSystem SqlOp SqlOp.Ans Empty Database (StoreCall × ℤ) (fun r => r.1.Ans) Planner where
  body r := SqliteGatewayStore.method r.2 r.1
  exec o pl db := ((o.exec pl db).1, .ok (o.exec pl db).2)

@[simp] theorem sqliteSystem_exec (o : SqlOp) (pl : Planner) (db : Database) :
    sqliteSystem.exec o pl db = ((o.exec pl db).1, .ok (o.exec pl db).2) := rfl

abbrev SqliteWorld :=
  Sessions SqlOp SqlOp.Ans Empty Database (StoreCall × ℤ) (fun r => r.1.Ans)

end VizGateway
