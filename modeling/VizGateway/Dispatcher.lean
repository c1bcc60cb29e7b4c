import VizGateway.Policy
import VizGateway.StoreOps

/-!
# The dispatcher's tick

Keyless: it only moves outbox rows. One tick requeues deliveries whose answer never came, routes
parked rows with no usable destination to their return, and delivers what is due. Staff alerts
write nothing and are left out.
-/

namespace VizGateway

open ActionStatus Text

/-- What a tick awaits: the store, its own clock, and the coordinator's answer. -/
inductive DispatcherOp
  | store (o : StoreOp)
  | now
  | submit (rec : OutboxRecord)

def DispatcherOp.Ans : DispatcherOp → Type
  | store o => o.Ans
  | now => ℤ
  | submit _ => DeliveryResult

abbrev DispatcherM := Prog DispatcherOp DispatcherOp.Ans String

structure DispatcherOpts extends RetryOpts where
  signingTimeoutPegInMs : ℤ
  signingTimeoutPegOutMs : ℤ
  feesGateAccount : String
  fees : GatewayFeeConfig

namespace DispatcherOpts

variable (opts : DispatcherOpts)

def signingTimeoutMs (direction : OutboxDirection) : ℤ :=
  if direction = .pegIn then opts.signingTimeoutPegInMs else opts.signingTimeoutPegOutMs

def childCtx (sweep : ℤ) : ChildCtx where
  feesGateAccount := opts.feesGateAccount
  sweepAmountMilliViz := sweep
  refundFeeMilliViz := opts.fees.refundFeeMilliViz

/-- The children a delivery spawns when its row turns to `status`. -/
def childrenAt (rec : OutboxRecord) (status : ActionStatus) : List EnqueueInput :=
  planChildren rec status (opts.childCtx (sweepAmountMilliViz opts.fees rec status))

end DispatcherOpts

namespace Dispatcher

def isPaused : DispatcherM Bool := Prog.ask (DispatcherOp.store .isPaused)

def stale (now ageMs : ℤ) (statuses : List ActionStatus) : DispatcherM (List OutboxRecord) :=
  Prog.ask (DispatcherOp.store (.stale now ageMs statuses))

def due (now : ℤ) (statuses : List ActionStatus) : DispatcherM (List OutboxRecord) :=
  Prog.ask (DispatcherOp.store (.due now statuses))

def enqueue (input : EnqueueInput) : DispatcherM Bool := Prog.ask (DispatcherOp.store (.enqueue input))

def setStatus (id : String) (status : ActionStatus) (patch : StatusPatch) : DispatcherM Unit :=
  Prog.ask (DispatcherOp.store (.setStatus id status patch))

def dateNow : DispatcherM ℤ := Prog.ask DispatcherOp.now

def submit (rec : OutboxRecord) : DispatcherM DeliveryResult := Prog.ask (DispatcherOp.submit rec)

/-- What closes out a row whose gross is not worth a return. -/
def dustRetained : StatusPatch := { lastError := some (some "dust retained (<= refund fee)") }

def enqueueAll (children : List EnqueueInput) : DispatcherM Unit :=
  Prog.forEach (fun child => do let _ ← enqueue child) children

/-- The parent a confirmed return closes out: the `parentId` column, or the id without its
suffix on rows older than the column. -/
def parentIdOf (rec : OutboxRecord) : Option String :=
  truthy <| match rec.parentId with
    | some pid => some pid
    | none =>
      if endsWith rec.id ":refund" then some (dropEnd rec.id ":refund".toList.length)
      else if endsWith rec.id ":return" then some (dropEnd rec.id ":return".toList.length)
      else none

section

variable (opts : DispatcherOpts)

def recoverOrphan (now : ℤ) (rec : OutboxRecord) : DispatcherM Unit :=
  if now - rec.updatedAt < opts.signingTimeoutMs rec.direction then pure ()
  else setStatus rec.id queued { attempts := some (rec.attempts + 1), nextAttemptAt := some now }

/-- BROADCAST rows stuck for longer than their timeout are queued again. -/
def recoverOrphans (now : ℤ) : DispatcherM Unit := do
  let minTimeout := min opts.signingTimeoutPegInMs opts.signingTimeoutPegOutMs
  let orphaned ← stale now minTimeout [broadcast]
  Prog.forEach (recoverOrphan opts now) orphaned

/-- A parked row with a sender: its return is enqueued first and the row turned after. -/
def returnHeld (direction : OutboxDirection) (reason : String) (rec : OutboxRecord) :
    DispatcherM Unit :=
  if rec.direction ≠ direction ∨ rec.lastError ≠ some reason ∨ truthy rec.sender = none then
    pure ()
  else do
    let children := planChildren rec refunding (opts.childCtx 0)
    enqueueAll children
    if children = [] then setStatus rec.id refunded dustRetained
    else setStatus rec.id refunding {}

/-- `HELD("INVALID_DESTINATION")` peg-ins. -/
def refundInvalidDestinations (now : ℤ) : DispatcherM Unit := do
  let held ← due now [held]
  Prog.forEach (returnHeld opts .pegIn "INVALID_DESTINATION") held

/-- `HELD("RETURN_INVALID_DEST")` peg-outs. -/
def returnInvalidDestinations (now : ℤ) : DispatcherM Unit := do
  let held ← due now [held]
  Prog.forEach (returnHeld opts .pegOut "RETURN_INVALID_DEST") held

/-- A refunding peg-in with no child is closed out at once. -/
def closeDust (rec : OutboxRecord) (status : ActionStatus) : DispatcherM Unit :=
  if status = refunding ∧ rec.direction = .pegIn ∧ opts.childrenAt rec status = [] then
    setStatus rec.id refunded dustRetained
  else pure ()

/-- A confirmed return closes out its parent. -/
def closeParent (rec : OutboxRecord) (status : ActionStatus) : DispatcherM Unit :=
  if status = confirmed ∧ (rec.direction = .refund ∨ rec.direction = .gramReturn) then
    match parentIdOf rec with
    | some parentId => setStatus parentId refunded {}
    | none => pure ()
  else pure ()

/-- One delivery: BROADCAST before the call, the row's next status after it, and then what that
status asks for. -/
def deliver (rec : OutboxRecord) : DispatcherM Unit := do
  setStatus rec.id broadcast {}
  let result ← submit rec
  let answered ← dateNow
  let t := planTransition rec result answered opts.toRetryOpts
  setStatus rec.id t.status t.patch
  enqueueAll (opts.childrenAt rec t.status)
  closeDust opts rec t.status
  closeParent rec t.status

def deliverDue (now : ℤ) : DispatcherM Unit := do
  let queue ← due now [queued]
  Prog.forEach (deliver opts) queue

def tick : DispatcherM Unit := do
  let now ← dateNow
  recoverOrphans opts now
  refundInvalidDestinations opts now
  returnInvalidDestinations opts now
  deliverDue opts now

/-- One turn of the loop: nothing while the gateway is paused. -/
def turn : DispatcherM Unit := do
  let paused ← isPaused
  if paused then pure () else tick opts

end

end Dispatcher

end VizGateway
