import VizGateway.Lib.Prog
import VizGateway.Outbox

/-!
# The store, one call at a time

Each await of a service is one operation on the shared outbox; between two of them the other
services act. A call that throws has changed nothing.
-/

namespace VizGateway

/-- The calls the services make on the store. -/
inductive StoreOp
  | isPaused
  | get (id : String)
  | due (now : ℤ) (statuses : List ActionStatus)
  | stale (now ageMs : ℤ) (statuses : List ActionStatus)
  | enqueue (input : EnqueueInput)
  | setStatus (id : String) (status : ActionStatus) (patch : StatusPatch)
  | setFee (id : String) (feeMilliViz : ℤ)
  | delete (id : String)
  | pause (reason : String)

def StoreOp.Ans : StoreOp → Type
  | isPaused => Bool
  | get _ => Option OutboxRecord
  | due .. => List OutboxRecord
  | stale .. => List OutboxRecord
  | enqueue _ => Bool
  | setStatus .. => Unit
  | setFee .. => Unit
  | delete _ => Unit
  | pause _ => Unit

deriving instance DecidableEq for StoreOp

/-- Carrying a call out at the store's own clock. -/
def StoreOp.exec (clock : ℤ) : (o : StoreOp) → Outbox → Outbox × o.Ans
  | isPaused, s => (s, s.paused.isSome)
  | get id, s => (s, s.get id)
  | due now statuses, s => (s, s.due now statuses)
  | stale now ageMs statuses, s => (s, s.stale now ageMs statuses)
  | enqueue input, s => ((s.enqueue clock input).2, (s.enqueue clock input).1)
  | setStatus id status patch, s => (s.setStatus clock id status patch, ())
  | setFee id fee, s => (s.setFee clock id fee, ())
  | delete id, s => (s.delete id, ())
  | pause reason, s => (s.pause reason, ())

end VizGateway
