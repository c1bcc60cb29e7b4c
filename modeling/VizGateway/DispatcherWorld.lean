import VizGateway.Dispatcher
import VizGateway.Lib.Runs

/-!
# The dispatcher among the other services

One dispatcher turns its loop on the shared outbox. Any await of a turn may throw, and the process
may die at any of them and be started again; in between the watchers, the peg-out scanner and the
coordinator write their own rows. The coordinator's answer to a delivery is whatever it is.
-/

namespace VizGateway

open ActionStatus Text

/-- How one await comes out: the clock it reads, the exception it throws, the answer it brings. -/
structure AwaitInput where
  clock : ℤ
  fails : Option String := none
  result : DeliveryResult := { broadcast := false }

def DispatcherOp.exec : (o : DispatcherOp) → AwaitInput → Outbox → Outbox × Except String o.Ans
  | store o, i, s =>
    match i.fails with
    | some e => (s, .error e)
    | none => ((o.exec i.clock s).1, .ok (o.exec i.clock s).2)
  | now, i, s => (s, .ok i.clock)
  | submit _, i, s => (s, .ok i.result)

/-- The ids `planChildren` makes. -/
def childSuffixed (id : String) : Bool :=
  endsWith id ":fee" || endsWith id ":refund" || endsWith id ":return"

/-- What the other services write. -/
inductive OutboxWrite
  /-- A watcher or the scanner claims a source event. -/
  | detect (input : EnqueueInput)
  /-- The cap decision on a claimed row. -/
  | classify (id : String) (status : ActionStatus) (lastError : Option String)
  /-- The scanner records a burn's signature on its claim. -/
  | checkpoint (id txid : String)
  /-- The scanner releases a claim. -/
  | discard (id : String)
  /-- The coordinator pins what it is about to have executed. -/
  | pin (id txid : String)
  /-- The coordinator persists a withheld fee. -/
  | setFee (id : String) (feeMilliViz : ℤ)
  | pause (reason : String)
  | resume

/-- When a service makes such a write: source events are peg-ins and peg-outs under ids of their
own, claims are decided, recorded and released while SEEN, and only delivered rows are pinned. -/
def OutboxWrite.fits (s : Outbox) : OutboxWrite → Bool
  | detect input =>
    (input.direction = .pegIn || input.direction = .pegOut) && !childSuffixed input.id
      && (input.status.getD seen = seen || input.status = some held)
  | classify id status _ =>
    (s.get id).any (·.status = seen) && (status = queued || status = held)
  | checkpoint id _ => (s.get id).any (·.status = seen)
  | discard id => (s.get id).any fun r => r.status = seen ∧ r.direction = .pegOut
  | pin id _ => (s.get id).all fun r => r.status ≠ seen ∧ r.status ≠ held
  | setFee .. => true
  | pause _ => true
  | resume => true

def OutboxWrite.apply (clock : ℤ) (s : Outbox) : OutboxWrite → Outbox
  | detect input => (s.enqueue clock input).2
  | classify id status lastError =>
    s.setStatus clock id status { lastError := lastError.map some }
  | checkpoint id txid => s.setStatus clock id seen { txid := some (some txid) }
  | discard id => s.delete id
  | pin id txid => s.setStatus clock id broadcast { txid := some (some txid) }
  | setFee id fee => s.setFee clock id fee
  | pause reason => s.pause reason
  | resume => { s with paused := none }

structure DispatcherWorld where
  outbox : Outbox
  /-- What is left of the turn under way. -/
  turn : Option (DispatcherM Unit)

inductive DispatcherEvent
  /-- The loop, or a restarted process, turns again. -/
  | begin
  | await (i : AwaitInput)
  /-- The process dies. -/
  | crash
  | other (clock : ℤ) (w : OutboxWrite)

namespace DispatcherWorld

variable (opts : DispatcherOpts)

def init : DispatcherWorld := ⟨Outbox.empty, none⟩

def step (w : DispatcherWorld) : DispatcherEvent → DispatcherWorld
  | .begin => if w.turn.isNone then { w with turn := some (Dispatcher.turn opts) } else w
  | .await i =>
    match w.turn with
    | some (.call o k) =>
      { outbox := (o.exec i w.outbox).1, turn := (k (o.exec i w.outbox).2).running }
    | _ => w
  | .crash => { w with turn := none }
  | .other clock write =>
    if write.fits w.outbox then { w with outbox := write.apply clock w.outbox } else w

/-- The operation the turn stands at. -/
def standsAt (w : DispatcherWorld) : Option DispatcherOp :=
  match w.turn with
  | some (.call o _) => some o
  | _ => none

end DispatcherWorld

/-! ## What a crash must not leave behind -/

/-- The three promises at once: a refunding peg-in worth a return has its refund row, a confirmed
peg-in its fee sweep, and the parent of a confirmed return is refunded. -/
structure Closed (opts : DispatcherOpts) (s : Outbox) : Prop where
  refund : ∀ p ∈ s.rows, p.direction = .pegIn → p.status = refunding → truthy p.sender ≠ none →
    opts.fees.refundFeeMilliViz < p.amountMilliViz → (s.get (p.id ++ ":refund")).isSome
  fee : ∀ p ∈ s.rows, p.direction = .pegIn → p.status = confirmed →
    0 < baseFee p.amountMilliViz (pegInFeePolicyFor opts.fees (p.remoteChain.getD .solana)) →
    (s.get (p.id ++ ":fee")).isSome
  parent : ∀ c ∈ s.rows, c.direction = .refund ∨ c.direction = .gramReturn →
    c.status = confirmed → ∀ p ∈ s.rows, Dispatcher.parentIdOf c = some p.id →
    p.status = refunded

/-- The tick is about to write what its last status write promised: the child of a row already
CONFIRMED or REFUNDING, or the close-out of a confirmed return's parent. -/
def Torn (s : Outbox) : DispatcherOp → Prop
  | .store (.enqueue child) =>
    s.get child.id = none
      ∧ ∃ pid p, child.parentId = some pid ∧ s.get pid = some p
        ∧ (p.status = confirmed ∨ p.status = refunding)
  | .store (.setStatus id status patch) =>
    status = refunded ∧ patch = {} ∧ ∃ p, s.get id = some p ∧ p.status ≠ refunded
  | _ => False

/-- The process neither dies nor throws at a torn write, and the coordinator pins no row that is
already given up. -/
def Untorn (w : DispatcherWorld) : DispatcherEvent → Prop
  | .crash => ∀ o, w.standsAt = some o → ¬ Torn w.outbox o
  | .await i => i.fails ≠ none → ∀ o, w.standsAt = some o → ¬ Torn w.outbox o
  | .other _ (.pin id _) =>
    ∀ r, w.outbox.get id = some r → r.status ≠ refunding ∧ r.status ≠ refunded
  | _ => True

end VizGateway
