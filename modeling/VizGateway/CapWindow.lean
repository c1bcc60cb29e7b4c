import Mathlib
import VizGateway.Lib.Pool

/-!
# The rolling cap

One window of accepted transfers, shared by every watcher. A call reads its clock first and takes
the store's lock after; the peg-out scanner checks, burns, and records in three steps.
-/

namespace VizGateway

/-- A row ever inserted into `cap_window`; the pruned ones are no longer live. -/
structure CapRow where
  ts : ℤ
  amountMilliViz : ℕ
  live : Bool := true
  deriving DecidableEq

structure CapPolicy where
  perTxMilliViz : ℕ
  rolling24hMilliViz : ℕ
  manualReviewAboveMilliViz : ℕ

inductive CapRejection
  | overPerTx
  | over24h
  | needsManualReview
  deriving DecidableEq

def dayMs : ℤ := 24 * 60 * 60 * 1000

def capSum (rows : List CapRow) : ℕ := (rows.map (·.amountMilliViz)).sum

structure CapWindow where
  rows : List CapRow
  deriving DecidableEq

namespace CapWindow

variable (s : CapWindow)

def prune (sinceMs : ℤ) : CapWindow where
  rows := s.rows.map fun r => { r with live := r.live && decide (sinceMs ≤ r.ts) }

def liveRows : List CapRow := s.rows.filter (·.live)

def insert (amount : ℕ) (now : ℤ) : CapWindow where
  rows := s.rows ++ [{ ts := now, amountMilliViz := amount }]

/-- `recordCap`. -/
def recordCap (amount : ℕ) (now : ℤ) : CapWindow := s.insert amount now

/-- `capSumMilliViz`. -/
def capSumMilliViz (sinceMs now : ℤ) : CapWindow × ℕ :=
  let pruned := s.prune sinceMs
  (pruned, capSum (pruned.liveRows.filter (·.ts ≤ now)))

/-- `tryReserveCap`. -/
def tryReserveCap (amount cap : ℕ) (sinceMs now : ℤ) : CapWindow × Bool :=
  let pruned := s.prune sinceMs
  if cap < capSum (pruned.liveRows.filter (·.ts ≤ now)) + amount then (pruned, false)
  else (pruned.insert amount now, true)

/-- What was recorded in the day up to `t`. -/
def recordedUpTo (t : ℤ) : ℕ := capSum (s.rows.filter fun r => t - dayMs ≤ r.ts ∧ r.ts ≤ t)

end CapWindow

/-! ## The callers -/

/-- The call a clock is read for. -/
inductive CapCall
  | check
  | record
  | reserve
  deriving DecidableEq

inductive CapOp
  | dateNow (call : CapCall)
  | capSumMilliViz (sinceMs now : ℤ)
  | recordCap (amount : ℕ) (now : ℤ)
  | tryReserveCap (amount cap : ℕ) (sinceMs now : ℤ)
  /-- The scanner's account check and its burn. -/
  | accountExists
  | burnFromDeposit

def CapOp.Ans : CapOp → Type
  | dateNow _ => ℤ
  | capSumMilliViz .. => ℕ
  | tryReserveCap .. => Bool
  | accountExists => Bool
  | _ => Unit

abbrev CapM := Prog CapOp CapOp.Ans String

namespace CircuitBreaker

variable (policy : CapPolicy)

def check (amount : ℕ) : CapM (Option CapRejection) := do
  let now : ℤ ← Prog.ask (CapOp.dateNow .check)
  if policy.perTxMilliViz < amount then pure (some .overPerTx)
  else do
    let sum : ℕ ← Prog.ask (CapOp.capSumMilliViz (now - dayMs) now)
    if policy.rolling24hMilliViz < sum + amount then pure (some .over24h)
    else if policy.manualReviewAboveMilliViz < amount then pure (some .needsManualReview)
    else pure none

def record (amount : ℕ) : CapM Unit := do
  let now : ℤ ← Prog.ask (CapOp.dateNow .record)
  Prog.ask (CapOp.recordCap amount now)

def checkAndRecord (amount : ℕ) : CapM (Option CapRejection) := do
  let now : ℤ ← Prog.ask (CapOp.dateNow .reserve)
  if policy.perTxMilliViz < amount then pure (some .overPerTx)
  else do
    let reserved : Bool ←
      Prog.ask (CapOp.tryReserveCap amount policy.rolling24hMilliViz (now - dayMs) now)
    if reserved then
      if policy.manualReviewAboveMilliViz < amount then pure (some .needsManualReview)
      else pure none
    else pure (some .over24h)

end CircuitBreaker

/-- The scanner's use of the cap for one transfer: a failed burn or record releases the claim. -/
def scannerCapUse (policy : CapPolicy) (amount : ℕ) : CapM Unit := do
  match ← CircuitBreaker.check policy amount with
  | some _ => pure ()
  | none => do
    let accountExists : Bool ← Prog.ask CapOp.accountExists
    if accountExists then
      tryCatch (do
        Prog.ask CapOp.burnFromDeposit
        CircuitBreaker.record amount) fun _ => pure ()
    else pure ()

/-! ## The window among its callers -/

/-- How one await comes out. -/
structure CapInput where
  fails : Option String := none
  clock : ℤ := 0
  accountExists : Bool := true

def CapOp.run (i : CapInput) (s : CapWindow) : (o : CapOp) → CapWindow × o.Ans
  | dateNow _ => (s, i.clock)
  | capSumMilliViz since now => s.capSumMilliViz since now
  | recordCap amount now => (s.recordCap amount now, ())
  | tryReserveCap amount cap since now => s.tryReserveCap amount cap since now
  | accountExists => (s, i.accountExists)
  | burnFromDeposit => (s, ())

/-- A call that throws has changed nothing. -/
def CapOp.exec (o : CapOp) (i : CapInput) (s : CapWindow) : CapWindow × Except String o.Ans :=
  match i.fails with
  | some e => (s, .error e)
  | none => ((o.run i s).1, .ok (o.run i s).2)

inductive CapCaller
  /-- A watcher or the recovery of its stale rows. -/
  | watcher (amount : ℕ)
  | scanner (amount : ℕ)

def capSystem (policy : CapPolicy) :
    PoolSystem CapOp CapOp.Ans String CapWindow CapCaller CapInput Empty where
  body
    | .watcher amount => do let _ ← CircuitBreaker.checkAndRecord policy amount
    | .scanner amount => scannerCapUse policy amount
  exec := CapOp.exec
  act m := m.elim

abbrev CapWorld := Pool CapOp CapOp.Ans String CapWindow

abbrev CapEvent := PoolEvent CapCaller CapInput Empty

def CapWorld.init : CapWorld := ⟨⟨[]⟩, []⟩

/-- A scanner past its check and not past its record. -/
def MidRecord : CapOp → Prop
  | .accountExists => True
  | .burnFromDeposit => True
  | .dateNow .record => True
  | .recordCap .. => True
  | _ => False

/-- No recorded timestamp is later than `now`, and none of the day before it has been pruned. -/
def InOrder (s : CapWindow) (now : ℤ) : Prop :=
  ∀ r ∈ s.rows, r.ts ≤ now ∧ (now - dayMs ≤ r.ts → r.live = true)

/-- The calls reach the store in the order of their clocks, and nothing is recorded while another
scanner is between its check and its record. -/
def CapOrderlyAt (w : CapWorld) (n : ℕ) : CapOp → Prop
  | .capSumMilliViz _ now => ∀ r ∈ w.shared.rows, r.ts ≤ now
  | .recordCap _ now =>
    InOrder w.shared now ∧ ∀ m o, m ≠ n → w.standsAt m = some o → ¬ MidRecord o
  | .tryReserveCap _ _ _ now =>
    InOrder w.shared now ∧ ∀ m o, m ≠ n → w.standsAt m = some o → ¬ MidRecord o
  | _ => True

def CapOrderly (w : CapWorld) : CapEvent → Prop
  | .step n _ => ∀ o, w.standsAt n = some o → CapOrderlyAt w n o
  | _ => True

end VizGateway
