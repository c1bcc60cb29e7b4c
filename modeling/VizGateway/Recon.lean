import VizGateway.Lib.Pool
import VizGateway.Outbox

/-!
# Recon and the pause latch

The latch is two rows of the store's key-value table, written one after the other: a flag and the
reason of the last pause. Any service pauses, a human unpauses, and recon takes its own stalled
pauses back once it can read again.
-/

namespace VizGateway

open Text

def reconStalledReasonPrefix : String := "recon cannot verify backing"

/-- The one pause class recon may clear. -/
def stalledReason (reason : String) : Bool := startsWith reason reconStalledReasonPrefix

/-- The reads `check` makes at once; a supply that could not be read is `none`. -/
structure Backing where
  locked : ℤ
  supplies : List (Option ℤ)
  unsweptFees : ℤ

/-- What recon and the callers of the latch await. -/
inductive LatchOp
  /-- The first write of `pause(reason)`. -/
  | raise (reason : String)
  /-- The first write of `unpause()`, by recon or by a human. -/
  | lower (auto : Bool)
  /-- The second write of either. -/
  | setPauseReason (reason : String)
  | isPaused
  | pauseReason
  | activeRemoteChains
  | backing (chain : Option RemoteChainId)
  | minPegInFee (chain : Option RemoteChainId)
  | tonBalanceNano
  /-- `this.consecutiveFailures++` of one chain's recon. -/
  | failed (recon : ℕ)
  | read (recon : ℕ)
  /-- `this.okStreak++`. -/
  | okTick
  | badTick
  deriving DecidableEq

def LatchOp.Ans : LatchOp → Type
  | isPaused => Bool
  | pauseReason => Option String
  | activeRemoteChains => List String
  | backing _ => Backing
  | minPegInFee _ => Option ℤ
  | tonBalanceNano => ℤ
  | failed _ => ℕ
  | okTick => ℕ
  | _ => Unit

abbrev LatchM := Prog LatchOp LatchOp.Ans String

namespace Latch

def pause (reason : String) : LatchM Unit := do
  Prog.ask (LatchOp.raise reason)
  Prog.ask (LatchOp.setPauseReason reason)

def unpause (auto : Bool) : LatchM Unit := do
  Prog.ask (LatchOp.lower auto)
  Prog.ask (LatchOp.setPauseReason "")

def isPaused : LatchM Bool := Prog.ask LatchOp.isPaused

def pauseReason : LatchM (Option String) := Prog.ask LatchOp.pauseReason

end Latch

/-- `Recon`, one a chain. -/
structure Recon where
  chain : Option RemoteChainId
  driftToleranceMilliViz : ℤ
  maxConsecutiveFailures : ℕ
  sanityFloorMilliViz : Option ℤ

namespace Recon

/-- The reason to pause at these figures, if there is one: a fee below the floor, fees swept
twice, or circulation and unswept fees above what is locked. -/
def breach (r : Recon) (locked circulating unsweptFees : ℤ) (minFee : Option ℤ) : Option String :=
  let chain := r.chain.elim "all" RemoteChainId.toString
  match r.sanityFloorMilliViz, minFee with
  | some floor, some fee =>
    if fee < floor then
      some s!"pinned PEG_IN fee {fee} mVIZ below sanity floor {floor} ({chain})"
    else backed
  | _, _ => backed
where
  backed : Option String :=
    if unsweptFees < 0 then
      some (s!"over-swept fees {unsweptFees} mVIZ: confirmed FEE_SWEEPs exceed derived peg-in fees "
        ++ "(mis-pinning or double sweep)")
    else
      let drift := locked - (circulating + unsweptFees)
      if drift < -r.driftToleranceMilliViz then
        some (s!"under-backing {drift} mVIZ (locked={locked}, circulating={circulating}, "
          ++ s!"unsweptFees={unsweptFees})")
      else none

/-- The lowest pinned fee, read only for a sanity floor. -/
def minFee (r : Recon) : LatchM (Option ℤ) :=
  match r.sanityFloorMilliViz with
  | some _ => Prog.ask (LatchOp.minPegInFee r.chain)
  | none => pure none

/-- `Recon.check`: `none` when a read failed. -/
def check (r : Recon) : LatchM (Option Bool) := do
  let settled ← tryCatch (do return some (← Prog.ask (LatchOp.backing r.chain))) fun _ => pure none
  match settled with
  | none => pure none
  | some b =>
    match b.supplies.mapM id with
    | none => pure none
    | some supplies => do
      let minFee ← r.minFee
      match r.breach b.locked supplies.sum b.unsweptFees minFee with
      | some reason => do
        Latch.pause reason
        pure (some false)
      | none => pure (some true)

/-- `Recon.onCheckResult` of the recon at place `n`. -/
def onCheckResult (r : Recon) (n : ℕ) : Option Bool → LatchM Unit
  | none => do
    let failures : ℕ ← Prog.ask (LatchOp.failed n)
    if r.maxConsecutiveFailures ≤ failures then
      Latch.pause s!"{reconStalledReasonPrefix} ({failures} consecutive failures)"
    else pure ()
  | some _ => Prog.ask (LatchOp.read n)

end Recon

structure ReconOpts where
  recons : List Recon
  autoUnpauseOkTicks : ℤ
  covered : List String
  gramReserve : Option ℤ

/-- `AutoUnpause.onTick`. -/
def AutoUnpause.onTick (okTicksRequired : ℤ) : Bool → LatchM Unit
  | false => Prog.ask LatchOp.badTick
  | true => do
    let okStreak : ℕ ← Prog.ask LatchOp.okTick
    if okTicksRequired ≤ 0 ∨ (okStreak : ℤ) < okTicksRequired then pure ()
    else do
      let paused ← Latch.isPaused
      if paused then do
        let reason ← Latch.pauseReason
        if stalledReason (reason.getD "") then Latch.unpause true else pure ()
      else pure ()

namespace ReconOpts

variable (o : ReconOpts)

/-- A chain that minted and has no recon pauses the gateway. -/
def enforceActiveChainCoverage : LatchM Unit := do
  let active : List String ← Prog.ask LatchOp.activeRemoteChains
  match active.filter (!o.covered.contains ·) with
  | [] => pure ()
  | uncovered =>
    let missing := ",".intercalate uncovered
    let covered := ",".intercalate o.covered
    Latch.pause (s!"[recon] active chain(s) [{missing}] have minted wVIZ but are not "
      ++ s!"covered by recon (covered: [{covered}]). A chain with live circulating "
      ++ "wVIZ must never drop out of recon — restore its config "
      ++ "(GRAM_JETTON_MINTER_ADDRESS / SOLANA_WVIZ_MINT).")

/-- The multisig wallet's TON reserve; its errors are swallowed. -/
def gramReserveCheck : LatchM Unit :=
  match o.gramReserve with
  | none => pure ()
  | some floor => tryCatch (do
      let bal : ℤ ← Prog.ask LatchOp.tonBalanceNano
      if bal < floor then Latch.pause s!"GRAM TON reserve low: {bal} nano < {floor}" else pure ())
    fun _ => pure ()

/-- The chains in order; the tick is good if every one of them is. -/
def checkAll : ℕ → List Recon → LatchM Bool
  | _, [] => pure true
  | n, r :: rs => do
    let result ← r.check
    r.onCheckResult n result
    let rest ← checkAll (n + 1) rs
    pure (result = some true && rest)

/-- One turn of recon's loop; an error ends the turn. -/
def tick : LatchM Unit := do
  o.enforceActiveChainCoverage
  let allOk ← checkAll 0 o.recons
  o.gramReserveCheck
  AutoUnpause.onTick o.autoUnpauseOkTicks allOk

end ReconOpts

/-! ## The latch among its callers -/

structure LatchState where
  paused : Bool := false
  reason : Option String := none
  /-- Recon's own memory. -/
  failures : List ℕ
  okStreak : ℕ := 0
  /-- Some pause outside the stalled class was raised since the last human unpause. -/
  standing : Bool := false
  /-- The pauses raised since then that have not written their reason. -/
  unwritten : List String := []

/-- How one await comes out. -/
structure LatchInput where
  fails : Option String := none
  active : List String := []
  backing : Backing := ⟨0, [], 0⟩
  minFee : Option ℤ := none
  tonBalance : ℤ := 0

def LatchOp.run (i : LatchInput) (s : LatchState) : (o : LatchOp) → LatchState × o.Ans
  | raise reason =>
    ({ s with
        paused := true
        standing := s.standing || !stalledReason reason
        unwritten := reason :: s.unwritten }, ())
  | lower auto =>
    (if auto then { s with paused := false }
      else { s with paused := false, standing := false, unwritten := [] }, ())
  | setPauseReason reason =>
    ({ s with reason := some reason, unwritten := s.unwritten.erase reason }, ())
  | isPaused => (s, s.paused)
  | pauseReason => (s, s.reason)
  | activeRemoteChains => (s, i.active)
  | backing _ => (s, i.backing)
  | minPegInFee _ => (s, i.minFee)
  | tonBalanceNano => (s, i.tonBalance)
  | failed n =>
    let failures := s.failures.modify n (· + 1)
    ({ s with failures }, failures.getD n 0)
  | read n => ({ s with failures := s.failures.set n 0 }, ())
  | okTick => ({ s with okStreak := s.okStreak + 1 }, s.okStreak + 1)
  | badTick => ({ s with okStreak := 0 }, ())

def LatchOp.exec (o : LatchOp) (i : LatchInput) (s : LatchState) :
    LatchState × Except String o.Ans :=
  match i.fails with
  | some e => (s, .error e)
  | none => ((o.run i s).1, .ok (o.run i s).2)

inductive LatchCaller
  /-- A service or a human. -/
  | pause (reason : String)
  | unpause
  | recon

inductive ReconRestart
  | restart

def latchSystem (o : ReconOpts) :
    PoolSystem LatchOp LatchOp.Ans String LatchState LatchCaller LatchInput ReconRestart where
  body
    | .pause reason => Latch.pause reason
    | .unpause => Latch.unpause false
    | .recon => o.tick
  exec := LatchOp.exec
  act _ s := { s with failures := List.replicate o.recons.length 0, okStreak := 0 }

abbrev LatchWorld := Pool LatchOp LatchOp.Ans String LatchState

abbrev LatchEvent := PoolEvent LatchCaller LatchInput ReconRestart

def LatchWorld.init (o : ReconOpts) : LatchWorld :=
  ⟨{ failures := List.replicate o.recons.length 0 }, []⟩

/-- Recon takes back a pause that is not its own to take back. -/
def ClearsStanding (w : LatchWorld) : LatchEvent → Prop
  | .step n i => w.standsAt n = some (.lower true) ∧ i.fails = none ∧ w.shared.standing = true
  | _ => False

/-- The orders of steps the latch survives. No stalled pause writes its reason over the written
reason of another class; recon does not read the reason between the two writes of a pause of
another class, nor is one raised between its read and its unpause. -/
def LatchOrderlyAt (w : LatchWorld) : LatchOp → Prop
  | .setPauseReason reason =>
    stalledReason reason = true → w.shared.standing = true →
      ∃ r ∈ w.shared.unwritten, stalledReason r = false
  | .pauseReason => ∀ r ∈ w.shared.unwritten, stalledReason r = true
  | .raise reason => stalledReason reason = true ∨ ∀ m, w.standsAt m ≠ some (.lower true)
  | _ => True

def LatchOrderly (w : LatchWorld) : LatchEvent → Prop
  | .step n _ => ∀ op, w.standsAt n = some op → LatchOrderlyAt w op
  | _ => True

/-! ## The loop, one iteration after the other -/

def gramReserveReasonPrefix : String := "GRAM TON reserve low"

/-- Recon's own counters, which cannot fail. -/
def LatchOp.inMemory : LatchOp → Bool
  | failed _ | read _ | okTick | badTick => true
  | _ => false

/-- The calls behind whose errors nothing is lost: the reads `check` settles, the reserve check, and
the unpause that comes after both counters. -/
def LatchOp.guarded : LatchOp → Bool
  | backing _ | tonBalanceNano | isPaused | pauseReason | lower _ => true
  | raise reason => startsWith reason gramReserveReasonPrefix
  | setPauseReason reason => reason = "" || startsWith reason gramReserveReasonPrefix
  | _ => false

/-- One iteration as the outside decides it: what the others have made of the latch since the last
one, and how each await comes out. -/
structure Iteration where
  paused : Bool := false
  reason : Option String := none
  await : ℕ → LatchOp → LatchInput

/-- No store call outside `guarded` throws. -/
def Iteration.Answered (it : Iteration) : Prop :=
  ∀ k op, op.inMemory = false → op.guarded = false → (it.await k op).fails = none

structure IterationState where
  latch : LatchState
  awaits : ℕ := 0
  /-- Recon has taken a pause back. -/
  cleared : Bool := false

def Iteration.start (it : Iteration) (s : LatchState) : IterationState where
  latch := { s with paused := it.paused, reason := it.reason }

def LatchOp.execIn (it : Iteration) (o : LatchOp) (s : IterationState) :
    IterationState × Except String o.Ans :=
  let await := it.await s.awaits o
  let i := if o.inMemory then { await with fails := none } else await
  let unpauses := o = .lower true ∧ i.fails = none ∧ s.latch.paused = true
  ({ latch := (o.exec i s.latch).1
     awaits := s.awaits + 1
     cleared := s.cleared || decide unpauses }, (o.exec i s.latch).2)

namespace ReconOpts

variable (o : ReconOpts)

def iterate (it : Iteration) (s : LatchState) : IterationState :=
  (o.tick.eval (LatchOp.execIn it) (it.start s)).1

/-- Recon's memory and the latch when iteration `j` begins. -/
def before (its : ℕ → Iteration) : ℕ → LatchState
  | 0 => { failures := List.replicate o.recons.length 0 }
  | j + 1 => (o.iterate (its j) (before its j)).latch

/-- The turn as far as the check of the recon `r` at place `n`. -/
def upTo (n : ℕ) (r : Recon) : LatchM (Option Bool) := do
  o.enforceActiveChainCoverage
  let _ ← checkAll 0 (o.recons.take n)
  r.check

/-- What that check returns in iteration `j`, or the error that keeps the iteration from it. -/
def result (its : ℕ → Iteration) (j n : ℕ) (r : Recon) : Except String (Option Bool) :=
  ((o.upTo n r).eval (LatchOp.execIn (its j)) ((its j).start (o.before its j))).2

def Definitive (its : ℕ → Iteration) (j n : ℕ) (r : Recon) : Prop :=
  ∃ b, o.result its j n r = .ok (some b)

def EveryChainOk (its : ℕ → Iteration) (j : ℕ) : Prop :=
  ∀ n r, o.recons[n]? = some r → o.result its j n r = .ok (some true)

/-- A chain without a definitive result for `maxConsecutiveFailures` iterations has the gateway
paused by the last of them. -/
def PausesUnread (its : ℕ → Iteration) (m : ℕ) : Prop :=
  ∀ n r, o.recons[n]? = some r → ∀ j k, 0 < k → r.maxConsecutiveFailures ≤ k → j + k ≤ m →
    (∀ i, j ≤ i → i < j + k → ¬ o.Definitive its i n r) → (o.before its (j + k)).paused = true

/-- A pause is taken back only at the end of `autoUnpauseOkTicks` iterations with every chain ok. -/
def ClearsAfterOk (its : ℕ → Iteration) (m : ℕ) : Prop :=
  ∀ j < m, (o.iterate (its j) (o.before its j)).cleared = true →
    0 < o.autoUnpauseOkTicks ∧ ∃ j₀ : ℕ, j₀ + o.autoUnpauseOkTicks = j + 1 ∧
      ∀ i, j₀ ≤ i → i ≤ j → o.EveryChainOk its i

end ReconOpts

end VizGateway
