import VizGateway.Outbox

/-!
# The dispatcher's policy

What a delivery attempt makes of a row, the children a row's new status spawns, and the action a
row is delivered as.
-/

namespace VizGateway

open ActionStatus Text

/-- What asking the coordinator to orchestrate one action returned. -/
structure DeliveryResult where
  broadcast : Bool
  txid : Option String := none
  feeMilliViz : Option ℤ := none
  error : Option String := none
  deriving DecidableEq, Repr

structure Transition where
  status : ActionStatus
  patch : StatusPatch
  deriving DecidableEq, Repr

structure RetryOpts where
  retryIntervalMs : ℤ
  windowMs : ℤ
  deriving DecidableEq, Repr

/-- The fee a confirmation pins: a positive one only. -/
def pinnedFee (fee : Option ℤ) : Option ℤ := fee.filter (0 < ·)

/-- The row's next state after a delivery attempt. -/
def planTransition (rec : OutboxRecord) (result : DeliveryResult) (now : ℤ) (opts : RetryOpts) :
    Transition :=
  if result.broadcast then
    { status := confirmed
      patch := { txid := some result.txid, lastError := some none
                 feeMilliViz := pinnedFee result.feeMilliViz } }
  else
    let attempts := rec.attempts + 1
    let error := result.error.getD "delivery failed"
    let nextAttemptAt := now + opts.retryIntervalMs
    if now - rec.createdAt ≥ opts.windowMs ∧ rec.direction = .pegIn then
      { status := refunding
        patch := { attempts := some attempts, nextAttemptAt := some nextAttemptAt
                   lastError := some (some ("window exhausted: " ++ error)) } }
    else
      { status := queued
        patch := { attempts := some attempts, lastError := some (some error)
                   nextAttemptAt := some nextAttemptAt } }

/-- Gross minus the fixed refund fee, dust floored to zero. -/
def refundAmount (gross refundFee : ℤ) : ℤ :=
  let r := gross - refundFee
  if r > 0 then r else 0

structure ChildCtx where
  feesGateAccount : String
  sweepAmountMilliViz : ℤ
  refundFeeMilliViz : ℤ
  deriving DecidableEq, Repr

/-- A child of a row: its id and digest are the row's with one suffix. -/
def childOf (rec : OutboxRecord) (suffix : String) (direction : OutboxDirection)
    (recipient : String) (amountMilliViz : ℤ) : EnqueueInput where
  id := rec.id ++ suffix
  direction
  remoteChain := rec.remoteChain
  recipient
  amountMilliViz
  digest := rec.digest ++ suffix
  status := some queued
  parentId := some rec.id

/-- The child actions a row's transition spawns. -/
def planChildren (rec : OutboxRecord) (status : ActionStatus) (ctx : ChildCtx) :
    List EnqueueInput :=
  if status = confirmed ∧ rec.direction = .pegIn ∧ ctx.sweepAmountMilliViz > 0 then
    [childOf rec ":fee" .feeSweep ctx.feesGateAccount ctx.sweepAmountMilliViz]
  else match truthy rec.sender with
    | none => []
    | some sender =>
      let amt := refundAmount rec.amountMilliViz ctx.refundFeeMilliViz
      if status = refunding ∧ rec.direction = .pegIn then
        if amt = 0 then [] else [childOf rec ":refund" .refund sender amt]
      else if status = refunding ∧ rec.direction = .pegOut
          ∧ rec.lastError = some "RETURN_INVALID_DEST" then
        if amt = 0 then [] else [childOf rec ":return" .gramReturn sender amt]
      else []

/-- The direction a row is delivered under: every release shares the peg-out shape. -/
def OutboxDirection.wire : OutboxDirection → Direction
  | .pegIn => .pegIn
  | .gramReturn => .gramReturn
  | .pegOut | .feeSweep | .refund => .pegOut

/-- The action the coordinator orchestrates for a row. -/
def recordToAction (rec : OutboxRecord) : CanonicalAction where
  direction := .known rec.direction.wire
  id := rec.id
  remoteChain := rec.remoteChain.map .known
  recipient := rec.recipient
  amountMilliViz := rec.amountMilliViz
  digest := rec.digest

/-- The sweep amount of a row's transition: the base fee of a confirmed peg-in. -/
def sweepAmountMilliViz (fees : GatewayFeeConfig) (rec : OutboxRecord) (status : ActionStatus) :
    ℤ :=
  if status = confirmed ∧ rec.direction = .pegIn then
    baseFee rec.amountMilliViz (pegInFeePolicyFor fees (rec.remoteChain.getD .solana))
  else 0

/-! ## What the policy decides -/

theorem refundAmount_nonneg (gross refundFee : ℤ) : 0 ≤ refundAmount gross refundFee := by
  unfold refundAmount
  simp only
  split_ifs <;> omega

theorem refundAmount_of_lt {gross refundFee : ℤ} (h : refundFee < gross) :
    refundAmount gross refundFee = gross - refundFee := by
  unfold refundAmount
  simp only
  rw [if_pos (by omega)]

theorem refundAmount_eq_zero {gross refundFee : ℤ} :
    refundAmount gross refundFee = 0 ↔ gross ≤ refundFee := by
  unfold refundAmount
  simp only
  split_ifs <;> omega

/-- A delivery attempt confirms, queues again or, for a peg-in out of window, refunds. -/
theorem planTransition_cases (rec : OutboxRecord) (result : DeliveryResult) (now : ℤ)
    (opts : RetryOpts) :
    ((planTransition rec result now opts).status = confirmed ∧ result.broadcast = true)
      ∨ ((planTransition rec result now opts).status = refunding ∧ result.broadcast = false
          ∧ rec.direction = .pegIn ∧ opts.windowMs ≤ now - rec.createdAt)
      ∨ ((planTransition rec result now opts).status = queued ∧ result.broadcast = false) := by
  unfold planTransition
  cases hb : result.broadcast
  · simp only [Bool.false_eq_true, ↓reduceIte]
    split_ifs with h
    · exact .inr (.inl ⟨rfl, trivial, h.2, h.1⟩)
    · exact .inr (.inr ⟨rfl, trivial⟩)
  · exact .inl ⟨rfl, rfl⟩

/-- Every child is queued under its parent's id with a suffix, and knows its parent. -/
theorem mem_planChildren {rec : OutboxRecord} {status : ActionStatus} {ctx : ChildCtx}
    {c : EnqueueInput} (h : c ∈ planChildren rec status ctx) :
    (status = confirmed ∧ rec.direction = .pegIn ∧ 0 < ctx.sweepAmountMilliViz
        ∧ c = childOf rec ":fee" .feeSweep ctx.feesGateAccount ctx.sweepAmountMilliViz)
      ∨ ∃ sender, truthy rec.sender = some sender ∧ status = refunding
        ∧ refundAmount rec.amountMilliViz ctx.refundFeeMilliViz ≠ 0
        ∧ ((rec.direction = .pegIn ∧ c = childOf rec ":refund" .refund sender
              (refundAmount rec.amountMilliViz ctx.refundFeeMilliViz))
          ∨ (rec.direction = .pegOut ∧ rec.lastError = some "RETURN_INVALID_DEST"
              ∧ c = childOf rec ":return" .gramReturn sender
                (refundAmount rec.amountMilliViz ctx.refundFeeMilliViz))) := by
  unfold planChildren at h
  split at h
  · next hfee =>
    rw [List.mem_singleton] at h
    exact .inl ⟨hfee.1, hfee.2.1, hfee.2.2, h⟩
  · split at h
    · simp at h
    · next sender hs =>
      simp only at h
      split_ifs at h with h1 h2 h3 h4
      · simp at h
      · rw [List.mem_singleton] at h
        exact .inr ⟨sender, hs, h1.1, h2, .inl ⟨h1.2, h⟩⟩
      · simp at h
      · rw [List.mem_singleton] at h
        exact .inr ⟨sender, hs, h3.1, h4, .inr ⟨h3.2.1, h3.2.2, h⟩⟩
      · simp at h

/-- A transition spawns one child at most. -/
theorem planChildren_nil_or_singleton (rec : OutboxRecord) (status : ActionStatus)
    (ctx : ChildCtx) : planChildren rec status ctx = [] ∨ ∃ c, planChildren rec status ctx = [c] := by
  unfold planChildren
  split
  · exact .inr ⟨_, rfl⟩
  · split
    · exact .inl rfl
    · simp only
      split_ifs
      · exact .inl rfl
      · exact .inr ⟨_, rfl⟩
      · exact .inl rfl
      · exact .inr ⟨_, rfl⟩
      · exact .inl rfl

theorem planChildren_refunding_pegIn {rec : OutboxRecord} (ctx : ChildCtx) {sender : String}
    (hd : rec.direction = .pegIn) (hs : truthy rec.sender = some sender)
    (ha : ctx.refundFeeMilliViz < rec.amountMilliViz) :
    planChildren rec refunding ctx = [childOf rec ":refund" .refund sender
      (refundAmount rec.amountMilliViz ctx.refundFeeMilliViz)] := by
  have hne : refundAmount rec.amountMilliViz ctx.refundFeeMilliViz ≠ 0 := by
    rw [Ne, refundAmount_eq_zero]
    omega
  unfold planChildren
  simp [hd, hs, hne]

theorem planChildren_confirmed_pegIn {rec : OutboxRecord} {ctx : ChildCtx} (hd : rec.direction = .pegIn)
    (hp : 0 < ctx.sweepAmountMilliViz) : planChildren rec confirmed ctx
      = [childOf rec ":fee" .feeSweep ctx.feesGateAccount ctx.sweepAmountMilliViz] := by
  unfold planChildren
  rw [if_pos ⟨rfl, hd, hp⟩]

end VizGateway
