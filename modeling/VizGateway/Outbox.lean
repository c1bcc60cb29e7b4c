import Mathlib
import VizGateway.Fees

/-!
# The outbox

The durable ledger of actions the services share. One row an id, advanced through its statuses by
`setStatus`, which writes the status it is given whatever the row's present one.
-/

namespace VizGateway

inductive ActionStatus
  | seen
  | queued
  | signing
  | broadcast
  | confirmed
  | held
  | refunding
  | refunded
  | failed
  deriving DecidableEq, Repr

/-- What kind of on-chain action a row drives. -/
inductive OutboxDirection
  | pegIn
  | pegOut
  | feeSweep
  | refund
  | gramReturn
  deriving DecidableEq, Repr

structure OutboxRecord where
  id : String
  direction : OutboxDirection
  remoteChain : Option RemoteChainId
  recipient : String
  sender : Option String
  amountMilliViz : ℤ
  feeMilliViz : ℤ
  digest : String
  status : ActionStatus
  attempts : ℕ
  lastError : Option String
  txid : Option String
  createdAt : ℤ
  updatedAt : ℤ
  nextAttemptAt : ℤ
  parentId : Option String
  blockNum : Option ℕ
  deriving DecidableEq, Repr

/-- The fields that claim and persist an action. -/
structure EnqueueInput where
  id : String
  direction : OutboxDirection
  remoteChain : Option RemoteChainId := none
  recipient : String
  sender : Option String := none
  amountMilliViz : ℤ
  feeMilliViz : Option ℤ := none
  digest : String
  status : Option ActionStatus := none
  lastError : Option String := none
  parentId : Option String := none
  blockNum : Option ℕ := none
  deriving DecidableEq, Repr

/-- The fields a status change may set; a field given as `some none` is set to null. -/
structure StatusPatch where
  attempts : Option ℕ := none
  lastError : Option (Option String) := none
  txid : Option (Option String) := none
  nextAttemptAt : Option ℤ := none
  feeMilliViz : Option ℤ := none
  deriving DecidableEq, Repr

/-- The row an enqueue inserts at time `now`. -/
def EnqueueInput.toRecord (input : EnqueueInput) (now : ℤ) : OutboxRecord where
  id := input.id
  direction := input.direction
  remoteChain := input.remoteChain
  recipient := input.recipient
  sender := input.sender
  amountMilliViz := input.amountMilliViz
  feeMilliViz := input.feeMilliViz.getD 0
  digest := input.digest
  status := input.status.getD .seen
  attempts := 0
  lastError := input.lastError
  txid := none
  createdAt := now
  updatedAt := now
  nextAttemptAt := 0
  parentId := input.parentId
  blockNum := input.blockNum

/-- The row after a status change at time `now`. -/
def OutboxRecord.withStatus (r : OutboxRecord) (now : ℤ) (status : ActionStatus)
    (patch : StatusPatch) : OutboxRecord :=
  { r with
    status := status
    attempts := patch.attempts.getD r.attempts
    lastError := patch.lastError.getD r.lastError
    txid := patch.txid.getD r.txid
    feeMilliViz := patch.feeMilliViz.getD r.feeMilliViz
    nextAttemptAt := patch.nextAttemptAt.getD r.nextAttemptAt
    updatedAt := now }

/-- A row without what a status change may touch. -/
def OutboxRecord.event (r : OutboxRecord) : OutboxRecord :=
  { r with
    status := .seen, attempts := 0, lastError := none, txid := none, feeMilliViz := 0
    updatedAt := 0, nextAttemptAt := 0 }

namespace OutboxRecord

@[simp] theorem event_withStatus (r : OutboxRecord) (now : ℤ) (st : ActionStatus)
    (patch : StatusPatch) : (r.withStatus now st patch).event = r.event := rfl

theorem eq_of_event {α : Type} {r r' : OutboxRecord} (h : r'.event = r.event)
    (f : OutboxRecord → α) (hf : ∀ r, f r.event = f r) : f r' = f r := by
  rw [← hf r', h, hf]

theorem direction_of_event {r r' : OutboxRecord} (h : r'.event = r.event) :
    r'.direction = r.direction := eq_of_event h OutboxRecord.direction fun _ => rfl

theorem id_of_event {r r' : OutboxRecord} (h : r'.event = r.event) : r'.id = r.id :=
  eq_of_event h OutboxRecord.id fun _ => rfl

end OutboxRecord

/-- The outbox table with the pause flag; ids are unique. -/
structure Outbox where
  rows : List OutboxRecord
  nodup : (rows.map OutboxRecord.id).Nodup
  paused : Option String

namespace Outbox

def empty : Outbox := ⟨[], List.nodup_nil, none⟩

/-- The row of an id. -/
def get (s : Outbox) (id : String) : Option OutboxRecord := s.rows.find? (·.id == id)

/-- Rewriting the row of one id, its id kept. -/
def modify (s : Outbox) (id : String) (f : OutboxRecord → OutboxRecord)
    (hf : ∀ r, (f r).id = r.id) : Outbox where
  rows := s.rows.map fun r => if r.id = id then f r else r
  nodup := by
    rw [List.map_map]
    convert s.nodup using 2
    funext r
    simp only [Function.comp_apply]
    split_ifs
    · exact hf r
    · rfl
  paused := s.paused

/-- `UPDATE action_outbox SET status = ...`, with the patch's fields where it has them. -/
def setStatus (s : Outbox) (now : ℤ) (id : String) (status : ActionStatus)
    (patch : StatusPatch := {}) : Outbox :=
  s.modify id (fun r => r.withStatus now status patch) fun _ => rfl

/-- `setFee`. -/
def setFee (s : Outbox) (now : ℤ) (id : String) (feeMilliViz : ℤ) : Outbox :=
  s.modify id (fun r => { r with feeMilliViz, updatedAt := now }) fun _ => rfl

/-- `delete`. -/
def delete (s : Outbox) (id : String) : Outbox where
  rows := s.rows.filter (·.id ≠ id)
  nodup := s.nodup.sublist ((List.filter_sublist).map _)
  paused := s.paused

/-- Appending the row of an unclaimed id. -/
def insert (s : Outbox) (r : OutboxRecord) (h : s.get r.id = none) : Outbox where
  rows := s.rows ++ [r]
  nodup := by
    rw [List.map_append, List.map_singleton, List.nodup_append]
    refine ⟨s.nodup, List.nodup_singleton _, fun a ha b hb hab => ?_⟩
    obtain ⟨r', hr', rfl⟩ := List.mem_map.1 ha
    have hne := List.find?_eq_none.1 h r' hr'
    rw [List.mem_singleton.1 hb] at hab
    simp [hab] at hne
  paused := s.paused

/-- `pause`. -/
def pause (s : Outbox) (reason : String) : Outbox := { s with paused := some reason }

/-- Why a second event under one id pauses the gateway. -/
def collisionReason (id stored incoming : String) : String :=
  s!"idempotency-key collision on {id}: stored digest {stored} != incoming {incoming} " ++
    "(two distinct events mapped to one id)"

/-- `INSERT OR IGNORE`; an id already claimed under another digest pauses the gateway. -/
def enqueue (s : Outbox) (now : ℤ) (input : EnqueueInput) : Bool × Outbox :=
  match h : s.get input.id with
  | none => (true, s.insert (input.toRecord now) h)
  | some existing =>
    if existing.digest ≠ input.digest then
      (false, s.pause (collisionReason input.id existing.digest input.digest))
    else (false, s)

/-- Rows of the given statuses whose backoff has passed, oldest first. -/
def due (s : Outbox) (now : ℤ) (statuses : List ActionStatus) : List OutboxRecord :=
  (s.rows.filter fun r => r.status ∈ statuses ∧ r.nextAttemptAt ≤ now).mergeSort
    fun a b => a.createdAt ≤ b.createdAt

/-- Rows of the given statuses left alone for longer than `ageMs`. -/
def stale (s : Outbox) (now ageMs : ℤ) (statuses : List ActionStatus) : List OutboxRecord :=
  s.rows.filter fun r => r.status ∈ statuses ∧ r.updatedAt < now - ageMs

/-! ## Reading a row back -/

theorem get_eq_some_iff {s : Outbox} {id : String} {r : OutboxRecord} :
    s.get id = some r ↔ r ∈ s.rows ∧ r.id = id := by
  constructor
  · intro h
    exact ⟨List.mem_of_find?_eq_some h, by simpa using List.find?_some h⟩
  · rintro ⟨hr, rfl⟩
    unfold get
    cases h : s.rows.find? (·.id == r.id) with
    | none =>
      have := List.find?_eq_none.1 h r hr
      simp at this
    | some r' =>
      have hid : r'.id = r.id := by simpa using List.find?_some h
      exact congrArg some (List.inj_on_of_nodup_map s.nodup (List.mem_of_find?_eq_some h) hr hid)

theorem id_of_get {s : Outbox} {id : String} {r : OutboxRecord} (h : s.get id = some r) :
    r.id = id := (get_eq_some_iff.1 h).2

theorem get_of_mem {s : Outbox} {r : OutboxRecord} (h : r ∈ s.rows) : s.get r.id = some r :=
  get_eq_some_iff.2 ⟨h, rfl⟩

@[simp] theorem get_empty (id : String) : empty.get id = none := rfl

theorem get_modify (s : Outbox) (id id' : String) (f : OutboxRecord → OutboxRecord)
    (hf : ∀ r, (f r).id = r.id) :
    (s.modify id f hf).get id' = if id' = id then (s.get id').map f else s.get id' := by
  unfold get modify
  simp only
  rw [List.find?_map]
  have hp : (fun r : OutboxRecord => r.id == id') ∘ (fun r => if r.id = id then f r else r)
      = fun r => r.id == id' := by
    funext r
    simp only [Function.comp_apply]
    split_ifs
    · rw [hf]
    · rfl
  rw [hp]
  cases h : s.rows.find? fun r => r.id == id' with
  | none => simp
  | some r =>
    have hid : r.id = id' := by simpa using List.find?_some h
    subst hid
    by_cases hr : r.id = id <;> simp [hr]

theorem get_setStatus (s : Outbox) (now : ℤ) (id id' : String) (status : ActionStatus)
    (patch : StatusPatch) :
    (s.setStatus now id status patch).get id'
      = if id' = id then (s.get id').map fun r => r.withStatus now status patch
        else s.get id' :=
  get_modify ..

theorem get_setStatus_self (s : Outbox) (now : ℤ) (id : String) (status : ActionStatus)
    (patch : StatusPatch) :
    (s.setStatus now id status patch).get id
      = (s.get id).map fun r => r.withStatus now status patch := by
  rw [get_setStatus, if_pos rfl]

theorem get_setStatus_of_ne (s : Outbox) (now : ℤ) {id id' : String} (status : ActionStatus)
    (patch : StatusPatch) (h : id' ≠ id) :
    (s.setStatus now id status patch).get id' = s.get id' := by
  rw [get_setStatus, if_neg h]

theorem get_insert (s : Outbox) (r : OutboxRecord) (h : s.get r.id = none) (id' : String) :
    (s.insert r h).get id' = if id' = r.id then some r else s.get id' := by
  unfold insert get
  rw [List.find?_append]
  by_cases hid : id' = r.id
  · subst hid
    have h' : s.rows.find? (fun x => x.id == r.id) = none := h
    simp [h']
  · simp [hid, Ne.symm hid]

theorem get_delete (s : Outbox) (id id' : String) :
    (s.delete id).get id' = if id' = id then none else s.get id' := by
  unfold delete get
  simp only
  rw [List.find?_filter]
  split_ifs with hid
  · subst hid
    rw [List.find?_eq_none]
    intro r _ hr
    simp at hr
  · congr 1
    funext r
    by_cases hr : r.id = id'
    · simp [hr, hid]
    · simp [hr]

@[simp] theorem get_pause (s : Outbox) (reason id : String) :
    (s.pause reason).get id = s.get id := rfl

/-- An enqueue claims an unclaimed id and leaves every row in place. -/
theorem get_enqueue (s : Outbox) (now : ℤ) (input : EnqueueInput) (id' : String) :
    (s.enqueue now input).2.get id'
      = if id' = input.id then some ((s.get input.id).getD (input.toRecord now))
        else s.get id' := by
  unfold enqueue
  split
  · next h => simp [get_insert, h, EnqueueInput.toRecord]
  · next existing h =>
    have hget : (if existing.digest ≠ input.digest then
        (false, s.pause (collisionReason input.id existing.digest input.digest))
        else (false, s)).2.get id' = s.get id' := by
      split_ifs <;> rfl
    rw [hget, h]
    by_cases hid : id' = input.id
    · subst hid
      simp [h]
    · simp [hid]

theorem mem_due {s : Outbox} {now : ℤ} {statuses : List ActionStatus} {r : OutboxRecord} :
    r ∈ s.due now statuses ↔ s.get r.id = some r ∧ r.status ∈ statuses ∧ r.nextAttemptAt ≤ now := by
  unfold due
  rw [List.mem_mergeSort, List.mem_filter, decide_eq_true_eq, get_eq_some_iff]
  simp

theorem mem_stale {s : Outbox} {now ageMs : ℤ} {statuses : List ActionStatus} {r : OutboxRecord} :
    r ∈ s.stale now ageMs statuses
      ↔ s.get r.id = some r ∧ r.status ∈ statuses ∧ r.updatedAt < now - ageMs := by
  unfold stale
  rw [List.mem_filter, decide_eq_true_eq, get_eq_some_iff]
  simp

end Outbox

end VizGateway
