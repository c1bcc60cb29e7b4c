import VizGateway.Lib.Claims
import VizGateway.MemoryStore

/-!
# An id is claimed once

Between two deletes of an id one enqueue at most wins its insert, and the row keeps what that one
wrote. An enqueue that lost changes no row; it looks at the digest of the row there, and when that
is another one it pauses before it returns. On SQLite the insert, the look and the pause are
statements of their own, with those of other processes between them.
-/

namespace VizGateway

open Runs

/-- What a row keeps of the enqueue that won its id. -/
structure Claimed (input : EnqueueInput) (now : ℤ) (r : OutboxRecord) : Prop where
  direction : r.direction = input.direction
  remoteChain : r.remoteChain = input.remoteChain
  recipient : r.recipient = input.recipient
  sender : r.sender = input.sender
  amountMilliViz : r.amountMilliViz = input.amountMilliViz
  digest : r.digest = input.digest
  parentId : r.parentId = input.parentId
  blockNum : r.blockNum = input.blockNum
  createdAt : r.createdAt = now

theorem claimed_of_event {input : EnqueueInput} {now : ℤ} {r : OutboxRecord}
    (h : r.event = (input.toRecord now).event) : Claimed input now r where
  direction := OutboxRecord.eq_of_event h OutboxRecord.direction fun _ => rfl
  remoteChain := OutboxRecord.eq_of_event h OutboxRecord.remoteChain fun _ => rfl
  recipient := OutboxRecord.eq_of_event h OutboxRecord.recipient fun _ => rfl
  sender := OutboxRecord.eq_of_event h OutboxRecord.sender fun _ => rfl
  amountMilliViz := OutboxRecord.eq_of_event h OutboxRecord.amountMilliViz fun _ => rfl
  digest := OutboxRecord.eq_of_event h OutboxRecord.digest fun _ => rfl
  parentId := OutboxRecord.eq_of_event h OutboxRecord.parentId fun _ => rfl
  blockNum := OutboxRecord.eq_of_event h OutboxRecord.blockNum fun _ => rfl
  createdAt := OutboxRecord.eq_of_event h OutboxRecord.createdAt fun _ => rfl

section Discipline

variable {σ ε : Type} (step : σ → ε → σ) (row : String → σ → Option OutboxRecord)
  (wins : String → σ → ε → EnqueueInput × ℤ → Prop) (deletes : String → σ → ε → Prop)

/-- One winner between two deletes, whose fields stay in the row until the next. -/
structure ClaimedOnce (s : σ) (es : List ε) : Prop where
  once : ∀ {pre e mid e' post id c c'}, es = pre ++ e :: (mid ++ e' :: post) →
    wins id (run step s pre) e c → wins id (run step s (pre ++ e :: mid)) e' c' →
    ∃ m₁ d m₂, mid = m₁ ++ d :: m₂ ∧ deletes id (run step s (pre ++ e :: m₁)) d
  kept : ∀ {pre e mid post id c}, es = pre ++ e :: (mid ++ post) → wins id (run step s pre) e c →
    Meets step (fun t d => ¬ deletes id t d) (run step s (pre ++ [e])) mid →
    ∃ r, row id (run step s (pre ++ e :: mid)) = some r ∧ Claimed c.1 c.2 r

variable {step row wins deletes}

theorem claimedOnce_of_slot {Inv : σ → Prop}
    (S : ∀ id, Slot step Inv (fun s => (row id s).map OutboxRecord.event)
      (fun s e f => ∃ c, wins id s e c ∧ f = (c.1.toRecord c.2).event) (deletes id))
    {s : σ} (hs : Inv s) (es : List ε) : ClaimedOnce step row wins deletes s es := by
  have hinv : ∀ pre, Inv (run step s pre) := fun pre =>
    run_inv (C := fun _ _ => True) (fun s e h _ => (S "").inv s e h) hs meets_true
  constructor
  · rintro pre e mid e' post id c c' - hc hc'
    simp only [run_append, run_cons] at hc' ⊢
    exact (S id).released_between (hinv pre) ⟨c, hc, rfl⟩ ⟨c', hc', rfl⟩
  · rintro pre e mid post id c - hc hm
    rw [run_append, run_cons, run_nil] at hm
    have hheld := (S id).holds_claim (hinv pre) ⟨c, hc, rfl⟩ hm
    obtain ⟨r, hr, hevent⟩ := Option.map_eq_some_iff.1 hheld
    exact ⟨r, by simpa only [run_append, run_cons] using hr, claimed_of_event hevent⟩

end Discipline

/-! ## One statement -/

namespace SqliteClaims

open SqliteGatewayStore

variable {w : SqliteWorld} {n : ℕ} {i : Planner} {input : EnqueueInput} {now : ℤ}
  {es : List (SessionEvent (StoreCall × ℤ) Planner)}

/-- The row of an id, as `get` returns it. -/
def row (id : String) (w : SqliteWorld) : Option OutboxRecord :=
  (Keyed.get OutboxRow.id id w.shared.action_outbox).map rowToRecord

/-- An enqueue with a program left to run. -/
abbrev enqueueCall (c : EnqueueInput × ℤ) (p : SqlM Bool) : (r : StoreCall × ℤ) × SqlM r.1.Ans :=
  ⟨(.enqueue c.1, c.2), p⟩

/-- An enqueue of the id returns true at this step. -/
def Wins (id : String) (w : SqliteWorld) (e : SessionEvent (StoreCall × ℤ) Planner)
    (c : EnqueueInput × ℤ) : Prop :=
  c.1.id = id ∧ ∃ n, w.live n ≠ some (enqueueCall c (.ret true)) ∧
    (w.step sqliteSystem e).live n = some (enqueueCall c (.ret true))

def Deletes (id : String) (w : SqliteWorld) (e : SessionEvent (StoreCall × ℤ) Planner) : Prop :=
  ∃ n i r k, e = .step n i ∧ w.live n = some ⟨r, .call (.deleteById id) k⟩

@[simp] theorem event_rowToRecord_toRow :
    (rowToRecord (input.toRow now)).event = (input.toRecord now).event := by
  simp [rowToRecord, EnqueueInput.toRow, EnqueueInput.toRecord, OutboxRecord.event, ofNumeral_repr]

theorem updateOutbox_keeps {db : Database} {id : String} {r : OutboxRow}
    (h : Keyed.get OutboxRow.id id db.action_outbox = some r) (id' : String)
    {f : OutboxRow → OutboxRow} (hid : ∀ r, (f r).id = r.id)
    (hf : ∀ r, (rowToRecord (f r)).event = (rowToRecord r).event) :
    (Keyed.get OutboxRow.id id (db.updateOutbox id' f).action_outbox).map
      (fun r => (rowToRecord r).event) = some (rowToRecord r).event := by
  simp only [Database.updateOutbox]
  rw [Keyed.get_update hid, h]
  split_ifs
  · exact congrArg some (hf r)
  · rfl

/-- Apart from its delete, no statement takes an id's row away or changes what it keeps. -/
theorem exec_keeps {o : SqlOp} {pl : Planner} {db : Database} {id : String} {f : OutboxRecord}
    (ho : o ≠ .deleteById id)
    (h : (Keyed.get OutboxRow.id id db.action_outbox).map (fun r => (rowToRecord r).event) = some f) :
    (Keyed.get OutboxRow.id id (o.exec pl db).1.action_outbox).map
      (fun r => (rowToRecord r).event) = some f := by
  obtain ⟨r, hr, rfl⟩ := Option.map_eq_some_iff.1 h
  rcases o with row | _ | _ | ⟨id', status, patch, now⟩ | ⟨id', fee, now⟩ | id' | _ | _ | _ | _ | _ |
    _ | _ | _ | _ | _ | _ | _ | _ | _ | _ | _
  case insertOutbox =>
    simp only [SqlOp.exec, Database.insertOutbox, Keyed.get_insertNew, hr]
    split_ifs <;> rfl
  case updateStatus => exact updateOutbox_keeps hr id' (fun _ => rfl) fun _ => rfl
  case updateFee => exact updateOutbox_keeps hr id' (fun _ => rfl) fun _ => rfl
  case deleteById =>
    have hne : id ≠ id' := fun he => ho (he ▸ rfl)
    simp only [SqlOp.exec]
    rw [Keyed.get_erase, if_neg hne, hr]
    rfl
  case reserveCap =>
    simp only [SqlOp.exec, Database.reserveCap]
    split_ifs <;> simp [hr]
  case reserveRate =>
    simp only [SqlOp.exec, Database.reserveRate]
    split_ifs <;> simp [hr]
  case insertSigned =>
    simp only [SqlOp.exec]
    split_ifs <;> simp [hr, Database.putSigned]
  case updateSigned =>
    simp only [SqlOp.exec]
    split_ifs <;> simp [hr, Database.putSigned]
  all_goals simp [SqlOp.exec, Database.onDeposits, Database.setKey, hr]

/-! ## Where an enqueue can stand -/

/-- The rest of an enqueue that found another digest. -/
def rest (reason : String) : SqlM Bool := do
  pause reason
  return false

def lastWrite (reason : String) : SqlM Bool := do
  setKey "pause_reason" reason
  return false

/-- The points of an enqueue. -/
inductive Stands (input : EnqueueInput) (now : ℤ) : SqlM Bool → Prop
  | inserting : Stands input now (enqueue now input)
  | won : Stands input now (.ret true)
  | looking : Stands input now (lookAtDigest input)
  | pausing (reason : String) : Stands input now (rest reason)
  | explaining (reason : String) : Stands input now (lastWrite reason)
  | lost : Stands input now (.ret false)

/-- An enqueue goes from one of its points to another. -/
theorem Stands.next {p : SqlM Bool} (h : Stands input now p) {o : SqlOp}
    {k : Except Empty o.Ans → SqlM Bool} (hp : p = .call o k) (x : Except Empty o.Ans) :
    Stands input now (k x) := by
  rcases x with e | a
  · exact e.elim
  rcases h with _ | _ | _ | reason | reason | _
  case inserting =>
    cases hp
    have hbranch : Stands input now (if a = 1 then .ret true else lookAtDigest input) := by
      split_ifs
      · exact .won
      · exact .looking
    exact hbranch
  case looking =>
    cases hp
    rcases a with _ | stored
    · exact .lost
    · have hbranch : Stands input now (if stored ≠ input.digest then
          rest (Outbox.collisionReason input.id stored input.digest) else .ret false) := by
        split_ifs
        · exact .pausing _
        · exact .lost
      exact hbranch
  case pausing =>
    cases hp
    exact .explaining reason
  case explaining =>
    cases hp
    exact .lost
  case won => cases hp
  case lost => cases hp

theorem stands_of_residual {p : SqlM Bool}
    (h : Sessions.Residual (enqueue now input) p) : Stands input now p := by
  induction h with
  | refl => exact .inserting
  | next x _ ih => exact ih.next rfl x

/-- Every live enqueue stands at one of its points. -/
def Sound (w : SqliteWorld) : Prop :=
  ∀ n c p, w.live n = some (enqueueCall c p) → Stands c.1 c.2 p

theorem sound_of_onTrack (h : Sessions.OnTrack sqliteSystem w) : Sound w :=
  fun n c p hp => stands_of_residual (h n (.enqueue c.1, c.2) p hp)

/-! ## One step of a call -/

/-- Only the insert of a free id makes an enqueue return true. -/
theorem Stands.insert {p : SqlM Bool} (h : Stands input now p) {o : SqlOp}
    {k : Except Empty o.Ans → SqlM Bool} (hp : p = .call o k) {pl : Planner} {db : Database}
    (hk : k (.ok (o.exec pl db).2) = .ret true) :
    Keyed.get OutboxRow.id input.id db.action_outbox = none ∧
      (o.exec pl db).1 = (db.insertOutbox (input.toRow now)).1 := by
  rcases h with _ | _ | _ | reason | reason | _
  case inserting =>
    cases hp
    refine ⟨?_, rfl⟩
    rcases hget : Keyed.get OutboxRow.id input.id db.action_outbox with _ | r
    · rfl
    · have hchanges : (db.insertOutbox (input.toRow now)).2 = 0 := by
        simp [Database.insertOutbox, EnqueueInput.toRow, hget]
      have hlook : (if (db.insertOutbox (input.toRow now)).2 = 1 then .ret true
          else lookAtDigest input) = (.ret true : SqlM Bool) := hk
      rw [hchanges] at hlook
      cases hlook
  case looking =>
    cases hp
    rcases hget : Keyed.get OutboxRow.id input.id db.action_outbox with _ | r
    · simp only [SqlOp.exec, hget] at hk
      cases hk
    · simp only [SqlOp.exec, hget] at hk
      have hbranch : (if r.digest ≠ input.digest then
          rest (Outbox.collisionReason input.id r.digest input.digest) else .ret false) =
          (.ret true : SqlM Bool) := hk
      split_ifs at hbranch <;> cases hbranch
  case pausing =>
    cases hp
    cases hk
  case explaining =>
    cases hp
    cases hk
  case won => cases hp
  case lost => cases hp

/-- Every other step of an enqueue leaves the rows as they are. -/
theorem Stands.outbox {p : SqlM Bool} (h : Stands input now p) {o : SqlOp}
    {k : Except Empty o.Ans → SqlM Bool} (hp : p = .call o k) {pl : Planner} {db : Database}
    (hk : k (.ok (o.exec pl db).2) ≠ .ret true) :
    (o.exec pl db).1.action_outbox = db.action_outbox := by
  rcases h with _ | _ | _ | reason | reason | _
  case inserting =>
    cases hp
    rcases hget : Keyed.get OutboxRow.id input.id db.action_outbox with _ | r
    · have hchanges : (db.insertOutbox (input.toRow now)).2 = 1 := by
        simp [Database.insertOutbox, EnqueueInput.toRow, hget]
      have hwon : (if (db.insertOutbox (input.toRow now)).2 = 1 then .ret true
          else lookAtDigest input) ≠ (.ret true : SqlM Bool) := hk
      rw [hchanges] at hwon
      exact absurd rfl hwon
    · simp [SqlOp.exec, Database.insertOutbox, Keyed.insertNew, EnqueueInput.toRow, hget]
  all_goals cases hp
  all_goals rfl

/-- An enqueue that returns true at a step has carried out its insert on a free id. -/
theorem insert_of_wins {id : String} {e : SessionEvent (StoreCall × ℤ) Planner}
    {c : EnqueueInput × ℤ} (hsound : Sound w) (h : Wins id w e c) :
    c.1.id = id ∧ Keyed.get OutboxRow.id id w.shared.action_outbox = none ∧
      (w.step sqliteSystem e).shared = (w.shared.insertOutbox (c.1.toRow c.2)).1 := by
  obtain ⟨rfl, n, hbefore, hafter⟩ := h
  refine ⟨rfl, ?_⟩
  rcases Sessions.step_cases (S := sqliteSystem) w e with ⟨m, i, r, o, k, rfl, hm⟩ | ⟨-, hlive⟩
  · by_cases hmn : m = n
    · subst hmn
      rw [Sessions.live_step hm, Option.some.injEq, Sigma.mk.injEq] at hafter
      obtain ⟨rfl, hk⟩ := hafter
      rw [Sessions.step_at hm]
      exact (hsound m c _ hm).insert rfl (eq_of_heq hk)
    · rw [Sessions.step_at hm] at hafter
      simp only [Sessions.live, List.getElem?_set_ne hmn] at hafter
      exact absurd hafter hbefore
  · rcases hlive n _ _ hafter with h | ⟨-, -, h⟩
    · exact absurd h hbefore
    · cases h

theorem slot (id : String) : Slot (Sessions.step sqliteSystem) (Sessions.OnTrack sqliteSystem)
    (fun w => (row id w).map OutboxRecord.event)
    (fun w e f => ∃ c, Wins id w e c ∧ f = (c.1.toRecord c.2).event) (Deletes id) where
  inv w e h := Sessions.onTrack_step h e
  claim w e f h := by
    rintro ⟨c, hwins, rfl⟩
    obtain ⟨rfl, hfree, hinsert⟩ := insert_of_wins (sound_of_onTrack h) hwins
    refine ⟨by simp [row, hfree], ?_⟩
    have hget : Keyed.get OutboxRow.id c.1.id
        (w.step sqliteSystem e).shared.action_outbox = some (c.1.toRow c.2) := by
      rw [hinsert]
      simp [Database.insertOutbox, Keyed.get_insertNew, hfree]
    simp [row, hget]
  keep w e f h hdel hholds := by
    simp only [row, Option.map_map, Function.comp_def] at hholds ⊢
    rcases Sessions.step_cases (S := sqliteSystem) w e with ⟨m, i, r, o, k, rfl, hm⟩ | ⟨hs, -⟩
    · have ho : o ≠ .deleteById id := by
        rintro rfl
        exact hdel ⟨m, i, r, k, rfl, hm⟩
      rw [Sessions.step_at hm]
      exact exec_keeps ho hholds
    · rw [hs]
      exact hholds

/-- A step of an enqueue that does not return true there leaves every row as it is. -/
theorem outbox_of_not_wins {c : EnqueueInput × ℤ} {p : SqlM Bool} (hsound : Sound w)
    (hlive : w.live n = some (enqueueCall c p)) (hwins : ¬ Wins c.1.id w (.step n i) c) :
    (w.step sqliteSystem (.step n i)).shared.action_outbox = w.shared.action_outbox := by
  rcases p with a | e | ⟨o, k⟩
  · simp [Sessions.step, hlive]
  · exact e.elim
  · rw [Sessions.step_at hlive]
    refine (hsound n c _ hlive).outbox rfl fun hk => hwins ⟨rfl, n, ?_, ?_⟩
    · rw [hlive]
      intro h
      cases h
    · rw [Sessions.live_step hlive]
      exact congrArg (fun q => some (enqueueCall c q)) hk

/-- An enqueue that loses its insert stands at its look. -/
theorem looking_of_not_wins {c : EnqueueInput × ℤ}
    (hlive : w.live n = some (enqueueCall c (enqueue c.2 c.1)))
    (hwins : ¬ Wins c.1.id w (.step n i) c) :
    (w.step sqliteSystem (.step n i)).live n = some (enqueueCall c (lookAtDigest c.1)) := by
  have hnext : (w.step sqliteSystem (.step n i)).live n = some (enqueueCall c
      (if (w.shared.insertOutbox (c.1.toRow c.2)).2 = 1 then .ret true else lookAtDigest c.1)) :=
    Sessions.live_step hlive
  by_cases hone : (w.shared.insertOutbox (c.1.toRow c.2)).2 = 1
  · rw [if_pos hone] at hnext
    refine absurd ⟨rfl, n, ?_, hnext⟩ hwins
    rw [hlive]
    intro h
    cases h
  · rwa [if_neg hone] at hnext

/-! ## The look and the pause -/

/-- The call looks at the row of its id and, if that has another digest, sets the pause flag
afterwards. -/
def LooksAndPauses (w : SqliteWorld) (n : ℕ) (c : EnqueueInput × ℤ)
    (es : List (SessionEvent (StoreCall × ℤ) Planner)) : Prop :=
  ∃ m₁ i m₂, es = m₁ ++ .step n i :: m₂ ∧
    (run (Sessions.step sqliteSystem) w m₁).live n = some (enqueueCall c (lookAtDigest c.1)) ∧
    ∀ r, row c.1.id (run (Sessions.step sqliteSystem) w m₁) = some r → r.digest ≠ c.1.digest →
      ∃ m₃ j m₄, m₂ = m₃ ++ .step n j :: m₄ ∧
        (run (Sessions.step sqliteSystem) w
          (m₁ ++ .step n i :: (m₃ ++ [.step n j]))).shared.gateway_state "paused" = some "1"

/-- An enqueue that has lost its insert and returned has looked, and paused if it had to. -/
theorem looksAndPauses_of_returned {c : EnqueueInput × ℤ} {b : Bool}
    (hlive : w.live n = some (enqueueCall c (lookAtDigest c.1)))
    (hret : (run (Sessions.step sqliteSystem) w es).live n = some (enqueueCall c (.ret b))) :
    LooksAndPauses w n c es := by
  obtain ⟨m₁, i, m₂, rfl, hlook⟩ := Sessions.carried_out hlive hret
  refine ⟨m₁, i, m₂, rfl, hlook, fun r hr hd => ?_⟩
  rw [run_append, run_cons] at hret
  obtain ⟨q, hq, rfl⟩ := Option.map_eq_some_iff.1 hr
  have hpausing : ((run (Sessions.step sqliteSystem) w m₁).step sqliteSystem (.step n i)).live n =
      some (enqueueCall c (rest (Outbox.collisionReason c.1.id q.digest c.1.digest))) := by
    have hanswer : (sqliteSystem.exec (.selectDigest c.1.id) i
        (run (Sessions.step sqliteSystem) w m₁).shared).2 = .ok (some q.digest) := by
      simp [SqlOp.exec, hq]
    rw [Sessions.live_step hlook, hanswer]
    exact congrArg (fun q => some (enqueueCall c q)) (if_pos hd)
  obtain ⟨m₃, j, m₄, rfl, hpause⟩ := Sessions.carried_out hpausing hret
  refine ⟨m₃, j, m₄, rfl, ?_⟩
  rw [run_append, run_cons, run_append, run_cons, run_nil, Sessions.step_at hpause]
  simp [SqlOp.exec, Database.setKey]

end SqliteClaims

/-! ## In memory -/

namespace MemoryClaims

variable {s : MemoryStore} {cs : List (StoreCall × ℤ)}

/-- A call, each with its `Date.now()`. -/
def step (s : MemoryStore) (c : StoreCall × ℤ) : MemoryStore := (s.method c.2 c.1).1

def Wins (id : String) (s : MemoryStore) (e : StoreCall × ℤ) (c : EnqueueInput × ℤ) : Prop :=
  c.1.id = id ∧ e = (.enqueue c.1, c.2) ∧ (s.enqueue c.2 c.1).2 = true

def Deletes (id : String) (_ : MemoryStore) (e : StoreCall × ℤ) : Prop := e.1 = .delete id

theorem enqueue_cases (s : MemoryStore) (now : ℤ) (input : EnqueueInput) :
    (s.get input.id = none ∧ (s.enqueue now input).2 = true ∧
      (s.enqueue now input).1.rows = s.rows ++ [input.toRecord now]) ∨
    ∃ r, s.get input.id = some r ∧ (s.enqueue now input).2 = false ∧
      (s.enqueue now input).1.rows = s.rows ∧
      (r.digest ≠ input.digest → (s.enqueue now input).1.paused = true) := by
  unfold MemoryStore.enqueue
  rcases hget : s.get input.id with _ | r
  · exact .inl ⟨rfl, rfl, rfl⟩
  · right
    by_cases hd : r.digest = input.digest
    · exact ⟨r, rfl, by simp [hd], by simp [hd], fun h => absurd hd h⟩
    · exact ⟨r, rfl, by simp [hd], by simp [hd, MemoryStore.pause],
        fun _ => by simp [hd, MemoryStore.pause]⟩

theorem update_keeps {s : MemoryStore} {id : String} {f : OutboxRecord}
    (h : (s.get id).map OutboxRecord.event = some f) (id' : String)
    {g : OutboxRecord → OutboxRecord} (hid : ∀ r, (g r).id = r.id)
    (hg : ∀ r, (g r).event = r.event) :
    (Keyed.get OutboxRecord.id id (Keyed.update OutboxRecord.id id' g s.rows)).map
      OutboxRecord.event = some f := by
  obtain ⟨r, hr, rfl⟩ := Option.map_eq_some_iff.1 h
  rw [Keyed.get_update hid, show Keyed.get OutboxRecord.id id s.rows = some r from hr]
  split_ifs
  · exact congrArg some (hg r)
  · rfl

theorem step_keeps {id : String} {f : OutboxRecord} {e : StoreCall × ℤ}
    (hdel : ¬ Deletes id s e) (h : (s.get id).map OutboxRecord.event = some f) :
    ((step s e).get id).map OutboxRecord.event = some f := by
  obtain ⟨c, now⟩ := e
  rcases c
  case enqueue input =>
    rcases enqueue_cases s now input with ⟨hfree, -, hrows⟩ | ⟨r, -, -, hrows, -⟩
    · obtain ⟨r, hr, rfl⟩ := Option.map_eq_some_iff.1 h
      have hr' : Keyed.get OutboxRecord.id id s.rows = some r := hr
      simp only [step, MemoryStore.method, MemoryStore.get, hrows, Keyed.get_append_singleton, hr']
      rfl
    · simpa only [step, MemoryStore.method, MemoryStore.get, hrows] using h
  case setStatus id' status patch => exact update_keeps h id' (fun _ => rfl) fun _ => rfl
  case setFee id' fee => exact update_keeps h id' (fun _ => rfl) fun _ => rfl
  case delete id' =>
    have hne : id ≠ id' := fun he => hdel (he ▸ rfl)
    simp only [step, MemoryStore.method, MemoryStore.get, Keyed.get_erase, if_neg hne]
    exact h
  case tryReserveCap =>
    simp only [step, MemoryStore.method, MemoryStore.tryReserveCap]
    split_ifs <;> exact h
  case tryReserveSenderRate =>
    simp only [step, MemoryStore.method, MemoryStore.tryReserveSenderRate]
    split_ifs <;> exact h
  case setCursor =>
    simp only [step, MemoryStore.method, MemoryStore.setCursor]
    split_ifs <;> exact h
  case putSignedProposal =>
    simp only [step, MemoryStore.method, MemoryStore.putSignedProposal]
    split_ifs <;> exact h
  all_goals exact h

theorem slot (id : String) : Slot step (fun _ => True) (fun s => (s.get id).map OutboxRecord.event)
    (fun s e f => ∃ c, Wins id s e c ∧ f = (c.1.toRecord c.2).event) (Deletes id) where
  inv _ _ _ := trivial
  claim s e f _ := by
    rintro ⟨⟨input, now⟩, ⟨rfl, rfl, hwon⟩, rfl⟩
    rcases enqueue_cases s now input with ⟨hfree, -, hrows⟩ | ⟨r, -, hlost, -⟩
    · have hfree' : Keyed.get OutboxRecord.id input.id s.rows = none := hfree
      refine ⟨by simp [hfree], ?_⟩
      simp only [step, MemoryStore.method, MemoryStore.get, hrows, Keyed.get_append_singleton, hfree']
      simp [EnqueueInput.toRecord]
    · rw [hlost] at hwon
      cases hwon
  keep _ _ _ _ := step_keeps

end MemoryClaims

/-! ## Both stores -/

open SqliteClaims in
/-- The outbox under any interleaving: statements of any calls on SQLite, whole calls in memory. -/
theorem outbox_claims :
    (∀ db es, ClaimedOnce (Sessions.step sqliteSystem) row Wins Deletes ⟨db, []⟩ es ∧
      ∀ pre n i post c p, es = pre ++ .step n i :: post →
        let w := run (Sessions.step sqliteSystem) ⟨db, []⟩ pre
        w.live n = some (enqueueCall c p) → ¬ Wins c.1.id w (.step n i) c →
        (w.step sqliteSystem (.step n i)).shared.action_outbox = w.shared.action_outbox ∧
          (p = SqliteGatewayStore.enqueue c.2 c.1 → ∀ b,
            (run (Sessions.step sqliteSystem) ⟨db, []⟩ es).live n = some (enqueueCall c (.ret b)) →
            LooksAndPauses (w.step sqliteSystem (.step n i)) n c post)) ∧
    ∀ s cs, ClaimedOnce MemoryClaims.step (fun id s => s.get id) MemoryClaims.Wins
        MemoryClaims.Deletes s cs ∧
      ∀ pre c post, cs = pre ++ (.enqueue c.1, c.2) :: post →
        let t := run MemoryClaims.step s pre
        ¬ MemoryClaims.Wins c.1.id t (.enqueue c.1, c.2) c →
        (MemoryClaims.step t (.enqueue c.1, c.2)).rows = t.rows ∧
          ∀ r, t.get c.1.id = some r → r.digest ≠ c.1.digest →
            (MemoryClaims.step t (.enqueue c.1, c.2)).paused = true := by
  refine ⟨fun db es => ⟨claimedOnce_of_slot SqliteClaims.slot Sessions.onTrack_nil es, ?_⟩,
    fun s cs => ⟨claimedOnce_of_slot MemoryClaims.slot trivial cs, ?_⟩⟩
  · rintro pre n i post c p rfl w hlive hwins
    have hsound : Sound w := sound_of_onTrack
      (run_inv (C := fun _ _ => True) (fun _ e h _ => Sessions.onTrack_step h e)
        Sessions.onTrack_nil meets_true)
    refine ⟨outbox_of_not_wins hsound hlive hwins, ?_⟩
    rintro rfl b hret
    rw [run_append, run_cons] at hret
    exact looksAndPauses_of_returned (looking_of_not_wins hlive hwins) hret
  · rintro pre c post rfl t hlost
    rcases MemoryClaims.enqueue_cases t c.2 c.1 with ⟨-, hwon, -⟩ | ⟨r, hr, -, hrows, hpause⟩
    · exact absurd ⟨rfl, rfl, hwon⟩ hlost
    · refine ⟨hrows, fun r' hr' hd => hpause ?_⟩
      rw [hr, Option.some.injEq] at hr'
      rwa [hr']

/-- A peg-in of a deposit under a digest. -/
def pegInOf (digest : String) : EnqueueInput :=
  { id := "deposit", direction := .pegIn, recipient := "owner", amountMilliViz := 1000, digest }

/-- Two processes enqueue the deposit under different digests; the second loses. -/
def collidingRun : List (SessionEvent (StoreCall × ℤ) Planner) :=
  [.call (.enqueue (pegInOf "first"), 1), .call (.enqueue (pegInOf "second"), 2),
    .step 0 .inOrder]

open SqliteClaims in
theorem outbox_claims_sample :
    LooksAndPauses (run (Sessions.step sqliteSystem) ⟨.empty, []⟩ (collidingRun ++ [.step 1 .inOrder]))
      1 (pegInOf "second", 2) [.step 1 .inOrder, .step 1 .inOrder, .step 1 .inOrder] := by
  have hrun := (outbox_claims.1 .empty (collidingRun ++ List.replicate 4 (.step 1 .inOrder))).2
    collidingRun 1 .inOrder (List.replicate 3 (.step 1 .inOrder)) (pegInOf "second", 2) _ rfl rfl
  have hlost : ¬ Wins "deposit" (run (Sessions.step sqliteSystem) ⟨.empty, []⟩ collidingRun)
      (.step 1 .inOrder) (pegInOf "second", 2) := by
    intro h
    have hfree := (insert_of_wins (sound_of_onTrack (run_inv (C := fun _ _ => True)
      (fun _ e h _ => Sessions.onTrack_step h e) Sessions.onTrack_nil meets_true)) h).2.1
    cases hfree
  exact (hrun hlost).2 rfl false rfl

end VizGateway
