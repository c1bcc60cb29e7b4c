import VizGateway.SqliteStore

/-!
# A sender's slots

A slot is granted on the rows the database still has of the sender. Every reservation prunes, for
whatever sender it is, but no row that a later one counts as long as their times do not go back. So
no sender is granted more slots than its limit in any window (`sender_rate_holds`).
-/

namespace VizGateway

open Runs

/-- A `tryReserveSenderRate` as the database carries it out, and its answer. -/
structure Reservation where
  sender : String
  maxPerWindow : ℤ
  windowMs : ℤ
  now : ℤ
  granted : Bool
  deriving DecidableEq

abbrev StoreCallEvent := SessionEvent (StoreCall × ℤ) Planner

/-- The reservation an event carries out, if it does. -/
def reservation (w : SqliteWorld) : StoreCallEvent → Option Reservation
  | .step n _ =>
    match w.live n with
    | some ⟨_, .call (.reserveRate sender maxPerWindow windowMs now) _⟩ =>
      some ⟨sender, maxPerWindow, windowMs, now,
        (w.shared.reserveRate sender maxPerWindow windowMs now).2⟩
    | _ => none
  | _ => none

/-- The reservations of a run, in the order they are carried out. -/
def reservations : SqliteWorld → List StoreCallEvent → List Reservation
  | _, [] => []
  | w, e :: es => (reservation w e).toList ++ reservations (w.step sqliteSystem e) es

namespace Reservation

/-- Granted to the sender later than `cutoff`. -/
def since (sender : String) (cutoff : ℤ) (r : Reservation) : Bool :=
  r.granted ∧ r.sender = sender ∧ cutoff < r.now

/-- Granted to the sender in the window that ends at `t`. -/
def within (sender : String) (windowMs t : ℤ) (r : Reservation) : Bool :=
  r.granted ∧ r.sender = sender ∧ t - windowMs < r.now ∧ r.now ≤ t

end Reservation

open Reservation

variable {w : SqliteWorld} {e : StoreCallEvent} {es : List StoreCallEvent} {r : Reservation}
  {past : List Reservation} {limit : ℕ} {windowMs : ℤ} {db : Database}

/-- The rows of the sender later than `cutoff`. -/
def rowsSince (sender : String) (cutoff : ℤ) (db : Database) : ℕ :=
  db.pegin_rate.countP fun row => row.sender = sender ∧ cutoff < row.ts

/-! ## One statement -/

theorem rates_exec {o : SqlOp} {pl : Planner}
    (h : ∀ sender m length now, o ≠ .reserveRate sender m length now) :
    (o.exec pl db).1.pegin_rate = db.pegin_rate := by
  cases o with
  | reserveRate sender m length now => exact absurd rfl (h sender m length now)
  | reserveCap amount cap sinceMs now =>
    simp only [SqlOp.exec, Database.reserveCap]
    split_ifs <;> rfl
  | insertSigned id p =>
    simp only [SqlOp.exec]
    split_ifs <;> rfl
  | updateSigned id p prev =>
    simp only [SqlOp.exec]
    split_ifs <;> rfl
  | _ => rfl

/-- An event carries out a reservation, or leaves the rows alone. -/
theorem reservation_cases (w : SqliteWorld) (e : StoreCallEvent) :
    (reservation w e = none ∧
        (w.step sqliteSystem e).shared.pegin_rate = w.shared.pegin_rate) ∨
      ∃ r, reservation w e = some r ∧
        w.shared.reserveRate r.sender r.maxPerWindow r.windowMs r.now =
          ((w.step sqliteSystem e).shared, r.granted) := by
  rcases e with r | ⟨n, i⟩ | n
  · exact .inl ⟨rfl, rfl⟩
  · rcases hlive : w.live n with _ | ⟨r, a | x | ⟨o, k⟩⟩
    · exact .inl ⟨by simp [reservation, hlive], by simp [Sessions.step, hlive]⟩
    · exact .inl ⟨by simp [reservation, hlive], by simp [Sessions.step, hlive]⟩
    · exact x.elim
    · rw [Sessions.step_at hlive]
      by_cases ho : ∃ sender m length now, o = .reserveRate sender m length now
      · obtain ⟨sender, m, length, now, rfl⟩ := ho
        refine .inr
          ⟨⟨sender, m, length, now, (w.shared.reserveRate sender m length now).2⟩, ?_, rfl⟩
        simp only [reservation, hlive]
      · simp only [not_exists] at ho
        refine .inl ⟨?_, rates_exec ho⟩
        unfold reservation
        simp only [hlive]
        split
        · next heq =>
          cases heq
          exact absurd rfl (ho _ _ _ _)
        · rfl
  · exact .inl ⟨rfl, rfl⟩

theorem countP_pruned {cutoff c : ℤ} (hc : c ≤ cutoff) (sender : String)
    (rows : List PeginRateRow) :
    (rows.filter fun row => c ≤ row.ts).countP (fun row => row.sender = sender ∧ cutoff < row.ts) =
      rows.countP fun row => row.sender = sender ∧ cutoff < row.ts := by
  rw [List.countP_filter]
  refine List.countP_congr fun row _ => ?_
  simp only [Bool.and_eq_true, decide_eq_true_eq]
  constructor
  · exact fun h => h.1
  · exact fun h => ⟨h, by omega⟩

/-- What a reservation leaves to count, from its own cutoff on. -/
theorem rowsSince_reserve {s s' : String} {m length now cutoff : ℤ} (hc : now - length ≤ cutoff) :
    rowsSince s' cutoff (db.reserveRate s m length now).1 = rowsSince s' cutoff db +
      if (db.reserveRate s m length now).2 = true ∧ s = s' ∧ cutoff < now then 1 else 0 := by
  have hpruned := countP_pruned hc s' db.pegin_rate
  unfold rowsSince Database.reserveRate
  simp only
  split_ifs with hfull hgranted hgranted
  · simp at hgranted
  · simp only [hpruned, Nat.add_zero]
  · rw [List.countP_append, hpruned]
    simp [hgranted.2]
  · rw [List.countP_append, hpruned]
    simp only [true_and] at hgranted
    simpa using hgranted

theorem room_of_granted {s : String} {m length now : ℤ}
    (h : (db.reserveRate s m length now).2 = true) : rowsSince s (now - length) db < m := by
  have hpruned := countP_pruned (le_refl (now - length)) s db.pegin_rate
  unfold Database.reserveRate at h
  simp only at h
  split_ifs at h with hfull
  rw [hpruned] at hfull
  exact not_le.1 hfull

/-! ## Runs -/

/-- What the database has of the slots granted so far, as later reservations count them, and that
they are within the limit. -/
structure Kept (limit : ℕ) (windowMs : ℤ) (past : List Reservation) (w : SqliteWorld)
    (es : List StoreCallEvent) : Prop where
  held : ∀ r ∈ reservations w es, ∀ sender,
    past.countP (since sender (r.now - windowMs)) =
      rowsSince sender (r.now - windowMs) w.shared
  bound : ∀ sender t, past.countP (within sender windowMs t) ≤ limit

theorem Kept.quiet (h : Kept limit windowMs past w (e :: es)) (hnone : reservation w e = none)
    (hrates : (w.step sqliteSystem e).shared.pegin_rate = w.shared.pegin_rate) :
    Kept limit windowMs past (w.step sqliteSystem e) es := by
  refine ⟨fun r hr sender => ?_, h.bound⟩
  have hheld := h.held r (by simp [reservations, hnone, hr]) sender
  rw [hheld, rowsSince, rowsSince, hrates]

theorem Kept.reserve (h : Kept limit windowMs past w (e :: es)) (hr : reservation w e = some r)
    (hdb : w.shared.reserveRate r.sender r.maxPerWindow r.windowMs r.now =
      ((w.step sqliteSystem e).shared, r.granted))
    (hlimit : r.maxPerWindow = limit) (hwindow : r.windowMs = windowMs)
    (hlater : ∀ r' ∈ reservations (w.step sqliteSystem e) es, r.now ≤ r'.now) :
    Kept limit windowMs (past ++ [r]) (w.step sqliteSystem e) es := by
  obtain ⟨hshared, hgranted⟩ := Prod.ext_iff.1 hdb
  simp only at hshared hgranted
  rw [hwindow] at hshared hgranted
  constructor
  · intro r' hr' sender
    have hle := hlater r' hr'
    have hheld := h.held r' (by simp [reservations, hr, hr']) sender
    have hcutoff : r.now - windowMs ≤ r'.now - windowMs := by omega
    rw [← hshared, rowsSince_reserve hcutoff, hgranted, List.countP_append, hheld]
    simp [since, List.countP_cons]
  · intro sender t
    rw [List.countP_append]
    by_cases hin : within sender windowMs t r = true
    · have hmem : r ∈ reservations w (e :: es) := by simp [reservations, hr]
      have hheld := h.held r hmem sender
      simp only [within, decide_eq_true_eq] at hin
      obtain ⟨htrue, rfl, hlow, hhigh⟩ := hin
      -- what is in the window now is what the reservation counted
      have hsub : past.countP (within r.sender windowMs t) ≤
          past.countP (since r.sender (r.now - windowMs)) := by
        refine List.countP_mono_left fun x _ hx => ?_
        simp only [within, since, decide_eq_true_eq] at hx ⊢
        exact ⟨hx.1, hx.2.1, by omega⟩
      have hroom := room_of_granted (hgranted.trans htrue)
      have hone : [r].countP (within r.sender windowMs t) ≤ 1 := List.countP_le_length
      rw [hlimit] at hroom
      omega
    · have hbound := h.bound sender t
      simpa [hin] using hbound

theorem kept_run (h : Kept limit windowMs past w es)
    (hcfg : ∀ r ∈ reservations w es, r.maxPerWindow = limit ∧ r.windowMs = windowMs)
    (horder : ((reservations w es).map (·.now)).Pairwise (· ≤ ·)) (sender : String) (t : ℤ) :
    (past ++ reservations w es).countP (within sender windowMs t) ≤ limit := by
  induction es generalizing w past with
  | nil => simpa [reservations] using h.bound sender t
  | cons e es ih =>
    rcases reservation_cases w e with ⟨hnone, hrates⟩ | ⟨r, hr, hdb⟩
    · simp only [reservations, hnone, Option.toList_none, List.nil_append] at hcfg horder ⊢
      exact ih (h.quiet hnone hrates) hcfg horder
    · simp only [reservations, hr, Option.toList_some, List.singleton_append, List.map_cons,
        List.pairwise_cons, List.forall_mem_cons] at hcfg horder ⊢
      obtain ⟨⟨hlimit, hwindow⟩, hcfg⟩ := hcfg
      have hlater : ∀ r' ∈ reservations (w.step sqliteSystem e) es, r.now ≤ r'.now :=
        fun r' hr' => horder.1 _ (List.mem_map_of_mem hr')
      have hrest := ih (h.reserve hr hdb hlimit hwindow hlater) hcfg horder.2
      rwa [List.append_assoc, List.singleton_append] at hrest

/-- Whatever processes call the store, in every interleaving of their statements and their deaths:
with one limit and one window length, and reservations whose times do not go back, no sender is
granted more slots than the limit in any window. -/
theorem sender_rate_holds (es : List StoreCallEvent)
    (hcfg : ∀ r ∈ reservations ⟨Database.empty, []⟩ es,
      r.maxPerWindow = limit ∧ r.windowMs = windowMs)
    (horder : ((reservations ⟨Database.empty, []⟩ es).map (·.now)).Pairwise (· ≤ ·))
    (sender : String) (t : ℤ) :
    (reservations ⟨Database.empty, []⟩ es).countP (within sender windowMs t) ≤ limit := by
  have hstart : Kept limit windowMs [] ⟨Database.empty, []⟩ es :=
    ⟨fun _ _ _ => rfl, fun _ _ => Nat.zero_le _⟩
  exact kept_run hstart hcfg horder sender t

/-- Two senders on two processes; the first process dies. -/
def rateEvents : List StoreCallEvent :=
  [.call (.tryReserveSenderRate "alice" 1 100 0, 0), .call (.tryReserveSenderRate "bob" 1 100 5, 5),
    .step 0 .inOrder, .die 0, .step 1 .inOrder,
    .call (.tryReserveSenderRate "alice" 1 100 40, 40), .step 2 .inOrder,
    .call (.tryReserveSenderRate "alice" 1 100 100, 100), .step 3 .inOrder]

theorem sender_rate_holds_sample :
    (reservations ⟨Database.empty, []⟩ rateEvents).map (·.granted) = [true, true, false, true] ∧
      (reservations ⟨Database.empty, []⟩ rateEvents).countP (within "alice" 100 99) ≤ 1 := by
  have hrun : reservations ⟨Database.empty, []⟩ rateEvents =
      [⟨"alice", 1, 100, 0, true⟩, ⟨"bob", 1, 100, 5, true⟩, ⟨"alice", 1, 100, 40, false⟩,
        ⟨"alice", 1, 100, 100, true⟩] := by decide +kernel
  refine ⟨by rw [hrun]; rfl, sender_rate_holds rateEvents ?_ ?_ "alice" 99⟩
  · rw [hrun]
    simp
  · rw [hrun]
    simp

end VizGateway
