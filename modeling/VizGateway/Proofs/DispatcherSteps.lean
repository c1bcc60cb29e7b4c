import VizGateway.Proofs.Provenance

/-!
# What a turn of the dispatcher writes

The walk along a turn, once for whatever is known of the rows it is handed and of the answers it
is given.
-/

namespace VizGateway

open ActionStatus

namespace Provenance

/-- A call of a turn, over rows `K` and answers `R`. -/
inductive TurnDoes (opts : DispatcherOpts) (K : OutboxRecord → Prop)
    (R : OutboxRecord → DeliveryResult → Prop) : GatewayOp → Prop
  | isPaused : TurnDoes opts K R (.store .isPaused)
  | due (now : ℤ) (statuses : List ActionStatus) : TurnDoes opts K R (.store (.due now statuses))
  | stale (now ageMs : ℤ) (statuses : List ActionStatus) :
    TurnDoes opts K R (.store (.stale now ageMs statuses))
  | dateNow : TurnDoes opts K R .dateNow
  | requeue {rec : OutboxRecord} (now : ℤ) (h : K rec) (hs : rec.status = broadcast) :
    TurnDoes opts K R (.store (.setStatus rec.id queued
      { attempts := some (rec.attempts + 1), nextAttemptAt := some now }))
  | returnChild {rec : OutboxRecord} {child : EnqueueInput} (h : K rec) (hs : rec.status = held)
    (hchild : child ∈ planChildren rec refunding (opts.childCtx 0)) :
    TurnDoes opts K R (.store (.enqueue child))
  | returnDust {rec : OutboxRecord} (h : K rec) (hs : rec.status = held) :
    TurnDoes opts K R (.store (.setStatus rec.id refunded Dispatcher.dustRetained))
  | returned {rec : OutboxRecord} (h : K rec) (hs : rec.status = held)
    (hd : rec.direction = .pegIn ∨ rec.direction = .pegOut) :
    TurnDoes opts K R (.store (.setStatus rec.id refunding {}))
  | start {rec : OutboxRecord} (h : K rec) (hs : rec.status = queued) :
    TurnDoes opts K R (.store (.setStatus rec.id broadcast {}))
  | post {rec : OutboxRecord} (h : K rec) (hs : rec.status = queued) : TurnDoes opts K R (.post rec)
  | await {rec : OutboxRecord} (h : K rec) (hs : rec.status = queued) :
    TurnDoes opts K R (.await rec)
  | settle {rec : OutboxRecord} {result : DeliveryResult} (now : ℤ) (h : K rec)
    (hs : rec.status = queued) (hr : R rec result) :
    TurnDoes opts K R (.store (.setStatus rec.id
      (planTransition rec result now opts.toRetryOpts).status
      (planTransition rec result now opts.toRetryOpts).patch))
  | child {rec : OutboxRecord} {result : DeliveryResult} {child : EnqueueInput} (now : ℤ) (h : K rec)
    (hs : rec.status = queued) (hr : R rec result)
    (hchild : child ∈ opts.childrenAt rec
      (planTransition rec result now opts.toRetryOpts).status) :
    TurnDoes opts K R (.store (.enqueue child))
  | closeDust {rec : OutboxRecord} (h : K rec) (hs : rec.status = queued)
    (hd : rec.direction = .pegIn) :
    TurnDoes opts K R (.store (.setStatus rec.id refunded Dispatcher.dustRetained))
  | closeParent {rec : OutboxRecord} {result : DeliveryResult} {parentId : String} (h : K rec)
    (hs : rec.status = queued) (hr : R rec result) (hb : result.broadcast = true)
    (hd : rec.direction = .refund ∨ rec.direction = .gramReturn)
    (hp : Dispatcher.parentIdOf rec = some parentId) :
    TurnDoes opts K R (.store (.setStatus parentId refunded {}))

/-- What holds of the rows and the answers a turn is given under a contract. -/
structure Turns (opts : DispatcherOpts)
    (C : Prog.Contract GatewayOp GatewayOp.Ans String GatewayState GatewayInput)
    (K : GatewayState → OutboxRecord → Prop)
    (R : GatewayState → OutboxRecord → DeliveryResult → Prop) : Prop where
  K_stable : ∀ {s t rec}, C.rely s t → K s rec → K t rec
  R_stable : ∀ {s t rec result}, C.rely s t → R s rec result → R t rec result
  own : ∀ {o i s}, C.allowed o i s → C.rely s (C.exec o i s).1
  due : ∀ {now statuses i s} {rows : List OutboxRecord},
    C.allowed (.store (.due now statuses)) i s →
    (C.exec (.store (.due now statuses)) i s).2 = .ok rows → ∀ rec ∈ rows,
      K (C.exec (.store (.due now statuses)) i s).1 rec ∧ rec.status ∈ statuses
  stale : ∀ {now ageMs statuses i s} {rows : List OutboxRecord},
    C.allowed (.store (.stale now ageMs statuses)) i s →
    (C.exec (.store (.stale now ageMs statuses)) i s).2 = .ok rows → ∀ rec ∈ rows,
      K (C.exec (.store (.stale now ageMs statuses)) i s).1 rec ∧ rec.status ∈ statuses
  await : ∀ {rec i s} {result : DeliveryResult}, C.allowed (.await rec) i s →
    (C.exec (.await rec) i s).2 = .ok result → R (C.exec (.await rec) i s).1 rec result
  failed : ∀ s rec e, R s rec { broadcast := false, error := some e }
  point : ∀ {s o}, TurnDoes opts (K s) (R s) o → C.point o s

/-! ## The dispatcher's calls as the gateway's -/

section

open Gateway

theorem fetch_isPaused : Dispatcher.isPaused.translate fetch
    = (Prog.ask (GatewayOp.store .isPaused) : GatewayM Bool) :=
  Prog.translate_ask fetch (DispatcherOp.store .isPaused)

theorem fetch_due (now : ℤ) (statuses : List ActionStatus) :
    (Dispatcher.due now statuses).translate fetch
      = (Prog.ask (GatewayOp.store (.due now statuses)) : GatewayM (List OutboxRecord)) :=
  Prog.translate_ask fetch (DispatcherOp.store (.due now statuses))

theorem fetch_stale (now ageMs : ℤ) (statuses : List ActionStatus) :
    (Dispatcher.stale now ageMs statuses).translate fetch
      = (Prog.ask (GatewayOp.store (.stale now ageMs statuses)) : GatewayM (List OutboxRecord)) :=
  Prog.translate_ask fetch (DispatcherOp.store (.stale now ageMs statuses))

theorem fetch_enqueue (input : EnqueueInput) : (Dispatcher.enqueue input).translate fetch
    = (Prog.ask (GatewayOp.store (.enqueue input)) : GatewayM Bool) :=
  Prog.translate_ask fetch (DispatcherOp.store (.enqueue input))

theorem fetch_setStatus (id : String) (status : ActionStatus) (patch : StatusPatch) :
    (Dispatcher.setStatus id status patch).translate fetch
      = (Prog.ask (GatewayOp.store (.setStatus id status patch)) : GatewayM Unit) :=
  Prog.translate_ask fetch (DispatcherOp.store (.setStatus id status patch))

theorem fetch_dateNow : Dispatcher.dateNow.translate fetch
    = (Prog.ask GatewayOp.dateNow : GatewayM ℤ) := Prog.translate_ask fetch .now

theorem fetch_submit (rec : OutboxRecord) :
    (Dispatcher.submit rec).translate fetch = submit rec := Prog.translate_ask fetch (.submit rec)

end

/-! ## The walk -/

/-- A confirming answer is one that reports a broadcast. -/
theorem broadcast_of_confirmed {rec : OutboxRecord} {result : DeliveryResult} {now : ℤ}
    {opts : RetryOpts} (h : (planTransition rec result now opts).status = confirmed) :
    result.broadcast = true := by
  rcases planTransition_cases rec result now opts with ⟨-, hb⟩ | ⟨hst, -⟩ | ⟨hst, -⟩
  · exact hb
  · rw [h] at hst
    cases hst
  · rw [h] at hst
    cases hst

section

variable {opts : DispatcherOpts}
  {C : Prog.Contract GatewayOp GatewayOp.Ans String GatewayState GatewayInput}
  {K : GatewayState → OutboxRecord → Prop} {R : GatewayState → OutboxRecord → DeliveryResult → Prop}
  (T : Turns opts C K R) {P : GatewayState → Prop} (hP : ∀ s t, C.rely s t → P s → P t)
include T hP

/-- A call of the turn keeps what the others keep. -/
theorem turn_ask {o : GatewayOp} (hdo : ∀ s, P s → TurnDoes opts (K s) (R s) o) :
    Prog.Holds C P (fun _ _ => True) (Prog.ask o) :=
  Prog.holds_ask hP (fun s hs => T.point (hdo s hs)) fun i s hs hi =>
    ⟨hP s _ (T.own hi) hs, fun _ _ => trivial⟩

theorem turn_setStatus {id : String} {status : ActionStatus} {patch : StatusPatch}
    (hdo : ∀ s, P s → TurnDoes opts (K s) (R s) (.store (.setStatus id status patch))) :
    Prog.Holds C P (fun _ _ => True) ((Dispatcher.setStatus id status patch).translate Gateway.fetch) := by
  rw [fetch_setStatus]
  exact turn_ask T hP hdo

theorem turn_enqueueAll {children : List EnqueueInput}
    (hdo : ∀ child ∈ children, ∀ s, P s → TurnDoes opts (K s) (R s) (.store (.enqueue child))) :
    Prog.Holds C P (fun _ _ => True)
      ((Dispatcher.enqueueAll children).translate Gateway.fetch) := by
  rw [Dispatcher.enqueueAll, Prog.translate_forEach]
  refine Prog.holds_forEach fun child hchild => ?_
  rw [Prog.translate_bind, fetch_enqueue]
  exact Prog.holds_then (turn_ask T hP (hdo child hchild)) fun _ => Prog.holds_pure fun _ _ => trivial

theorem turn_dateNow : Prog.Holds C P (fun _ _ => True)
    (Dispatcher.dateNow.translate Gateway.fetch) := by
  rw [fetch_dateNow]
  exact turn_ask T hP fun _ _ => .dateNow

theorem turn_due {now : ℤ} {statuses : List ActionStatus} : Prog.Holds C P
    (fun rows s => ∀ rec ∈ rows, K s rec ∧ rec.status ∈ statuses)
    ((Dispatcher.due now statuses).translate Gateway.fetch) := by
  rw [fetch_due]
  exact Prog.holds_ask (o := .store (.due now statuses))
    (Q := fun (rows : List OutboxRecord) s => ∀ rec ∈ rows, K s rec ∧ rec.status ∈ statuses) hP
    (fun s _ => T.point (.due now statuses)) fun i s hs hi =>
    ⟨hP s _ (T.own hi) hs, fun rows hrows => T.due hi hrows⟩

theorem turn_stale {now ageMs : ℤ} {statuses : List ActionStatus} : Prog.Holds C P
    (fun rows s => ∀ rec ∈ rows, K s rec ∧ rec.status ∈ statuses)
    ((Dispatcher.stale now ageMs statuses).translate Gateway.fetch) := by
  rw [fetch_stale]
  exact Prog.holds_ask (o := .store (.stale now ageMs statuses))
    (Q := fun (rows : List OutboxRecord) s => ∀ rec ∈ rows, K s rec ∧ rec.status ∈ statuses) hP
    (fun s _ => T.point (.stale now ageMs statuses)) fun i s hs hi =>
    ⟨hP s _ (T.own hi) hs, fun rows hrows => T.stale hi hrows⟩

omit T in
/-- One row of a list of handed ones. -/
theorem turn_rows {rows : List OutboxRecord} {status : ActionStatus}
    {f : OutboxRecord → DispatcherM Unit}
    (hrows : ∀ s, P s → ∀ rec ∈ rows, K s rec ∧ rec.status ∈ [status])
    (hf : ∀ {P : GatewayState → Prop} (_ : ∀ s t, C.rely s t → P s → P t) (rec : OutboxRecord),
      rec.status = status → (∀ s, P s → K s rec) →
      Prog.Holds C P (fun _ _ => True) ((f rec).translate Gateway.fetch)) :
    Prog.Holds C P (fun _ _ => True)
      ((Prog.forEach f rows).translate Gateway.fetch) := by
  rw [Prog.translate_forEach]
  intro s hs
  refine Prog.holds_forEach (fun rec hrec => hf hP rec ?_ fun t ht => (hrows t ht rec hrec).1) s hs
  exact List.mem_singleton.1 (hrows s hs rec hrec).2

end

section

variable {opts : DispatcherOpts}
  {C : Prog.Contract GatewayOp GatewayOp.Ans String GatewayState GatewayInput}
  {K : GatewayState → OutboxRecord → Prop} {R : GatewayState → OutboxRecord → DeliveryResult → Prop}
  (T : Turns opts C K R) {P : GatewayState → Prop} (hP : ∀ s t, C.rely s t → P s → P t)
  (rec : OutboxRecord) (hK : ∀ s, P s → K s rec)
include T hP hK

theorem turn_recoverOrphan {now : ℤ} (hs : rec.status = broadcast) : Prog.Holds C P
    (fun _ _ => True) ((Dispatcher.recoverOrphan opts now rec).translate Gateway.fetch) := by
  unfold Dispatcher.recoverOrphan
  split
  · exact Prog.holds_pure fun _ _ => trivial
  · exact turn_setStatus T hP fun s h => .requeue now (hK s h) hs

theorem turn_returnHeld {direction : OutboxDirection} {reason : String} (hs : rec.status = held)
    (hd : direction = .pegIn ∨ direction = .pegOut) : Prog.Holds C P (fun _ _ => True)
      ((Dispatcher.returnHeld opts direction reason rec).translate Gateway.fetch) := by
  unfold Dispatcher.returnHeld
  split
  · exact Prog.holds_pure fun _ _ => trivial
  · next hgo =>
    simp only [not_or, not_not] at hgo
    rw [Prog.translate_bind]
    refine Prog.holds_then (turn_enqueueAll T hP fun child hchild s h =>
      .returnChild (hK s h) hs hchild) fun _ => ?_
    rw [Prog.translate_ite]
    split
    · exact turn_setStatus T hP fun s h => .returnDust (hK s h) hs
    · exact turn_setStatus T hP fun s h => .returned (hK s h) hs (hgo.1 ▸ hd)

theorem turn_submit (hs : rec.status = queued) : Prog.Holds C P
    (fun result s => R s rec result) (Gateway.submit rec) := by
  refine Prog.holds_catch ?_ fun e => Prog.holds_pure fun s _ => T.failed s rec e
  refine Prog.holds_then (turn_ask T hP (o := .post rec) fun s h => .post (hK s h) hs) fun _ => ?_
  exact Prog.holds_ask (o := .await rec) (Q := fun (result : DeliveryResult) s => R s rec result)
    hP (fun s h => T.point (.await (hK s h) hs))
    fun i s h hi => ⟨hP s _ (T.own hi) h, fun result hresult => T.await hi hresult⟩

theorem turn_closeParent {result : DeliveryResult} {now : ℤ} (hs : rec.status = queued)
    (hR : ∀ s, P s → R s rec result) : Prog.Holds C P (fun _ _ => True)
      ((Dispatcher.closeParent rec
        (planTransition rec result now opts.toRetryOpts).status).translate Gateway.fetch) := by
  unfold Dispatcher.closeParent
  split
  · next hconf =>
    split
    · next parentId hparent =>
      exact turn_setStatus T hP fun s h => .closeParent (hK s h) hs (hR s h)
        (broadcast_of_confirmed hconf.1) hconf.2 hparent
    · exact Prog.holds_pure fun _ _ => trivial
  · exact Prog.holds_pure fun _ _ => trivial

theorem turn_closeDust {status : ActionStatus} (hs : rec.status = queued) :
    Prog.Holds C P (fun _ _ => True)
      ((Dispatcher.closeDust opts rec status).translate Gateway.fetch) := by
  unfold Dispatcher.closeDust
  split
  · next hdust => exact turn_setStatus T hP fun s h => .closeDust (hK s h) hs hdust.2.1
  · exact Prog.holds_pure fun _ _ => trivial

theorem turn_deliver (hs : rec.status = queued) : Prog.Holds C P (fun _ _ => True)
    ((Dispatcher.deliver opts rec).translate Gateway.fetch) := by
  unfold Dispatcher.deliver
  rw [Prog.translate_bind]
  refine Prog.holds_then (turn_setStatus T hP fun s h => .start (hK s h) hs) fun _ => ?_
  rw [Prog.translate_bind, fetch_submit]
  refine Prog.holds_bind (turn_submit T hP rec hK hs) fun result => ?_
  have hP' : ∀ s t, C.rely s t → P s ∧ R s rec result → P t ∧ R t rec result :=
    fun s t hst h => ⟨hP s t hst h.1, T.R_stable hst h.2⟩
  rw [Prog.translate_bind]
  refine Prog.holds_then (turn_dateNow T hP') fun answered => ?_
  dsimp only
  rw [Prog.translate_bind]
  refine Prog.holds_then (turn_setStatus T hP' fun s h =>
    .settle answered (hK s h.1) hs h.2) fun _ => ?_
  rw [Prog.translate_bind]
  refine Prog.holds_then (turn_enqueueAll T hP' fun child hchild s h =>
    .child answered (hK s h.1) hs h.2 hchild) fun _ => ?_
  rw [Prog.translate_bind]
  refine Prog.holds_then (turn_closeDust T hP' rec (fun s h => hK s h.1) hs) fun _ => ?_
  exact turn_closeParent T hP' rec (fun s h => hK s h.1) hs fun s h => h.2

end

/-- A turn only does what it may over the rows and answers it is given. -/
theorem turn_holds {opts : DispatcherOpts}
    {C : Prog.Contract GatewayOp GatewayOp.Ans String GatewayState GatewayInput}
    {K : GatewayState → OutboxRecord → Prop}
    {R : GatewayState → OutboxRecord → DeliveryResult → Prop} (T : Turns opts C K R) :
    Prog.Holds C (fun _ => True) (fun _ _ => True)
      ((Dispatcher.turn opts).translate Gateway.fetch) := by
  have hP : ∀ s t, C.rely s t → True → True := fun _ _ _ => id
  have hrows : ∀ {rows : List OutboxRecord} {statuses : List ActionStatus} (s t), C.rely s t →
      (True ∧ ∀ rec ∈ rows, K s rec ∧ rec.status ∈ statuses) →
      True ∧ ∀ rec ∈ rows, K t rec ∧ rec.status ∈ statuses :=
    fun s t hst h => ⟨trivial, fun rec hrec => ⟨T.K_stable hst (h.2 rec hrec).1, (h.2 rec hrec).2⟩⟩
  have hheld : ∀ direction reason now, direction = .pegIn ∨ direction = .pegOut →
      Prog.Holds C (fun _ => True) (fun _ _ => True)
        ((do
          let rows ← Dispatcher.due now [held]
          Prog.forEach (Dispatcher.returnHeld opts direction reason) rows :
            DispatcherM Unit).translate Gateway.fetch) := by
    intro direction reason now hd
    rw [Prog.translate_bind]
    refine Prog.holds_bind (turn_due T hP) fun rows => ?_
    exact turn_rows hrows (fun s h => h.2) fun hP rec hs hK => turn_returnHeld T hP rec hK hs hd
  unfold Dispatcher.turn
  rw [Prog.translate_bind, fetch_isPaused]
  refine Prog.holds_then (turn_ask T hP (o := .store .isPaused) fun _ _ => .isPaused)
    fun paused => ?_
  rw [Prog.translate_ite]
  split
  · exact Prog.holds_pure fun _ _ => trivial
  unfold Dispatcher.tick
  rw [Prog.translate_bind]
  refine Prog.holds_then (turn_dateNow T hP) fun now => ?_
  rw [Prog.translate_bind]
  refine Prog.holds_then ?_ fun _ => ?_
  · unfold Dispatcher.recoverOrphans
    dsimp only
    rw [Prog.translate_bind]
    refine Prog.holds_bind (turn_stale T hP) fun rows => ?_
    exact turn_rows hrows (fun s h => h.2) fun hP rec hs hK => turn_recoverOrphan T hP rec hK hs
  rw [Prog.translate_bind]
  refine Prog.holds_then (hheld .pegIn "INVALID_DESTINATION" now (.inl rfl)) fun _ => ?_
  rw [Prog.translate_bind]
  refine Prog.holds_then (hheld .pegOut "RETURN_INVALID_DEST" now (.inr rfl)) fun _ => ?_
  unfold Dispatcher.deliverDue
  rw [Prog.translate_bind]
  refine Prog.holds_bind (turn_due T hP) fun rows => ?_
  exact turn_rows hrows (fun s h => h.2) fun hP rec hs hK => turn_deliver T hP rec hK hs

end Provenance

end VizGateway
