import VizGateway.Proofs.DispatcherSteps
import VizGateway.Proofs.HandlerSteps

/-!
# Runs of the gateway

Every call of every run is one the log justifies, so an invariant of the state only has to be kept
by justified calls and by the outside.
-/

namespace VizGateway

open ActionStatus

namespace Provenance

variable {N : RemoteNets} {L : Libs} {cfg : GatewayConfig}

/-- What a redirect may call: it changes statuses, and nothing else of a row. -/
def RedirectMay : GatewayOp → Prop
  | .store (.get _) => True
  | .store .isPaused => True
  | .store (.setStatus _ status patch) =>
    (status = failed ∨ status = queued) ∧ patch.txid = none ∧ patch.feeMilliViz = none
      ∧ patch.attempts = none
  | .dateNow | .getState _ | .setState _ => True
  | _ => False

theorem redirect_uses (cfg : CoordinatorConfig) :
    Prog.Uses RedirectMay (applySourceHintResolutions cfg) := by
  have hredirect : ∀ parentId child,
      Prog.Uses RedirectMay (SourceHints.redirect parentId child) := by
    intro parentId child
    refine Prog.uses_bind ?_ fun _ => Prog.uses_bind (Prog.uses_ask (o := GatewayOp.dateNow) trivial) fun _ =>
      Prog.uses_bind (Prog.uses_ask (o := GatewayOp.store (.setStatus ..)) ⟨.inr rfl, rfl, rfl, rfl⟩)
        fun _ => Prog.uses_ask (o := GatewayOp.setState _) trivial
    cases child with
    | none => trivial
    | some c => exact Prog.uses_ask (o := GatewayOp.store (.setStatus ..)) ⟨.inl rfl, rfl, rfl, rfl⟩
  have hone : ∀ parentId, Prog.Uses RedirectMay (SourceHints.applyOne parentId) := by
    intro parentId
    refine Prog.uses_bind (Prog.uses_ask (o := GatewayOp.getState _) trivial) fun applied => ?_
    cases applied with
    | true => trivial
    | false =>
      refine Prog.uses_bind (Prog.uses_ask (o := GatewayOp.store (.get _)) trivial) fun parent => ?_
      cases parent with
      | none => trivial
      | some parent =>
        have hset : Prog.Uses RedirectMay
            (Prog.ask (GatewayOp.setState parentId) : GatewayM Unit) :=
          Prog.uses_ask (o := GatewayOp.setState _) trivial
        refine Prog.uses_ite hset (Prog.uses_ite trivial ?_)
        exact Prog.uses_bind (Prog.uses_ask (o := GatewayOp.store (.get _)) trivial) fun child =>
          Prog.uses_ite hset (hredirect _ _)
  unfold applySourceHintResolutions
  split
  · trivial
  · refine Prog.uses_bind (Prog.uses_ask (o := GatewayOp.store .isPaused) trivial) fun paused => ?_
    cases paused with
    | true => exact Prog.uses_forEach hone _
    | false => trivial

/-- An answer the dispatcher acts on as a broadcast was given. -/
def Outcome (log : List Fact) (rec : OutboxRecord) (result : DeliveryResult) : Prop :=
  result.broadcast = true → .answered rec result ∈ log

variable (N L cfg) in
/-- What a program may call by the log. -/
def jobMay : GatewayJob → List Fact → GatewayOp → Prop
  | .turn, log, o => TurnDoes cfg.dispatcher (fun rec => .handed rec ∈ log) (Outcome log) o
  | .submit rec, log, o => HandlerDoes N L cfg.coordinator rec log o
  | .redirect, _, o => RedirectMay o

theorem TurnDoes.mono {opts : DispatcherOpts} {K K' : OutboxRecord → Prop}
    {R R' : OutboxRecord → DeliveryResult → Prop} {o : GatewayOp} (hK : ∀ rec, K rec → K' rec)
    (hR : ∀ rec result, R rec result → R' rec result) (h : TurnDoes opts K R o) :
    TurnDoes opts K' R' o := by
  cases h
  case isPaused => exact .isPaused
  case due => exact .due ..
  case stale => exact .stale ..
  case dateNow => exact .dateNow
  case requeue h hs => exact .requeue _ (hK _ h) hs
  case returnChild h hs hchild => exact .returnChild (hK _ h) hs hchild
  case returnDust h hs => exact .returnDust (hK _ h) hs
  case returned h hs hd => exact .returned (hK _ h) hs hd
  case start h hs => exact .start (hK _ h) hs
  case post h hs => exact .post (hK _ h) hs
  case await h hs => exact .await (hK _ h) hs
  case settle h hs hr => exact .settle _ (hK _ h) hs (hR _ _ hr)
  case child h hs hr hchild => exact .child _ (hK _ h) hs (hR _ _ hr) hchild
  case closeDust h hs hd => exact .closeDust (hK _ h) hs hd
  case closeParent h hs hr hb hd hp => exact .closeParent (hK _ h) hs (hR _ _ hr) hb hd hp

theorem log_subset_exec (o : GatewayOp) (i : GatewayInput) (s : GatewayState) :
    s.log ⊆ (o.exec N L i s).1.log := by
  rw [log_exec]
  exact List.subset_append_right _ _

theorem handed_due {now : ℤ} {statuses : List ActionStatus} {i : GatewayInput} {s : GatewayState}
    {rows : List OutboxRecord}
    (h : (GatewayOp.exec N L (.store (.due now statuses)) i s).2 = .ok rows) :
    ∀ rec ∈ rows, .handed rec ∈ (GatewayOp.exec N L (.store (.due now statuses)) i s).1.log
      ∧ rec.status ∈ statuses ∧ s.outbox.get rec.id = some rec := by
  intro rec hrec
  refine ⟨?_, ?_⟩
  · rw [log_exec]
    have h' : (GatewayOp.run N L (.store (.due now statuses)) i s).2 = .ok rows := h
    rw [h']
    exact List.mem_append_left _ (List.mem_map_of_mem hrec)
  · have hrows : rows = s.outbox.due now statuses := by
      cases hf : i.fails with
      | some e => simp [GatewayOp.exec, GatewayOp.run, StoreOp.carry, hf] at h
      | none =>
        simp only [GatewayOp.exec, GatewayOp.run, StoreOp.carry, hf] at h
        exact (Except.ok.inj h).symm
    subst hrows
    obtain ⟨hget, hst, -⟩ := Outbox.mem_due.1 hrec
    exact ⟨hst, hget⟩

theorem handed_stale {now ageMs : ℤ} {statuses : List ActionStatus} {i : GatewayInput}
    {s : GatewayState} {rows : List OutboxRecord}
    (h : (GatewayOp.exec N L (.store (.stale now ageMs statuses)) i s).2 = .ok rows) :
    ∀ rec ∈ rows, .handed rec ∈ (GatewayOp.exec N L (.store (.stale now ageMs statuses)) i s).1.log
      ∧ rec.status ∈ statuses ∧ s.outbox.get rec.id = some rec := by
  intro rec hrec
  refine ⟨?_, ?_⟩
  · rw [log_exec]
    have h' : (GatewayOp.run N L (.store (.stale now ageMs statuses)) i s).2 = .ok rows := h
    rw [h']
    exact List.mem_append_left _ (List.mem_map_of_mem hrec)
  · have hrows : rows = s.outbox.stale now ageMs statuses := by
      cases hf : i.fails with
      | some e => simp [GatewayOp.exec, GatewayOp.run, StoreOp.carry, hf] at h
      | none =>
        simp only [GatewayOp.exec, GatewayOp.run, StoreOp.carry, hf] at h
        exact (Except.ok.inj h).symm
    subst hrows
    obtain ⟨hget, hst, -⟩ := Outbox.mem_stale.1 hrec
    exact ⟨hst, hget⟩

/-- The answer a delivery awaited was on its way. -/
theorem await_eq_ok {rec : OutboxRecord} {i : GatewayInput} {s : GatewayState}
    {result : DeliveryResult} (h : (GatewayOp.run N L (.await rec) i s).2 = .ok result) :
    (rec, result) ∈ s.responses := by
  simp only [GatewayOp.run] at h
  split at h
  · cases h
  · next rec' result' hpick =>
    split at h
    · next hrec =>
      cases h
      rw [← hrec]
      exact List.mem_of_getElem? hpick
    · cases h
  · cases h

theorem turns_log : Turns cfg.dispatcher (logContract N L (jobMay N L cfg .turn))
    (fun s rec => .handed rec ∈ s.log) (fun s => Outcome s.log) where
  K_stable hst h := hst h
  R_stable hst h hb := hst (h hb)
  own _ := log_subset_exec _ _ _
  due _ h rec hrec := ⟨(handed_due h rec hrec).1, (handed_due h rec hrec).2.1⟩
  stale _ h rec hrec := ⟨(handed_stale h rec hrec).1, (handed_stale h rec hrec).2.1⟩
  await {rec i s result} hw h _ := log_subset_exec _ _ _ (hw.responses _ (await_eq_ok (N := N) (L := L) h))
  failed _ _ _ h := by cases h
  point h := h

abbrev jobContract (N : RemoteNets) (L : Libs) (cfg : GatewayConfig) (job : GatewayJob) :
    Prog.Contract GatewayOp GatewayOp.Ans String GatewayState GatewayInput :=
  logContract N L (jobMay N L cfg job)

theorem guarded_body (job : GatewayJob) (s : GatewayState) :
    Pool.Guarded (jobContract N L cfg) s ((gatewaySystem N L cfg).body job) := by
  refine ⟨job, job.body L cfg, rfl, ?_⟩
  cases job with
  | turn => exact (turn_holds turns_log s trivial).mono (fun _ _ _ => trivial) fun _ _ _ => trivial
  | submit rec =>
    exact (along_handleSubmit s (List.Subset.refl _)).mono (fun _ _ _ => trivial)
      fun _ _ _ => trivial
  | redirect => exact Prog.safe_of_uses (redirect_uses cfg.coordinator) fun _ _ h => h

/-! ## What a call changes -/

/-- The state after a call, its log apart. -/
inductive Changes (i : GatewayInput) (s : GatewayState) : GatewayOp → GatewayState → Prop
  | nothing (o : GatewayOp) : Changes i s o s
  | store (o : StoreOp) : Changes i s (.store o) { s with outbox := (o.carry i s.outbox).1 }
  | post (rec : OutboxRecord) :
    Changes i s (.post rec) { s with requests := s.requests ++ [rec] }
  | await (rec : OutboxRecord) (n : ℕ) :
    Changes i s (.await rec) { s with responses := s.responses.eraseIdx n }
  | receive (rec : OutboxRecord) (h : rec ∈ s.requests) :
    Changes i s (.receive rec) { s with requests := s.requests.erase rec }
  | respond (rec : OutboxRecord) (result : DeliveryResult) :
    Changes i s (.respond rec result) { s with responses := s.responses ++ [(rec, result)] }
  | sendRawTransaction (id : String) (tx : SolanaMintTx) :
    Changes i s (.sendRawTransaction id tx) { s with solanaPool := s.solanaPool ++ [.mint tx] }
  | setPin (id : String) (p : VizReleaseProposal) :
    Changes i s (.setPin id p) { s with pins := (id, p) :: s.pins.filter (·.1 ≠ id) }
  | deletePin (id : String) :
    Changes i s (.deletePin id) { s with pins := s.pins.filter (·.1 ≠ id) }
  | broadcastTransaction (id : String) (p : VizReleaseProposal) :
    Changes i s (.broadcastTransaction id p) { s with vizPool := s.vizPool ++ [p] }
  | setState (parentId : String) :
    Changes i s (.setState parentId) { s with applied := parentId :: s.applied }

theorem run_changes (o : GatewayOp) (i : GatewayInput) (s : GatewayState) :
    Changes i s o (o.run N L i s).1 := by
  cases o
  case store o => exact .store o
  case await rec =>
    simp only [GatewayOp.run]
    split
    · exact .nothing _
    · split
      · exact .await ..
      · exact .nothing _
    · exact .nothing _
  case receive rec =>
    simp only [GatewayOp.run]
    split
    · next h => exact .receive _ h
    · exact .nothing _
  case post =>
    simp only [GatewayOp.run]
    split
    · exact .post _
    · exact .nothing _
  case sendRawTransaction =>
    simp only [GatewayOp.run]
    split
    · exact .sendRawTransaction ..
    · exact .nothing _
  case broadcastTransaction =>
    simp only [GatewayOp.run]
    split
    · exact .broadcastTransaction ..
    · exact .nothing _
  case setState =>
    simp only [GatewayOp.run]
    split
    · exact .setState _
    · exact .nothing _
  case respond => exact .respond ..
  case setPin => exact .setPin ..
  case deletePin => exact .deletePin _
  all_goals exact .nothing _

/-- The chains move on their own only. -/
theorem chains_exec (o : GatewayOp) (i : GatewayInput) (s : GatewayState) :
    (o.exec N L i s).1.orders = s.orders ∧ (o.exec N L i s).1.solana = s.solana
      ∧ (o.exec N L i s).1.viz = s.viz := by
  have h := run_changes (N := N) (L := L) o i s
  generalize hs : (o.run N L i s).1 = s' at h
  have hfields : (o.exec N L i s).1 = s'.note (o.facts (o.run N L i s).2) := by rw [← hs]; rfl
  rw [hfields]
  cases h <;> exact ⟨rfl, rfl, rfl⟩

/-- What a justified call does to the outbox. -/
theorem outbox_exec {job : GatewayJob} {o : GatewayOp} {i : GatewayInput} {s : GatewayState}
    (hmay : jobMay N L cfg job s.log o) :
    (o.exec N L i s).1.outbox = s.outbox
      ∨ (∃ id status patch, o = .store (.setStatus id status patch)
          ∧ (o.exec N L i s).1.outbox = s.outbox.setStatus i.clock id status patch)
      ∨ (∃ id fee, o = .store (.setFee id fee)
          ∧ (o.exec N L i s).1.outbox = s.outbox.setFee i.clock id fee)
      ∨ ∃ child, o = .store (.enqueue child)
          ∧ (o.exec N L i s).1.outbox = (s.outbox.enqueue i.clock child).2 := by
  have h := run_changes (N := N) (L := L) o i s
  generalize hs : (o.run N L i s).1 = s' at h
  have hfields : (o.exec N L i s).1.outbox = s'.outbox := by rw [← hs]; rfl
  rw [hfields]
  cases h
  case store o =>
    change (o.carry i s.outbox).1 = s.outbox ∨ _
    cases hf : i.fails with
    | some e => exact .inl (by rw [StoreOp.carry, hf])
    | none =>
      have hcarry : (o.carry i s.outbox).1 = (o.exec i.clock s.outbox).1 := by
        rw [StoreOp.carry, hf]
      change _ ∨ (∃ id status patch, _ ∧ (o.carry i s.outbox).1 = _)
        ∨ (∃ id fee, _ ∧ (o.carry i s.outbox).1 = _) ∨ ∃ child, _ ∧ (o.carry i s.outbox).1 = _
      rw [hcarry]
      cases o
      case setStatus => exact .inr (.inl ⟨_, _, _, rfl, rfl⟩)
      case setFee => exact .inr (.inr (.inl ⟨_, _, rfl, rfl⟩))
      case enqueue => exact .inr (.inr (.inr ⟨_, rfl, rfl⟩))
      case delete =>
        cases job
        · cases hmay
        · exact hmay.1.elim
        · exact hmay.elim
      case pause =>
        cases job
        · cases hmay
        · exact hmay.1.elim
        · exact hmay.elim
      all_goals exact .inl rfl
  all_goals exact .inl rfl

/-- What the outside does. -/
inductive Moves (L : Libs) (s : GatewayState) : GatewayAct → GatewayState → Prop
  | nothing (a : GatewayAct) : Moves L s a s
  | write (clock : ℤ) (w : OutboxWrite) (hw : w.ofWatcher s.outbox = true)
    (hfits : w.fits s.outbox = true) :
    Moves L s (.write clock w) { s with outbox := w.apply clock s.outbox }
  | openOrder (action : CanonicalAction) (p : GramOrderProposal) (body : OrderBody)
    (hbody : orderBodyOf L action p = some body) (hasked : Fact.asked action (.order p) ∈ s.log) :
    Moves L s (.openOrder action p)
      { s with orders := s.orders ++ [{ body, actionId := some action.id }] }
  | openOther (body : OrderBody) :
    Moves L s (.openOther body) { s with orders := s.orders ++ [{ body, actionId := none }] }
  | executeOrder (n : ℕ) : Moves L s (.executeOrder n)
      { s with orders := s.orders.modify n fun o => { o with executed := true } }
  | landSolana (n : ℕ) (ok : Bool) (message : SolanaMessage)
    (h : s.solanaPool[n]? = some message) : Moves L s (.landSolana n ok)
      { s with solanaPool := s.solanaPool.eraseIdx n, solana := s.solana ++ [⟨message, ok⟩] }
  | dropSolana (n : ℕ) :
    Moves L s (.dropSolana n) { s with solanaPool := s.solanaPool.eraseIdx n }
  | otherSolana (raw : String) (memo : Option String) (ok : Bool) :
    Moves L s (.otherSolana raw memo ok) { s with solana := s.solana ++ [⟨.other raw memo, ok⟩] }
  | landViz (n : ℕ) (p : VizReleaseProposal) (h : s.vizPool[n]? = some p) :
    Moves L s (.landViz n) { s with vizPool := s.vizPool.eraseIdx n, viz := s.viz ++ [p] }
  | dropViz (n : ℕ) : Moves L s (.dropViz n) { s with vizPool := s.vizPool.eraseIdx n }
  | forget : Moves L s .forget { s with pins := [] }

theorem apply_moves (a : GatewayAct) (s : GatewayState) : Moves L s a (a.apply L s) := by
  cases a
  case write clock w =>
    simp only [GatewayAct.apply]
    split
    · next h =>
      rw [Bool.and_eq_true] at h
      exact .write clock w h.1 h.2
    · exact .nothing _
  case openOrder action p =>
    simp only [GatewayAct.apply]
    split
    · next body hbody =>
      split
      · next hasked => exact .openOrder action p body hbody hasked
      · exact .nothing _
    · exact .nothing _
  case landSolana n ok =>
    simp only [GatewayAct.apply]
    split
    · next message h => exact .landSolana n ok message h
    · exact .nothing _
  case landViz n =>
    simp only [GatewayAct.apply]
    split
    · next p h => exact .landViz n p h
    · exact .nothing _
  case openOther => exact .openOther _
  case executeOrder => exact .executeOrder _
  case dropSolana => exact .dropSolana _
  case otherSolana => exact .otherSolana ..
  case dropViz => exact .dropViz _
  case forget => exact .forget

theorem log_apply (a : GatewayAct) (s : GatewayState) : (a.apply L s).log = s.log := by
  have h := apply_moves (L := L) a s
  generalize a.apply L s = s' at h
  cases h <;> rfl

theorem Wellformed.apply {s : GatewayState} (h : Wellformed s) (a : GatewayAct) :
    Wellformed (a.apply L s) := by
  have hm := apply_moves (L := L) a s
  generalize a.apply L s = s' at hm
  cases hm
  case forget => exact ⟨fun _ hx => absurd hx List.not_mem_nil, h.responses⟩
  all_goals exact ⟨h.pins, h.responses⟩

theorem Wellformed.exec {job : GatewayJob} {o : GatewayOp} {i : GatewayInput} {s : GatewayState}
    (h : Wellformed s) (hmay : jobMay N L cfg job s.log o) : Wellformed (o.exec N L i s).1 := by
  have hc := run_changes (N := N) (L := L) o i s
  have hlog := log_subset_exec (N := N) (L := L) o i s
  generalize hs : (o.run N L i s).1 = s' at hc
  have hfields : (o.exec N L i s).1 = s'.note (o.facts (o.run N L i s).2) := by rw [← hs]; rfl
  refine ⟨fun x hx => ?_, fun x hx => ?_⟩
  · rw [hfields] at hx
    cases hc
    case setPin id p =>
      rcases List.mem_cons.1 hx with rfl | hx
      · cases job
        · cases hmay
        · exact hmay.1.2.trans hmay.1.1.symm
        · exact hmay.elim
      · exact h.pins x (List.mem_filter.1 hx).1
    case deletePin id => exact h.pins x (List.mem_filter.1 hx).1
    all_goals exact h.pins x hx
  · rw [hfields] at hx
    cases hc
    case respond rec result =>
      rcases List.mem_append.1 hx with hx | hx
      · exact hlog (h.responses x hx)
      · rw [List.mem_singleton.1 hx, log_exec]
        exact List.mem_cons_self
    case await rec n => exact hlog (h.responses x (List.mem_of_mem_eraseIdx hx))
    all_goals exact hlog (h.responses x hx)

/-! ## Runs -/

variable (N L cfg) in
/-- The invariant of every run, with one of the state. -/
abbrev GatewayInv (I : GatewayState → Prop) (w : GatewayWorld) : Prop :=
  Pool.Inv (fun s => Wellformed s ∧ I s) (Pool.Guarded (jobContract N L cfg)) w

theorem gatewayInv_init {I : GatewayState → Prop} (h : I {}) :
    GatewayInv N L cfg I GatewayWorld.init :=
  ⟨⟨⟨fun _ hx => absurd hx List.not_mem_nil, fun _ hx => absurd hx List.not_mem_nil⟩, h⟩,
    fun _ hp => absurd hp List.not_mem_nil⟩

/-- A state invariant that every justified call and the outside keep is kept by the gateway. -/
theorem GatewayInv.step {I : GatewayState → Prop} {w : GatewayWorld} {e : GatewayEvent}
    (h : GatewayInv N L cfg I w)
    (hcall : ∀ n i job o, e = .step n i → w.standsAt n = some (job, o) →
      jobMay N L cfg job w.shared.log o → Wellformed w.shared → I w.shared →
      I (o.exec N L i w.shared).1)
    (hact : ∀ a, e = .act a → I w.shared → I (a.apply L w.shared)) :
    GatewayInv N L cfg I (w.step (gatewaySystem N L cfg) e) := by
  cases e with
  | start job => exact Pool.inv_start h (guarded_body job w.shared)
  | die n => exact Pool.inv_die h
  | act a =>
    refine Pool.inv_act h ⟨h.state.1.apply a, hact a rfl h.state.2⟩ fun p _ hp => ?_
    refine hp.stable fun x k _ => ?_
    change w.shared.log ⊆ (a.apply L w.shared).log
    rw [log_apply]
    exact List.Subset.refl _
  | step n i =>
    refine Pool.guarded_step h (fun _ _ _ => rfl) fun x hx hpoint => ⟨h.state.1, ?_, ?_⟩
    · exact ⟨h.state.1.exec hpoint, hcall n i x.1 x.2 rfl hx hpoint h.state.1 h.state.2⟩
    · exact fun _ _ _ _ => log_subset_exec _ _ _

/-- The run rule. -/
theorem gateway_run {I : GatewayState → Prop} {Cond : GatewayWorld → GatewayEvent → Prop}
    (h0 : I {})
    (hcall : ∀ w n i job o, Cond w (.step n i) → w.standsAt n = some (job, o) →
      jobMay N L cfg job w.shared.log o → Wellformed w.shared → I w.shared →
      I (o.exec N L i w.shared).1)
    (hact : ∀ w a, Cond w (.act a) → I w.shared → I (a.apply L w.shared))
    {es : List GatewayEvent}
    (hm : Runs.Meets (Pool.step (gatewaySystem N L cfg)) Cond GatewayWorld.init es) :
    GatewayInv N L cfg I (Runs.run (Pool.step (gatewaySystem N L cfg)) GatewayWorld.init es) := by
  refine Runs.run_inv (fun w e h hc => h.step ?_ ?_) (gatewayInv_init h0) hm
  · rintro n i job o rfl
    exact hcall w n i job o hc
  · rintro a rfl
    exact hact w a hc

end Provenance

end VizGateway
