import VizGateway.Gateway
import VizGateway.Sample

/-!
# What a pause holds back

The flag is asked for at the top of a turn, of a `/submit` handler and of the redirect. So of the
programs at work while the gateway is paused only those that were under way before can still post a
delivery, ask a chain or a signer, or send a transaction (`paused_stays_in`).
-/

namespace VizGateway

open ActionStatus

/-- A call that goes no further than the store, the clock, and the request that is answered. -/
def GatewayOp.StaysIn : GatewayOp → Prop
  | store _ | dateNow | receive _ | respond .. | getState _ | setState _ => True
  | _ => False

namespace PauseHolds

def Paused (s : GatewayState) : Prop := s.outbox.paused.isSome = true

/-- A program among others that leave the flag alone. -/
def contract (N : RemoteNets) (L : Libs) :
    Prog.Contract GatewayOp GatewayOp.Ans String GatewayState GatewayInput where
  exec := GatewayOp.exec N L
  rely s t := Paused s → Paused t
  rely_refl _ h := h
  rely_trans h h' hs := h' (h hs)
  allowed _ _ _ := True
  point o _ := o.StaysIn

variable {N : RemoteNets} {L : Libs} {s : GatewayState}

theorem paused_rely (s t : GatewayState) (h : (contract N L).rely s t) (hs : Paused s) : Paused t :=
  h hs

theorem paused_store (o : StoreOp) (clock : ℤ) {s : Outbox} (h : s.paused.isSome = true) :
    (o.exec clock s).1.paused.isSome = true := by
  cases o with
  | enqueue input =>
    show (s.enqueue clock input).2.paused.isSome = true
    unfold Outbox.enqueue
    split
    · exact h
    · split_ifs
      · rfl
      · exact h
  | pause reason => rfl
  | _ => exact h

/-- No call of a program clears the flag. -/
theorem paused_exec (o : GatewayOp) (i : GatewayInput) (hs : Paused s) :
    Paused (o.exec N L i s).1 := by
  show (o.run N L i s).1.outbox.paused.isSome = true
  cases o with
  | store o =>
    simp only [GatewayOp.run, StoreOp.carry]
    rcases i.fails with _ | e
    · exact paused_store o i.clock hs
    · exact hs
  | await rec =>
    simp only [GatewayOp.run]
    split
    · exact hs
    · split_ifs <;> exact hs
    · exact hs
  | _ =>
    simp only [GatewayOp.run]
    first | exact hs | (split_ifs <;> exact hs)

theorem holds_staysIn {α : Type} {p : GatewayM α} (h : Prog.Uses GatewayOp.StaysIn p) :
    Prog.Holds (contract N L) Paused (fun _ _ => True) p :=
  Prog.holds_of_uses h paused_rely (fun _ _ ho _ => ho) fun o i _ _ hs _ => paused_exec o i hs

def askPaused : GatewayM Bool := Prog.ask (GatewayOp.store .isPaused)

/-- The flag read under a pause. -/
theorem holds_askPaused :
    Prog.Holds (contract N L) Paused (fun paused _ => paused = true) askPaused := by
  refine Prog.holds_ask (C := contract N L) (o := .store .isPaused)
    (Q := fun (paused : Bool) _ => paused = true) paused_rely (fun _ _ => trivial)
    fun i s hs _ => ⟨paused_exec _ i hs, fun paused ha => ?_⟩
  rcases hfails : i.fails with _ | e
  · simp only [contract, GatewayOp.exec, GatewayOp.run, StoreOp.carry, hfails, StoreOp.exec] at ha
    exact (Except.ok.inj ha).symm.trans hs
  · simp [contract, GatewayOp.exec, GatewayOp.run, StoreOp.carry, hfails] at ha

/-- Behind the flag only what is done under a pause is done. -/
theorem holds_behind {α : Type} {p q : GatewayM α} (hp : Prog.Uses GatewayOp.StaysIn p) :
    Prog.Holds (contract N L) Paused (fun _ _ => True)
      (askPaused >>= fun paused => if paused then p else q) := by
  refine Prog.holds_bind holds_askPaused fun paused s hs => ?_
  rcases hs with ⟨hs, rfl⟩
  have hsafe := holds_staysIn (N := N) (L := L) hp s hs
  exact hsafe.mono (fun a t h => ⟨⟨h.1, rfl⟩, h.2⟩) fun e t h => ⟨h, rfl⟩

/-! ## The programs -/

variable (cfg : GatewayConfig)

theorem turn_eq : (Dispatcher.turn cfg.dispatcher).translate Gateway.fetch =
    askPaused >>= fun paused =>
      if paused then pure () else (Dispatcher.tick cfg.dispatcher).translate Gateway.fetch := by
  refine (Prog.translate_bind Gateway.fetch Dispatcher.isPaused _).trans ?_
  refine congrArg₂ Prog.bind (Prog.translate_ask Gateway.fetch (.store .isPaused)) ?_
  funext paused
  rcases paused with _ | _ <;> rfl

theorem uses_redirect : ∀ parentIds,
    Prog.Uses GatewayOp.StaysIn (Prog.forEach SourceHints.applyOne parentIds) := by
  have hask : ∀ {o : GatewayOp}, o.StaysIn →
      Prog.Uses GatewayOp.StaysIn (Prog.ask o : GatewayM o.Ans) := fun h => Prog.uses_ask h
  refine Prog.uses_forEach fun parentId => ?_
  unfold SourceHints.applyOne
  refine Prog.uses_bind (hask trivial) fun applied => Prog.uses_ite trivial ?_
  refine Prog.uses_bind (hask trivial) fun parent => ?_
  rcases parent with _ | parent
  · trivial
  refine Prog.uses_ite (hask trivial) (Prog.uses_ite trivial ?_)
  refine Prog.uses_bind (hask trivial) fun child => Prog.uses_ite (hask trivial) ?_
  unfold SourceHints.redirect
  refine Prog.uses_bind ?_ fun _ => Prog.uses_bind (hask trivial) fun now =>
    Prog.uses_bind (hask trivial) fun _ => hask trivial
  rcases child with _ | child
  · trivial
  · exact hask trivial

variable (L) in
/-- Whatever is started under a pause keeps to itself. -/
theorem holds_body (job : GatewayJob) :
    Prog.Holds (contract N L) Paused (fun _ _ => True) (job.body L cfg) := by
  cases job with
  | turn =>
    show Prog.Holds _ _ _ ((Dispatcher.turn cfg.dispatcher).translate Gateway.fetch)
    rw [turn_eq]
    exact holds_behind trivial
  | submit rec =>
    have hreceive : (GatewayOp.receive rec).StaysIn := trivial
    refine Prog.holds_then (holds_staysIn (Prog.uses_ask hreceive)) fun _ => ?_
    refine Prog.holds_then (Prog.holds_catch (holds_behind trivial) fun e => ?_) fun reply => ?_
    · exact holds_staysIn trivial
    · have hrespond : (GatewayOp.respond rec reply).StaysIn := trivial
      exact holds_staysIn (Prog.uses_ask hrespond)
  | redirect =>
    show Prog.Holds _ _ _ (applySourceHintResolutions cfg.coordinator)
    unfold applySourceHintResolutions
    split_ifs
    · exact holds_staysIn trivial
    · exact holds_behind (uses_redirect _)

/-! ## Runs -/

/-- The gateway stays paused, and all but the first `n` programs keep to themselves. -/
def Held (N : RemoteNets) (L : Libs) (n : ℕ) (w : GatewayWorld) : Prop :=
  Paused w.shared ∧ Pool.Late (Pool.Guarded fun _ => contract N L) n w

theorem paused_act {a : GatewayAct} (ha : ∀ clock, a ≠ .write clock .resume) (hs : Paused s) :
    Paused (a.apply L s) := by
  cases a with
  | write clock w =>
    simp only [GatewayAct.apply]
    split_ifs
    · cases w with
      | detect input => exact paused_store (.enqueue input) clock hs
      | pause reason => rfl
      | resume => exact absurd rfl (ha clock)
      | _ => exact hs
    · exact hs
  | openOrder action p =>
    simp only [GatewayAct.apply]
    split
    · split_ifs <;> exact hs
    · exact hs
  | landSolana n ok =>
    simp only [GatewayAct.apply]
    split <;> exact hs
  | landViz n =>
    simp only [GatewayAct.apply]
    split <;> exact hs
  | _ => exact hs

theorem step_held {n : ℕ} {w : GatewayWorld} {e : GatewayEvent} (h : Held N L n w)
    (he : ∀ clock, e ≠ .act (.write clock .resume)) :
    Held N L n (w.step (gatewaySystem N L cfg) e) := by
  obtain ⟨hs, hlate⟩ := h
  cases e with
  | start job =>
    refine ⟨hs, Pool.late_start hlate ⟨job, job.body L cfg, rfl, ?_⟩⟩
    exact (holds_body L cfg job w.shared hs).mono (fun _ _ _ => trivial) fun _ _ _ => trivial
  | die m => exact ⟨hs, Pool.late_die hlate⟩
  | act a =>
    have ha : ∀ clock, a ≠ .write clock .resume := fun clock h => he clock (congrArg _ h)
    exact ⟨paused_act ha hs, Pool.late_act hlate fun p hp =>
      hp.stable fun _ _ _ hs => paused_act ha hs⟩
  | step m i =>
    have hexec : ∀ x : GatewayJob × GatewayOp, Paused (x.2.exec N L i w.shared).1 := fun x =>
      paused_exec x.2 i hs
    refine ⟨?_, Pool.late_step hlate (fun x k hx => ?_) fun x p _ hp => ?_⟩
    · show Paused (w.step (gatewaySystem N L cfg) (.step m i)).shared
      simp only [Pool.step]
      split
      · exact hexec _
      · exact hs
    · exact (Pool.guarded_call hx).2 i trivial
    · exact hp.stable fun _ _ _ _ => hexec x

end PauseHolds

open PauseHolds

/-- While nobody resumes a paused gateway, all programs but at most as many as were under way when
it was paused keep to the store and the clock: they post no delivery, ask no chain and no signer
and send nothing. -/
theorem paused_stays_in (N : RemoteNets) (L : Libs) (cfg : GatewayConfig) (w : GatewayWorld)
    (hw : w.shared.outbox.paused.isSome = true) (es : List GatewayEvent)
    (hes : ∀ e ∈ es, ∀ clock, e ≠ .act (.write clock .resume)) :
    let w' := Runs.run (Pool.step (gatewaySystem N L cfg)) w es
    w'.shared.outbox.paused.isSome = true ∧ ∃ old ≤ w.threads.length,
      ∀ n ≥ old, ∀ job o, w'.standsAt n = some (job, o) → o.StaysIn := by
  intro w'
  have hheld : Held N L w.threads.length w' := by
    refine Runs.run_inv (C := fun _ e => ∀ clock, e ≠ .act (.write clock .resume))
      (fun _ _ h he => step_held cfg h he) ⟨hw, Pool.late_self w⟩
      (Runs.meets_of_forall fun e he _ => hes e he)
  obtain ⟨hpaused, old, new, hthreads, hlen, hnew⟩ := hheld
  refine ⟨hpaused, old.length, hlen, fun n hn job o hat => ?_⟩
  obtain ⟨k, hk⟩ := Pool.standsAt_eq_some.1 hat
  rw [hthreads, List.getElem?_append_right hn] at hk
  exact (Pool.guarded_call (hnew _ (List.mem_of_getElem? hk))).1

/-- A delivery is under way when the gateway is paused. -/
def pausedWorld : GatewayWorld :=
  Runs.run (Pool.step (gatewaySystem sampleNets gatewayLibs sampleGateway)) GatewayWorld.init
    (claimed sampleSolanaClaim ++ turnTo 0 1000 ++ [.act (.write 1000 (.pause "halt"))])

/-- A turn and a handler started since. -/
def startedSince : List GatewayEvent :=
  [.start .turn, .start (.submit sampleSolanaRow), .step 1 {}, .step 2 {}, .step 2 {}]

theorem paused_stays_in_sample :
    let w := Runs.run (Pool.step (gatewaySystem sampleNets gatewayLibs sampleGateway)) pausedWorld
      startedSince
    pausedWorld.threads.length = 1 ∧ w.shared.outbox.paused.isSome = true ∧
      ∃ old ≤ pausedWorld.threads.length, ∀ n ≥ old, ∀ job o,
        w.standsAt n = some (job, o) → o.StaysIn := by
  have hlen : pausedWorld.threads.length = 1 := by decide +kernel
  have hpaused : pausedWorld.shared.outbox.paused.isSome = true := by decide +kernel
  have hresume : ∀ e ∈ startedSince, ∀ clock, e ≠ .act (.write clock .resume) := by
    intro e he clock
    simp only [startedSince, List.mem_cons, List.not_mem_nil, or_false] at he
    rcases he with rfl | rfl | rfl | rfl | rfl <;> simp
  exact ⟨hlen, paused_stays_in sampleNets gatewayLibs sampleGateway pausedWorld hpaused
    startedSince hresume⟩

end VizGateway
