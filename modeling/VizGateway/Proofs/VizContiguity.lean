import VizGateway.Proofs.VizReaders
import VizGateway.Proofs.WatchSteps

/-!
# The VIZ watcher skips no block

A window is scanned block by block and each deposit of it claimed before either cursor moves to its
end, and the reader covers the whole window. So the blocks below a cursor are scanned back to
wherever that cursor once stood.
-/

namespace VizGateway

open Checks Watch ActionStatus VizReaders WatchSteps

namespace VizContiguity

/-- The ids the watcher claims under. -/
abbrev VizId (id : String) : Prop := ':' ∈ id.toList

abbrev Grows : WatchState → WatchState → Prop := WatchSteps.Grows VizId

section

variable {L : Libs} (R : VizReader) (ledger : VizLedger L)

/-- Every block above `a` up to `c` is covered; nothing is said of an `a` that is no cursor. -/
def Spans (a c : ℤ) (s : WatchState) : Prop :=
  0 < a → a ≤ c ∧ ∀ b, a < b → b ≤ c → R.Covered ledger s b

/-- What the memory's cursor `c` vouches for, down to the store's and to an earlier one `a`. -/
def Mem (a c : ℤ) (s : WatchState) : Prop :=
  Spans R ledger s.cursor c s ∧ Spans R ledger a c s

variable {R ledger} {a b c : ℤ} {s t : WatchState}

theorem covered_mono (hscanned : s.scanned ⊆ t.scanned)
    (hrows : ∀ id, ':' ∈ id.toList → (s.outbox.get id).isSome = true →
      (t.outbox.get id).isSome = true) (h : R.Covered ledger s b) : R.Covered ledger t b where
  read := hscanned h.read
  rows ht hid hop hback := hrows _ (by simp) (h.rows ht hid hop hback)

theorem spans_self : Spans R ledger a a s := fun _ => ⟨le_rfl, fun b hab hba => by omega⟩

theorem Spans.grow (hst : Grows s t) (h : Spans R ledger a c s) : Spans R ledger a c t :=
  fun ha => ⟨(h ha).1, fun b hab hbc => covered_mono hst.scanned hst.rows ((h ha).2 b hab hbc)⟩

theorem Spans.trans (h : Spans R ledger a b s) (h' : Spans R ledger b c s) :
    Spans R ledger a c s := by
  intro ha
  obtain ⟨hab, hlow⟩ := h ha
  obtain ⟨hbc, hhigh⟩ := h' (by omega)
  refine ⟨by omega, fun n han hnc => ?_⟩
  by_cases hn : n ≤ b
  · exact hlow n han hn
  · exact hhigh n (by omega) hnc

theorem Mem.grow (hst : Grows s t) (h : Mem R ledger a c s) : Mem R ledger a c t :=
  ⟨hst.cursor ▸ h.1.grow hst, h.2.grow hst⟩

end

section Turn

variable {L : Libs} (cfg : VizWatcherConfig) (ledger : VizLedger L)

/-- The cursor is written only where the memory vouches for it, and no row is deleted. -/
def contract : Prog.Contract WatchOp WatchOp.Ans String WatchState WatchInput where
  exec := WatchOp.exec
  rely := Grows
  rely_refl := WatchSteps.Grows.refl
  rely_trans := WatchSteps.Grows.trans
  allowed o i _ := ∀ b, o = .getOpsInBlock b → ledger.Answers b (i.ops b)
  point o s := (∀ v, o = .setCursor v → Spans cfg.reader ledger s.cursor v s)
    ∧ ∀ id, o ≠ .store (.delete id)

/-- What survives anything but a write of the cursor. -/
def Lasting (P : WatchState → Prop) : Prop := ∀ s t, Grows s t → P s → P t

def Claimed (id : String) (s : WatchState) : Prop := (s.outbox.get id).isSome = true

theorem Lasting.and {P Q : WatchState → Prop} (hP : Lasting P) (hQ : Lasting Q) :
    Lasting fun s => P s ∧ Q s := fun s t hst h => ⟨hP s t hst h.1, hQ s t hst h.2⟩

theorem lasting_claimed (id : String) (hid : ':' ∈ id.toList) : Lasting (Claimed id) :=
  fun _ _ hst => hst.rows id hid

theorem lasting_mem {a c : ℤ} : Lasting (Mem cfg.reader ledger a c) := fun _ _ hst h => h.grow hst

/-- All operations of block `b` parsed, and its deposits are among `ds`. -/
def Found (ds : List VizDeposit) (b : ℤ) : Prop :=
  ∀ w ∈ ledger.ops b, ∃ d, scannedDeposit L cfg.reader w = .ok d ∧ ∀ d', d = some d' → d' ∈ ds

variable {cfg ledger} {s : WatchState} {P : WatchState → Prop} (hP : Lasting P)

include hP

theorem holds_plain {α : Type} {p : WatchM α} (h : Prog.Uses Plain p) :
    Prog.Holds (contract cfg ledger) P (fun _ _ => True) p := by
  refine Prog.holds_of_uses h hP (fun o s ho _ => ⟨?_, ?_⟩) fun o i s ho hs _ =>
    hP s _ (grows_exec ho i s) hs
  · rintro v rfl
    exact ho.elim
  · rintro id rfl
    exact ho

theorem holds_enqueue (input : EnqueueInput) :
    Prog.Holds (contract cfg ledger) P (fun _ => Claimed input.id) (enqueue input) := by
  refine Prog.holds_ask hP (fun s _ => ⟨by rintro v ⟨⟩, by rintro id ⟨⟩⟩) fun i s hs _ => ?_
  refine ⟨hP s _ (grows_exec (o := .store (.enqueue input)) trivial i s) hs, fun first hfirst => ?_⟩
  exact claimed_enqueue _ (i := i) (s := s) hfirst

/-- A handled deposit has its row. -/
theorem holds_handleDeposit (dep : VizDeposit) :
    Prog.Holds (contract cfg ledger) P (fun _ => Claimed dep.id)
      (VizWatcher.handleDeposit L cfg dep) := by
  have hclaim := lasting_claimed dep.id (by simp [VizDeposit.id])
  unfold VizWatcher.handleDeposit
  split_ifs with hvalid
  · exact Prog.holds_bind (holds_enqueue hP _) fun _ => Prog.holds_pure fun s hs => hs.2
  · refine Prog.holds_then (holds_plain hP (Prog.uses_ask trivial)) fun now => ?_
    refine Prog.holds_then (holds_plain hP (Prog.uses_ask trivial)) fun reserved => ?_
    split_ifs with hreserved
    · exact Prog.holds_bind (holds_enqueue hP _) fun _ => Prog.holds_pure fun s hs => hs.2
    · refine Prog.holds_bind (holds_enqueue hP _) fun first => ?_
      refine (holds_plain (hP.and hclaim) ?_).mono fun _ s hs _ => hs.2
      exact Prog.uses_ite (uses_capDecision (fun _ => trivial) (fun _ _ _ => trivial)
        (fun _ => trivial) ..) trivial

/-- The deposits handled one after the other. -/
theorem holds_forEach_deposits (deps : List VizDeposit) :
    Prog.Holds (contract cfg ledger) P (fun _ s => ∀ d ∈ deps, Claimed d.id s)
      (Prog.forEach (VizWatcher.handleDeposit L cfg) deps) := by
  induction deps generalizing P with
  | nil => exact Prog.holds_pure fun _ _ d hd => by cases hd
  | cons dep deps ih =>
    have hclaim := lasting_claimed dep.id (by simp [VizDeposit.id])
    refine Prog.holds_bind (p := VizWatcher.handleDeposit L cfg dep)
      (holds_handleDeposit hP dep) fun _ => ?_
    refine (ih (hP.and hclaim)).mono fun _ s hs hrest d hd => ?_
    rcases List.mem_cons.1 hd with rfl | hd
    · exact hs.2
    · exact hrest d hd

/-- The blocks read one after the other, the query answering with all operations. -/
theorem holds_scanBlocks (bs : List ℤ) :
    Prog.Holds (contract cfg ledger) P
      (fun ds s => ∀ b ∈ bs, b ∈ s.scanned ∧ Found cfg ledger ds b)
      (scanBlocks L cfg.reader
        (fun b => (Prog.ask (WatchOp.getOpsInBlock b) : WatchM (Option (List OpWrapper)))) bs) := by
  induction bs generalizing P with
  | nil => exact Prog.holds_pure fun _ _ b hb => by cases hb
  | cons b bs ih =>
    have hread : Prog.Holds (contract cfg ledger) P
        (fun answer s => b ∈ s.scanned ∧ ledger.Answers b answer)
        (Prog.ask (WatchOp.getOpsInBlock b) : WatchM (Option (List OpWrapper))) := by
      refine Prog.holds_ask (o := WatchOp.getOpsInBlock b) hP
        (fun s _ => ⟨by rintro v ⟨⟩, by rintro id ⟨⟩⟩) fun i s hs hi => ?_
      refine ⟨hP s _ (grows_exec (o := .getOpsInBlock b) trivial i s) hs, fun answer ha => ?_⟩
      change (WatchOp.exec (.getOpsInBlock b) i s).2 = _ at ha
      change b ∈ (WatchOp.exec (.getOpsInBlock b) i s).1.scanned ∧ _
      unfold WatchOp.exec at ha ⊢
      split at ha
      · cases ha
      · cases ha
        exact ⟨List.mem_cons_self, hi b rfl⟩
    refine Prog.holds_bind hread fun answer => ?_
    cases hhere : blockDeposits L cfg.reader (answer.getD []) with
    | error e => exact fun s hs => hs
    | ok here =>
      have hlasting : Lasting fun s => P s ∧ b ∈ s.scanned ∧ ledger.Answers b answer :=
        hP.and fun s t hst h => ⟨hst.scanned h.1, h.2⟩
      refine Prog.holds_bind (p := scanBlocks L cfg.reader _ bs) (ih hlasting) fun rest => ?_
      refine Prog.holds_pure fun s hs b' hb' => ?_
      obtain ⟨⟨-, hscanned, hanswer⟩, hrest⟩ := hs
      rw [blockDeposits_filter, hanswer] at hhere
      rcases List.mem_cons.1 hb' with rfl | hb'
      · refine ⟨hscanned, fun w hw => ?_⟩
        obtain ⟨d, hd⟩ := succeeds_of_blockDeposits hhere w hw
        refine ⟨d, hd, ?_⟩
        rintro d' rfl
        exact List.mem_append_left _ ((mem_blockDeposits hhere).2 ⟨w, hw, hd⟩)
      · refine ⟨(hrest b' hb').1, fun w hw => ?_⟩
        obtain ⟨d, hd, hmem⟩ := (hrest b' hb').2 w hw
        exact ⟨d, hd, fun d' hd' => List.mem_append_right _ (hmem d' hd')⟩

theorem holds_scanWindow {cursor scannedTo : ℤ} (hlt : cursor < scannedTo)
    (hcap : scannedTo ≤ cursor + maxBlocksPerScan) :
    Prog.Holds (contract cfg ledger) P
      (fun _ s => ∀ b, cursor < b → b ≤ scannedTo → cfg.reader.Covered ledger s b)
      (VizWatcher.scanWindow L cfg cursor scannedTo) := by
  unfold VizWatcher.scanWindow irreversibleDepositsSince
  simp only
  rw [if_neg (by omega), min_eq_left (by omega)]
  refine Prog.holds_bind (holds_scanBlocks hP _) fun deps => ?_
  have hlasting : Lasting fun s => P s ∧ ∀ b ∈ blockRange (cursor + 1) scannedTo,
      b ∈ s.scanned ∧ Found cfg ledger deps b :=
    hP.and fun s t hst h b hb => ⟨hst.scanned (h b hb).1, (h b hb).2⟩
  refine (holds_forEach_deposits hlasting deps).mono fun _ s hs hclaimed b hfrom hto => ?_
  obtain ⟨hread, hfound⟩ := hs.2 b (mem_blockRange.2 ⟨by omega, hto⟩)
  refine ⟨hread, fun {t id op i} ht hid hop hback => ?_⟩
  have hw : { trx_id := id, block := b.toNat, op_in_trx := i, virtual_op := 0, op }
      ∈ ledger.ops b := mem_ops.2 ⟨t, ht, id, i, op, hid, hop, rfl⟩
  obtain ⟨d, hd, hmem⟩ := hfound _ hw
  -- a transfer to a backing account is not skipped
  obtain ⟨d, rfl⟩ : ∃ d', d = some d' := by
    rw [scannedDeposit_wrap (id_ne ht hid).1 hop hback] at hd
    cases hparse : depositFromOps L cfg.reader id i b.toNat t.operations with
    | error e =>
      rw [hparse] at hd
      cases hd
    | ok d' =>
      rw [hparse] at hd
      cases hd
      exact ⟨d', rfl⟩
  obtain ⟨htrx, hindex, -⟩ := scannedDeposit_place hd
  have hrow := hclaimed d (hmem d rfl)
  unfold Claimed VizDeposit.id at hrow
  rwa [htrx, hindex] at hrow

/-! ## One turn of the loop -/

omit hP in
/-- The cursor moves to where the memory vouches for it. -/
theorem safe_keepCursor {a v : ℤ} (hs : Mem cfg.reader ledger a v s) :
    Prog.Safe (contract cfg ledger) (Mem cfg.reader ledger a) (fun _ _ => False)
      (keepCursor v) s := by
  have hset : ∀ t i, Mem cfg.reader ledger a v t →
      Mem cfg.reader ledger a v (WatchOp.exec (.setCursor v) i t).1 := by
    intro t i ht
    unfold WatchOp.exec
    split
    · exact ht
    · simp only [WatchOp.run]
      split_ifs with hle
      · exact ht
      · refine ⟨spans_self, fun ha => ?_⟩
        obtain ⟨hav, hcov⟩ := ht.2 ha
        exact ⟨hav, fun b hab hbv => covered_mono (s := t) (t := { t with cursor := v })
          (fun _ => id) (fun _ _ => id) (hcov b hab hbv)⟩
  refine Prog.safe_bind (Prog.safe_catch (Prog.safe_ask ?_ ?_ ?_))
  · refine fun t ht => ⟨?_, by rintro id ⟨⟩⟩
    rintro v' ⟨⟩
    exact (hs.grow ht).1
  · exact fun t ht i _ _ _ => hset t i (hs.grow ht)
  · exact fun t ht i _ _ _ => hset t i (hs.grow ht)

omit hP in
/-- A turn keeps what the memory vouches for, and ends with a memory that vouches for its own. -/
theorem safe_tick {a c : ℤ} (hs : Mem cfg.reader ledger a c s) :
    Prog.Safe (contract cfg ledger) (Mem cfg.reader ledger a) (fun _ _ => False)
      (VizWatcher.tick L cfg c) s := by
  have hlasting : Lasting (Mem cfg.reader ledger a c) := lasting_mem cfg ledger
  refine Prog.safe_catch ?_
  refine (holds_plain hlasting ?_).then_safe (fun paused s hs _ => ?_) (fun _ _ h => h) hs
  · exact Prog.uses_ask trivial
  refine Prog.safe_ite (fun _ => hs) fun _ => ?_
  refine (holds_plain hlasting ?_).then_safe (fun now s hs _ => ?_) (fun _ _ h => h) hs
  · exact Prog.uses_ask trivial
  refine (holds_plain hlasting ?_).then_safe (fun _ s hs _ => ?_) (fun _ _ h => h) hs
  · exact uses_recoverStaleSeen (fun _ => trivial) (fun _ _ _ => trivial) (fun _ => trivial)
      (fun _ _ _ => trivial) ..
  refine (holds_plain hlasting ?_).then_safe (fun (lib : ℤ) s hs _ => ?_) (fun _ _ h => h) hs
  · exact Prog.uses_ask trivial
  refine Prog.safe_ite (fun hzero => ?_) fun _ => ?_
  · -- the cold start: neither the store nor the memory held a cursor
    subst hzero
    refine (safe_keepCursor ⟨fun hpos => ?_, fun hpos => ?_⟩).mono (fun _ _ h => h)
      fun _ _ => False.elim
    · exact absurd (hs.1 hpos).1 (by omega)
    · exact absurd (hs.2 hpos).1 (by omega)
  refine Prog.safe_ite (fun hlt => ?_) fun _ => hs
  have hwindow : (nextScanWindow c (lib - cfg.extraConfirmations)).scannedTo
      = min (lib - cfg.extraConfirmations) (c + maxBlocksPerScan) := rfl
  have hstride : (0 : ℤ) < maxBlocksPerScan := by decide
  refine (holds_scanWindow hlasting (by omega) (by omega)).then_safe (fun _ s hs hcov => ?_)
    (fun _ _ h => h) hs
  have hnew : Spans cfg.reader ledger c (nextScanWindow c (lib - cfg.extraConfirmations)).scannedTo
      s := fun _ => ⟨by omega, hcov⟩
  exact (safe_keepCursor ⟨hs.1.trans hnew, hs.2.trans hnew⟩).mono (fun _ _ h => h)
    fun _ _ => False.elim

end Turn

/-! ## Runs -/

section Run

variable {L : Libs} {cfg : VizWatcherConfig} {ledger : VizLedger L}

abbrev Inv (cfg : VizWatcherConfig) (ledger : VizLedger L) (a₀ a : ℤ) : WatchWorld → Prop :=
  LoopWorld.Inv (contract cfg ledger) (fun s => Spans cfg.reader ledger a₀ s.cursor s)
    (Mem cfg.reader ledger a)

/-- What one await does to the durable cursor. -/
theorem spans_exec {a₀ : ℤ} {s : WatchState} {o : WatchOp} (i : WatchInput)
    (hI : Spans cfg.reader ledger a₀ s.cursor s) (hpoint : (contract cfg ledger).point o s) :
    Spans cfg.reader ledger a₀ (o.exec i s).1.cursor (o.exec i s).1 := by
  have hplain : Plain o → Spans cfg.reader ledger a₀ (o.exec i s).1.cursor (o.exec i s).1 := by
    intro ho
    have hgrows : Grows s (o.exec i s).1 := grows_exec ho i s
    rw [hgrows.cursor]
    exact hI.grow hgrows
  cases o with
  | setCursor v =>
    unfold WatchOp.exec
    split
    · exact hI
    · simp only [WatchOp.run]
      split_ifs with hle
      · exact hI
      · intro hpos
        obtain ⟨hav, hcov⟩ := hI.trans (hpoint.1 v rfl) hpos
        exact ⟨hav, fun b hab hbv => covered_mono (s := s) (t := { s with cursor := v })
          (fun _ => id) (fun _ _ => id) (hcov b hab hbv)⟩
  | store o =>
    cases o with
    | delete id => exact absurd rfl (hpoint.2 id)
    | _ => exact hplain trivial
  | _ => exact hplain trivial

theorem step_inv {a₀ a : ℤ} {w : WatchWorld} {e : WatchEvent} (h : Inv cfg ledger a₀ a w)
    (hc : HonestBlocks ledger w e) (hstart : e = .start → a ≤ 0) :
    Inv cfg ledger a₀ a (w.step (vizWatcherSystem L cfg) e) := by
  cases e with
  | start =>
    refine LoopWorld.inv_start h (Prog.safe_ask ?_ ?_ fun _ _ _ _ _ _ => trivial)
    · exact fun t _ => ⟨by rintro v ⟨⟩, by rintro id ⟨⟩⟩
    · intro t _ i _ c hread
      change (WatchOp.exec .getCursor i t).2 = _ at hread
      change Mem cfg.reader ledger a c (WatchOp.exec .getCursor i t).1
      unfold WatchOp.exec at hread ⊢
      split at hread
      · cases hread
      · cases hread
        exact ⟨spans_self, fun hpos => absurd hpos (by have := hstart rfl; omega)⟩
  | turn =>
    exact LoopWorld.inv_turn h fun c hc => (safe_tick hc).mono (fun _ _ h => h) fun _ _ _ => trivial
  | crash => exact LoopWorld.inv_crash h
  | act m =>
    have hgrows : Grows w.shared (m.apply w.shared) := grows_act (fun _ id he hid => by subst he; exact hc hid) w.shared
    refine LoopWorld.inv_act h ?_ hgrows fun c s t hst hM => hM.grow hst
    change Spans cfg.reader ledger a₀ (m.apply w.shared).cursor (m.apply w.shared)
    rw [hgrows.cursor]
    exact h.state.grow hgrows
  | await i =>
    refine LoopWorld.inv_await h (fun _ _ _ => rfl) fun o ho hpoint => ⟨?_, ?_⟩
    · rintro b rfl
      exact hc b ho
    · exact spans_exec i h.state hpoint

end Run

end VizContiguity

open VizContiguity

/-- Wherever the store's cursor, or the memory's of a process still alive, once stood, every block
from there up to either cursor was scanned and its deposits have rows. -/
theorem viz_scan_contiguous (L : Libs) (cfg : VizWatcherConfig) (ledger : VizLedger L)
    (s₀ : WatchState) (pre post : List WatchEvent)
    (h : Runs.Meets (LoopWorld.step (vizWatcherSystem L cfg)) (HonestBlocks ledger) ⟨s₀, .down⟩
      (pre ++ post)) :
    let w₀ := Runs.run (LoopWorld.step (vizWatcherSystem L cfg)) ⟨s₀, .down⟩ pre
    let w := Runs.run (LoopWorld.step (vizWatcherSystem L cfg)) w₀ post
    (0 < w₀.shared.cursor →
      (∀ b, w₀.shared.cursor < b → b ≤ w.shared.cursor → cfg.reader.Covered ledger w.shared b) ∧
      ∀ c, w.proc = .idle c → ∀ b, w₀.shared.cursor < b → b ≤ c →
        cfg.reader.Covered ledger w.shared b) ∧
    ∀ a c, w₀.proc = .idle a → 0 < a → .start ∉ post → w.proc = .idle c →
      ∀ b, a < b → b ≤ c → cfg.reader.Covered ledger w.shared b := by
  obtain ⟨hpre, hpost⟩ := Runs.meets_append.1 h
  have hinit : Inv cfg ledger 0 0 (⟨s₀, .down⟩ : WatchWorld) :=
    ⟨fun hpos => absurd hpos (lt_irrefl 0), trivial⟩
  have hbase := Runs.run_inv (fun _ _ hw hc => step_inv hw hc fun _ => le_rfl) hinit hpre
  intro w₀ w
  constructor
  · intro hpos
    have hfrom : Inv cfg ledger w₀.shared.cursor 0 w₀ := ⟨spans_self, hbase.proc⟩
    have hinv := Runs.run_inv (fun _ _ hw hc => step_inv hw hc fun _ => le_rfl) hfrom hpost
    refine ⟨(hinv.state hpos).2, fun c hc => ?_⟩
    exact ((hinv.state.trans (hinv.idle hc).1) hpos).2
  · intro a c ha hpos hstart hc
    have hfrom : Inv cfg ledger 0 a w₀ := by
      refine ⟨hbase.state, ?_⟩
      rw [show w₀.proc = .idle a from ha]
      exact ⟨(hbase.idle ha).1, spans_self⟩
    have hinv := Runs.run_inv (fun _ _ hw hc => step_inv hw hc.1 fun he => absurd he hc.2) hfrom
      (hpost.and (D := (· ≠ .start)) fun e he heq => hstart (heq ▸ he))
    exact ((hinv.idle hc).2 hpos).2

/-! ## A run over one deposit -/

def sampleVizConfig : VizWatcherConfig where
  reader := sampleDeps.reader
  extraConfirmations := 0
  caps := ⟨10000000, 100000000, 10000000⟩
  maxPerWindow := 3
  windowMs := 60000

/-- An answer at the irreversible head `lib`. -/
def sampleAnswer (lib : ℤ) : WatchInput where
  clock := 1000
  lib
  ops b := some (sampleVizLedger.ops b)

/-- The cold start one block below Alice's transfer. -/
def anchorRun : List WatchEvent :=
  .start :: .await (sampleAnswer 899) :: .turn :: List.replicate 5 (.await (sampleAnswer 899))

/-- The tick that scans her block. -/
def scanRun : List WatchEvent := .turn :: List.replicate 12 (.await (sampleAnswer 900))

theorem viz_scan_contiguous_sample :
    let step := LoopWorld.step (vizWatcherSystem sampleLibs sampleVizConfig)
    let w := Runs.run step (Runs.run step ⟨WatchState.empty, .down⟩ anchorRun) scanRun
    w.shared.cursor = 900 ∧ sampleVizConfig.reader.Covered sampleVizLedger w.shared 900 := by
  intro step w
  have hcursor₀ : (Runs.run step ⟨WatchState.empty, .down⟩ anchorRun).shared.cursor = 899 := by
    decide +kernel
  have hcursor : w.shared.cursor = 900 := by decide +kernel
  have hrun : Runs.Meets step (HonestBlocks sampleVizLedger) ⟨WatchState.empty, .down⟩
      (anchorRun ++ scanRun) := by
    refine Runs.meets_of_forall fun e he w => ?_
    have hawait : ∀ lib, HonestBlocks sampleVizLedger w (.await (sampleAnswer lib)) :=
      fun lib b _ => sampleVizLedger.answers_ops b
    simp [anchorRun, scanRun] at he
    rcases he with rfl | rfl | rfl | rfl | rfl | rfl
    all_goals first | exact True.intro | exact hawait _
  refine ⟨hcursor, ?_⟩
  refine ((viz_scan_contiguous sampleLibs sampleVizConfig sampleVizLedger WatchState.empty anchorRun
    scanRun hrun).1 ?_).1 900 ?_ ?_
  · rw [hcursor₀]
    decide
  · rw [hcursor₀]
    decide
  · rw [hcursor]

end VizGateway
