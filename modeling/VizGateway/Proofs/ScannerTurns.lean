import VizGateway.Lib.Turns
import VizGateway.Proofs.ScannerClaims
import VizGateway.Proofs.StoreRefinement

/-!
# The addresses are scanned in turn

A batch is the addresses that were scanned longest ago. So no address is scanned again while one that
was registered before its last scan has not been scanned since (`scanned_in_turn`), whatever fails,
crashes or is registered meanwhile.
-/

namespace VizGateway

open ActionStatus Text PegoutScanner

namespace ScannerTurns

variable {ds es : List DepositAddressRecord} {d : DepositAddressRecord} {a b : String} {now : ℤ}

/-- `a` was registered before `b` was last scanned, and was scanned longer ago. -/
def Waits (ds : List DepositAddressRecord) (a b : String) : Prop :=
  ∃ ra ∈ ds, ∃ rb ∈ ds, ra.vizAccount = a ∧ rb.vizAccount = b ∧ ra.scanTime < rb.scanTime
    ∧ ra.createdAt < rb.scanTime

/-- The time is not behind a scan that was stamped. -/
def NotBehind (ds : List DepositAddressRecord) (now : ℤ) : Prop :=
  0 ≤ now ∧ ∀ d ∈ ds, d.scanTime ≤ now

instance : Decidable (NotBehind ds now) := inferInstanceAs (Decidable (_ ∧ _))

structure Inv (ds : List DepositAddressRecord) : Prop where
  nodup : (ds.map DepositAddressRecord.vizAccount).Nodup
  priority : ∀ d ∈ ds, d.priority = 0

/-- What a registration keeps. -/
structure Rely (ds es : List DepositAddressRecord) : Prop where
  inv : Inv ds → Inv es
  names : ds.map DepositAddressRecord.vizAccount ⊆ es.map DepositAddressRecord.vizAccount
  waits : Inv ds → ∀ a, ∀ b ∈ ds.map DepositAddressRecord.vizAccount, Waits es a b → Waits ds a b
  notBehind : ∀ {now}, NotBehind ds now → NotBehind es now

/-- What is left of a batch. -/
structure Batch (batch : List DepositAddressRecord) (ds : List DepositAddressRecord) : Prop where
  inv : Inv ds
  nodup : (batch.map DepositAddressRecord.vizAccount).Nodup
  known : batch.map DepositAddressRecord.vizAccount ⊆ ds.map DepositAddressRecord.vizAccount
  inTurn : Turns.InTurn (Waits ds) (batch.map DepositAddressRecord.vizAccount)

theorem Rely.refl (ds : List DepositAddressRecord) : Rely ds ds :=
  ⟨fun h => h, fun _ h => h, fun _ _ _ _ h => h, fun h => h⟩

theorem Rely.trans {fs : List DepositAddressRecord} (h : Rely ds es) (h' : Rely es fs) :
    Rely ds fs where
  inv hinv := h'.inv (h.inv hinv)
  names _ hb := h'.names (h.names hb)
  waits hinv a b hb hw := h.waits hinv a b hb (h'.waits (h.inv hinv) a b (h.names hb) hw)
  notBehind hnow := h'.notBehind (h.notBehind hnow)

theorem Batch.rely {batch : List DepositAddressRecord} (h : Batch batch ds) (hst : Rely ds es) :
    Batch batch es where
  inv := hst.inv h.inv
  nodup := h.nodup
  known _ hb := hst.names (h.known hb)
  inTurn := h.inTurn.mono fun a b hb hw => hst.waits h.inv a b (h.known hb) hw

/-! ## A registration -/

theorem rely_register {clock : ℤ} {vizAccount solAddress wvizAta : String}
    (hclock : NotBehind ds clock) :
    Rely ds (Keyed.insertNew DepositAddressRecord.vizAccount
      ⟨vizAccount, solAddress, wvizAta, clock, 0, 0⟩ ds) := by
  have hmem : ∀ {d}, d ∈ Keyed.insertNew DepositAddressRecord.vizAccount
      ⟨vizAccount, solAddress, wvizAta, clock, 0, 0⟩ ds →
      d ∈ ds ∨ d = ⟨vizAccount, solAddress, wvizAta, clock, 0, 0⟩ ∧
        vizAccount ∉ ds.map DepositAddressRecord.vizAccount := by
    intro d hd
    unfold Keyed.insertNew at hd
    split_ifs at hd with hget
    · exact .inl hd
    · rcases List.mem_append.1 hd with hd | hd
      · exact .inl hd
      · refine .inr ⟨List.mem_singleton.1 hd, fun hmem => hget ?_⟩
        obtain ⟨row, hrow, hname⟩ := List.mem_map.1 hmem
        simpa [Keyed.get] using ⟨row, hrow, hname⟩
  have hsub : ds ⊆ Keyed.insertNew DepositAddressRecord.vizAccount
      ⟨vizAccount, solAddress, wvizAta, clock, 0, 0⟩ ds := by
    unfold Keyed.insertNew
    split_ifs
    · exact fun _ hd => hd
    · exact List.subset_append_left _ _
  refine ⟨fun hinv => ⟨Keyed.nodup_insertNew hinv.nodup, fun d hd => ?_⟩, List.map_subset _ hsub,
    fun hinv a b hb => ?_, fun hnow => ⟨hnow.1, fun d hd => ?_⟩⟩
  · rcases hmem hd with hd | ⟨rfl, -⟩
    · exact hinv.priority d hd
    · rfl
  · rintro ⟨ra, hra, rb, hrb, ha, rfl, hlt, hcreated⟩
    have hrb : rb ∈ ds := by
      rcases hmem hrb with hrb | ⟨rfl, hnew⟩
      · exact hrb
      · exact absurd hb hnew
    -- the newcomer was registered after every scan so far
    rcases hmem hra with hra | ⟨rfl, -⟩
    · exact ⟨ra, hra, rb, hrb, ha, rfl, hlt, hcreated⟩
    · have hle : rb.scanTime ≤ clock := hclock.2 rb hrb
      have hlt : clock < rb.scanTime := hcreated
      omega
  · rcases hmem hd with hd | ⟨rfl, -⟩
    · exact hnow.2 d hd
    · exact hnow.1

/-! ## The next batch -/

theorem batch_of_scan (hinv : Inv ds) (planner : Planner) (n : ℤ) :
    Batch (Database.limit n ((planner.deposits ds).mergeSort Database.scanLe)) ds := by
  set rows := (planner.deposits ds).mergeSort Database.scanLe with hrows
  have hperm : rows.Perm ds := (List.mergeSort_perm _ _).trans (planner.deposits_perm ds)
  have hnames : (rows.map DepositAddressRecord.vizAccount).Nodup :=
    (hperm.map _).nodup_iff.2 hinv.nodup
  -- nothing writes a priority, so the order is that of the scan times
  have hsorted : rows.Pairwise fun a b => a.scanTime ≤ b.scanTime := by
    refine (Sorted.pairwise_mergeSort StoreRefinement.scanLe_iff _).imp_of_mem fun {a b} ha hb hle => ?_
    have hpa := hinv.priority a (hperm.subset ha)
    have hpb := hinv.priority b (hperm.subset hb)
    simpa [DepositAddressRecord.scanKey, Prod.Lex.toLex_le_toLex, hpa, hpb] using hle
  have hwaits : ∀ a b, Waits ds a b → ∃ r ∈ rows, ∃ r' ∈ rows, r.vizAccount = a ∧
      r'.vizAccount = b ∧ r.scanTime < r'.scanTime := by
    rintro a b ⟨ra, hra, rb, hrb, ha, hb, hlt, -⟩
    exact ⟨ra, hperm.symm.subset hra, rb, hperm.symm.subset hrb, ha, hb, hlt⟩
  obtain ⟨k, hk⟩ : ∃ k, Database.limit n rows = rows.take k := by
    unfold Database.limit
    split_ifs
    · exact ⟨rows.length, List.take_length.symm⟩
    · exact ⟨n.toNat, rfl⟩
  rw [hk]
  exact
    { inv := hinv
      nodup := hnames.sublist ((List.take_sublist k rows).map _)
      known := List.map_subset _ fun d hd => hperm.subset (List.mem_of_mem_take hd)
      inTurn := Turns.inTurn_take hsorted hnames hwaits k }

theorem names_touch (vizAccount : String) (now : ℤ) :
    (Keyed.update DepositAddressRecord.vizAccount vizAccount
      (fun d => { d with scanTime := now }) ds).map DepositAddressRecord.vizAccount =
      ds.map DepositAddressRecord.vizAccount :=
  Keyed.map_key_update (f := fun d : DepositAddressRecord => { d with scanTime := now }) fun _ => rfl

theorem inv_touch (h : Inv ds) (vizAccount : String) (now : ℤ) :
    Inv (Keyed.update DepositAddressRecord.vizAccount vizAccount
      (fun d => { d with scanTime := now }) ds) := by
  refine ⟨?_, fun d hd => ?_⟩
  · rw [names_touch]
    exact h.nodup
  · obtain ⟨d', hd', rfl⟩ := List.mem_map.1 hd
    split_ifs
    · exact h.priority d' hd'
    · exact h.priority d' hd'

/-- The front of the batch is stamped. -/
theorem batch_touch {batch : List DepositAddressRecord} {dep : DepositAddressRecord}
    (h : Batch (dep :: batch) ds) (hnow : NotBehind ds now) :
    Batch batch (Keyed.update DepositAddressRecord.vizAccount dep.vizAccount
      (fun d => { d with scanTime := now }) ds) := by
  have hmem : ∀ {d}, d ∈ Keyed.update DepositAddressRecord.vizAccount dep.vizAccount
      (fun d => { d with scanTime := now }) ds →
      d ∈ ds ∧ d.vizAccount ≠ dep.vizAccount ∨
        ∃ d' ∈ ds, d'.vizAccount = dep.vizAccount ∧ d = { d' with scanTime := now } := by
    intro d hd
    obtain ⟨d', hd', rfl⟩ := List.mem_map.1 hd
    split_ifs with hname
    · exact .inr ⟨d', hd', hname, rfl⟩
    · exact .inl ⟨hd', hname⟩
  obtain ⟨hnot, hnodup⟩ := List.nodup_cons.1 h.nodup
  refine ⟨inv_touch h.inv dep.vizAccount now, hnodup, ?_, h.inTurn.tail ?_⟩
  · rw [names_touch]
    exact fun b hb => h.known (List.mem_cons_of_mem _ hb)
  · rintro a c hc ⟨ra, hra, rc, hrc, rfl, rfl, hlt, hcreated⟩
    have hrc : rc ∈ ds := by
      rcases hmem hrc with ⟨hrc, -⟩ | ⟨d', -, hname, rfl⟩
      · exact hrc
      · exact absurd hc (hname ▸ hnot)
    -- nobody waits for the one just stamped
    rcases hmem hra with ⟨hra, hne⟩ | ⟨d', -, -, rfl⟩
    · exact ⟨⟨ra, hra, rc, hrc, rfl, rfl, hlt, hcreated⟩, hne⟩
    · exact absurd hlt (hnow.2 rc hrc).not_gt

/-! ## The scanner's programs -/

section Programs

variable (N : BurnSigner)

def contract : Prog.Contract ScannerOp ScannerOp.Ans String ScannerState ScannerInput where
  exec := ScannerOp.exec N
  rely s t := Rely s.deposits t.deposits
  rely_refl s := Rely.refl s.deposits
  rely_trans := Rely.trans
  allowed o i s := o = .dateNow → NotBehind s.deposits i.clock
  point o s := ∀ b now, o = .touchDepositScan b now → ∀ a, ¬ Waits s.deposits a b

/-- A call that stamps no scan. -/
def Unstamped : ScannerOp → Prop
  | .touchDepositScan .. => False
  | _ => True

variable {N} {batch : List DepositAddressRecord} {s : ScannerState}

theorem deposits_exec {o : ScannerOp} (ho : Unstamped o) (i : ScannerInput) (s : ScannerState) :
    (o.exec N i s).1.deposits = s.deposits := by
  have hrun : (o.run N i s).1.deposits = s.deposits := by
    cases o with
    | store o => cases o <;> rfl
    | accountExists name =>
      simp only [ScannerOp.run]
      split_ifs <;> rfl
    | touchDepositScan vizAccount now => exact ho.elim
    | _ => rfl
  rcases ScannerClaims.exec_state (N := N) o i s with hexec | hexec
  · rw [hexec, hrun]
  · rw [hexec]

theorem inv_exec (o : ScannerOp) (i : ScannerInput) (hs : Inv s.deposits) :
    Inv (o.exec N i s).1.deposits := by
  by_cases ho : Unstamped o
  · rwa [deposits_exec ho]
  · cases o with
    | touchDepositScan vizAccount now =>
      unfold ScannerOp.exec
      cases i.fails with
      | none => exact inv_touch hs vizAccount now
      | some e => exact hs
    | _ => exact absurd trivial ho

theorem holds_unstamped {P : List DepositAddressRecord → Prop} (hP : ∀ ds es, Rely ds es → P ds → P es)
    {α : Type} {p : ScannerM α} (h : Prog.Uses Unstamped p) :
    Prog.Holds (contract N) (fun s => P s.deposits) (fun _ _ => True) p := by
  refine Prog.holds_of_uses h (fun s t hst hs => hP _ _ hst hs) (fun o s ho _ b now h => ?_)
    fun o i s ho hs _ => ?_
  · subst h
    exact ho.elim
  · change P (o.exec N i s).1.deposits
    rwa [deposits_exec ho]

theorem lasting_batch : ∀ ds es, Rely ds es → Batch batch ds → Batch batch es :=
  fun _ _ hst h => h.rely hst

variable (L : Libs) (cfg : PegoutScannerConfig)

theorem uses_own {o : ScannerOp} (ho : Unstamped o) :
    Prog.Uses Unstamped (Prog.ask o : ScannerM o.Ans) := Prog.uses_ask ho

theorem unstamped_of_own {id : String} (o : ScannerOp) (ho : ScannerClaims.Own id o) :
    Unstamped o := by
  cases o with
  | touchDepositScan vizAccount now => exact ho.elim
  | _ => trivial

theorem unstamped_of_recovers (o : ScannerOp) (ho : ScannerClaims.Recovers o) : Unstamped o := by
  cases o with
  | touchDepositScan vizAccount now => exact ho.elim
  | _ => trivial

theorem uses_handleTransfer (dep : DepositAddressRecord) (t : IncomingTransfer) :
    Prog.Uses Unstamped (handleTransfer L cfg dep t) := by
  refine Prog.uses_bind (uses_own (o := .store (.enqueue (claim L dep t))) trivial)
    fun (first : Bool) => Prog.uses_ite ?_ trivial
  refine Prog.uses_bind (Prog.uses_translate (fun o => uses_own (o := .cap o) trivial) _)
    fun cap => Prog.uses_bind ?_ fun known => ?_
  · exact Prog.uses_ite (uses_own (o := .accountExists dep.vizAccount) trivial) trivial
  · cases guardPegOut cap known with
    | burn =>
      exact Prog.uses_catch (ScannerClaims.uses_burning L cfg unstamped_of_own ..) fun _ =>
        uses_own (o := .store (.delete _)) trivial
    | hold reason pause =>
      refine Prog.uses_bind (uses_own (o := .store (.setStatus ..)) trivial) fun _ => ?_
      cases pause with
      | none => trivial
      | some reason => exact uses_own (o := .store (.pause reason)) trivial

/-- An address is stamped when its turn has come, with a time that is not behind. -/
theorem safe_scanAddress (slot : ℕ) (dep : DepositAddressRecord)
    (hs : Batch (dep :: batch) s.deposits) :
    Prog.Safe (contract N) (fun _ s => Batch batch s.deposits) (fun _ s => Inv s.deposits)
      (scanAddress L cfg slot dep) s := by
  have hread : Prog.Uses Unstamped (incomingTransfersTo cfg dep.wvizAta slot) :=
    Prog.uses_bind (uses_own (o := .getSignaturesForAddress dep.wvizAta (max 1 cfg.maxSignatures))
      trivial) fun _ => ScannerClaims.uses_readTransfers (fun _ => trivial) ..
  refine (holds_unstamped lasting_batch hread).then_safe (fun transfers s hs _ => ?_)
    (fun _ _ h => h.inv) hs
  refine (holds_unstamped lasting_batch (Prog.uses_forEach (uses_handleTransfer L cfg dep)
    transfers)).then_safe (fun _ s hs _ => ?_) (fun _ _ h => h.inv) hs
  have hclock : Prog.Safe (contract N)
      (fun (now : ℤ) s => Batch (dep :: batch) s.deposits ∧ NotBehind s.deposits now)
      (fun _ s => Inv s.deposits) dateNow s := by
    refine Prog.safe_ask (fun t _ b now h => by cases h) (fun t hst i hi (now : ℤ) hok => ?_)
      fun t hst i _ _ _ => inv_exec _ i (hst.inv hs.inv)
    obtain ⟨-, hrun, hclock⟩ := ScannerClaims.exec_eq_ok (o := .dateNow) hok
    obtain rfl : i.clock = now := hclock
    change Batch (dep :: batch) (ScannerOp.exec N .dateNow i t).1.deposits ∧
      NotBehind (ScannerOp.exec N .dateNow i t).1.deposits i.clock
    rw [hrun]
    exact ⟨hs.rely hst, hi rfl⟩
  refine Prog.safe_bind (hclock.mono (fun (now : ℤ) s hs => ?_) fun _ _ h => h)
  obtain ⟨hbatch, hnow⟩ := hs
  refine Prog.safe_ask (fun t hst b now' h a => ?_) (fun t hst i _ _ hok => ?_)
    fun t hst i _ _ _ => inv_exec _ i (hst.inv hbatch.inv)
  · obtain ⟨rfl, -⟩ := ScannerOp.touchDepositScan.inj h
    exact (hbatch.rely hst).inTurn.head
  · obtain ⟨-, hrun, -⟩ := ScannerClaims.exec_eq_ok (o := .touchDepositScan dep.vizAccount now) hok
    change Batch batch (ScannerOp.exec N (.touchDepositScan dep.vizAccount now) i t).1.deposits
    rw [hrun]
    exact batch_touch (hbatch.rely hst) (hst.notBehind hnow)

theorem safe_scanBatch (hs : Inv s.deposits) :
    Prog.Safe (contract N) (fun _ s => Inv s.deposits) (fun _ s => Inv s.deposits)
      (scanBatch L cfg) s := by
  have hlasting : ∀ ds es, Rely ds es → Inv ds → Inv es := fun _ _ hst => hst.inv
  refine (holds_unstamped hlasting (uses_own (o := .finalizedHeight) trivial)).then_safe
    (fun (slot : ℕ) s hs _ => ?_) (fun _ _ h => h) hs
  have hread : Prog.Safe (contract N) (fun batch s => Batch batch s.deposits)
      (fun _ s => Inv s.deposits)
      (Prog.ask (ScannerOp.depositAddressesForScan cfg.scanAddressBatch) :
        ScannerM (List DepositAddressRecord)) s := by
    refine Prog.safe_ask (fun t _ b now h => by cases h) (fun t hst i _ batch hok => ?_)
      fun t hst i _ _ _ => inv_exec _ i (hst.inv hs)
    obtain ⟨-, hrun, rfl⟩ := ScannerClaims.exec_eq_ok hok
    change Batch _ (ScannerOp.exec N (.depositAddressesForScan cfg.scanAddressBatch) i t).1.deposits
    rw [hrun]
    exact batch_of_scan (hst.inv hs) i.planner cfg.scanAddressBatch
  refine Prog.safe_bind (hread.mono (fun batch s hs => ?_) fun _ _ h => h)
  exact (Prog.safe_forEach (I := fun batch s => Batch batch s.deposits)
    (fun dep _ s hs => safe_scanAddress L cfg slot dep hs) hs).mono (fun _ _ h => h.inv) fun _ _ h => h

theorem safe_tick (hs : Inv s.deposits) :
    Prog.Safe (contract N) (fun _ s => Inv s.deposits) (fun _ _ => True) (tick L cfg) s := by
  have hlasting : ∀ ds es, Rely ds es → Inv ds → Inv es := fun _ _ hst => hst.inv
  refine Prog.safe_catch ?_
  refine (holds_unstamped hlasting (uses_own (o := .store .isPaused) trivial)).then_safe
    (fun (paused : Bool) s hs _ => ?_) (fun _ _ h => h) hs
  refine Prog.safe_ite (c := paused = true) (fun _ => hs) fun _ => ?_
  exact (holds_unstamped hlasting
    (ScannerClaims.uses_recoverStale unstamped_of_recovers)).then_safe
    (fun _ s hs _ => safe_scanBatch L cfg hs) (fun _ _ h => h) hs

end Programs

/-! ## Runs -/

/-- Whoever reads the clock reads a time that is not behind. -/
def Clocked (w : ScannerWorld) : ScannerEvent → Prop
  | .await i => w.standsAt = some .dateNow → NotBehind w.shared.deposits i.clock
  | .act (.register clock ..) => NotBehind w.shared.deposits clock
  | _ => True

instance (w : ScannerWorld) (e : ScannerEvent) : Decidable (Clocked w e) := by
  unfold Clocked
  split <;> infer_instance

variable {N : BurnSigner} {L : Libs} {cfg : PegoutScannerConfig} {w : ScannerWorld}

abbrev WorldInv (N : BurnSigner) : ScannerWorld → Prop :=
  LoopWorld.Inv (contract N) (fun s => Inv s.deposits) fun _ s => Inv s.deposits

theorem rely_act {m : ScannerAct} {s : ScannerState}
    (hm : ∀ clock a b c, m = .register clock a b c → NotBehind s.deposits clock) :
    Rely s.deposits (m.apply s).deposits := by
  cases m with
  | register clock vizAccount solAddress wvizAta => exact rely_register (hm _ _ _ _ rfl)
  | store clock o =>
    simp only [ScannerAct.apply]
    split_ifs <;> exact Rely.refl _
  | land n =>
    simp only [ScannerAct.apply]
    split <;> exact Rely.refl _
  | _ => exact Rely.refl _

theorem step_inv {e : ScannerEvent} (h : WorldInv N w) (he : Clocked w e) :
    WorldInv N (w.step (scannerSystem N L cfg) e) := by
  cases e with
  | start => exact LoopWorld.inv_start h h.state
  | turn =>
    exact LoopWorld.inv_turn h fun _ hM => (safe_tick L cfg hM).mono (fun _ _ h => h)
      fun _ _ _ => trivial
  | crash => exact LoopWorld.inv_crash h
  | act m =>
    have hst : Rely w.shared.deposits (m.apply w.shared).deposits :=
      rely_act fun clock a b c hm => by
        subst hm
        exact he
    exact LoopWorld.inv_act h (hst.inv h.state) hst fun _ _ _ hst hM => hst.inv hM
  | await i =>
    refine LoopWorld.inv_await h (fun _ _ _ => rfl) fun o ho _ => ⟨fun hclock => ?_, inv_exec o i h.state⟩
    subst hclock
    exact he ho

theorem inv_init : WorldInv N ScannerWorld.init where
  state := ⟨List.nodup_nil, fun d hd => by cases hd⟩
  proc := trivial

end ScannerTurns

open ScannerTurns

/-- Alice's address is scanned a second time; Bob's is registered during that scan. -/
def secondScan : List ScannerEvent :=
  .act (.register 0 "alice" "sol-alice" "ata-alice") :: .start :: .turn ::
    List.replicate 8 (.await { clock := 10 }) ++ .turn :: List.replicate 6 (.await { clock := 20 }) ++
    [.act (.register 20 "bob" "sol-bob" "ata-bob"), .await { clock := 20 }]

/-- An address is scanned again only after every address that was registered before its last scan has
been scanned since. -/
theorem scanned_in_turn (N : BurnSigner) (L : Libs) (cfg : PegoutScannerConfig)
    {es : List ScannerEvent}
    (h : Runs.Meets (LoopWorld.step (scannerSystem N L cfg)) Clocked ScannerWorld.init es) :
    let w := Runs.run (LoopWorld.step (scannerSystem N L cfg)) ScannerWorld.init es
    ∀ now, ∀ ra ∈ w.shared.deposits, ∀ rb ∈ w.shared.deposits,
      w.standsAt = some (.touchDepositScan rb.vizAccount now) → ra.createdAt < rb.scanTime →
        rb.scanTime ≤ ra.scanTime := by
  intro w now ra hra rb hrb ho hcreated
  have hinv : WorldInv N w := Runs.run_inv (fun _ _ hw he => step_inv hw he) inv_init h
  have hpoint := hinv.point ho rb.vizAccount now rfl ra.vizAccount
  by_contra hlt
  exact hpoint ⟨ra, hra, rb, hrb, rfl, rfl, not_le.1 hlt, hcreated⟩

theorem scanned_in_turn_sample :
    let w := Runs.run (LoopWorld.step
      (scannerSystem sampleBurnSigner sampleLibs sampleScannerConfig)) ScannerWorld.init secondScan
    w.shared.deposits.length = 2 ∧ ∀ ra ∈ w.shared.deposits, ∀ rb ∈ w.shared.deposits,
      rb.vizAccount = "alice" → ra.createdAt < rb.scanTime → rb.scanTime ≤ ra.scanTime := by
  intro w
  have hat : w.standsAt = some (.touchDepositScan "alice" 20) := by decide +kernel
  have hclocked : Runs.Meets (LoopWorld.step
      (scannerSystem sampleBurnSigner sampleLibs sampleScannerConfig)) Clocked ScannerWorld.init
      secondScan := by decide +kernel
  refine ⟨by decide +kernel, fun ra hra rb hrb hname => ?_⟩
  refine scanned_in_turn sampleBurnSigner sampleLibs sampleScannerConfig hclocked 20 ra hra rb hrb ?_
  rw [hname]
  exact hat

end VizGateway
