import VizGateway.Proofs.Exclusivity
import VizGateway.Proofs.ScannerClaims

/-!
# What the scanner hands over is accepted

A row is claimed for a transfer that the chain has into the address derived from the account's name. So
the row handed over stands every check of a signer that derives addresses alike and whose node has the
transfer as final.
-/

namespace VizGateway

open ActionStatus Text Checks PegoutScanner

namespace ScannerSource

section Source

variable (L : Libs) (cfg : PegoutScannerConfig) (ledger : String → Option ParsedTx)

/-- The address is the one derived from the account's name. -/
def Issued (d : DepositAddressRecord) : Prop :=
  L.depositAta cfg.depositProgramId d.vizAccount cfg.wvizMint = some d.wvizAta

/-- The chain has the transfer into the address of `dep`. -/
structure Paid (dep : DepositAddressRecord) (t : IncomingTransfer) : Prop where
  shape : looksLikeSolanaSignature t.signature = true
  onChain : ∃ tx p, ledger t.signature = some tx ∧ tx.err = false
    ∧ parseGatewayDeposit tx dep.wvizAta = .ok (some p) ∧ p.amountBaseUnits = t.amountBaseUnits

/-- A claim on a transfer the chain has. -/
def Claims (input : EnqueueInput) : Prop :=
  ∃ dep t, Issued L cfg dep ∧ Paid ledger dep t ∧ input = claim L dep t

/-- The row is such a claim's. -/
def Backed (r : OutboxRecord) : Prop :=
  ∃ input clock, Claims L cfg ledger input ∧ r.event = (input.toRecord clock).event

structure Inv (s : ScannerState) : Prop where
  issued : ∀ d ∈ s.deposits, Issued L cfg d
  burned : s.burned ⊆ s.claims
  backed : ∀ id ∈ s.claims, ∃ r, s.outbox.get id = some r ∧ Backed L cfg ledger r

/-- What everyone but the scanner's own writes keeps. -/
structure Rely (s t : ScannerState) : Prop where
  inv : Inv L cfg ledger s → Inv L cfg ledger t
  claims : s.claims ⊆ t.claims

/-- A signature as the chain lists it. -/
def Listed (s : ScanSig) : Prop :=
  looksLikeSolanaSignature s.signature = true ∧ ∀ tx, ledger s.signature = some tx → tx.err = s.err

/-- The chain answers with what it has. -/
def Answers (i : ScannerInput) : ScannerOp → Prop
  | .getSignaturesForAddress .. => ∀ s ∈ i.sigs, Listed ledger s
  | .getParsedTransaction signature => ∀ tx, i.tx = some tx → ledger signature = some tx
  | _ => True

/-- Where the scanner stands before it claims and before it burns. -/
def Point : ScannerOp → ScannerState → Prop
  | .store (.enqueue input), _ => Claims L cfg ledger input
  | .sendRawTransaction id _, s => id ∈ s.claims
  | _, _ => True

def contract (N : BurnSigner) :
    Prog.Contract ScannerOp ScannerOp.Ans String ScannerState ScannerInput where
  exec := ScannerOp.exec N
  rely := Rely L cfg ledger
  rely_refl _ := ⟨fun h => h, fun _ h => h⟩
  rely_trans h h' := ⟨fun hs => h'.inv (h.inv hs), fun _ hid => h'.claims (h.claims hid)⟩
  allowed o i _ := Answers ledger i o
  point := Point L cfg ledger

end Source

variable {N : BurnSigner} {L : Libs} {cfg : PegoutScannerConfig} {ledger : String → Option ParsedTx}
  {s t : ScannerState} {id : String} {dep : DepositAddressRecord}

/-! ## Single calls -/

/-- Rows that are kept with their events keep what they were claimed for. -/
theorem Inv.kept (h : Inv L cfg ledger s) (hdeposits : ∀ d ∈ t.deposits, Issued L cfg d)
    (hclaims : t.claims = s.claims) (hburned : t.burned = s.burned)
    (hrows : ∀ {id r}, s.outbox.get id = some r →
      ∃ r', t.outbox.get id = some r' ∧ r'.event = r.event) : Inv L cfg ledger t where
  issued := hdeposits
  burned := by
    rw [hburned, hclaims]
    exact h.burned
  backed id hid := by
    obtain ⟨r, hr, input, clock, hinput, he⟩ := h.backed id (hclaims ▸ hid)
    obtain ⟨r', hr', he'⟩ := hrows hr
    exact ⟨r', hr', input, clock, hinput, he'.trans he⟩

theorem Inv.frame (h : Inv L cfg ledger s) (hdeposits : t.deposits = s.deposits)
    (hclaims : t.claims = s.claims) (hburned : t.burned = s.burned)
    (houtbox : t.outbox = s.outbox) : Inv L cfg ledger t :=
  h.kept (fun d hd => h.issued d (hdeposits ▸ hd)) hclaims hburned fun hr => by
    rw [houtbox]
    exact ⟨_, hr, rfl⟩

theorem inv_enqueue (h : Inv L cfg ledger s) {input : EnqueueInput}
    (hinput : Claims L cfg ledger input) (i : ScannerInput) :
    Inv L cfg ledger ((ScannerOp.store (.enqueue input)).run N i s).1 := by
  have hrows : ∀ {id r}, s.outbox.get id = some r →
      ∃ r', (s.outbox.enqueue i.clock input).2.get id = some r' ∧ r'.event = r.event := fun hr =>
    ScannerClaims.kept_store (o := .enqueue input) (fun _ h => by cases h) i.clock hr
  cases hget : s.outbox.get input.id with
  | some r =>
    have hold : (s.outbox.enqueue i.clock input).1 = false := by
      unfold Outbox.enqueue
      split
      · simp_all
      · split_ifs <;> rfl
    refine h.kept h.issued ?_ rfl hrows
    simp [ScannerOp.run, hold]
  | none =>
    refine ⟨h.issued, fun id hid => ?_, fun id hid => ?_⟩
    · simp only [ScannerOp.run]
      split_ifs
      · exact List.mem_cons_of_mem _ (h.burned hid)
      · exact h.burned hid
    · have hid : id = input.id ∨ id ∈ s.claims := by
        simp only [ScannerOp.run] at hid
        split_ifs at hid
        · exact List.mem_cons.1 hid
        · exact .inr hid
      rcases hid with rfl | hid
      · refine ⟨input.toRecord i.clock, ?_, input, i.clock, hinput, rfl⟩
        change (s.outbox.enqueue i.clock input).2.get input.id = _
        rw [Outbox.get_enqueue, if_pos rfl, hget]
        rfl
      · obtain ⟨r, hr, input', clock, hinput', he⟩ := h.backed id hid
        obtain ⟨r', hr', he'⟩ := hrows hr
        exact ⟨r', hr', input', clock, hinput', he'.trans he⟩

theorem inv_delete (h : Inv L cfg ledger s) (id : String) (i : ScannerInput) :
    Inv L cfg ledger ((ScannerOp.store (.delete id)).run N i s).1 := by
  refine ⟨h.issued, fun id' hid' => ?_, fun id' hid' => ?_⟩
  · obtain ⟨hburned, hne⟩ := List.mem_filter.1 hid'
    exact List.mem_filter.2 ⟨h.burned hburned, hne⟩
  · obtain ⟨hclaim, hne⟩ := List.mem_filter.1 hid'
    obtain ⟨r, hr, hback⟩ := h.backed id' hclaim
    refine ⟨r, ?_, hback⟩
    change (s.outbox.delete id).get id' = some r
    rw [Outbox.get_delete, if_neg (by simpa using hne)]
    exact hr

theorem inv_run {o : ScannerOp} (h : Inv L cfg ledger s) (hpoint : Point L cfg ledger o s)
    (i : ScannerInput) : Inv L cfg ledger (o.run N i s).1 := by
  cases o with
  | store o =>
    have hwrite : (∀ id, o ≠ .delete id) → Inv L cfg ledger
        { s with outbox := (o.exec i.clock s.outbox).1 } := fun hnot =>
      h.kept h.issued rfl rfl fun hr => ScannerClaims.kept_store hnot i.clock hr
    cases o with
    | enqueue input => exact inv_enqueue h hpoint i
    | delete id => exact inv_delete h id i
    | _ => exact hwrite fun _ h => by cases h
  | touchDepositScan vizAccount now =>
    refine h.kept (fun d hd => ?_) rfl rfl fun hr => ⟨_, hr, rfl⟩
    obtain ⟨d', hd', rfl⟩ := List.mem_map.1 hd
    split_ifs <;> exact h.issued d' hd'
  | accountExists name =>
    simp only [ScannerOp.run]
    split_ifs
    · exact h.frame rfl rfl rfl rfl
    · exact h
  | sendRawTransaction id tx =>
    refine ⟨h.issued, fun id' hid' => ?_, h.backed⟩
    rcases List.mem_cons.1 hid' with rfl | hid'
    · exact hpoint
    · exact h.burned hid'
  | _ => exact h.frame rfl rfl rfl rfl

theorem inv_exec {o : ScannerOp} (h : Inv L cfg ledger s) (hpoint : Point L cfg ledger o s)
    (i : ScannerInput) : Inv L cfg ledger (o.exec N i s).1 := by
  rcases ScannerClaims.exec_state (N := N) o i s with hexec | hexec
  · rw [hexec]
    exact inv_run h hpoint i
  · rw [hexec]
    exact h

/-- A call for a claim, its release apart, leaves the claims as they are. -/
theorem claims_exec {o : ScannerOp} (ho : ScannerClaims.Own id o) (i : ScannerInput)
    (s : ScannerState) : (o.exec N i s).1.claims = s.claims := by
  have hrun : (o.run N i s).1.claims = s.claims := by
    cases o with
    | store o => cases o <;> first | exact ho.elim | rfl
    | accountExists name =>
      simp only [ScannerOp.run]
      split_ifs <;> rfl
    | _ => rfl
  rcases ScannerClaims.exec_state (N := N) o i s with hexec | hexec
  · rw [hexec, hrun]
  · rw [hexec]

/-! ## The scanner's programs -/

/-- A claim that is still held. -/
def Held (L : Libs) (cfg : PegoutScannerConfig) (ledger : String → Option ParsedTx) (id : String)
    (s : ScannerState) : Prop := Inv L cfg ledger s ∧ id ∈ s.claims

theorem holds_own {α : Type} {p : ScannerM α} (h : Prog.Uses (ScannerClaims.Own id) p) :
    Prog.Holds (contract L cfg ledger N) (Held L cfg ledger id) (fun _ _ => True) p := by
  have hpoint : ∀ o s, ScannerClaims.Own id o → Held L cfg ledger id s →
      Point L cfg ledger o s := by
    intro o s ho hs
    cases o with
    | store o => cases o <;> first | exact ho.elim | trivial
    | sendRawTransaction id' tx =>
      obtain rfl : id' = id := ho
      exact hs.2
    | _ => trivial
  refine Prog.holds_of_uses h (fun s t hst hs => ⟨hst.inv hs.1, hst.claims hs.2⟩) hpoint
    fun o i s ho hs _ => ⟨inv_exec hs.1 (hpoint o s ho hs) i, ?_⟩
  change id ∈ (o.exec N i s).1.claims
  rw [claims_exec ho]
  exact hs.2

/-- A call that neither claims nor burns. -/
def Idle : ScannerOp → Prop
  | .store (.enqueue _) | .sendRawTransaction .. => False
  | _ => True

theorem point_of_idle {o : ScannerOp} (ho : Idle o) (s : ScannerState) : Point L cfg ledger o s := by
  cases o with
  | store o => cases o <;> first | exact ho.elim | trivial
  | sendRawTransaction id tx => exact ho.elim
  | _ => trivial

theorem holds_idle {α : Type} {p : ScannerM α} (h : Prog.Uses Idle p) :
    Prog.Holds (contract L cfg ledger N) (Inv L cfg ledger) (fun _ _ => True) p :=
  Prog.holds_of_uses h (fun _ _ hst => hst.inv) (fun _ s ho _ => point_of_idle ho s)
    fun _ i s ho hs _ => inv_exec hs (point_of_idle ho s) i

/-- An idle call with what its answer says. -/
theorem holds_answer {o : ScannerOp} (ho : Idle o) {Q : o.Ans → ScannerState → Prop}
    (hQ : ∀ i s, Inv L cfg ledger s → Answers ledger i o → i.fails = none →
      Q (o.run N i s).2 (o.run N i s).1) :
    Prog.Holds (contract L cfg ledger N) (Inv L cfg ledger) Q (Prog.ask o) := by
  refine Prog.holds_ask (fun _ _ hst => hst.inv) (fun s _ => point_of_idle ho s)
    fun i s hs hi => ⟨inv_exec hs (point_of_idle ho s) i, fun a ha => ?_⟩
  obtain ⟨hfails, hrun, rfl⟩ := ScannerClaims.exec_eq_ok ha
  change Q _ (o.exec N i s).1
  rw [hrun]
  exact hQ i s hs hi hfails

theorem safe_decide {account : String} {amount : ℤ} (hs : Held L cfg ledger id s) :
    Prog.Safe (contract L cfg ledger N) (fun _ => Inv L cfg ledger) (fun _ => Inv L cfg ledger)
      (decide L cfg id account amount) s := by
  have hcap : Prog.Uses (ScannerClaims.Own id) (check cfg.caps amount) :=
    Prog.uses_translate (fun o => Prog.uses_ask (o := ScannerOp.cap o) trivial) _
  refine (holds_own hcap).then_safe (fun cap s hs _ => ?_) (fun _ _ h => h.1) hs
  have hknown : Prog.Uses (ScannerClaims.Own id) (accountKnown cap account) :=
    Prog.uses_ite (Prog.uses_ask (o := ScannerOp.accountExists account) trivial) trivial
  refine (holds_own hknown).then_safe (fun known s hs _ => ?_) (fun _ _ h => h.1) hs
  cases guardPegOut cap known with
  | burn =>
    have hdelete : Idle (.store (.delete id)) := trivial
    refine Prog.safe_catch ((holds_own (ScannerClaims.uses_burning L cfg (fun _ ho => ho) account
      amount) s hs).mono (fun _ _ h => h.1.1) fun _ s hs => ?_)
    exact (holds_idle (Prog.uses_ask hdelete) s hs.1).mono (fun _ _ h => h.1) fun _ _ h => h
  | hold reason pause =>
    have hhold : ScannerClaims.Own id
        (.store (.setStatus id held { lastError := some (some reason) })) := rfl
    refine (holds_own (Prog.uses_ask hhold)).then_safe (fun _ s hs _ => ?_) (fun _ _ h => h.1) hs
    cases pause with
    | none => exact hs.1
    | some reason =>
      have hpause : Idle (.store (.pause reason)) := trivial
      exact (holds_idle (Prog.uses_ask hpause) s hs.1).mono (fun _ _ h => h.1) fun _ _ h => h

/-- A transfer the chain has is claimed and then decided. -/
theorem holds_handleTransfer {t : IncomingTransfer} (hdep : Issued L cfg dep)
    (ht : Paid ledger dep t) :
    Prog.Holds (contract L cfg ledger N) (Inv L cfg ledger) (fun _ _ => True)
      (handleTransfer L cfg dep t) := by
  intro s hs
  have hclaims : Claims L cfg ledger (claim L dep t) := ⟨dep, t, hdep, ht, rfl⟩
  have hfirst : Prog.Safe (contract L cfg ledger N)
      (fun (first : Bool) s => Inv L cfg ledger s ∧ (first = true → t.signature ∈ s.claims))
      (fun _ => Inv L cfg ledger) (enqueue (claim L dep t)) s := by
    refine Prog.safe_ask (fun u _ => hclaims) (fun u hst i _ (first : Bool) hok => ?_)
      fun u hst i _ _ _ => inv_exec (o := .store (.enqueue (claim L dep t))) (hst.inv hs) hclaims i
    obtain ⟨-, hrun, hans⟩ := ScannerClaims.exec_eq_ok (o := .store (.enqueue (claim L dep t))) hok
    obtain rfl : (u.outbox.enqueue i.clock (claim L dep t)).1 = first := hans
    change Inv L cfg ledger (ScannerOp.exec N (.store (.enqueue (claim L dep t))) i u).1 ∧
      (_ → t.signature ∈ (ScannerOp.exec N (.store (.enqueue (claim L dep t))) i u).1.claims)
    rw [hrun]
    refine ⟨inv_enqueue (hst.inv hs) hclaims i, fun hnew => ?_⟩
    simp only [ScannerOp.run, hnew, if_true]
    exact List.mem_cons_self
  refine Prog.safe_bind (hfirst.mono (fun (first : Bool) s hs => ?_) fun _ _ h => h)
  refine Prog.safe_ite (c := first = true) (fun hnew => ?_) fun _ => ⟨hs.1, trivial⟩
  exact (safe_decide ⟨hs.1, hs.2 hnew⟩).mono (fun _ _ h => ⟨h, trivial⟩) fun _ _ h => h

/-! ## What is read of an address -/

theorem holds_readTransfer (safeSlot : ℤ) {sig : ScanSig} (hsig : Listed ledger sig) :
    Prog.Holds (contract L cfg ledger N) (Inv L cfg ledger) (fun ts _ => ∀ t ∈ ts, Paid ledger dep t)
      (readTransfer dep.wvizAta safeSlot sig) := by
  intro s hs
  refine Prog.safe_ite (fun _ => ⟨hs, by simp⟩) fun herr => Prog.safe_ite (fun _ => ⟨hs, by simp⟩)
    fun _ => ?_
  have hread : Idle (.getParsedTransaction sig.signature) := trivial
  refine (holds_answer hread (Q := fun (tx? : Option ParsedTx) _ => ∀ tx, tx? = some tx →
    ledger sig.signature = some tx) fun i s _ hi _ => hi).then_safe
    (fun (tx? : Option ParsedTx) s hs htx => ?_) (fun _ _ h => h) hs
  cases tx? with
  | none => exact ⟨hs, by simp⟩
  | some tx =>
    refine Prog.safe_bind (Prog.safe_ofExcept (fun parsed hparsed => ⟨hs, ?_⟩) fun _ _ => hs)
    intro t ht
    simp only [List.mem_map, Option.mem_toList] at ht
    obtain ⟨p, rfl, rfl⟩ := ht
    have hledger := htx tx rfl
    refine ⟨hsig.1, tx, p, hledger, ?_, hparsed, rfl⟩
    rw [hsig.2 tx hledger]
    simpa using herr

theorem holds_readTransfers (safeSlot : ℤ) {sigs : List ScanSig}
    (hsigs : ∀ sig ∈ sigs, Listed ledger sig) :
    Prog.Holds (contract L cfg ledger N) (Inv L cfg ledger) (fun ts _ => ∀ t ∈ ts, Paid ledger dep t)
      (readTransfers dep.wvizAta safeSlot sigs) := by
  induction sigs with
  | nil => exact fun s hs => ⟨hs, by simp⟩
  | cons sig rest ih =>
    intro s hs
    refine (holds_readTransfer safeSlot (hsigs sig List.mem_cons_self)).then_safe
      (fun here s hs hhere => ?_) (fun _ _ h => h) hs
    refine (ih fun sig' hsig' => hsigs sig' (List.mem_cons_of_mem _ hsig')).then_safe
      (fun later s hs hlater => ⟨hs, fun t ht => ?_⟩) (fun _ _ h => h) hs
    rcases List.mem_append.1 ht with ht | ht
    · exact hhere t ht
    · exact hlater t ht

theorem holds_scanAddress (slot : ℕ) (hdep : Issued L cfg dep) :
    Prog.Holds (contract L cfg ledger N) (Inv L cfg ledger) (fun _ _ => True)
      (scanAddress L cfg slot dep) := by
  intro s hs
  have hpage : Idle (.getSignaturesForAddress dep.wvizAta (max 1 cfg.maxSignatures)) := trivial
  have hsigs : Prog.Holds (contract L cfg ledger N) (Inv L cfg ledger)
      (fun (sigs : List ScanSig) _ => ∀ sig ∈ sigs, Listed ledger sig)
      (Prog.ask (ScannerOp.getSignaturesForAddress dep.wvizAta (max 1 cfg.maxSignatures))) :=
    holds_answer hpage fun i s _ hi _ => hi
  have hread : Prog.Holds (contract L cfg ledger N) (Inv L cfg ledger)
      (fun ts _ => ∀ t ∈ ts, Paid ledger dep t) (incomingTransfersTo cfg dep.wvizAta slot) :=
    fun s hs => hsigs.then_safe (fun sigs s hs hlisted => holds_readTransfers _ hlisted s hs)
      (fun _ _ h => h) hs
  refine hread.then_safe (fun transfers s hs hpaid => ?_) (fun _ _ h => h) hs
  refine (Prog.holds_forEach fun t ht => holds_handleTransfer hdep (hpaid t ht)).then_safe
    (fun _ s hs _ => ?_) (fun _ _ h => h) hs
  have hclock : Idle .dateNow := trivial
  refine (holds_idle (Prog.uses_ask hclock)).then_safe (fun (now : ℤ) s hs _ => ?_)
    (fun _ _ h => h) hs
  have htouch : Idle (.touchDepositScan dep.vizAccount now) := trivial
  exact holds_idle (Prog.uses_ask htouch) s hs

theorem mem_of_limit {n : ℤ} {planner : Planner} {ds : List DepositAddressRecord}
    {d : DepositAddressRecord}
    (hd : d ∈ Database.limit n ((planner.deposits ds).mergeSort Database.scanLe)) : d ∈ ds := by
  have hmem : d ∈ (planner.deposits ds).mergeSort Database.scanLe := by
    unfold Database.limit at hd
    split_ifs at hd
    · exact hd
    · exact List.mem_of_mem_take hd
  exact (planner.deposits_perm ds).subset (List.mem_mergeSort.1 hmem)

theorem idle_of_recovers (o : ScannerOp) (ho : ScannerClaims.Recovers o) : Idle o := by
  cases o with
  | store o => cases o <;> first | exact ho.elim | trivial
  | sendRawTransaction id tx => exact ho.elim
  | _ => trivial

variable (L cfg) in
theorem safe_tick (hs : Inv L cfg ledger s) :
    Prog.Safe (contract L cfg ledger N) (fun _ => Inv L cfg ledger) (fun _ _ => False)
      (tick L cfg) s := by
  refine Prog.safe_catch ?_
  have hpaused : Idle (.store .isPaused) := trivial
  refine (holds_idle (Prog.uses_ask hpaused)).then_safe (fun (paused : Bool) s hs _ => ?_)
    (fun _ _ h => h) hs
  refine Prog.safe_ite (c := paused = true) (fun _ => hs) fun _ => ?_
  refine (holds_idle (ScannerClaims.uses_recoverStale idle_of_recovers)).then_safe
    (fun _ s hs _ => ?_) (fun _ _ h => h) hs
  have hslot : Idle .finalizedHeight := trivial
  refine (holds_idle (Prog.uses_ask hslot)).then_safe (fun (slot : ℕ) s hs _ => ?_)
    (fun _ _ h => h) hs
  have hbatch : Idle (.depositAddressesForScan cfg.scanAddressBatch) := trivial
  have hissued : Prog.Holds (contract L cfg ledger N) (Inv L cfg ledger)
      (fun (batch : List DepositAddressRecord) _ => ∀ dep ∈ batch, Issued L cfg dep)
      (Prog.ask (ScannerOp.depositAddressesForScan cfg.scanAddressBatch)) :=
    holds_answer hbatch fun i s hs _ _ dep hdep => hs.issued dep (mem_of_limit hdep)
  refine hissued.then_safe (fun batch s hs hbatch => ?_) (fun _ _ h => h) hs
  exact (Prog.holds_forEach (fun dep hdep => holds_scanAddress slot (hbatch dep hdep)) s hs).mono
    (fun _ _ h => h.1) fun _ _ h => h

/-! ## Runs -/

section Run

variable (L cfg ledger)

/-- Addresses are registered as they are derived, and the node answers with what the chain has. -/
def FromLedger (w : ScannerWorld) : ScannerEvent → Prop
  | .await i => ∀ o, w.standsAt = some o → Answers ledger i o
  | .act (.register clock vizAccount solAddress wvizAta) =>
    Issued L cfg ⟨vizAccount, solAddress, wvizAta, clock, 0, 0⟩
  | _ => True

variable {L cfg ledger} {w : ScannerWorld}

theorem rely_act {m : ScannerAct} (hm : ∀ clock name sol ata, m = .register clock name sol ata →
    Issued L cfg ⟨name, sol, ata, clock, 0, 0⟩) (s : ScannerState) :
    Rely L cfg ledger s (m.apply s) := by
  cases m with
  | store clock o =>
    simp only [ScannerAct.apply]
    split_ifs with ho
    · have hnot : ∀ id, o ≠ .delete id := by
        rintro id rfl
        cases ho
      exact ⟨fun h => h.kept h.issued rfl rfl fun hr => ScannerClaims.kept_store hnot clock hr,
        fun _ h => h⟩
    · exact ⟨fun h => h, fun _ h => h⟩
  | register clock name sol ata =>
    refine ⟨fun h => h.kept (fun d hd => ?_) rfl rfl fun hr => ⟨_, hr, rfl⟩, fun _ h => h⟩
    simp only [ScannerAct.apply, Keyed.insertNew] at hd
    split_ifs at hd
    · exact h.issued d hd
    · rcases List.mem_append.1 hd with hd | hd
      · exact h.issued d hd
      · rw [List.mem_singleton.1 hd]
        exact hm clock name sol ata rfl
  | unpause => exact ⟨fun h => h.kept h.issued rfl rfl fun hr => ⟨_, hr, rfl⟩, fun _ h => h⟩
  | land n =>
    simp only [ScannerAct.apply]
    split
    · exact ⟨fun h => h.frame rfl rfl rfl rfl, fun _ h => h⟩
    · exact ⟨fun h => h, fun _ h => h⟩
  | _ => exact ⟨fun h => h.frame rfl rfl rfl rfl, fun _ h => h⟩

abbrev WorldInv (N : BurnSigner) (L : Libs) (cfg : PegoutScannerConfig)
    (ledger : String → Option ParsedTx) : ScannerWorld → Prop :=
  LoopWorld.Inv (contract L cfg ledger N) (Inv L cfg ledger) fun _ => Inv L cfg ledger

theorem step_inv {e : ScannerEvent} (h : WorldInv N L cfg ledger w)
    (he : FromLedger L cfg ledger w e) :
    WorldInv N L cfg ledger (w.step (scannerSystem N L cfg) e) := by
  cases e with
  | start => exact LoopWorld.inv_start h h.state
  | turn =>
    exact LoopWorld.inv_turn h fun _ hM => (safe_tick L cfg hM).mono (fun _ _ h => h)
      fun _ _ _ => trivial
  | crash => exact LoopWorld.inv_crash h
  | act m =>
    have hst : Rely L cfg ledger w.shared (m.apply w.shared) := by
      refine rely_act (fun clock name sol ata hm => ?_) w.shared
      subst hm
      exact he
    exact LoopWorld.inv_act h (hst.inv h.state) hst fun _ _ _ hst hM => hst.inv hM
  | await i =>
    exact LoopWorld.inv_await h (fun _ _ _ => rfl) fun o ho hpoint =>
      ⟨he o ho, inv_exec h.state hpoint i⟩

theorem inv_init : WorldInv N L cfg ledger ScannerWorld.init where
  state := ⟨fun _ h => (by cases h), fun _ h => (by cases h), fun _ h => (by cases h)⟩
  proc := trivial

end Run

/-! ## The signer's check -/

/-- A transfer's own signature leads to the check of Solana peg-outs. -/
theorem validateActionInner_solana {deps : SourceValidatorDeps} {view : NodeView}
    {action : CanonicalAction} {hint : Option ℕ} (hdir : action.direction ≠ .known .pegIn)
    (hshape : looksLikeSolanaSignature action.id = true) :
    validateActionInner L deps view action hint = validateSolanaPegOut L deps view action := by
  have hcolon : ':' ∉ action.id.toList := by
    unfold looksLikeSolanaSignature at hshape
    rw [Bool.and_eq_true, List.all_eq_true] at hshape
    exact fun hc => absurd (hshape.2 _ hc) (by decide)
  have hsuffix : ∀ {suffix : String}, ':' ∈ suffix.toList → endsWith action.id suffix = false :=
    fun hc => Bool.eq_false_iff.2 fun h => hcolon (colon_of_endsWith hc h)
  rw [validateActionInner, if_neg hdir,
    hsuffix (show ':' ∈ feeSweepSuffix.toList by decide),
    hsuffix (show ':' ∈ refundSuffix.toList by decide),
    hsuffix (show ':' ∈ returnSuffix.toList by decide), hshape]
  simp

theorem getDepositTransfer_of_final {node : SolanaNode} {ata : String} {tx : ParsedTx}
    {p : GatewayDeposit} (htx : node.getParsedTransaction id = .ok (some tx)) (herr : tx.err = false)
    (hfinal : node.isFinal tx.slot = .ok true) (hp : parseGatewayDeposit tx ata = .ok (some p)) :
    getDepositTransfer node id ata = .ok (some ⟨tx.slot, p.amountBaseUnits⟩) := by
  unfold getDepositTransfer
  rw [htx]
  simp only [bind, Except.bind, herr, hfinal, hp, Bool.false_eq_true, if_false]
  rfl

/-- The row of a claim on a transfer stands the check of a signer whose node has it as final. -/
theorem validates_of_backed {r : OutboxRecord} (hr : Backed L cfg ledger r)
    (hcfg : cfg.depositProgramId ≠ "" ∧ cfg.wvizMint ≠ "") :
    ∃ tx, ledger r.id = some tx ∧ ∀ (deps : SourceValidatorDeps) (view : NodeView)
      (hint : Option ℕ), deps.depositProgramId = cfg.depositProgramId →
      deps.wvizMint = cfg.wvizMint → view.solana.getParsedTransaction r.id = .ok (some tx) →
      view.solana.isFinal tx.slot = .ok true →
      validateAction L deps view (recordToAction r) hint = .ok () := by
  obtain ⟨input, clock, ⟨dep, t, hdep, ⟨hshape, tx, p, hledger, herr, hparsed, hamount⟩, rfl⟩, he⟩ := hr
  have hfield : ∀ {α : Type} (f : OutboxRecord → α), (∀ r, f r.event = f r) →
      f r = f ((claim L dep t).toRecord clock) := fun f hf => OutboxRecord.eq_of_event he f hf
  have hid : r.id = t.signature := hfield OutboxRecord.id fun _ => rfl
  have haction : recordToAction r = canonicalPegOut L.digestOf (burnOf dep t) := by
    have hdirection := hfield OutboxRecord.direction fun _ => rfl
    have hchain := hfield OutboxRecord.remoteChain fun _ => rfl
    have hrecipient := hfield OutboxRecord.recipient fun _ => rfl
    have hvalue := hfield OutboxRecord.amountMilliViz fun _ => rfl
    have hdigest := hfield OutboxRecord.digest fun _ => rfl
    unfold recordToAction
    rw [hid, hdirection, hchain, hrecipient, hvalue, hdigest]
    rfl
  refine ⟨tx, hid ▸ hledger, fun deps view hint hprogram hmint htx hfinal => ?_⟩
  have hdir : (recordToAction r).direction ≠ .known .pegIn := by
    rw [haction]
    simp [canonicalPegOut]
  have hsol : looksLikeSolanaSignature (recordToAction r).id = true := by
    rw [haction]
    exact hshape
  rw [hid] at htx
  rw [validateAction_eq_ok, validateActionInner_solana hdir hsol, haction,
    validateSolanaPegOut_eq_ok, hprogram, hmint]
  refine ⟨hcfg, dep.wvizAta, ⟨tx.slot, p.amountBaseUnits⟩, hdep, ?_, ?_⟩
  · exact getDepositTransfer_of_final htx herr hfinal hparsed
  · -- the sender and the height are not part of the action
    rw [hamount]
    rfl

end ScannerSource

open ScannerSource

/-- A row the scanner hands over passes the source validation of every signer that derives addresses
alike and whose node has the row's transaction as final. -/
theorem handed_over_validates (N : BurnSigner) (L : Libs) (cfg : PegoutScannerConfig)
    (hcfg : cfg.depositProgramId ≠ "" ∧ cfg.wvizMint ≠ "") (ledger : String → Option ParsedTx)
    {es : List ScannerEvent}
    (h : Runs.Meets (LoopWorld.step (scannerSystem N L cfg)) (FromLedger L cfg ledger)
      ScannerWorld.init es) {id : String} {patch : StatusPatch} :
    let w := Runs.run (LoopWorld.step (scannerSystem N L cfg)) ScannerWorld.init es
    w.standsAt = some (.store (.setStatus id queued patch)) →
      ∃ r tx, w.shared.outbox.get id = some r ∧ ledger id = some tx ∧
        ∀ (deps : SourceValidatorDeps) (view : NodeView) (hint : Option ℕ),
          deps.depositProgramId = cfg.depositProgramId → deps.wvizMint = cfg.wvizMint →
          view.solana.getParsedTransaction id = .ok (some tx) →
          view.solana.isFinal tx.slot = .ok true →
          validateAction L deps view (recordToAction r) hint = .ok () := by
  intro w ho
  have hinv : WorldInv N L cfg ledger w := Runs.run_inv (fun _ _ hw he => step_inv hw he) inv_init h
  have hburned : id ∈ w.shared.burned := (((ScannerClaims.inv_run es).point ho).1 rfl).1
  obtain ⟨r, hr, hback⟩ := hinv.state.backed id (hinv.state.burned hburned)
  have hid : r.id = id := Outbox.id_of_get hr
  obtain ⟨tx, htx, hvalid⟩ := validates_of_backed hback hcfg
  rw [hid] at htx hvalid
  exact ⟨r, tx, hr, htx, hvalid⟩

namespace ScannerSource

def sampleTransferId : String :=
  "5HueCGU8rMjxEXxiPuD5BDku4MkFqeZyd4dZ1jvhTVqvbTLvyTJ5HueCGU8rMjxEXxiPuD5BDku4MkFqeZyd4dZ1"

/-- The chain with Alice's transfer. -/
def transferLedger : String → Option ParsedTx := fun id =>
  if id = sampleTransferId then some sampleAtaTransfer else none

def sampleListing : ScannerInput :=
  { sampleScannerAnswer with sigs := [⟨sampleTransferId, 7, false⟩], tx := none }

/-- A tick over her address, up to the transaction. -/
def upToTransfer : List ScannerEvent :=
  .act (.register 0 "alice" "sol-alice" "ata-alice") :: .start :: .turn ::
    List.replicate 6 (.await sampleListing)

/-- The transaction, and the tick up to the hand-over. -/
def upToHandOver : List ScannerEvent :=
  .await { sampleListing with tx := some sampleAtaTransfer } ::
    List.replicate 9 (.await sampleListing)

theorem fromLedger_listing (w : ScannerWorld) :
    FromLedger sampleLibs sampleScannerConfig transferLedger w (.await sampleListing) := by
  rintro o -
  cases o with
  | getSignaturesForAddress ata limit =>
    intro s hs
    rw [List.mem_singleton.1 hs]
    refine ⟨by decide +kernel, fun tx htx => ?_⟩
    obtain rfl : sampleAtaTransfer = tx := by simpa [transferLedger] using htx
    rfl
  | getParsedTransaction signature => exact fun tx htx => by cases htx
  | _ => trivial

theorem fromLedger_upToTransfer {w : ScannerWorld} :
    Runs.Meets (LoopWorld.step (scannerSystem sampleBurnSigner sampleLibs sampleScannerConfig))
      (FromLedger sampleLibs sampleScannerConfig transferLedger) w upToTransfer := by
  refine Runs.meets_of_forall fun e he w => ?_
  simp only [upToTransfer, List.mem_cons, List.mem_replicate] at he
  rcases he with rfl | rfl | rfl | ⟨-, rfl⟩
  · change Issued sampleLibs sampleScannerConfig ⟨"alice", "sol-alice", "ata-alice", 0, 0, 0⟩
    unfold Issued
    decide +kernel
  · trivial
  · trivial
  · exact fromLedger_listing w

/-- A signer's node that has the transfer as final. -/
def sampleSignerView : NodeView :=
  { sampleView [] with
    solana :=
      { finalitySlots := 0
        getParsedTransaction := fun id => .ok (transferLedger id)
        finalizedHeight := .ok 10 } }

def sampleSignerDeps : SourceValidatorDeps :=
  { sampleDeps with depositProgramId := "gw1deposit", wvizMint := "wviz" }

end ScannerSource

theorem handed_over_validates_sample :
    let w := Runs.run (LoopWorld.step
      (scannerSystem sampleBurnSigner sampleLibs sampleScannerConfig)) ScannerWorld.init
      (upToTransfer ++ upToHandOver)
    ∃ r, w.shared.outbox.get sampleTransferId = some r ∧
      validateAction sampleLibs sampleSignerDeps sampleSignerView (recordToAction r) none = .ok () := by
  intro w
  have hat : w.standsAt = some (.store (.setStatus sampleTransferId queued {})) := by decide +kernel
  have hread : (Runs.run (LoopWorld.step (scannerSystem sampleBurnSigner sampleLibs
      sampleScannerConfig)) ScannerWorld.init upToTransfer).standsAt
        = some (.getParsedTransaction sampleTransferId) := by decide +kernel
  have hmeets : Runs.Meets (LoopWorld.step
      (scannerSystem sampleBurnSigner sampleLibs sampleScannerConfig))
      (FromLedger sampleLibs sampleScannerConfig transferLedger) ScannerWorld.init
      (upToTransfer ++ upToHandOver) := by
    refine Runs.meets_append.2 ⟨fromLedger_upToTransfer, fun o ho => ?_,
      Runs.meets_of_forall fun e he w => ?_⟩
    · rw [hread] at ho
      obtain rfl := Option.some.inj ho
      intro tx htx
      simpa [transferLedger] using htx
    · rw [List.eq_of_mem_replicate he]
      exact fromLedger_listing w
  obtain ⟨r, tx, hr, htx, hvalid⟩ := handed_over_validates sampleBurnSigner sampleLibs
    sampleScannerConfig (by decide) transferLedger hmeets hat
  refine ⟨r, hr, hvalid sampleSignerDeps sampleSignerView none rfl rfl ?_ rfl⟩
  change Except.ok (transferLedger sampleTransferId) = _
  rw [htx]

end VizGateway
