import VizGateway.Lib.Claims
import VizGateway.Lib.LengthPrefix
import VizGateway.Sample
import VizGateway.Proofs.CanonicalText
import VizGateway.Proofs.ScannerSteps

/-!
# What the scanner burns and hands over

A burn goes out once for a claim, for the claimed row's account and amount, and only for an account
the VIZ node knew; a row is handed over only on the strength of such a burn. So before a second burn
of one transfer its row was deleted, and where nothing fails after a burn none lands twice.
-/

namespace VizGateway

open ActionStatus Text Checks PegoutScanner

namespace ScannerClaims

section Turn

variable (N : BurnSigner) (strict : Prop)

def contract : Prog.Contract ScannerOp ScannerOp.Ans String ScannerState ScannerInput where
  exec := ScannerOp.exec N
  rely := Rely N strict
  rely_refl := Rely.refl
  rely_trans := Rely.trans
  allowed o i s := strict → i.Settles N s o
  point := Point N strict

/-- What survives whatever the others do, and the scanner's plain calls. -/
def Lasting (P : ScannerState → Prop) : Prop := ∀ s t, Rely N strict s t → P s → P t

/-- No burn is out for `id`. -/
def Quiet (s : ScannerState) (id : String) : Prop := strict → ∀ b ∈ alive s, b.id ≠ id

/-- A claim no burn went out for yet. -/
structure Unburnt (s : ScannerState) (id account : String) (amount : ℤ) : Prop where
  inv : Inv N strict s
  fresh : id ∉ s.burned
  row : ∃ r, s.outbox.get id = some r ∧ account = r.recipient ∧ amount = r.amountMilliViz

/-- A claim burned for under `sig`. -/
structure Burned (s : ScannerState) (id sig : String) : Prop where
  inv : Inv N strict s
  burnt : Burnt s id fun b => N.signature b.tx = sig
  named : strict → Named N s id sig

variable {N strict} {s t : ScannerState} {id : String}

theorem lasting_inv : Lasting N strict (Inv N strict) := fun _ _ hst => hst.inv

theorem lasting_existing {account : String} : Lasting N strict fun s => account ∈ s.existing :=
  fun _ _ hst h => hst.existing h

theorem lasting_burned {sig : String} : Lasting N strict fun s => Burned N strict s id sig :=
  fun _ _ hst h => ⟨hst.inv h.inv, h.burnt.rely hst, fun hstrict => (h.named hstrict).rely hst⟩

theorem lasting_quiet : Lasting N strict fun s => Quiet strict s id :=
  fun _ _ hst h hstrict b hb => h hstrict b (hst.alive b hb)

theorem lasting_unburnt {account : String} {amount : ℤ} :
    Lasting N strict fun s => Unburnt N strict s id account amount := by
  rintro s t hst ⟨hinv, hfresh, r, hr, hrecipient, hamount⟩
  obtain ⟨r', hr', he⟩ := hst.rows hr
  refine ⟨hst.inv hinv, hst.burned ▸ hfresh, r', hr', hrecipient.trans ?_, hamount.trans ?_⟩
  · exact (OutboxRecord.eq_of_event he OutboxRecord.recipient fun _ => rfl).symm
  · exact (OutboxRecord.eq_of_event he OutboxRecord.amountMilliViz fun _ => rfl).symm

theorem Lasting.and {P Q : ScannerState → Prop} (hP : Lasting N strict P)
    (hQ : Lasting N strict Q) : Lasting N strict fun s => P s ∧ Q s :=
  fun s t hst h => ⟨hP s t hst h.1, hQ s t hst h.2⟩

theorem Unburnt.quiet {account : String} {amount : ℤ} (h : Unburnt N strict s id account amount) :
    Quiet strict s id := fun hstrict b hb hid => h.fresh (hid ▸ h.inv.alive hstrict b hb)

/-! ### One call -/

theorem exec_eq_ok {o : ScannerOp} {i : ScannerInput} {a : o.Ans}
    (h : (o.exec N i s).2 = .ok a) :
    i.fails = none ∧ (o.exec N i s).1 = (o.run N i s).1 ∧ (o.run N i s).2 = a := by
  unfold ScannerOp.exec at h ⊢
  cases hfails : i.fails with
  | none =>
    rw [hfails] at h
    exact ⟨rfl, rfl, Except.ok.inj h⟩
  | some e =>
    rw [hfails] at h
    cases o <;> cases h

theorem exec_eq_error {o : ScannerOp} {i : ScannerInput} {e : String}
    (h : (o.exec N i s).2 = .error e) : i.fails = some e := by
  unfold ScannerOp.exec at h
  cases hfails : i.fails with
  | none =>
    rw [hfails] at h
    cases h
  | some e' =>
    rw [hfails] at h
    cases o <;> · cases h; rfl

theorem holds_plain {P : ScannerState → Prop} (hP : Lasting N strict P) {α : Type} {p : ScannerM α}
    (h : Prog.Uses Plain p) : Prog.Holds (contract N strict) P (fun _ _ => True) p := by
  refine Prog.holds_of_uses h hP (fun o s ho _ => ?_) fun o i s ho hs _ =>
    hP s _ (rely_plain ho i s) hs
  change Point N strict o s
  cases o with
  | store o =>
    cases o with
    | setStatus id status patch => exact ho.elim
    | setFee id fee => exact ho.elim
    | delete id => exact ho.elim
    | _ => trivial
  | sendRawTransaction id tx => exact ho.elim
  | _ => trivial

/-- One of the scanner's calls, from a state where it may make it. -/
theorem safe_own {o : ScannerOp} {Q : o.Ans → ScannerState → Prop} {E : String → ScannerState → Prop}
    {P : ScannerState → Prop} (hP : Lasting N strict P) (hinv : ∀ s, P s → Inv N strict s)
    (hpoint : ∀ s, P s → Point N strict o s)
    (hok : ∀ i s, P s → i.fails = none → Inv N strict (o.run N i s).1 →
      Q (o.run N i s).2 (o.run N i s).1)
    (herr : ∀ i s e, P s → (strict → i.Settles N s o) → i.fails = some e →
      Inv N strict (o.exec N i s).1 → E e (o.exec N i s).1) (hs : P s) :
    Prog.Safe (contract N strict) Q E (Prog.ask o) s := by
  refine Prog.safe_ask (fun t hst => hpoint t (hP s t hst hs)) (fun t hst i _ a ha => ?_)
    fun t hst i hi e he => ?_
  · have ht := hP s t hst hs
    have hexec := inv_exec (hinv t ht) (hpoint t ht) i
    obtain ⟨hfails, hrun, rfl⟩ := exec_eq_ok ha
    change Q _ (o.exec N i t).1
    rw [hrun] at hexec ⊢
    exact hok i t ht hfails hexec
  · have ht := hP s t hst hs
    exact herr i t e ht hi (exec_eq_error he) (inv_exec (hinv t ht) (hpoint t ht) i)

theorem uses_cap {α : Type} (q : CapM α) :
    Prog.Uses Plain (q.translate fun o : CapOp => (Prog.ask (ScannerOp.cap o) : ScannerM o.Ans)) := by
  refine Prog.uses_translate (fun o => ?_) q
  have hcap : Plain (.cap o) := trivial
  exact Prog.uses_ask hcap

/-! ### Burning and handing over -/

variable (L : Libs) (cfg : PegoutScannerConfig)

/-- What a call for a burned claim leaves behind when it throws: in a settled run it does not. -/
theorem quiet_of_fails {i : ScannerInput} {o : ScannerOp} {e : String}
    (hsettles : strict → i.Settles N s o) (hfails : i.fails = some e)
    (ho : i.Settles N s o → i.fails = none) : Quiet strict t id := fun hstrict => by
  rw [ho (hsettles hstrict)] at hfails
  cases hfails

theorem safe_burnFromDeposit {account : String} {amount : ℤ}
    (hs : Unburnt N strict s id account amount ∧ account ∈ s.existing) :
    Prog.Safe (contract N strict) (fun sig s => Burned N strict s id sig)
      (fun _ s => Inv N strict s ∧ Quiet strict s id) (burnFromDeposit L cfg id account amount) s := by
  have hlasting : Lasting N strict fun s => Unburnt N strict s id account amount ∧
      account ∈ s.existing := lasting_unburnt.and lasting_existing
  refine Prog.safe_bind (Prog.safe_ofExcept (fun tx htx => ?_) fun _ _ => ⟨hs.1.inv, hs.1.quiet⟩)
  obtain ⟨hname, hamount⟩ : (∀ hash, (tx hash).vizAccount = account) ∧
      ∀ hash, (tx hash).amount = amount := by
    simp only [buildBurnTx, bind_eq_ok, pure_eq_ok] at htx
    obtain ⟨-, -, -, -, rfl⟩ := htx
    exact ⟨fun _ => rfl, fun _ => rfl⟩
  have hhash : Plain .getLatestBlockhash := trivial
  refine (holds_plain hlasting (Prog.uses_ask hhash)).then_safe (fun blockhash s hs _ => ?_)
    (fun _ _ h => ⟨h.1.inv, h.1.quiet⟩) hs
  refine safe_own hlasting (fun _ h => h.1.inv) (fun s hs => ?_) (fun i s hs _ hinv => ?_)
    (fun i s e hs hsettles hfails hinv => ⟨hinv, fun hstrict => ?_⟩) hs
  · obtain ⟨⟨-, hfresh, r, hr, hrecipient, hvalue⟩, hexists⟩ := hs
    exact ⟨hfresh, r, hr, (hname _).trans hrecipient, (hamount _).trans hvalue, hrecipient ▸ hexists⟩
  · obtain ⟨hclaim, hexists⟩ := hs
    obtain ⟨r, hr, hrecipient, hvalue⟩ := hclaim.row
    refine ⟨hinv, ⟨List.mem_cons_self, r, ⟨id, tx blockhash⟩, hr, ?_, rfl⟩, fun hstrict b hb hid => ?_⟩
    · exact ⟨List.mem_append_right _ (List.mem_singleton_self _), (Outbox.id_of_get hr).symm,
        (hname _).trans hrecipient, (hamount _).trans hvalue, hrecipient ▸ hexists⟩
    · have hmem : b ∈ alive s ∨ b = ⟨id, tx blockhash⟩ := by
        simp only [alive, ScannerOp.run, List.mem_append, List.mem_singleton] at hb ⊢
        tauto
      rcases hmem with hb | rfl
      · exact absurd hid (hclaim.quiet hstrict b hb)
      · rfl
  · have hlost : i.goesThrough = false := hsettles hstrict (by simp [hfails])
    simp only [ScannerOp.exec, hfails, hlost, Bool.false_eq_true, if_false]
    exact hs.1.quiet hstrict

theorem record_eq (amount : ℤ) : record amount = (do
    let now : ℤ ← Prog.ask (ScannerOp.cap (.dateNow .record))
    Prog.ask (ScannerOp.cap (.recordCap amount.toNat now)) : ScannerM Unit) := by
  refine congrArg (Prog.call (ScannerOp.cap (.dateNow .record))) (funext fun r => ?_)
  rcases r with e | now
  · rfl
  · refine congrArg (Prog.call (ScannerOp.cap (.recordCap amount.toNat now))) (funext fun r => ?_)
    rcases r with e | _ <;> rfl

/-- A plain call that a settled run answers. -/
theorem safe_answered {o : ScannerOp} (ho : Plain o) {sig : String}
    (hanswered : ∀ (i : ScannerInput) s, i.Settles N s o → i.fails = none)
    (hs : Burned N strict s id sig) :
    Prog.Safe (contract N strict) (fun _ s => Burned N strict s id sig)
      (fun _ s => Inv N strict s ∧ Quiet strict s id) (Prog.ask o) s := by
  refine Prog.safe_ask (fun t hst => ?_) (fun t hst i _ a _ => ?_) fun t hst i hi e he => ?_
  · change Point N strict o t
    cases o with
    | store o => cases o <;> first | exact ho.elim | trivial
    | sendRawTransaction id tx => exact ho.elim
    | _ => trivial
  · exact lasting_burned _ _ (hst.trans (rely_plain ho i t)) hs
  · have hkept : Burned N strict (o.exec N i t).1 id sig :=
      lasting_burned _ _ (hst.trans (rely_plain ho i t)) hs
    exact ⟨hkept.inv, quiet_of_fails hi (exec_eq_error he) (hanswered i t)⟩

theorem safe_record {sig : String} {amount : ℤ} (hs : Burned N strict s id sig) :
    Prog.Safe (contract N strict) (fun _ s => Burned N strict s id sig)
      (fun _ s => Inv N strict s ∧ Quiet strict s id) (record amount) s := by
  rw [record_eq]
  have hclock : Plain (.cap (.dateNow .record)) := trivial
  refine Prog.safe_bind ((safe_answered hclock (fun _ _ h => h) hs).mono (fun now s hs => ?_)
    fun _ _ h => h)
  have hrecord : Plain (.cap (.recordCap amount.toNat now)) := trivial
  exact safe_answered hrecord (fun _ _ h => h) hs

/-- From a claim nothing was burned for, one burn, and the hand-over on its strength. -/
theorem safe_burnAndHandOver {account : String} {amount : ℤ}
    (hs : Unburnt N strict s id account amount ∧ account ∈ s.existing) :
    Prog.Safe (contract N strict) (fun _ => Inv N strict) (fun _ => Inv N strict)
      (burnAndHandOver L cfg id account amount) s := by
  have hrelease : ∀ (_ : String) s, Inv N strict s ∧ Quiet strict s id →
      Prog.Safe (contract N strict) (fun _ => Inv N strict) (fun _ => Inv N strict)
        (PegoutScanner.delete id) s := by
    intro _ s hs
    have hpoint : ∀ s, Inv N strict s ∧ Quiet strict s id →
        Point N strict (.store (.delete id)) s := fun s hs => hs.2
    exact safe_own (lasting_inv.and lasting_quiet) (fun _ h => h.1) hpoint (fun _ _ _ _ h => h)
      (fun _ _ _ _ _ _ h => h) hs
  refine Prog.safe_catch (Prog.Safe.mono (fun _ _ h => h) hrelease ?_)
  refine Prog.safe_bind ((safe_burnFromDeposit L cfg hs).mono (fun sig s hs => ?_) fun _ _ h => h)
  refine Prog.safe_bind ((safe_record hs).mono (fun _ s hs => ?_) fun _ _ h => h)
  have hcheckpoint : ∀ s, Burned N strict s id sig →
      Point N strict (.store (.setStatus id seen { txid := some (some sig) })) s :=
    fun s hs => ⟨fun h => (by cases h), fun _ => ⟨sig, rfl, hs.burnt, hs.named⟩⟩
  refine Prog.safe_bind (safe_own lasting_burned (fun _ h => h.inv) hcheckpoint
    (fun i s hs _ hinv => ?_) (fun i s e hs hsettles hfails hinv => ?_) hs)
  · -- the checkpointed row is still the claim's
    have hkept : Burned N strict
        ((ScannerOp.store (.setStatus id seen { txid := some (some sig) })).run N i s).1 id sig := by
      obtain ⟨hburned, r, b, hr, hb, hsig⟩ := hs.burnt
      have hrow : (s.outbox.setStatus i.clock id seen { txid := some (some sig) }).get id
          = some (r.withStatus i.clock seen { txid := some (some sig) }) := by
        rw [Outbox.get_setStatus_self, hr]
        rfl
      exact ⟨hinv, ⟨hburned, _, b, hrow, hb.mono (fun _ h => h) (fun _ h => h) rfl, hsig⟩, hs.named⟩
    have hhandOver : ∀ s, Burned N strict s id sig →
        Point N strict (.store (.setStatus id queued {})) s := fun s hs =>
      ⟨fun _ => ⟨hs.burnt.1, hs.burnt.2.imp fun _ h => h.imp fun _ h => ⟨h.1, h.2.1, trivial⟩⟩,
        fun h => (by cases h)⟩
    refine safe_own lasting_burned (fun _ h => h.inv) hhandOver (fun _ _ _ _ h => h)
      (fun i s e hs hsettles hfails hinv => ⟨hinv, ?_⟩) hkept
    exact quiet_of_fails hsettles hfails fun h => h hs.burnt.1
  · exact ⟨hinv, quiet_of_fails hsettles hfails fun h => h hs.burnt.1⟩

/-- A burn is only decided on where the node knew the account. -/
theorem safe_accountKnown {account : String} {P : ScannerState → Prop} (hP : Lasting N strict P)
    (hinv : ∀ s, P s → Inv N strict s) (cap : Option CapRejection) (hs : P s) :
    Prog.Safe (contract N strict)
      (fun known s => P s ∧ (guardPegOut cap known = .burn → account ∈ s.existing))
      (fun _ => Inv N strict) (accountKnown cap account) s := by
  have hplain : Plain (.accountExists account) := trivial
  refine Prog.safe_ite (fun hcap => ?_) fun hcap => ⟨hs, fun h => ?_⟩
  · have hkeep : ∀ t i, Rely N strict s t → P (ScannerOp.exec N (.accountExists account) i t).1 :=
      fun t i hst => hP _ _ (hst.trans (rely_plain hplain i t)) hs
    refine Prog.safe_ask (fun t hst => trivial) (fun t hst i _ (known : Bool) hknown => ?_)
      fun t hst i _ _ _ => hinv _ (hkeep t i hst)
    refine ⟨hkeep t i hst, fun h => ?_⟩
    obtain ⟨-, hrun, hflag⟩ := exec_eq_ok (o := .accountExists account) hknown
    obtain rfl : i.flag = known := hflag
    change account ∈ (ScannerOp.exec N (.accountExists account) i t).1.existing
    rw [hrun]
    cases hflag : i.flag with
    | true => simp [ScannerOp.run, hflag]
    | false =>
      rw [hcap, hflag] at h
      cases h
  · cases cap with
    | none => exact absurd rfl hcap
    | some reason => cases h

theorem safe_decide {account : String} {amount : ℤ} (hs : Unburnt N strict s id account amount) :
    Prog.Safe (contract N strict) (fun _ => Inv N strict) (fun _ => Inv N strict)
      (decide L cfg id account amount) s := by
  refine (holds_plain lasting_unburnt (uses_cap _)).then_safe (fun cap s hs _ => ?_)
    (fun _ _ h => h.inv) hs
  refine Prog.safe_bind ((safe_accountKnown lasting_unburnt (fun _ h => h.inv) cap hs).mono
    (fun known s hs => ?_) fun _ _ h => h)
  cases hguard : guardPegOut cap known with
  | burn => exact safe_burnAndHandOver L cfg ⟨hs.1, hs.2 hguard⟩
  | hold reason pause =>
    have hhold : ∀ s, Inv N strict s →
        Point N strict (.store (.setStatus id held { lastError := some (some reason) })) s :=
      fun s _ => ⟨fun h => (by cases h), fun h => (by cases h)⟩
    refine Prog.safe_bind (safe_own lasting_inv (fun _ h => h) hhold
      (fun i s _ _ hinv => ?_) (fun _ _ _ _ _ _ h => h) hs.1.inv)
    cases pause with
    | none => exact hinv
    | some reason =>
      have hplain : Plain (.store (.pause reason)) := trivial
      exact (holds_plain lasting_inv (Prog.uses_ask hplain) _ hinv).mono (fun _ _ h => h.1)
        fun _ _ h => h

/-- A fresh claim's row is the transfer's, and nothing was burned for it. -/
theorem safe_handleTransfer (dep : DepositAddressRecord) (t : IncomingTransfer)
    (hs : Inv N strict s) :
    Prog.Safe (contract N strict) (fun _ => Inv N strict) (fun _ => Inv N strict)
      (handleTransfer L cfg dep t) s := by
  refine Prog.safe_bind (safe_own lasting_inv (fun _ h => h) (fun _ _ => trivial)
    (fun i s hs _ hinv => ?_) (fun _ _ _ _ _ _ h => h) hs)
  refine Prog.safe_ite (c := (s.outbox.enqueue i.clock (claim L dep t)).1 = true)
    (fun hnew => ?_) fun _ => hinv
  have hnone : s.outbox.get t.signature = none := by
    unfold Outbox.enqueue at hnew
    split at hnew
    · assumption
    · split_ifs at hnew
  refine safe_decide L cfg ⟨hinv, fun hburned => ?_, (claim L dep t).toRecord i.clock, ?_, rfl, rfl⟩
  · have := hs.burned _ hburned
    simp [hnone] at this
  · change (s.outbox.enqueue i.clock (claim L dep t)).2.get t.signature = _
    have hid : (claim L dep t).id = t.signature := rfl
    rw [Outbox.get_enqueue, hid, if_pos rfl, hnone]
    rfl

/-- A call made for the claim on `id`, its release apart. -/
def Own (id : String) : ScannerOp → Prop
  | .store (.setStatus id' ..) | .sendRawTransaction id' _ => id' = id
  | .store (.pause _) | .cap _ | .accountExists _ | .getLatestBlockhash => True
  | _ => False

/-- A call of the recovery. -/
def Recovers : ScannerOp → Prop
  | .store (.stale ..) | .store (.setStatus ..) | .store (.delete _) => True
  | .dateNow | .signatureLanded _ => True
  | _ => False

theorem uses_burning {A : ScannerOp → Prop} (hA : ∀ o, Own id o → A o) (account : String)
    (amount : ℤ) :
    Prog.Uses A (do
      let burnSig ← burnFromDeposit L cfg id account amount
      record amount
      setStatus id seen { txid := some (some burnSig) }
      setStatus id queued) := by
  refine Prog.uses_bind (Prog.uses_bind (Prog.uses_ofExcept _) fun tx => ?_) fun burnSig => ?_
  · exact Prog.uses_bind (Prog.uses_ask (hA .getLatestBlockhash trivial)) fun blockhash =>
      Prog.uses_ask (hA (.sendRawTransaction id (tx blockhash)) rfl)
  · refine Prog.uses_bind (Prog.uses_translate (fun o => Prog.uses_ask (hA (.cap o) trivial)) _)
      fun _ => Prog.uses_bind ?_ fun _ => ?_
    · exact Prog.uses_ask (hA (.store (.setStatus id seen _)) rfl)
    · exact Prog.uses_ask (hA (.store (.setStatus id queued _)) rfl)

theorem uses_recoverStale {A : ScannerOp → Prop} (hA : ∀ o, Recovers o → A o) :
    Prog.Uses A recoverStale := by
  refine Prog.uses_bind (Prog.uses_ask (hA .dateNow trivial)) fun (now : ℤ) =>
    Prog.uses_bind (Prog.uses_ask (hA (.store (.stale now staleSeenMs [seen])) trivial))
      fun rows => Prog.uses_forEach (fun r => ?_) rows
  refine Prog.uses_ite trivial (Prog.uses_bind ?_ fun landed => ?_)
  · unfold burnLanded
    cases truthy r.txid with
    | none => trivial
    | some sig =>
      exact Prog.uses_catch (Prog.uses_bind (Prog.uses_ask (hA (.signatureLanded sig) trivial))
        fun _ => trivial) fun _ => trivial
  · cases landed with
    | none => trivial
    | some landed =>
      dsimp only
      cases classifySeenRecovery (truthy r.txid).isSome landed with
      | alert => trivial
      | release => exact Prog.uses_ask (hA (.store (.delete r.id)) trivial)
      | requeue => exact Prog.uses_ask (hA (.store (.setStatus r.id queued {})) trivial)

theorem uses_readTransfers {A : ScannerOp → Prop} (hA : ∀ sig, A (.getParsedTransaction sig))
    (ata : String) (safeSlot : ℤ) (sigs : List ScanSig) :
    Prog.Uses A (readTransfers ata safeSlot sigs) := by
  induction sigs with
  | nil => trivial
  | cons s rest ih =>
    refine Prog.uses_bind ?_ fun here => Prog.uses_bind ih fun later => trivial
    refine Prog.uses_ite trivial (Prog.uses_ite trivial ?_)
    refine Prog.uses_bind (Prog.uses_ask (hA s.signature)) fun tx => ?_
    cases tx with
    | none => trivial
    | some tx => exact Prog.uses_bind (Prog.uses_ofExcept _) fun _ => trivial

theorem safe_scanAddress (slot : ℕ) (dep : DepositAddressRecord) (hs : Inv N strict s) :
    Prog.Safe (contract N strict) (fun _ => Inv N strict) (fun _ => Inv N strict)
      (scanAddress L cfg slot dep) s := by
  have hpage : Plain (.getSignaturesForAddress dep.wvizAta (max 1 cfg.maxSignatures)) := trivial
  refine (holds_plain lasting_inv (Prog.uses_bind (Prog.uses_ask hpage) fun sigs =>
    uses_readTransfers (fun _ => trivial) ..)).then_safe (fun transfers s hs _ => ?_) (fun _ _ h => h) hs
  refine Prog.safe_bind (p := Prog.forEach _ transfers) ((Prog.safe_forEach
    (I := fun _ => Inv N strict) (fun t _ s hs => safe_handleTransfer L cfg dep t hs) hs).mono
    (fun _ s hs => ?_) fun _ _ h => h)
  have hclock : Plain .dateNow := trivial
  refine (holds_plain lasting_inv (Prog.uses_ask hclock)).then_safe (fun now s hs _ => ?_)
    (fun _ _ h => h) hs
  have htouch : Plain (.touchDepositScan dep.vizAccount now) := trivial
  exact (holds_plain lasting_inv (Prog.uses_ask htouch) s hs).mono (fun _ _ h => h.1) fun _ _ h => h

/-! ### Claims left in SEEN -/

/-- What the recovery still knows of the rows to come: a checkpointed one was burned for. -/
structure ToRecover (N : BurnSigner) (strict : Prop) (rows : List OutboxRecord)
    (s : ScannerState) : Prop where
  inv : Inv N strict s
  nodup : (rows.map OutboxRecord.id).Nodup
  burnt : ∀ r ∈ rows, ∀ sig, r.txid = some sig →
    (Burnt s r.id fun _ => True) ∧ (strict → Named N s r.id sig)

theorem lasting_toRecover (rows : List OutboxRecord) :
    Lasting N strict (ToRecover N strict rows) := fun _ _ hst h =>
  ⟨hst.inv h.inv, h.nodup, fun r hr sig htx => ⟨(h.burnt r hr sig htx).1.rely hst,
    fun hstrict => ((h.burnt r hr sig htx).2 hstrict).rely hst⟩⟩

/-- A call for one row leaves what is known of the others. -/
theorem ToRecover.tail {r : OutboxRecord} {rows : List OutboxRecord}
    (h : ToRecover N strict (r :: rows) s) (hinv : Inv N strict t) (hsent : t.sent = s.sent)
    (hexisting : t.existing = s.existing) (halive : alive t = alive s)
    (hburned : ∀ id, id ≠ r.id → id ∈ s.burned → id ∈ t.burned)
    (hget : ∀ id, id ≠ r.id → t.outbox.get id = s.outbox.get id) : ToRecover N strict rows t := by
  obtain ⟨hnotMem, hnodup⟩ := List.nodup_cons.1 h.nodup
  refine ⟨hinv, hnodup, fun r' hr' sig htx => ?_⟩
  obtain ⟨⟨hb', r₀, b, hr₀, hb, -⟩, hnamed⟩ := h.burnt r' (List.mem_cons_of_mem _ hr') sig htx
  have hne : r'.id ≠ r.id := fun h => hnotMem (h ▸ List.mem_map_of_mem hr')
  refine ⟨⟨hburned _ hne hb', r₀, b, (hget _ hne).trans hr₀, hb.mono ?_ ?_ rfl, trivial⟩, ?_⟩
  · exact fun _ h => hsent ▸ h
  · exact fun _ h => hexisting ▸ h
  · intro hstrict b hb
    exact hnamed hstrict b (halive ▸ hb)

/-- The answer about a checkpointed burn: in a settled run, no burn is out under a signature that is
said not to have landed. -/
theorem safe_burnLanded {r : OutboxRecord} {rows : List OutboxRecord}
    (hs : ToRecover N strict (r :: rows) s) :
    Prog.Safe (contract N strict)
      (fun landed s => ToRecover N strict (r :: rows) s ∧
        ((truthy r.txid).isSome = true → landed = some false → Quiet strict s r.id))
      (fun _ => Inv N strict) (burnLanded r.txid) s := by
  unfold burnLanded
  cases htx : truthy r.txid with
  | none => exact ⟨hs, fun h => (by cases h)⟩
  | some sig =>
    have hsig : r.txid = some sig := (truthy_eq_some.1 htx).1
    have hask : Plain (.signatureLanded sig) := trivial
    have hlasting : Lasting N strict (ToRecover N strict (r :: rows)) :=
      lasting_toRecover (r :: rows)
    refine Prog.safe_catch (Prog.safe_bind (Prog.safe_ask (fun t hst => trivial)
      (fun t hst i hi (landed : Bool) hlanded => ?_) fun t hst i _ _ _ => ?_))
    · refine ⟨hlasting _ _ (hst.trans (rely_plain hask i t)) hs, fun _ hfalse hstrict b hb hid => ?_⟩
      obtain ⟨hfails, hrun, hflag⟩ := exec_eq_ok (o := .signatureLanded sig) hlanded
      obtain rfl : i.flag = landed := hflag
      change b ∈ alive (ScannerOp.exec N (.signatureLanded sig) i t).1 at hb
      rw [hrun] at hb
      have hnamed := ((hlasting _ _ hst hs).burnt r List.mem_cons_self sig hsig).2 hstrict
      exact hi hstrict hfails (Option.some.inj hfalse) b hb (hnamed b hb hid)
    · exact ⟨hlasting _ _ (hst.trans (rely_plain hask i t)) hs, fun _ h => (by cases h)⟩

theorem safe_recoverRow {r : OutboxRecord} {rows : List OutboxRecord}
    (hs : ToRecover N strict (r :: rows) s) :
    Prog.Safe (contract N strict) (fun _ => ToRecover N strict rows) (fun _ => Inv N strict)
      (recoverRow r) s := by
  have htail : ∀ s, ToRecover N strict (r :: rows) s → ToRecover N strict rows s :=
    fun s h => h.tail h.inv rfl rfl rfl (fun _ _ h => h) fun _ _ => rfl
  refine Prog.safe_ite (fun _ => htail s hs) fun _ => ?_
  refine Prog.safe_bind ((safe_burnLanded hs).mono (fun landed s hs => ?_) fun _ _ h => h)
  cases landed with
  | none => exact htail s hs.1
  | some landed =>
    dsimp only
    cases hclass : classifySeenRecovery (truthy r.txid).isSome landed with
    | alert => exact htail s hs.1
    | release =>
      have hquiet : Quiet strict s r.id := by
        unfold classifySeenRecovery at hclass
        split_ifs at hclass with hcheckpoint hlanded
        exact hs.2 (Option.isSome_iff_ne_none.2 (by simpa using hcheckpoint)) (by simpa using hlanded)
      have hpoint : ∀ s, ToRecover N strict (r :: rows) s ∧ Quiet strict s r.id →
          Point N strict (.store (.delete r.id)) s := fun _ h => h.2
      refine safe_own ((lasting_toRecover (r :: rows)).and lasting_quiet) (fun _ h => h.1.inv) hpoint
        (fun i s hs _ hinv => ?_) (fun _ _ _ _ _ _ h => h) ⟨hs.1, hquiet⟩
      refine hs.1.tail hinv rfl rfl rfl (fun id hne hid => ?_) fun id hne => ?_
      · exact List.mem_filter.2 ⟨hid, decide_eq_true hne⟩
      · exact (Outbox.get_delete ..).trans (if_neg hne)
    | requeue =>
      obtain ⟨sig, hsig⟩ : ∃ sig, r.txid = some sig := by
        cases htx : r.txid with
        | some sig => exact ⟨sig, rfl⟩
        | none =>
          rw [htx] at hclass
          cases hclass
      have hpoint : ∀ s, ToRecover N strict (r :: rows) s →
          Point N strict (.store (.setStatus r.id queued {})) s := fun s h =>
        ⟨fun _ => (h.burnt r List.mem_cons_self sig hsig).1, fun h => (by cases h)⟩
      refine safe_own (lasting_toRecover (r :: rows)) (fun _ h => h.inv) hpoint
        (fun i s hs _ hinv => ?_) (fun _ _ _ _ _ _ h => h) hs.1
      exact hs.tail hinv rfl rfl rfl (fun _ _ h => h) fun id hne =>
        Outbox.get_setStatus_of_ne _ _ _ _ hne

theorem safe_recoverStale (hs : Inv N strict s) :
    Prog.Safe (contract N strict) (fun _ => Inv N strict) (fun _ => Inv N strict) recoverStale s := by
  have hclock : Plain .dateNow := trivial
  refine (holds_plain lasting_inv (Prog.uses_ask hclock)).then_safe (fun now s hs _ => ?_)
    (fun _ _ h => h) hs
  have hpoint : ∀ s, Inv N strict s → Point N strict (.store (.stale now staleSeenMs [seen])) s :=
    fun _ _ => trivial
  have hread : Prog.Safe (contract N strict) (fun rows => ToRecover N strict rows)
      (fun _ => Inv N strict)
      (Prog.ask (ScannerOp.store (.stale now staleSeenMs [seen])) : ScannerM (List OutboxRecord))
      s := by
    refine safe_own lasting_inv (fun _ h => h) hpoint (fun i s hs _ _ => ?_)
      (fun _ _ _ _ _ _ h => h) hs
    refine ⟨hs, s.outbox.nodup.sublist (List.filter_sublist.map _), fun r hr sig htx => ?_⟩
    obtain ⟨hget, hseen, -⟩ := Outbox.mem_stale.1 hr
    have hstatus := List.mem_singleton.1 hseen
    obtain ⟨hb', r₀, b, hr₀, hb, -⟩ := hs.checkpoint hget hstatus htx
    exact ⟨⟨hb', r₀, b, hr₀, hb, trivial⟩, fun hstrict => hs.named hstrict hget hstatus htx⟩
  refine Prog.safe_bind (hread.mono (fun rows s hs => ?_) fun _ _ h => h)
  exact (Prog.safe_forEach (I := ToRecover N strict) (fun r rows s hs => safe_recoverRow hs) hs).mono
    (fun _ _ h => h.inv) fun _ _ h => h

theorem safe_tick (hs : Inv N strict s) :
    Prog.Safe (contract N strict) (fun _ => Inv N strict) (fun _ _ => False) (tick L cfg) s := by
  refine Prog.safe_catch ?_
  have hpaused : Plain (.store .isPaused) := trivial
  refine (holds_plain lasting_inv (Prog.uses_ask hpaused)).then_safe
    (fun (paused : Bool) s hs _ => ?_) (fun _ _ h => h) hs
  refine Prog.safe_ite (c := paused = true) (fun _ => hs) fun _ => ?_
  refine Prog.safe_bind ((safe_recoverStale hs).mono (fun _ s hs => ?_) fun _ _ h => h)
  have hslot : Plain .finalizedHeight := trivial
  refine (holds_plain lasting_inv (Prog.uses_ask hslot)).then_safe (fun slot s hs _ => ?_)
    (fun _ _ h => h) hs
  have hbatch : Plain (.depositAddressesForScan cfg.scanAddressBatch) := trivial
  refine (holds_plain lasting_inv (Prog.uses_ask hbatch)).then_safe (fun batch s hs _ => ?_)
    (fun _ _ h => h) hs
  exact Prog.safe_forEach (I := fun _ => Inv N strict)
    (fun dep _ s hs => safe_scanAddress L cfg slot dep hs) hs

end Turn

/-! ## Runs -/

section Run

variable {N : BurnSigner} {strict : Prop} {L : Libs} {cfg : PegoutScannerConfig} {w : ScannerWorld}

/-- The state's invariant, and a scanner that keeps to what it may do. -/
abbrev WorldInv (N : BurnSigner) (strict : Prop) : ScannerWorld → Prop :=
  LoopWorld.Inv (contract N strict) (Inv N strict) fun _ => Inv N strict

theorem step_inv {e : ScannerEvent} (h : WorldInv N strict w) (he : strict → Settled N w e) :
    WorldInv N strict (w.step (scannerSystem N L cfg) e) := by
  cases e with
  | start => exact LoopWorld.inv_start h h.state
  | turn =>
    exact LoopWorld.inv_turn h fun _ hM => (safe_tick L cfg hM).mono (fun _ _ h => h)
      fun _ _ _ => trivial
  | crash => exact LoopWorld.inv_crash h
  | act m =>
    have hst : Rely N strict w.shared (m.apply w.shared) := rely_act m w.shared
    exact LoopWorld.inv_act h (hst.inv h.state) hst fun _ _ _ hst hM => hst.inv hM
  | await i =>
    exact LoopWorld.inv_await h (fun _ _ _ => rfl) fun o ho hpoint =>
      ⟨fun hstrict => he hstrict o ho, inv_exec h.state hpoint i⟩

theorem inv_init : WorldInv N strict ScannerWorld.init where
  state :=
    { burned := fun _ h => (by cases h)
      checkpoint := fun h => (by cases h)
      alive := fun _ _ h => (by cases h)
      lone := fun _ _ => Nat.zero_le _
      named := fun _ _ _ _ h => (by cases h) }
  proc := trivial

theorem inv_run (es : List ScannerEvent) :
    WorldInv N False
      (Runs.run (LoopWorld.step (scannerSystem N L cfg)) ScannerWorld.init es) :=
  Runs.run_inv (C := fun _ _ => True) (fun _ _ hw _ => step_inv hw False.elim) inv_init
    Runs.meets_true

/-! ### One burn a claim -/

/-- A burn goes out for the claim on `id`. -/
def Sends (w : ScannerWorld) (e : ScannerEvent) (id : String) (tx : BurnTx) : Prop :=
  ∃ i, e = .await i ∧ w.standsAt = some (.sendRawTransaction id tx)
    ∧ (i.fails = none ∨ i.goesThrough = true)

/-- The row of `id` is deleted. -/
def Deletes (w : ScannerWorld) (e : ScannerEvent) (id : String) : Prop :=
  ∃ i, e = .await i ∧ i.fails = none ∧ w.standsAt = some (.store (.delete id))

/-- An await carried out: the operation the scanner stood at. -/
theorem step_await {i : ScannerInput} {o : ScannerOp} (ho : w.standsAt = some o) :
    (w.step (scannerSystem N L cfg) (.await i)).shared = (o.exec N i w.shared).1 := by
  unfold LoopWorld.standsAt at ho
  cases hproc : w.proc with
  | running p =>
    rw [hproc] at ho
    cases p with
    | call o' k =>
      obtain rfl : o' = o := by simpa using ho
      simp only [LoopWorld.step, hproc]
      rfl
    | _ => cases ho
  | _ =>
    rw [hproc] at ho
    cases ho

theorem step_await_of_none {i : ScannerInput} (ho : w.standsAt = none) :
    (w.step (scannerSystem N L cfg) (.await i)).shared = w.shared := by
  unfold LoopWorld.standsAt at ho
  cases hproc : w.proc with
  | running p =>
    rw [hproc] at ho
    cases p with
    | call o k => cases ho
    | _ => simp only [LoopWorld.step, hproc]
  | _ => simp only [LoopWorld.step, hproc]

theorem burned_send {i : ScannerInput} {s : ScannerState} {id : String} {tx : BurnTx}
    (h : i.fails = none ∨ i.goesThrough = true) :
    ((ScannerOp.sendRawTransaction id tx).exec N i s).1.burned = id :: s.burned := by
  unfold ScannerOp.exec
  cases hfails : i.fails with
  | none => rfl
  | some e =>
    have hthrough : i.goesThrough = true := by simpa [hfails] using h
    simp [hthrough, ScannerOp.run]

/-- Only its row's deletion forgets that a claim was burned for. -/
theorem burned_exec {o : ScannerOp} {i : ScannerInput} {s : ScannerState} {id : String}
    (hid : id ∈ s.burned) (ho : i.fails = none → o ≠ .store (.delete id)) :
    id ∈ (o.exec N i s).1.burned := by
  have hrun : (i.fails = none ∨ ∃ id' tx, o = .sendRawTransaction id' tx) →
      id ∈ (o.run N i s).1.burned := by
    intro hcase
    cases o with
    | store o =>
      cases o with
      | delete id' =>
        rcases hcase with hfails | ⟨_, _, h⟩
        · refine List.mem_filter.2 ⟨hid, decide_eq_true fun h => ho hfails ?_⟩
          rw [h]
        · cases h
      | _ => exact hid
    | sendRawTransaction id' tx => exact List.mem_cons_of_mem _ hid
    | accountExists name =>
      simp only [ScannerOp.run]
      split_ifs <;> exact hid
    | _ => exact hid
  unfold ScannerOp.exec
  cases hfails : i.fails with
  | none => exact hrun (.inl hfails)
  | some e =>
    cases o with
    | sendRawTransaction id' tx =>
      simp only
      split_ifs
      · exact hrun (.inr ⟨id', tx, rfl⟩)
      · exact hid
    | _ => exact hid

open Classical in
/-- The claim on `id` as a slot its burn takes and its deletion frees. -/
theorem slot (N : BurnSigner) (L : Libs) (cfg : PegoutScannerConfig) (id : String) :
    Runs.Slot (LoopWorld.step (scannerSystem N L cfg)) (WorldInv N False)
      (fun w => if id ∈ w.shared.burned then some () else none)
      (fun w e _ => ∃ tx, Sends w e id tx) fun w e => Deletes w e id where
  inv _ _ h := step_inv h False.elim
  claim := by
    rintro w e _ h ⟨tx, i, rfl, ho, hsent⟩
    have hpoint := h.point ho
    refine ⟨if_neg hpoint.1, if_pos ?_⟩
    rw [step_await ho, burned_send hsent]
    exact List.mem_cons_self
  keep := by
    rintro w e _ h hdel hheld
    have hid : id ∈ w.shared.burned := by
      by_contra hid
      rw [if_neg hid] at hheld
      cases hheld
    refine if_pos ?_
    cases e with
    | await i =>
      cases ho : w.standsAt with
      | none =>
        rw [step_await_of_none ho]
        exact hid
      | some o =>
        rw [step_await ho]
        refine burned_exec hid fun hfails h => hdel ⟨i, rfl, hfails, ?_⟩
        rw [ho, h]
    | act m =>
      change id ∈ (m.apply w.shared).burned
      have hst : Rely N False w.shared (m.apply w.shared) := rely_act m w.shared
      rwa [hst.burned]
    | start =>
      simp only [LoopWorld.step]
      split <;> exact hid
    | turn =>
      simp only [LoopWorld.step]
      split <;> exact hid
    | crash => exact hid

end Run

end ScannerClaims

open ScannerClaims

/-! ## A run over one transfer -/

def sampleScannerConfig : PegoutScannerConfig where
  depositProgramId := "gw1deposit"
  wvizMint := "wviz"
  finalitySlots := 0
  maxSignatures := 25
  scanAddressBatch := 25
  caps := ⟨10000000, 100000000, 10000000⟩

def burnTxFields (tx : BurnTx) : List (List Char × List Char) :=
  [(tx.vizAccount.toList, (bigintText tx.amount).toList), (tx.blockhash.toList, [])]

theorem burnTxFields_injective : Function.Injective burnTxFields := by
  rintro ⟨account, amount, blockhash⟩ ⟨account', amount', blockhash'⟩ h
  simp only [burnTxFields, List.cons.injEq, Prod.mk.injEq, String.toList_inj] at h
  obtain ⟨⟨rfl, hamount⟩, ⟨rfl, -⟩, -⟩ := h
  rw [bigintText_injective hamount]

def sampleBurnSigner : BurnSigner where
  signature tx := String.ofList ((LengthCode.text '=' '|').encode (burnTxFields tx))
  signature_inj := fun _ _ h => burnTxFields_injective
    (LengthCode.encode_injective _ (String.ofList_injective h))

/-- Five wVIZ into the address registered for Alice. -/
def sampleAtaTransfer : ParsedTx where
  slot := 7
  err := false
  instructions := [⟨some "spl-token", none, none,
    some ⟨"transfer", some (.str "ata-alice"), none, some "5000", some (.str "sol-sender"), none⟩⟩]

def sampleScannerAnswer : ScannerInput where
  clock := 1000
  flag := true
  slot := 10
  text := "hash-1"
  sigs := [⟨"sol-sig", 7, false⟩]
  tx := some sampleAtaTransfer

/-- A tick over her address, up to its `n`-th await. -/
def scanAwaits (n : ℕ) : List ScannerEvent :=
  .act (.register 0 "alice" "sol-alice" "ata-alice") :: .start :: .turn ::
    List.replicate n (.await sampleScannerAnswer)

/-- After the burn went out, recording it fails; the next tick finds the transfer again. -/
def failedRecord : List ScannerEvent :=
  [.await sampleScannerAnswer, .await { sampleScannerAnswer with fails := some "disk" }] ++
    List.replicate 3 (.await sampleScannerAnswer) ++
    .turn :: List.replicate 12 (.await sampleScannerAnswer)

/-- The one burn both ticks come to. -/
def sampleBurnTx : BurnTx := ⟨"alice", 5000, "hash-1"⟩

theorem settled_sampleAnswer (N : BurnSigner) (w : ScannerWorld) :
    Settled N w (.await sampleScannerAnswer) := by
  rintro o -
  cases o with
  | store o => cases o <;> first | exact fun _ => rfl | trivial
  | cap o =>
    cases o with
    | dateNow call => cases call <;> first | rfl | trivial
    | recordCap amount now => rfl
    | _ => trivial
  | signatureLanded signature => exact fun _ h => (by cases h)
  | sendRawTransaction id tx => exact fun h => absurd rfl h
  | _ => trivial

/-! ## The scanner's runs -/

/-- A row is handed to the dispatcher only on the strength of a burn sent under its id, for its amount
and its account, which the VIZ node knew. -/
theorem handed_over_was_burned (N : BurnSigner) (L : Libs) (cfg : PegoutScannerConfig)
    (es : List ScannerEvent) {id : String} {patch : StatusPatch} :
    let w := Runs.run (LoopWorld.step (scannerSystem N L cfg)) ScannerWorld.init es
    w.standsAt = some (.store (.setStatus id queued patch)) →
      ∃ r b, w.shared.outbox.get id = some r ∧ b ∈ w.shared.sent ∧ b.id = id
        ∧ b.tx.vizAccount = r.recipient ∧ b.tx.amount = r.amountMilliViz
        ∧ r.recipient ∈ w.shared.existing := by
  intro w ho
  obtain ⟨-, r, b, hr, hb, -⟩ := ((inv_run es).point ho).1 rfl
  exact ⟨r, b, hr, hb.sent, hb.id.trans (Outbox.id_of_get hr), hb.account, hb.amount, hb.existing⟩

theorem handed_over_was_burned_sample :
    let w := Runs.run (LoopWorld.step
      (scannerSystem sampleBurnSigner sampleLibs sampleScannerConfig)) ScannerWorld.init
      (scanAwaits 16)
    ∃ r b, w.shared.outbox.get "sol-sig" = some r ∧ b ∈ w.shared.sent ∧ b.id = "sol-sig"
      ∧ b.tx.vizAccount = r.recipient ∧ b.tx.amount = r.amountMilliViz
      ∧ r.recipient ∈ w.shared.existing := by
  intro w
  have hat : w.standsAt = some (.store (.setStatus "sol-sig" queued {})) := by decide +kernel
  exact handed_over_was_burned sampleBurnSigner sampleLibs sampleScannerConfig (scanAwaits 16) hat

/-- Before a second burn of one transfer goes out, the row of the first was deleted. -/
theorem one_burn_a_claim (N : BurnSigner) (L : Libs) (cfg : PegoutScannerConfig)
    (pre mid : List ScannerEvent) {e e' : ScannerEvent} {id : String} {tx tx' : BurnTx} :
    let step := LoopWorld.step (scannerSystem N L cfg)
    let w := Runs.run step ScannerWorld.init pre
    Sends w e id tx → Sends (Runs.run step (step w e) mid) e' id tx' →
      ∃ before d after, mid = before ++ d :: after ∧
        Deletes (Runs.run step (step w e) before) d id := by
  intro step w hsend hsend'
  exact @Runs.Slot.released_between _ _ _ _ _ _ _ _ _ _ _ _ () () (slot N L cfg id) (inv_run pre)
    ⟨tx, hsend⟩ ⟨tx', hsend'⟩

theorem one_burn_a_claim_sample :
    let step := LoopWorld.step (scannerSystem sampleBurnSigner sampleLibs sampleScannerConfig)
    let w := Runs.run step ScannerWorld.init (scanAwaits 12)
    ∃ before d after, failedRecord = before ++ d :: after ∧
      Deletes (Runs.run step (step w (.await sampleScannerAnswer)) before) d "sol-sig" := by
  intro step w
  have hsend : Sends w (.await sampleScannerAnswer) "sol-sig" sampleBurnTx :=
    ⟨sampleScannerAnswer, rfl, by decide +kernel, .inl rfl⟩
  have hsend' : Sends (Runs.run step (step w (.await sampleScannerAnswer)) failedRecord)
      (.await sampleScannerAnswer) "sol-sig" sampleBurnTx :=
    ⟨sampleScannerAnswer, rfl, by decide +kernel, .inl rfl⟩
  exact one_burn_a_claim sampleBurnSigner sampleLibs sampleScannerConfig (scanAwaits 12)
    failedRecord hsend hsend'

/-- Where nothing fails after a burn went out, a transfer has at most one burn that landed or still
may, and none once its claim is released. -/
theorem burns_land_once (N : BurnSigner) (L : Libs) (cfg : PegoutScannerConfig)
    {es : List ScannerEvent}
    (h : Runs.Meets (LoopWorld.step (scannerSystem N L cfg)) (Settled N) ScannerWorld.init es)
    (id : String) :
    let s := (Runs.run (LoopWorld.step (scannerSystem N L cfg)) ScannerWorld.init es).shared
    (s.pool ++ s.landed).countP (·.id = id) ≤ 1 ∧
      (s.outbox.get id = none → ∀ b ∈ s.pool ++ s.landed, b.id ≠ id) := by
  have hinv : WorldInv N True
      (Runs.run (LoopWorld.step (scannerSystem N L cfg)) ScannerWorld.init es) :=
    Runs.run_inv (fun _ _ hw he => step_inv hw fun _ => he) inv_init h
  refine ⟨hinv.state.lone trivial id, fun hnone b hb hid => ?_⟩
  have := hinv.state.burned b.id (hinv.state.alive trivial b hb)
  rw [hid, hnone] at this
  cases this

/-- The tick's burn has landed. -/
theorem burns_land_once_sample :
    let s := (Runs.run (LoopWorld.step
      (scannerSystem sampleBurnSigner sampleLibs sampleScannerConfig)) ScannerWorld.init
      (scanAwaits 19 ++ [.act (.land 0)])).shared
    s.landed = [⟨"sol-sig", sampleBurnTx⟩] ∧ (s.pool ++ s.landed).countP (·.id = "sol-sig") ≤ 1 ∧
      (s.outbox.get "sol-sig" = none → ∀ b ∈ s.pool ++ s.landed, b.id ≠ "sol-sig") := by
  refine ⟨by decide +kernel, burns_land_once sampleBurnSigner sampleLibs sampleScannerConfig
    (Runs.meets_of_forall fun e he w => ?_) "sol-sig"⟩
  rcases List.mem_append.1 he with he | he
  · simp only [scanAwaits, List.mem_cons, List.mem_replicate] at he
    rcases he with rfl | rfl | rfl | ⟨-, rfl⟩
    · trivial
    · trivial
    · trivial
    · exact settled_sampleAnswer _ w
  · rw [List.mem_singleton.1 he]
    trivial

end VizGateway
