import VizGateway.Proofs.ScannerSource

/-!
# Deposits that meet on one id

The id of a deposit is its transaction's signature alone, while its digest binds the account. So one
transaction into the addresses of two accounts makes two deposits of one id: the second finds the
first one's row, and the gateway is paused. Where no transaction pays two accounts, the row under a
deposit's id is its own.
-/

namespace VizGateway

open ActionStatus PegoutScanner ScannerSource

namespace DepositIds

section Statements

variable (L : Libs) (cfg : PegoutScannerConfig) (ledger : String → Option ParsedTx)
  (accounts : Set String)

/-- A finalized transfer into the address of one of the accounts. -/
structure Deposit (dep : DepositAddressRecord) (t : IncomingTransfer) : Prop where
  account : dep.vizAccount ∈ accounts
  issued : ScannerSource.Issued L cfg dep
  paid : Paid ledger dep t

/-- The transaction has a transfer into the account's address. -/
def PaysInto (tx : ParsedTx) (account : String) : Prop :=
  ∃ ata p, L.depositAta cfg.depositProgramId account cfg.wvizMint = some ata ∧
    parseGatewayDeposit tx ata = .ok (some p)

/-- No successful transaction pays two of the accounts. -/
def PaysOne : Prop :=
  ∀ id tx, looksLikeSolanaSignature id = true → ledger id = some tx → tx.err = false →
    ∀ a ∈ accounts, ∀ b ∈ accounts, PaysInto L cfg tx a → PaysInto L cfg tx b → a = b

/-- The node answers from the ledger, the accounts that register are of the given ones, and no other
service claims a row under the id of a deposit. -/
def Conforms (w : ScannerWorld) (e : ScannerEvent) : Prop :=
  FromLedger L cfg ledger w e ∧
    match e with
    | .act (.register _ vizAccount _ _) => vizAccount ∈ accounts
    | .act (.store _ (.enqueue input)) =>
      ∀ dep t, Deposit L cfg ledger accounts dep t → input.id ≠ t.signature
    | _ => True

/-- Every row under a deposit's id is of that deposit. -/
def Owned (b : Outbox) : Prop :=
  ∀ dep t, Deposit L cfg ledger accounts dep t → ∀ r, b.get t.signature = some r →
    r.recipient = dep.vizAccount ∧ r.digest = (claim L dep t).digest

/-- Distinct deposits have distinct ids; in every run each has a row of its own, and no claim of the
scanner meets another digest under its id. -/
structure Apart (N : BurnSigner) : Prop where
  ids : ∀ dep t dep' t', Deposit L cfg ledger accounts dep t →
    Deposit L cfg ledger accounts dep' t' → (claim L dep t).id = (claim L dep' t').id →
      t.signature = t'.signature ∧ dep.wvizAta = dep'.wvizAta ∧ dep.vizAccount = dep'.vizAccount
  rows : ∀ es, Runs.Meets (LoopWorld.step (scannerSystem N L cfg))
      (Conforms L cfg ledger accounts) ScannerWorld.init es →
    Owned L cfg ledger accounts
      (Runs.run (LoopWorld.step (scannerSystem N L cfg)) ScannerWorld.init es).shared.outbox
  enqueues : ∀ es, Runs.Meets (LoopWorld.step (scannerSystem N L cfg))
      (Conforms L cfg ledger accounts) ScannerWorld.init es →
    let w := Runs.run (LoopWorld.step (scannerSystem N L cfg)) ScannerWorld.init es
    ∀ input now, w.standsAt = some (.store (.enqueue input)) →
      (w.shared.outbox.enqueue now input).2.paused = w.shared.outbox.paused ∧
        ∃ r, (w.shared.outbox.enqueue now input).2.get input.id = some r ∧
          r.recipient = input.recipient ∧ r.digest = input.digest

end Statements

variable {N : BurnSigner} {L : Libs} {cfg : PegoutScannerConfig} {ledger : String → Option ParsedTx}
  {accounts : Set String} {dep dep' : DepositAddressRecord} {t t' : IncomingTransfer}
  {s : ScannerState} {b : Outbox} {w : ScannerWorld}

/-! ## Deposits of one transaction -/

theorem paysInto_of_paid {tx : ParsedTx} (hissued : ScannerSource.Issued L cfg dep)
    (hpaid : Paid ledger dep t) (htx : ledger t.signature = some tx) :
    tx.err = false ∧ PaysInto L cfg tx dep.vizAccount := by
  obtain ⟨-, tx', p, htx', herr, hparsed, -⟩ := hpaid
  obtain rfl : tx = tx' := Option.some.inj (htx.symm.trans htx')
  exact ⟨herr, dep.wvizAta, p, hissued, hparsed⟩

/-- Where a transaction pays one account only, it makes one deposit. -/
theorem account_eq (hone : PaysOne L cfg ledger accounts) (hd : Deposit L cfg ledger accounts dep t)
    (hd' : Deposit L cfg ledger accounts dep' t') (hsig : t.signature = t'.signature) :
    dep.vizAccount = dep'.vizAccount := by
  obtain ⟨tx, -, htx, -⟩ := hd.paid.onChain
  obtain ⟨herr, hpays⟩ := paysInto_of_paid hd.issued hd.paid htx
  obtain ⟨-, hpays'⟩ := paysInto_of_paid hd'.issued hd'.paid (hsig ▸ htx)
  exact hone _ tx hd.paid.shape htx herr _ hd.account _ hd'.account hpays hpays'

theorem ata_eq (hd : ScannerSource.Issued L cfg dep)
    (hd' : ScannerSource.Issued L cfg dep') (haccount : dep.vizAccount = dep'.vizAccount) :
    dep.wvizAta = dep'.wvizAta := by
  unfold ScannerSource.Issued at hd hd'
  rw [haccount, hd'] at hd
  exact (Option.some.inj hd).symm

/-- The digest of a deposit is that of its transaction and its account. -/
theorem digest_eq (hd : Deposit L cfg ledger accounts dep t)
    (hd' : Deposit L cfg ledger accounts dep' t') (hsig : t.signature = t'.signature)
    (haccount : dep.vizAccount = dep'.vizAccount) :
    (claim L dep t).digest = (claim L dep' t').digest := by
  have hata := ata_eq hd.issued hd'.issued haccount
  have hamount : t.amountBaseUnits = t'.amountBaseUnits := by
    obtain ⟨tx, p, htx, -, hparsed, hp⟩ := hd.paid.onChain
    obtain ⟨tx', p', htx', -, hparsed', hp'⟩ := hd'.paid.onChain
    rw [hsig, htx'] at htx
    obtain rfl : tx' = tx := Option.some.inj htx
    rw [hata, hparsed'] at hparsed
    obtain rfl : p' = p := Option.some.inj (Except.ok.inj hparsed)
    rw [← hp, ← hp']
  have hbody : pegOutBody (burnOf dep t) = pegOutBody (burnOf dep' t') := by
    simp only [pegOutBody, burnOf, hsig, haccount, hamount]
  change L.digestOf (pegOutBody (burnOf dep t)) = L.digestOf (pegOutBody (burnOf dep' t'))
  rw [hbody]

/-! ## Rows -/

/-- A store call other than a claim adds no row. -/
theorem event_of_store {o : StoreOp} (ho : ∀ input, o ≠ .enqueue input) {clock : ℤ} {id : String}
    {r' : OutboxRecord} (hr : (o.exec clock b).1.get id = some r') :
    ∃ r, b.get id = some r ∧ r'.event = r.event := by
  cases o with
  | enqueue input => exact absurd rfl (ho input)
  | setStatus id' status patch =>
    simp only [StoreOp.exec, Outbox.get_setStatus] at hr
    split_ifs at hr
    · obtain ⟨r, hget, rfl⟩ := Option.map_eq_some_iff.1 hr
      exact ⟨r, hget, rfl⟩
    · exact ⟨r', hr, rfl⟩
  | setFee id' fee =>
    simp only [StoreOp.exec, Outbox.setFee, Outbox.get_modify] at hr
    split_ifs at hr
    · obtain ⟨r, hget, rfl⟩ := Option.map_eq_some_iff.1 hr
      exact ⟨r, hget, rfl⟩
    · exact ⟨r', hr, rfl⟩
  | delete id' =>
    simp only [StoreOp.exec, Outbox.get_delete] at hr
    split_ifs at hr
    exact ⟨r', hr, rfl⟩
  | _ => exact ⟨r', hr, rfl⟩

theorem Owned.store (h : Owned L cfg ledger accounts b) {o : StoreOp}
    (ho : ∀ input, o ≠ .enqueue input) (clock : ℤ) :
    Owned L cfg ledger accounts (o.exec clock b).1 := by
  intro dep t hd r' hr'
  obtain ⟨r, hr, he⟩ := event_of_store ho hr'
  obtain ⟨hrecipient, hdigest⟩ := h dep t hd r hr
  refine ⟨?_, ?_⟩
  · rw [OutboxRecord.eq_of_event he OutboxRecord.recipient fun _ => rfl, hrecipient]
  · rw [OutboxRecord.eq_of_event he OutboxRecord.digest fun _ => rfl, hdigest]

/-- A claim under another id. -/
theorem Owned.other (h : Owned L cfg ledger accounts b) {input : EnqueueInput}
    (hid : ∀ dep t, Deposit L cfg ledger accounts dep t → input.id ≠ t.signature) (clock : ℤ) :
    Owned L cfg ledger accounts (b.enqueue clock input).2 := by
  intro dep t hd r hr
  rw [Outbox.get_enqueue, if_neg (hid dep t hd).symm] at hr
  exact h dep t hd r hr

/-- A claim on a deposit. -/
theorem Owned.claim (h : Owned L cfg ledger accounts b) (hone : PaysOne L cfg ledger accounts)
    (hd : Deposit L cfg ledger accounts dep t) (clock : ℤ) :
    Owned L cfg ledger accounts (b.enqueue clock (claim L dep t)).2 := by
  intro dep' t' hd' r hr
  rw [Outbox.get_enqueue] at hr
  split_ifs at hr with hid
  · have hsig : t.signature = t'.signature := hid.symm
    cases hget : b.get (PegoutScanner.claim L dep t).id with
    | none =>
      rw [hget] at hr
      obtain rfl : (PegoutScanner.claim L dep t).toRecord clock = r := Option.some.inj hr
      have haccount := account_eq hone hd hd' hsig
      exact ⟨haccount, digest_eq hd hd' hsig haccount⟩
    | some r' =>
      rw [hget] at hr
      obtain rfl : r' = r := Option.some.inj hr
      exact h dep' t' hd' r' (by rw [← hsig]; exact hget)
  · exact h dep' t' hd' r hr

/-- Such a claim meets no other digest, and leaves the row of its deposit. -/
theorem Owned.enqueue (h : Owned L cfg ledger accounts b)
    (hd : Deposit L cfg ledger accounts dep t) (now : ℤ) :
    (b.enqueue now (PegoutScanner.claim L dep t)).2.paused = b.paused ∧
      ∃ r, (b.enqueue now (PegoutScanner.claim L dep t)).2.get t.signature = some r ∧
        r.recipient = dep.vizAccount ∧ r.digest = (PegoutScanner.claim L dep t).digest := by
  have hrow : (b.enqueue now (PegoutScanner.claim L dep t)).2.get t.signature =
      some ((b.get t.signature).getD ((PegoutScanner.claim L dep t).toRecord now)) :=
    (Outbox.get_enqueue ..).trans (if_pos rfl)
  rw [hrow]
  unfold Outbox.enqueue
  split
  · next hnone =>
    have hnone : b.get t.signature = none := hnone
    rw [hnone]
    exact ⟨rfl, _, rfl, rfl, rfl⟩
  · next r hsome =>
    have hsome : b.get t.signature = some r := hsome
    obtain ⟨hrecipient, hdigest⟩ := h dep t hd r hsome
    rw [hsome, if_neg (not_not.2 hdigest)]
    exact ⟨rfl, r, rfl, hrecipient, hdigest⟩

/-! ## The accounts that are scanned -/

/-- Only the given accounts have an address. -/
def Registered (accounts : Set String) (s : ScannerState) : Prop :=
  ∀ d ∈ s.deposits, d.vizAccount ∈ accounts

def contract (N : BurnSigner) (accounts : Set String) :
    Prog.Contract ScannerOp ScannerOp.Ans String ScannerState ScannerInput where
  exec := ScannerOp.exec N
  rely s t := Registered accounts s → Registered accounts t
  rely_refl _ h := h
  rely_trans h h' hs := h' (h hs)
  allowed _ _ _ := True
  point o _ := ∀ input, o = .store (.enqueue input) → input.recipient ∈ accounts

theorem registered_exec (h : Registered accounts s) (o : ScannerOp) (i : ScannerInput) :
    Registered accounts (o.exec N i s).1 := by
  have hrun : Registered accounts (o.run N i s).1 := by
    cases o with
    | store o => cases o <;> exact h
    | touchDepositScan vizAccount now =>
      intro d hd
      obtain ⟨d', hd', rfl⟩ := List.mem_map.1 hd
      split_ifs <;> exact h d' hd'
    | accountExists name =>
      simp only [ScannerOp.run]
      split_ifs <;> exact h
    | _ => exact h
  rcases ScannerClaims.exec_state (N := N) o i s with hexec | hexec
  · rw [hexec]
    exact hrun
  · rw [hexec]
    exact h

/-- The call claims for the account, if it claims. -/
def ClaimsFor (account : String) (o : ScannerOp) : Prop :=
  ∀ input, o = .store (.enqueue input) → input.recipient = account

/-- A call that claims nothing. -/
def Unclaiming (o : ScannerOp) : Prop := ∀ input, o ≠ .store (.enqueue input)

theorem unclaiming_of_recovers (o : ScannerOp) (ho : ScannerClaims.Recovers o) : Unclaiming o := by
  rintro input rfl
  exact ho

theorem claimsFor_of_own {id account : String} (o : ScannerOp) (ho : ScannerClaims.Own id o) :
    ClaimsFor account o := by
  rintro input rfl
  exact ho.elim

theorem claimsFor_of_ne {account : String} {o : ScannerOp} (ho : Unclaiming o) :
    ClaimsFor account o := fun input h => absurd h (ho input)

theorem uses_decide (id account : String) (amount : ℤ) :
    Prog.Uses (ClaimsFor account) (decide L cfg id account amount) := by
  have hown : ∀ {o}, ScannerClaims.Own id o → ClaimsFor account o := fun ho => claimsFor_of_own _ ho
  refine Prog.uses_bind (Prog.uses_translate (fun o => ?_) _) fun cap => ?_
  · exact Prog.uses_ask (hown (o := .cap o) trivial)
  refine Prog.uses_bind (Prog.uses_ite ?_ trivial) fun known => ?_
  · exact Prog.uses_ask (hown (o := .accountExists account) trivial)
  cases guardPegOut cap known with
  | burn =>
    refine Prog.uses_catch (ScannerClaims.uses_burning L cfg (fun _ ho => hown ho) account amount)
      fun _ => Prog.uses_ask (claimsFor_of_ne fun input h => by cases h)
  | hold reason pause =>
    refine Prog.uses_bind (Prog.uses_ask (claimsFor_of_ne fun input h => by cases h)) fun _ => ?_
    cases pause with
    | none => trivial
    | some reason => exact Prog.uses_ask (claimsFor_of_ne fun input h => by cases h)

theorem uses_readTransfers (account ata : String) (safeSlot : ℤ) (sigs : List ScanSig) :
    Prog.Uses (ClaimsFor account) (readTransfers ata safeSlot sigs) := by
  induction sigs with
  | nil => trivial
  | cons sig rest ih =>
    refine Prog.uses_bind ?_ fun here => Prog.uses_bind ih fun later => trivial
    refine Prog.uses_ite trivial (Prog.uses_ite trivial (Prog.uses_bind
      (Prog.uses_ask (claimsFor_of_ne fun input h => by cases h)) fun tx => ?_))
    cases tx with
    | none => trivial
    | some tx => exact Prog.uses_bind (Prog.uses_ofExcept _) fun parsed => trivial

/-- The scan of an address claims for its account only. -/
theorem uses_scanAddress (slot : ℕ) (dep : DepositAddressRecord) :
    Prog.Uses (ClaimsFor dep.vizAccount) (scanAddress L cfg slot dep) := by
  have htransfer : ∀ t, Prog.Uses (ClaimsFor dep.vizAccount) (handleTransfer L cfg dep t) := by
    intro t
    refine Prog.uses_bind (Prog.uses_ask fun input h => ?_) fun (first : Bool) => ?_
    · cases h
      rfl
    · exact Prog.uses_ite (c := first = true) (uses_decide _ _ _) trivial
  refine Prog.uses_bind (Prog.uses_bind ?_ fun sigs => uses_readTransfers _ _ _ _) fun transfers =>
    Prog.uses_bind (Prog.uses_forEach htransfer _) fun _ => Prog.uses_bind (Prog.uses_ask ?_)
      fun now => Prog.uses_ask ?_
  · exact Prog.uses_ask (claimsFor_of_ne fun input h => by cases h)
  · exact claimsFor_of_ne fun input h => by cases h
  · exact claimsFor_of_ne fun input h => by cases h

theorem holds_unclaiming {α : Type} {p : ScannerM α} (h : Prog.Uses Unclaiming p) :
    Prog.Holds (contract N accounts) (Registered accounts) (fun _ _ => True) p :=
  Prog.holds_of_uses h (fun _ _ hst => hst) (fun _ _ ho _ input h => absurd h (ho input))
    fun o i _ _ hs _ => registered_exec hs o i

theorem holds_scanAddress (slot : ℕ) (hdep : dep.vizAccount ∈ accounts) :
    Prog.Holds (contract N accounts) (Registered accounts) (fun _ _ => True)
      (scanAddress L cfg slot dep) := by
  refine Prog.holds_of_uses (uses_scanAddress slot dep) (fun _ _ hst => hst) (fun _ _ ho _ => ?_)
    fun o i _ _ hs _ => registered_exec hs o i
  intro input h
  rw [ho input h]
  exact hdep

variable (L cfg) in
theorem safe_tick (hs : Registered accounts s) :
    Prog.Safe (contract N accounts) (fun _ => Registered accounts) (fun _ _ => False)
      (tick L cfg) s := by
  have hask : ∀ {o : ScannerOp}, Unclaiming o → Prog.Holds (contract N accounts)
      (Registered accounts) (fun _ _ => True) (Prog.ask o : ScannerM o.Ans) := fun ho =>
    holds_unclaiming (Prog.uses_ask ho)
  refine Prog.safe_catch ?_
  refine (hask (o := .store .isPaused) fun _ h => by cases h).then_safe
    (fun (paused : Bool) s hs _ => ?_) (fun _ _ h => h) hs
  refine Prog.safe_ite (c := paused = true) (fun _ => hs) fun _ => ?_
  refine (holds_unclaiming (ScannerClaims.uses_recoverStale unclaiming_of_recovers)).then_safe
    (fun _ s hs _ => ?_) (fun _ _ h => h) hs
  refine (hask (o := .finalizedHeight) fun _ h => by cases h).then_safe
    (fun (slot : ℕ) s hs _ => ?_) (fun _ _ h => h) hs
  have hbatch : Prog.Holds (contract N accounts) (Registered accounts)
      (fun (batch : List DepositAddressRecord) _ => ∀ dep ∈ batch, dep.vizAccount ∈ accounts)
      (Prog.ask (ScannerOp.depositAddressesForScan cfg.scanAddressBatch)) := by
    refine Prog.holds_ask (fun _ _ hst => hst) (fun _ _ _ h => by cases h) fun i s hs _ =>
      ⟨registered_exec hs _ i, fun batch hok => ?_⟩
    obtain ⟨-, -, rfl⟩ := ScannerClaims.exec_eq_ok hok
    exact fun dep hdep => hs dep (mem_of_limit hdep)
  refine hbatch.then_safe (fun batch s hs hin => ?_) (fun _ _ h => h) hs
  exact (Prog.holds_forEach (fun dep hdep => holds_scanAddress slot (hin dep hdep)) s hs).mono
    (fun _ _ h => h.1) fun _ _ h => h

/-! ## Runs -/

abbrev AccountsInv (N : BurnSigner) (accounts : Set String) : ScannerWorld → Prop :=
  LoopWorld.Inv (contract N accounts) (Registered accounts) fun _ => Registered accounts

theorem accountsInv_step {e : ScannerEvent} (h : AccountsInv N accounts w)
    (he : Conforms L cfg ledger accounts w e) :
    AccountsInv N accounts (w.step (scannerSystem N L cfg) e) := by
  cases e with
  | start => exact LoopWorld.inv_start h h.state
  | turn =>
    exact LoopWorld.inv_turn h fun _ hM => (safe_tick L cfg hM).mono (fun _ _ h => h)
      fun _ _ _ => trivial
  | crash => exact LoopWorld.inv_crash h
  | act m =>
    have hst : ∀ s, Registered accounts s → Registered accounts (m.apply s) := by
      intro s hs
      cases m with
      | register clock name sol ata =>
        intro d hd
        simp only [ScannerAct.apply, Keyed.insertNew] at hd
        split_ifs at hd
        · exact hs d hd
        · rcases List.mem_append.1 hd with hd | hd
          · exact hs d hd
          · rw [List.mem_singleton.1 hd]
            exact he.2
      | store clock o =>
        simp only [ScannerAct.apply]
        split_ifs <;> exact hs
      | land n =>
        simp only [ScannerAct.apply]
        split <;> exact hs
      | _ => exact hs
    exact LoopWorld.inv_act h (hst _ h.state) (hst _) fun _ _ _ hst hM => hst hM
  | await i =>
    exact LoopWorld.inv_await h (fun _ _ _ => rfl) fun o _ _ =>
      ⟨trivial, registered_exec h.state o i⟩

/-- What holds in every state of a run. -/
structure RunInv (N : BurnSigner) (L : Libs) (cfg : PegoutScannerConfig)
    (ledger : String → Option ParsedTx) (accounts : Set String) (w : ScannerWorld) : Prop where
  source : WorldInv N L cfg ledger w
  scanned : AccountsInv N accounts w
  owned : Owned L cfg ledger accounts w.shared.outbox

/-- What the scanner is about to claim is a deposit. -/
theorem RunInv.claims (h : RunInv N L cfg ledger accounts w) {input : EnqueueInput}
    (ho : w.standsAt = some (.store (.enqueue input))) :
    ∃ dep t, Deposit L cfg ledger accounts dep t ∧ input = claim L dep t := by
  obtain ⟨dep, t, hissued, hpaid, rfl⟩ := h.source.point ho
  have haccount : dep.vizAccount ∈ accounts := h.scanned.point ho _ rfl
  exact ⟨dep, t, ⟨haccount, hissued, hpaid⟩, rfl⟩

theorem owned_exec (h : Owned L cfg ledger accounts s.outbox) (hone : PaysOne L cfg ledger accounts)
    {o : ScannerOp} (hclaims : ∀ input, o = .store (.enqueue input) →
      ∃ dep t, Deposit L cfg ledger accounts dep t ∧ input = claim L dep t) (i : ScannerInput) :
    Owned L cfg ledger accounts (o.exec N i s).1.outbox := by
  have hrun : Owned L cfg ledger accounts (o.run N i s).1.outbox := by
    cases o with
    | store o =>
      cases o with
      | enqueue input =>
        obtain ⟨dep, t, hd, rfl⟩ := hclaims _ rfl
        exact h.claim hone hd i.clock
      | delete id => exact h.store (o := .delete id) (fun _ h => by cases h) i.clock
      | setStatus id status patch =>
        exact h.store (o := .setStatus id status patch) (fun _ h => by cases h) i.clock
      | setFee id fee => exact h.store (o := .setFee id fee) (fun _ h => by cases h) i.clock
      | _ => exact h
    | accountExists name =>
      simp only [ScannerOp.run]
      split_ifs <;> exact h
    | _ => exact h
  rcases ScannerClaims.exec_state (N := N) o i s with hexec | hexec
  · rw [hexec]
    exact hrun
  · rw [hexec]
    exact h

theorem owned_act (h : Owned L cfg ledger accounts w.shared.outbox) {m : ScannerAct}
    (he : Conforms L cfg ledger accounts w (.act m)) :
    Owned L cfg ledger accounts (m.apply w.shared).outbox := by
  cases m with
  | store clock o =>
    simp only [ScannerAct.apply]
    split_ifs
    · by_cases ho : ∃ input, o = .enqueue input
      · obtain ⟨input, rfl⟩ := ho
        exact h.other he.2 clock
      · exact h.store (not_exists.1 ho) clock
    · exact h
  | land n =>
    simp only [ScannerAct.apply]
    split <;> exact h
  | _ => exact h

theorem runInv_step (hone : PaysOne L cfg ledger accounts) {e : ScannerEvent}
    (h : RunInv N L cfg ledger accounts w) (he : Conforms L cfg ledger accounts w e) :
    RunInv N L cfg ledger accounts (w.step (scannerSystem N L cfg) e) := by
  refine ⟨step_inv h.source he.1, accountsInv_step h.scanned he, ?_⟩
  cases e with
  | act m => exact owned_act h.owned he
  | await i =>
    simp only [LoopWorld.step]
    split
    · next o k hproc =>
      refine owned_exec h.owned hone (fun input ho => h.claims ?_) i
      simp [LoopWorld.standsAt, hproc, ho]
    · exact h.owned
  | start =>
    simp only [LoopWorld.step]
    split <;> exact h.owned
  | turn =>
    simp only [LoopWorld.step]
    split <;> exact h.owned
  | crash => exact h.owned

theorem runInv_init : RunInv N L cfg ledger accounts ScannerWorld.init where
  source := inv_init
  scanned := ⟨fun _ h => (by cases h), trivial⟩
  owned := fun _ _ _ _ h => by cases h

end DepositIds

open DepositIds

/-- Deposits are kept apart, their ids, their rows and their claims, exactly where no transaction
pays two of the accounts. -/
theorem deposits_apart_iff (N : BurnSigner) (L : Libs) (cfg : PegoutScannerConfig)
    (ledger : String → Option ParsedTx) (accounts : Set String) :
    Apart L cfg ledger accounts N ↔ PaysOne L cfg ledger accounts := by
  constructor
  · intro h id tx hshape htx herr a ha b hb hpaysA hpaysB
    -- the two transfers are deposits of one id
    have hdeposit : ∀ c ∈ accounts, PaysInto L cfg tx c → ∃ ata amount,
        Deposit L cfg ledger accounts ⟨c, "", ata, 0, 0, 0⟩ ⟨id, 0, amount⟩ := by
      rintro c hc ⟨ata, p, hata, hparsed⟩
      exact ⟨ata, p.amountBaseUnits, hc, hata, hshape, tx, p, htx, herr, hparsed, rfl⟩
    obtain ⟨ata, amount, hd⟩ := hdeposit a ha hpaysA
    obtain ⟨ata', amount', hd'⟩ := hdeposit b hb hpaysB
    exact (h.ids _ _ _ _ hd hd' rfl).2.2
  · intro hone
    have hinv : ∀ es, Runs.Meets (LoopWorld.step (scannerSystem N L cfg))
        (Conforms L cfg ledger accounts) ScannerWorld.init es → RunInv N L cfg ledger accounts
          (Runs.run (LoopWorld.step (scannerSystem N L cfg)) ScannerWorld.init es) :=
      fun es hes => Runs.run_inv (fun _ _ hw he => runInv_step hone hw he) runInv_init hes
    refine ⟨fun dep t dep' t' hd hd' hid => ?_, fun es hes => (hinv es hes).owned, fun es hes => ?_⟩
    · have haccount := account_eq hone hd hd' hid
      exact ⟨hid, ata_eq hd.issued hd'.issued haccount, haccount⟩
    · intro w input now ho
      obtain ⟨dep, t, hd, rfl⟩ := (hinv es hes).claims ho
      exact (hinv es hes).owned.enqueue hd now

namespace DepositIds

/-- One transaction into Alice's and Bob's addresses. -/
def pairTransfer : ParsedTx :=
  { sampleAtaTransfer with
    instructions := sampleAtaTransfer.instructions ++
      [⟨some "spl-token", none, none, some ⟨"transfer", some (.str "ata-bob"), none, some "7000",
        some (.str "sol-sender"), none⟩⟩] }

def pairLedger : String → Option ParsedTx := fun id =>
  if id = sampleTransferId then some pairTransfer else none

/-- A tick over both addresses, up to their reading. -/
def pairStart : List ScannerEvent :=
  .act (.register 0 "alice" "sol-alice" "ata-alice") ::
    .act (.register 0 "bob" "sol-bob" "ata-bob") :: .start :: .turn ::
    List.replicate 4 (.await sampleListing)

/-- The rest of it, up to the claim for Bob. -/
def pairScan : List ScannerEvent :=
  List.replicate 17 (.await { sampleListing with tx := some pairTransfer })

def pairAddresses : List DepositAddressRecord :=
  [⟨"alice", "sol-alice", "ata-alice", 0, 0, 0⟩, ⟨"bob", "sol-bob", "ata-bob", 0, 0, 0⟩]

/-- An answer is all that matters of how a call is carried out. -/
theorem step_await_congr {N : BurnSigner} {L : Libs} {cfg : PegoutScannerConfig} {w : ScannerWorld}
    {exec : (o : ScannerOp) → ScannerInput → ScannerState → ScannerState × Except String o.Ans}
    {o : ScannerOp} {i : ScannerInput} (ho : w.standsAt = some o)
    (h : exec o i w.shared = o.exec N i w.shared) :
    w.step { scannerSystem N L cfg with exec } (.await i) =
      w.step (scannerSystem N L cfg) (.await i) := by
  simp only [LoopWorld.step]
  split
  · next o' k hproc =>
    obtain rfl : o' = o := by simpa [LoopWorld.standsAt, hproc] using ho
    rw [h]
    rfl
  · rfl

/-- The scanner's calls, with both addresses as the batch. -/
def execPair : (o : ScannerOp) → ScannerInput → ScannerState →
    ScannerState × Except String o.Ans
  | .depositAddressesForScan _, _, s => (s, .ok pairAddresses)
  | o, i, s => o.exec sampleBurnSigner i s

theorem pairAddresses_read :
    let w := Runs.run (LoopWorld.step
      (scannerSystem sampleBurnSigner sampleLibs sampleScannerConfig)) ScannerWorld.init pairStart
    w.step { scannerSystem sampleBurnSigner sampleLibs sampleScannerConfig with exec := execPair }
        (.await sampleListing) =
      w.step (scannerSystem sampleBurnSigner sampleLibs sampleScannerConfig)
        (.await sampleListing) := by
  intro w
  have ho : w.standsAt = some (.depositAddressesForScan 25) := by decide +kernel
  have hdeposits : w.shared.deposits = pairAddresses := by decide +kernel
  have hsorted : pairAddresses.mergeSort Database.scanLe = pairAddresses :=
    List.mergeSort_of_pairwise (by decide +kernel)
  refine step_await_congr ho ?_
  change (w.shared, Except.ok pairAddresses) = (w.shared,
    Except.ok (Database.limit 25 (w.shared.deposits.mergeSort Database.scanLe)))
  rw [hdeposits, hsorted]
  rfl

end DepositIds

/-- Two deposits of one transaction have one id: Bob's finds Alice's row, and the gateway is
paused. -/
theorem deposits_collide :
    ¬ Apart sampleLibs sampleScannerConfig pairLedger {"alice", "bob"} sampleBurnSigner ∧
      let w := Runs.run (LoopWorld.step
        (scannerSystem sampleBurnSigner sampleLibs sampleScannerConfig)) ScannerWorld.init
        (pairStart ++ .await sampleListing :: pairScan)
      w.shared.outbox.rows.map (fun r => (r.id, r.recipient)) = [(sampleTransferId, "alice")] ∧
        w.shared.outbox.paused.isSome = true := by
  refine ⟨fun h => ?_, ?_⟩
  · have hshape : looksLikeSolanaSignature sampleTransferId = true := by decide +kernel
    have hdeposit : ∀ account amount, account ∈ ({"alice", "bob"} : Set String) →
        sampleLibs.depositAta "gw1deposit" account "wviz" = some ("ata-" ++ account) →
        parseGatewayDeposit pairTransfer ("ata-" ++ account) =
          .ok (some ⟨"sol-sender", amount, ""⟩) →
        Deposit sampleLibs sampleScannerConfig pairLedger {"alice", "bob"}
          ⟨account, "", "ata-" ++ account, 0, 0, 0⟩ ⟨sampleTransferId, 7, amount⟩ := by
      intro account amount haccount hata hparsed
      exact ⟨haccount, hata, hshape, pairTransfer, _, by simp [pairLedger], rfl, hparsed, rfl⟩
    have halice := hdeposit "alice" 5000 (by simp) (by decide +kernel) (by decide +kernel)
    have hbob := hdeposit "bob" 7000 (by simp) (by decide +kernel) (by decide +kernel)
    exact absurd (h.ids _ _ _ _ halice hbob rfl).2.2 (by decide)
  · simp only [Runs.run_append, Runs.run_cons]
    rw [← pairAddresses_read]
    decide +kernel

end VizGateway
