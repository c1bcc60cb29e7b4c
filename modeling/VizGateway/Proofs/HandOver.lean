import VizGateway.Proofs.ScannerClaims

/-!
# What a hand-over rests on

A row is handed over under the checkpoint of its burn. Only the recovery asks whether that burn has
landed; a fresh burn is handed over without, and its claim is given up where anything throws after
the send. Where the checkpointed burn has landed by then and nothing throws after a send, every row
handed over has exactly one burn, and no claim with a burn out is given up.
-/

namespace VizGateway

open ActionStatus Text Checks PegoutScanner

namespace HandOver

/-- A held claim whose row is SEEN with a checkpoint. -/
def Checked (s : ScannerState) (id : String) : Prop :=
  id ∈ s.claims ∧ ∃ r sig, s.outbox.get id = some r ∧ r.status = seen ∧ r.txid = some sig

/-- A checkpointed row in SEEN is a claim of the scanner. -/
def Inv (s : ScannerState) : Prop :=
  ∀ id r sig, s.outbox.get id = some r → r.status = seen → r.txid = some sig → id ∈ s.claims

/-- A claim with its row. -/
structure Held (id : String) (s : ScannerState) : Prop where
  inv : Inv s
  claim : id ∈ s.claims
  row : (s.outbox.get id).isSome = true

/-- What everyone but the scanner's own writes keeps: its claims, with the SEEN rows among them. -/
structure Rely (s t : ScannerState) : Prop where
  claims : t.claims = s.claims
  inv : Inv s → Inv t
  rows : ∀ id r, s.outbox.get id = some r → ∃ r', t.outbox.get id = some r' ∧
    (id ∈ s.claims → r.status = seen → r'.status = seen ∧ r'.txid = r.txid)

/-- Where the scanner stands before it checkpoints a burn and before it hands a row over. -/
def Point : ScannerOp → ScannerState → Prop
  | .store (.setStatus id status _), s =>
    (status = queued → Checked s id) ∧ (status = seen → id ∈ s.claims)
  | .store (.setFee ..), _ => False
  | _, _ => True

variable {N : BurnSigner} {L : Libs} {cfg : PegoutScannerConfig} {s t u : ScannerState}
  {id : String}

theorem Rely.refl (s : ScannerState) : Rely s s :=
  ⟨rfl, fun h => h, fun _ r hr => ⟨r, hr, fun _ h => ⟨h, rfl⟩⟩⟩

theorem Rely.trans (h : Rely s t) (h' : Rely t u) : Rely s u where
  claims := h'.claims.trans h.claims
  inv hs := h'.inv (h.inv hs)
  rows id r hr := by
    obtain ⟨r', hr', hkept⟩ := h.rows id r hr
    obtain ⟨r'', hr'', hkept'⟩ := h'.rows id r' hr'
    refine ⟨r'', hr'', fun hid hseen => ?_⟩
    obtain ⟨hseen', htx⟩ := hkept hid hseen
    obtain ⟨hseen'', htx'⟩ := hkept' (h.claims ▸ hid) hseen'
    exact ⟨hseen'', htx'.trans htx⟩

def contract (N : BurnSigner) :
    Prog.Contract ScannerOp ScannerOp.Ans String ScannerState ScannerInput where
  exec := ScannerOp.exec N
  rely := Rely
  rely_refl := Rely.refl
  rely_trans := Rely.trans
  allowed _ _ _ := True
  point := Point

theorem rely_of_get (hclaims : t.claims = s.claims)
    (hget : ∀ id, t.outbox.get id = s.outbox.get id) : Rely s t where
  claims := hclaims
  inv h id r sig hr := by
    rw [hclaims]
    exact h id r sig (hget id ▸ hr)
  rows id r hr := ⟨r, (hget id).trans hr, fun _ h => ⟨h, rfl⟩⟩

/-! ## The others -/

theorem rely_store {o : StoreOp} {clock : ℤ} (ho : s.leaves o = true) :
    Rely s { s with outbox := (o.exec clock s.outbox).1 } := by
  cases o with
  | enqueue input =>
    refine ⟨rfl, fun h id r sig hr hseen htx => ?_, fun id r hr => ⟨r, ?_, fun _ h => ⟨h, rfl⟩⟩⟩
    · simp only [StoreOp.exec, Outbox.get_enqueue] at hr
      split_ifs at hr with hid
      · subst hid
        cases hget : s.outbox.get input.id with
        | none =>
          rw [hget] at hr
          obtain rfl : input.toRecord clock = r := by simpa using hr
          cases htx
        | some r' =>
          rw [hget] at hr
          obtain rfl : r' = r := by simpa using hr
          exact h _ _ _ hget hseen htx
      · exact h _ _ _ hr hseen htx
    · simp only [StoreOp.exec, Outbox.get_enqueue]
      split_ifs with hid
      · subst hid
        rw [hr]
        rfl
      · exact hr
  | setStatus id' status patch =>
    simp only [ScannerState.leaves, Bool.and_eq_true, Bool.or_eq_true, decide_eq_true_eq] at ho
    obtain ⟨hstatus, hleft⟩ := ho
    refine ⟨rfl, fun h id r sig hr hseen htx => ?_, fun id r hr => ?_⟩
    · simp only [StoreOp.exec, Outbox.get_setStatus] at hr
      split_ifs at hr with hid
      · obtain ⟨r', -, rfl⟩ := Option.map_eq_some_iff.1 hr
        exact absurd hseen hstatus
      · exact h _ _ _ hr hseen htx
    · simp only [StoreOp.exec, Outbox.get_setStatus]
      split_ifs with hid
      · subst hid
        refine ⟨r.withStatus clock status patch, by rw [hr]; rfl, fun hclaim hseen => ?_⟩
        rcases hleft with hleft | hleft
        · exact absurd hclaim hleft
        · rw [hr] at hleft
          simp [hseen] at hleft
      · exact ⟨r, hr, fun _ h => ⟨h, rfl⟩⟩
  | setFee id' fee =>
    refine ⟨rfl, fun h id r sig hr hseen htx => ?_, fun id r hr => ?_⟩
    · simp only [StoreOp.exec, Outbox.setFee, Outbox.get_modify] at hr
      split_ifs at hr with hid
      · obtain ⟨r', hget, rfl⟩ := Option.map_eq_some_iff.1 hr
        exact h _ _ _ hget hseen htx
      · exact h _ _ _ hr hseen htx
    · simp only [StoreOp.exec, Outbox.setFee, Outbox.get_modify]
      split_ifs with hid
      · exact ⟨{ r with feeMilliViz := fee, updatedAt := clock }, by rw [hr]; rfl,
          fun _ h => ⟨h, rfl⟩⟩
      · exact ⟨r, hr, fun _ h => ⟨h, rfl⟩⟩
  | delete id' => cases ho
  | _ => exact rely_of_get rfl fun _ => rfl

theorem rely_act (m : ScannerAct) (s : ScannerState) : Rely s (m.apply s) := by
  cases m with
  | store clock o =>
    simp only [ScannerAct.apply]
    split_ifs with ho
    · exact rely_store ho
    · exact Rely.refl s
  | land n =>
    simp only [ScannerAct.apply]
    split
    · exact rely_of_get rfl fun _ => rfl
    · exact Rely.refl s
  | _ => exact rely_of_get rfl fun _ => rfl

/-! ## The scanner's own calls -/

theorem inv_run {o : ScannerOp} (h : Inv s) (hpoint : Point o s) (i : ScannerInput) :
    Inv (o.run N i s).1 := by
  cases o with
  | store o =>
    cases o with
    | enqueue input =>
      have hrely : Rely s { s with outbox := ((StoreOp.enqueue input).exec i.clock s.outbox).1 } :=
        rely_store rfl
      intro id r sig hr hseen htx
      have hmem : id ∈ s.claims := hrely.inv h id r sig hr hseen htx
      simp only [ScannerOp.run]
      split_ifs
      · exact List.mem_cons_of_mem _ hmem
      · exact hmem
    | setStatus id' status patch =>
      intro id r sig hr hseen htx
      change (s.outbox.setStatus i.clock id' status patch).get id = some r at hr
      rw [Outbox.get_setStatus] at hr
      split_ifs at hr with hid
      · subst hid
        obtain ⟨r', -, rfl⟩ := Option.map_eq_some_iff.1 hr
        exact hpoint.2 hseen
      · exact h _ _ _ hr hseen htx
    | delete id' =>
      intro id r sig hr hseen htx
      change (s.outbox.delete id').get id = some r at hr
      rw [Outbox.get_delete] at hr
      split_ifs at hr with hid
      exact List.mem_filter.2 ⟨h _ _ _ hr hseen htx, decide_eq_true hid⟩
    | setFee id' fee => exact hpoint.elim
    | _ => exact h
  | accountExists name =>
    simp only [ScannerOp.run]
    split_ifs <;> exact h
  | _ => exact h

theorem inv_exec {o : ScannerOp} (h : Inv s) (hpoint : Point o s) (i : ScannerInput) :
    Inv (o.exec N i s).1 := by
  rcases ScannerClaims.exec_state (N := N) o i s with hexec | hexec
  · rw [hexec]
    exact inv_run h hpoint i
  · rw [hexec]
    exact h

/-- A call that writes no row and takes no claim. -/
def Calm : ScannerOp → Prop
  | .store (.enqueue _) | .store (.setStatus ..) | .store (.setFee ..) | .store (.delete _) => False
  | _ => True

theorem rely_calm {o : ScannerOp} (ho : Calm o) (i : ScannerInput) (s : ScannerState) :
    Rely s (o.exec N i s).1 := by
  have hrun : Rely s (o.run N i s).1 := by
    cases o with
    | store o => cases o <;> first | exact ho.elim | exact rely_of_get rfl fun _ => rfl
    | accountExists name =>
      simp only [ScannerOp.run]
      split_ifs
      · exact rely_of_get rfl fun _ => rfl
      · exact Rely.refl s
    | _ => exact rely_of_get rfl fun _ => rfl
  rcases ScannerClaims.exec_state (N := N) o i s with hexec | hexec
  · rw [hexec]
    exact hrun
  · rw [hexec]
    exact Rely.refl s

theorem point_calm {o : ScannerOp} (ho : Calm o) (s : ScannerState) : Point o s := by
  cases o with
  | store o => cases o <;> first | exact ho.elim | trivial
  | _ => trivial

/-- What survives whatever the others do. -/
def Lasting (P : ScannerState → Prop) : Prop := ∀ s t, Rely s t → P s → P t

theorem lasting_inv : Lasting Inv := fun _ _ hst => hst.inv

theorem lasting_held : Lasting (Held id) := by
  rintro s t hst ⟨hinv, hclaim, hrow⟩
  obtain ⟨r, hr⟩ := Option.isSome_iff_exists.1 hrow
  obtain ⟨r', hr', -⟩ := hst.rows id r hr
  exact ⟨hst.inv hinv, hst.claims ▸ hclaim, by simp [hr']⟩

theorem Checked.rely (h : Checked s id) (hst : Rely s t) : Checked t id := by
  obtain ⟨hclaim, r, sig, hr, hseen, htx⟩ := h
  obtain ⟨r', hr', hkept⟩ := hst.rows id r hr
  obtain ⟨hseen', htx'⟩ := hkept hclaim hseen
  exact ⟨hst.claims ▸ hclaim, r', sig, hr', hseen', htx'.trans htx⟩

theorem lasting_checked : Lasting fun s => Inv s ∧ Checked s id :=
  fun _ _ hst h => ⟨hst.inv h.1, h.2.rely hst⟩

theorem holds_calm {P : ScannerState → Prop} (hP : Lasting P) {α : Type} {p : ScannerM α}
    (h : Prog.Uses Calm p) : Prog.Holds (contract N) P (fun _ _ => True) p :=
  Prog.holds_of_uses h hP (fun _ s ho _ => point_calm ho s) fun _ i s ho hs _ =>
    hP s _ (rely_calm ho i s) hs

/-- One of the scanner's calls, from a state where it may make it. -/
theorem safe_own {o : ScannerOp} {P : ScannerState → Prop} {Q : o.Ans → ScannerState → Prop}
    (hP : Lasting P) (hinv : ∀ s, P s → Inv s) (hpoint : ∀ s, P s → Point o s)
    (hok : ∀ i s, P s → Inv (o.run N i s).1 → Q (o.run N i s).2 (o.run N i s).1) (hs : P s) :
    Prog.Safe (contract N) Q (fun _ => Inv) (Prog.ask o) s := by
  refine Prog.safe_ask (fun t hst => hpoint t (hP s t hst hs)) (fun t hst i _ a ha => ?_)
    fun t hst i _ _ _ => ?_
  · have ht := hP s t hst hs
    obtain ⟨-, hrun, rfl⟩ := ScannerClaims.exec_eq_ok ha
    change Q _ (o.exec N i t).1
    rw [hrun]
    exact hok i t ht (inv_run (hinv t ht) (hpoint t ht) i)
  · have ht := hP s t hst hs
    exact inv_exec (hinv t ht) (hpoint t ht) i

/-! ## The scanner's programs -/

variable (L cfg) in
theorem safe_burnAndHandOver {account : String} {amount : ℤ} (hs : Held id s) :
    Prog.Safe (contract N) (fun _ => Inv) (fun _ => Inv) (burnAndHandOver L cfg id account amount)
      s := by
  have hrelease : ∀ (_ : String) s, Inv s →
      Prog.Safe (contract N) (fun _ => Inv) (fun _ => Inv) (PegoutScanner.delete id) s := by
    intro _ s hs
    have hpoint : ∀ s, Inv s → Point (.store (.delete id)) s := fun _ _ => trivial
    exact safe_own lasting_inv (fun _ h => h) hpoint (fun _ _ _ h => h) hs
  refine Prog.safe_catch (Prog.Safe.mono (fun _ _ h => h) hrelease ?_)
  have hburn : Prog.Uses Calm (burnFromDeposit L cfg id account amount) :=
    Prog.uses_bind (Prog.uses_ofExcept _) fun tx =>
      Prog.uses_bind (Prog.uses_ask (o := ScannerOp.getLatestBlockhash) trivial) fun blockhash =>
        Prog.uses_ask (o := ScannerOp.sendRawTransaction id (tx blockhash)) trivial
  refine (holds_calm lasting_held hburn).then_safe (fun sig s hs _ => ?_) (fun _ _ h => h.inv) hs
  have hrecord : Prog.Uses Calm (record amount) :=
    Prog.uses_translate (fun o => Prog.uses_ask (o := ScannerOp.cap o) trivial) _
  refine (holds_calm lasting_held hrecord).then_safe (fun _ s hs _ => ?_) (fun _ _ h => h.inv) hs
  have hcheckpoint : ∀ s, Held id s →
      Point (.store (.setStatus id seen { txid := some (some sig) })) s :=
    fun s hs => ⟨fun h => (by cases h), fun _ => hs.claim⟩
  refine Prog.safe_bind (safe_own lasting_held (fun _ h => h.inv) hcheckpoint
    (fun i s hs hinv => ?_) hs)
  have hchecked : Checked
      ((ScannerOp.store (.setStatus id seen { txid := some (some sig) })).run N i s).1 id := by
    obtain ⟨r, hr⟩ := Option.isSome_iff_exists.1 hs.row
    refine ⟨hs.claim, r.withStatus i.clock seen { txid := some (some sig) }, sig, ?_, rfl, rfl⟩
    change (s.outbox.setStatus i.clock id seen { txid := some (some sig) }).get id = _
    rw [Outbox.get_setStatus_self, hr]
    rfl
  have hhandOver : ∀ s, Inv s ∧ Checked s id → Point (.store (.setStatus id queued {})) s :=
    fun s hs => ⟨fun _ => hs.2, fun h => (by cases h)⟩
  exact safe_own lasting_checked (fun _ h => h.1) hhandOver (fun _ _ _ h => h) ⟨hinv, hchecked⟩

variable (L cfg) in
theorem safe_decide {account : String} {amount : ℤ} (hs : Held id s) :
    Prog.Safe (contract N) (fun _ => Inv) (fun _ => Inv) (decide L cfg id account amount) s := by
  have hcap : Prog.Uses Calm (check cfg.caps amount) :=
    Prog.uses_translate (fun o => Prog.uses_ask (o := ScannerOp.cap o) trivial) _
  refine (holds_calm lasting_held hcap).then_safe (fun cap s hs _ => ?_) (fun _ _ h => h.inv) hs
  have hknown : Prog.Uses Calm (accountKnown cap account) :=
    Prog.uses_ite (Prog.uses_ask (o := ScannerOp.accountExists account) trivial) trivial
  refine (holds_calm lasting_held hknown).then_safe (fun known s hs _ => ?_) (fun _ _ h => h.inv) hs
  cases guardPegOut cap known with
  | burn => exact safe_burnAndHandOver L cfg hs
  | hold reason pause =>
    have hhold : ∀ s, Inv s →
        Point (.store (.setStatus id held { lastError := some (some reason) })) s :=
      fun s _ => ⟨fun h => (by cases h), fun h => (by cases h)⟩
    refine Prog.safe_bind (safe_own lasting_inv (fun _ h => h) hhold (fun i s _ hinv => ?_) hs.inv)
    cases pause with
    | none => exact hinv
    | some reason =>
      have hpause : Calm (.store (.pause reason)) := trivial
      exact (holds_calm lasting_inv (Prog.uses_ask hpause) _ hinv).mono (fun _ _ h => h.1)
        fun _ _ h => h

variable (L cfg) in
theorem safe_handleTransfer (dep : DepositAddressRecord) (t : IncomingTransfer) (hs : Inv s) :
    Prog.Safe (contract N) (fun _ => Inv) (fun _ => Inv) (handleTransfer L cfg dep t) s := by
  refine Prog.safe_bind (safe_own lasting_inv (fun _ h => h) (fun _ _ => trivial)
    (fun i s _ hinv => ?_) hs)
  refine Prog.safe_ite (c := (s.outbox.enqueue i.clock (claim L dep t)).1 = true)
    (fun hnew => ?_) fun _ => hinv
  refine safe_decide L cfg ⟨hinv, ?_, ?_⟩
  · simp only [ScannerOp.run, hnew, if_true]
    exact List.mem_cons_self
  · have hrow : (s.outbox.enqueue i.clock (claim L dep t)).2.get t.signature =
        some ((s.outbox.get t.signature).getD ((claim L dep t).toRecord i.clock)) :=
      (Outbox.get_enqueue ..).trans (if_pos rfl)
    exact Option.isSome_iff_exists.2 ⟨_, hrow⟩

variable (L cfg) in
theorem safe_scanAddress (slot : ℕ) (dep : DepositAddressRecord) (hs : Inv s) :
    Prog.Safe (contract N) (fun _ => Inv) (fun _ => Inv) (scanAddress L cfg slot dep) s := by
  have hpage : Calm (.getSignaturesForAddress dep.wvizAta (max 1 cfg.maxSignatures)) := trivial
  refine (holds_calm lasting_inv (Prog.uses_bind (Prog.uses_ask hpage) fun sigs =>
    ScannerClaims.uses_readTransfers (fun _ => trivial) ..)).then_safe (fun transfers s hs _ => ?_)
    (fun _ _ h => h) hs
  refine Prog.safe_bind (p := Prog.forEach _ transfers) ((Prog.safe_forEach
    (I := fun _ => Inv) (fun t _ s hs => safe_handleTransfer L cfg dep t hs) hs).mono
    (fun _ s hs => ?_) fun _ _ h => h)
  have hclock : Calm .dateNow := trivial
  refine (holds_calm lasting_inv (Prog.uses_ask hclock)).then_safe (fun now s hs _ => ?_)
    (fun _ _ h => h) hs
  have htouch : Calm (.touchDepositScan dep.vizAccount now) := trivial
  exact (holds_calm lasting_inv (Prog.uses_ask htouch) s hs).mono (fun _ _ h => h.1) fun _ _ h => h

/-! ### Claims left in SEEN -/

/-- What the recovery still knows of the rows to come. -/
structure ToRecover (rows : List OutboxRecord) (s : ScannerState) : Prop where
  inv : Inv s
  nodup : (rows.map OutboxRecord.id).Nodup
  checked : ∀ r ∈ rows, ∀ sig, r.txid = some sig → Checked s r.id

theorem lasting_toRecover (rows : List OutboxRecord) : Lasting (ToRecover rows) := fun _ _ hst h =>
  ⟨hst.inv h.inv, h.nodup, fun r hr sig htx => (h.checked r hr sig htx).rely hst⟩

/-- A write to one row leaves what is known of the others. -/
theorem ToRecover.tail {r : OutboxRecord} {rows : List OutboxRecord} (h : ToRecover (r :: rows) s)
    (hinv : Inv t) (hclaims : ∀ id, id ≠ r.id → id ∈ s.claims → id ∈ t.claims)
    (hget : ∀ id, id ≠ r.id → t.outbox.get id = s.outbox.get id) : ToRecover rows t := by
  obtain ⟨hnotMem, hnodup⟩ := List.nodup_cons.1 h.nodup
  refine ⟨hinv, hnodup, fun r' hr' sig htx => ?_⟩
  obtain ⟨hclaim, r₀, sig₀, hr₀, hseen, htx₀⟩ := h.checked r' (List.mem_cons_of_mem _ hr') sig htx
  have hne : r'.id ≠ r.id := fun h => hnotMem (h ▸ List.mem_map_of_mem hr')
  exact ⟨hclaims _ hne hclaim, r₀, sig₀, (hget _ hne).trans hr₀, hseen, htx₀⟩

theorem safe_recoverRow {r : OutboxRecord} {rows : List OutboxRecord}
    (hs : ToRecover (r :: rows) s) :
    Prog.Safe (contract N) (fun _ => ToRecover rows) (fun _ => Inv) (recoverRow r) s := by
  have htail : ∀ s, ToRecover (r :: rows) s → ToRecover rows s :=
    fun s h => h.tail h.inv (fun _ _ h => h) fun _ _ => rfl
  refine Prog.safe_ite (fun _ => htail s hs) fun _ => ?_
  have hlanded : Prog.Uses Calm (burnLanded r.txid) := by
    unfold burnLanded
    cases truthy r.txid with
    | none => trivial
    | some sig =>
      exact Prog.uses_catch (Prog.uses_bind
        (Prog.uses_ask (o := ScannerOp.signatureLanded sig) trivial) fun _ => trivial)
        fun _ => trivial
  refine (holds_calm (lasting_toRecover _) hlanded).then_safe (fun landed s hs _ => ?_)
    (fun _ _ h => h.inv) hs
  cases landed with
  | none => exact htail s hs
  | some landed =>
    dsimp only
    cases hclass : classifySeenRecovery (truthy r.txid).isSome landed with
    | alert => exact htail s hs
    | release =>
      have hpoint : ∀ s, ToRecover (r :: rows) s → Point (.store (.delete r.id)) s :=
        fun _ _ => trivial
      refine safe_own (lasting_toRecover (r :: rows)) (fun _ h => h.inv) hpoint
        (fun i s hs hinv => hs.tail hinv (fun id hne hid => ?_) fun id hne => ?_) hs
      · exact List.mem_filter.2 ⟨hid, decide_eq_true hne⟩
      · exact (Outbox.get_delete ..).trans (if_neg hne)
    | requeue =>
      obtain ⟨sig, hsig⟩ : ∃ sig, r.txid = some sig := by
        cases htx : r.txid with
        | some sig => exact ⟨sig, rfl⟩
        | none =>
          rw [htx] at hclass
          cases hclass
      have hpoint : ∀ s, ToRecover (r :: rows) s →
          Point (.store (.setStatus r.id queued {})) s := fun s h =>
        ⟨fun _ => h.checked r List.mem_cons_self sig hsig, fun h => (by cases h)⟩
      refine safe_own (lasting_toRecover (r :: rows)) (fun _ h => h.inv) hpoint
        (fun i s hs hinv => hs.tail hinv (fun _ _ h => h) fun id hne => ?_) hs
      exact Outbox.get_setStatus_of_ne _ _ _ _ hne

theorem safe_recoverStale (hs : Inv s) :
    Prog.Safe (contract N) (fun _ => Inv) (fun _ => Inv) recoverStale s := by
  have hclock : Calm .dateNow := trivial
  refine (holds_calm lasting_inv (Prog.uses_ask hclock)).then_safe (fun now s hs _ => ?_)
    (fun _ _ h => h) hs
  have hpoint : ∀ s, Inv s → Point (.store (.stale now staleSeenMs [seen])) s :=
    fun _ _ => trivial
  have hread : Prog.Safe (contract N) (fun rows => ToRecover rows) (fun _ => Inv)
      (Prog.ask (ScannerOp.store (.stale now staleSeenMs [seen])) : ScannerM (List OutboxRecord))
      s := by
    refine safe_own lasting_inv (fun _ h => h) hpoint (fun i s hs _ => ?_) hs
    refine ⟨hs, s.outbox.nodup.sublist (List.filter_sublist.map _), fun r hr sig htx => ?_⟩
    obtain ⟨hget, hseen, -⟩ := Outbox.mem_stale.1 hr
    have hstatus := List.mem_singleton.1 hseen
    exact ⟨hs _ _ _ hget hstatus htx, r, sig, hget, hstatus, htx⟩
  refine Prog.safe_bind (hread.mono (fun rows s hs => ?_) fun _ _ h => h)
  exact (Prog.safe_forEach (I := ToRecover) (fun r rows s hs => safe_recoverRow hs) hs).mono
    (fun _ _ h => h.inv) fun _ _ h => h

variable (L cfg) in
theorem safe_tick (hs : Inv s) :
    Prog.Safe (contract N) (fun _ => Inv) (fun _ _ => False) (tick L cfg) s := by
  refine Prog.safe_catch ?_
  have hpaused : Calm (.store .isPaused) := trivial
  refine (holds_calm lasting_inv (Prog.uses_ask hpaused)).then_safe
    (fun (paused : Bool) s hs _ => ?_) (fun _ _ h => h) hs
  refine Prog.safe_ite (c := paused = true) (fun _ => hs) fun _ => ?_
  refine Prog.safe_bind ((safe_recoverStale hs).mono (fun _ s hs => ?_) fun _ _ h => h)
  have hslot : Calm .finalizedHeight := trivial
  refine (holds_calm lasting_inv (Prog.uses_ask hslot)).then_safe (fun slot s hs _ => ?_)
    (fun _ _ h => h) hs
  have hbatch : Calm (.depositAddressesForScan cfg.scanAddressBatch) := trivial
  refine (holds_calm lasting_inv (Prog.uses_ask hbatch)).then_safe (fun batch s hs _ => ?_)
    (fun _ _ h => h) hs
  exact Prog.safe_forEach (I := fun _ => Inv)
    (fun dep _ s hs => safe_scanAddress L cfg slot dep hs) hs

/-! ## Runs -/

section Run

variable {w : ScannerWorld} {es : List ScannerEvent}

abbrev WorldInv (N : BurnSigner) : ScannerWorld → Prop :=
  LoopWorld.Inv (contract N) Inv fun _ => Inv

theorem step_inv {e : ScannerEvent} (h : WorldInv N w) :
    WorldInv N (w.step (scannerSystem N L cfg) e) := by
  cases e with
  | start => exact LoopWorld.inv_start h h.state
  | turn =>
    exact LoopWorld.inv_turn h fun _ hM => (safe_tick L cfg hM).mono (fun _ _ h => h)
      fun _ _ _ => trivial
  | crash => exact LoopWorld.inv_crash h
  | act m =>
    have hst : Rely w.shared (m.apply w.shared) := rely_act m w.shared
    exact LoopWorld.inv_act h (hst.inv h.state) hst fun _ _ _ hst hM => hst.inv hM
  | await i =>
    exact LoopWorld.inv_await h (fun _ _ _ => rfl) fun o _ hpoint =>
      ⟨trivial, inv_exec h.state hpoint i⟩

/-- A hand-over is of a checkpointed row. -/
theorem checked_run (es : List ScannerEvent) {id : String} {patch : StatusPatch}
    (ho : (Runs.run (LoopWorld.step (scannerSystem N L cfg)) ScannerWorld.init es).standsAt =
      some (.store (.setStatus id queued patch))) :
    Checked (Runs.run (LoopWorld.step (scannerSystem N L cfg)) ScannerWorld.init es).shared id := by
  have hinit : WorldInv N ScannerWorld.init := ⟨fun _ _ _ h => (by cases h), trivial⟩
  have hinv : WorldInv N
      (Runs.run (LoopWorld.step (scannerSystem N L cfg)) ScannerWorld.init es) :=
    Runs.run_inv (C := fun _ _ => True) (fun _ _ hw _ => step_inv hw) hinit Runs.meets_true
  exact (hinv.point ho).1 rfl

/-- A step as the scanner reckons with it: a row is handed over once the burn under its checkpoint
has landed, and no transaction is sent twice. -/
def prompt (N : BurnSigner) (w : ScannerWorld) (e : ScannerEvent) : Bool :=
  match e, w.standsAt with
  | .await _, some (.store (.setStatus id queued _)) =>
    (w.shared.outbox.get id).all fun r => r.txid.all fun sig =>
      w.shared.landed.any fun b => N.signature b.tx = sig
  | .await _, some (.sendRawTransaction _ tx) => w.shared.sent.all fun b => b.tx ≠ tx
  | _, _ => true

/-- No transaction was sent twice, and what has landed or may was sent. -/
structure SentOnce (s : ScannerState) : Prop where
  once : (s.sent.map SentBurn.tx).Nodup
  alive : ∀ b ∈ ScannerClaims.alive s, b ∈ s.sent

theorem SentOnce.frame (h : SentOnce s) (hsent : t.sent = s.sent)
    (halive : ∀ b ∈ ScannerClaims.alive t, b ∈ ScannerClaims.alive s) : SentOnce t :=
  ⟨hsent ▸ h.once, fun b hb => hsent ▸ h.alive b (halive b hb)⟩

theorem SentOnce.send (h : SentOnce s) {tx : BurnTx} (hfresh : ∀ b ∈ s.sent, b.tx ≠ tx)
    (i : ScannerInput) : SentOnce ((ScannerOp.sendRawTransaction id tx).run N i s).1 := by
  constructor
  · simp only [ScannerOp.run, List.map_append, List.map_cons, List.map_nil]
    refine List.nodup_append.2 ⟨h.once, List.nodup_singleton _, fun a ha b hb => ?_⟩
    obtain ⟨burn, hburn, rfl⟩ := List.mem_map.1 ha
    rw [List.mem_singleton.1 hb]
    exact hfresh burn hburn
  · intro b hb
    simp only [ScannerClaims.alive, ScannerOp.run, List.mem_append, List.mem_singleton] at hb ⊢
    rcases hb with (hb | hb) | hb
    · exact .inl (h.alive b (List.mem_append_left _ hb))
    · exact .inr hb
    · exact .inl (h.alive b (List.mem_append_right _ hb))

theorem sentOnce_step {e : ScannerEvent} (h : SentOnce w.shared) (he : prompt N w e = true) :
    SentOnce (w.step (scannerSystem N L cfg) e).shared := by
  cases e with
  | act m =>
    have hst : ScannerClaims.Rely N False w.shared (m.apply w.shared) :=
      ScannerClaims.rely_act m w.shared
    refine h.frame ?_ hst.alive
    change (m.apply w.shared).sent = w.shared.sent
    cases m with
    | store clock o =>
      simp only [ScannerAct.apply]
      split_ifs <;> rfl
    | land n =>
      simp only [ScannerAct.apply]
      split <;> rfl
    | _ => rfl
  | await i =>
    cases ho : w.standsAt with
    | none =>
      rw [ScannerClaims.step_await_of_none ho]
      exact h
    | some o =>
      rw [ScannerClaims.step_await ho]
      rcases ScannerClaims.exec_state (N := N) o i w.shared with hexec | hexec
      · rw [hexec]
        cases o with
        | sendRawTransaction id tx =>
          refine h.send (fun b hb => ?_) i
          simp only [prompt, ho, List.all_eq_true, decide_eq_true_eq] at he
          exact he b hb
        | store o => cases o <;> exact h.frame rfl fun _ hb => hb
        | accountExists name =>
          simp only [ScannerOp.run]
          split_ifs <;> exact h.frame rfl fun _ hb => hb
        | _ => exact h.frame rfl fun _ hb => hb
      · rw [hexec]
        exact h
  | start =>
    simp only [LoopWorld.step]
    split <;> exact h
  | turn =>
    simp only [LoopWorld.step]
    split <;> exact h
  | crash => exact h

end Run

end HandOver

open HandOver

/-- The burn lands before its row is handed over. -/
def landedBurn : List ScannerEvent :=
  scanAwaits 13 ++ .act (.land 0) :: List.replicate 3 (.await sampleScannerAnswer)

end VizGateway
