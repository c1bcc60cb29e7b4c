import VizGateway.Proofs.GatewayBase
import VizGateway.Sample

/-!
# What confirms a Solana peg-in

A row is confirmed on a mint that a poll or the memo scan saw landed, on one that was sent and
never seen again, or on anyone's transaction with the row's id for a memo.
-/

namespace VizGateway

open ActionStatus Text

/-- The multisig's mint of a row's net, quoted as its destination was read, to its recipient. -/
structure MintOf (cfg : CoordinatorConfig) (log : List Fact) (r : OutboxRecord)
    (tx : SolanaMintTx) : Prop where
  writer : ∃ w, cfg.solana = some w ∧ tx.multisig = some (.str w.multisig)
    ∧ tx.mint = some (.str w.mint)
  net : ∃ flag b, .provisioned .solana r.id flag ∈ log
    ∧ quotePegIn r.amountMilliViz flag (pegInFeePolicyFor cfg.fees .solana) = .ok b
    ∧ tx.amount = b.net
  recipient : tx.recipient = some (.str r.recipient)
  memo : tx.memo = some (.str r.id)

/-- The row's mint landed. -/
def Minted (cfg : CoordinatorConfig) (s : GatewayState) (r : OutboxRecord) : Prop :=
  ∃ tx, MintOf cfg s.log r tx ∧ ⟨.mint tx, true⟩ ∈ s.solana

/-- The row's mint was sent, and its last poll found no status. -/
def SentUnseen (N : RemoteNets) (cfg : CoordinatorConfig) (s : GatewayState) (r : OutboxRecord) :
    Prop :=
  ∃ tx, MintOf cfg s.log r tx ∧ .sent r.id tx ∈ s.log
    ∧ .pollsOver r.id (N.signature (.mint tx)) ∈ s.log

/-- Another transaction that mentions the mint landed with the row's id for a memo. -/
def Impersonated (s : GatewayState) (r : OutboxRecord) : Prop :=
  ∃ raw, ⟨.other raw (some r.id), true⟩ ∈ s.solana

namespace SolanaConfirmation

open Provenance

variable {N : RemoteNets} {L : Libs} {cfg : GatewayConfig} {s s' : GatewayState}
  {r r' rec : OutboxRecord}

/-- What a confirmation may rest on. -/
def Shown (N : RemoteNets) (cfg : CoordinatorConfig) (s : GatewayState) (r : OutboxRecord) : Prop :=
  Minted cfg s r ∨ SentUnseen N cfg s r ∨ Impersonated s r

theorem MintOf.mono {tx : SolanaMintTx} {cfg : CoordinatorConfig} {log log' : List Fact}
    (hl : log ⊆ log') (he : r'.event = r.event) (h : MintOf cfg log r tx) :
    MintOf cfg log' r' tx := by
  obtain ⟨hw, ⟨flag, b, hf, hq, hn⟩, hto, hmemo⟩ := h
  have hid := OutboxRecord.id_of_event he
  refine ⟨hw, ⟨flag, b, ?_, ?_, hn⟩, ?_, ?_⟩
  · rw [hid]
    exact hl hf
  · rw [OutboxRecord.eq_of_event he OutboxRecord.amountMilliViz fun _ => rfl]
    exact hq
  · rw [OutboxRecord.eq_of_event he OutboxRecord.recipient fun _ => rfl]
    exact hto
  · rw [hid]
    exact hmemo

theorem Shown.mono {cfg : CoordinatorConfig} (hl : s.log ⊆ s'.log) (hs : s.solana ⊆ s'.solana)
    (he : r'.event = r.event) (h : Shown N cfg s r) : Shown N cfg s' r' := by
  have hid := OutboxRecord.id_of_event he
  rcases h with ⟨tx, hm, ht⟩ | ⟨tx, hm, hsent, hover⟩ | ⟨raw, ht⟩
  · exact .inl ⟨tx, MintOf.mono hl he hm, hs ht⟩
  · refine .inr (.inl ⟨tx, MintOf.mono hl he hm, ?_, ?_⟩)
    · rw [hid]
      exact hl hsent
    · rw [hid]
      exact hl hover
  · refine .inr (.inr ⟨raw, ?_⟩)
    rw [hid]
    exact hs ht

theorem solanaRow_of_event (he : r'.event = r.event) (h : SolanaRow r) : SolanaRow r' := by
  unfold SolanaRow at *
  rw [OutboxRecord.direction_of_event he,
    OutboxRecord.eq_of_event he OutboxRecord.remoteChain fun _ => rfl]
  exact h

/-! ## What the log knows of Solana -/

theorem find_of_solanaAt {signature : String} {t : SolanaTx} (h : s.solanaAt N signature = some t) :
    t ∈ s.solana ∧ N.signature t.message = signature := by
  unfold GatewayState.solanaAt at h
  exact ⟨List.mem_of_find?_eq_some h, by simpa using List.find?_some h⟩

theorem signatureStatus_eq_confirmed {i : GatewayInput} {signature : String}
    (h : signatureStatus N i s signature = .confirmed) :
    ∃ m, ⟨m, true⟩ ∈ s.solana ∧ N.signature m = signature := by
  unfold signatureStatus at h
  split at h
  · cases h
  · split at h
    · cases h
    · next t ht =>
      obtain ⟨hmem, hsig⟩ := find_of_solanaAt ht
      split at h
      · next hok =>
        obtain ⟨m, ok⟩ := t
        obtain rfl : ok = true := hok
        exact ⟨m, hmem, hsig⟩
      · cases h

structure Inv (N : RemoteNets) (L : Libs) (cfg : GatewayConfig) (s : GatewayState) : Prop where
  base : Base N L cfg s
  confirmed : ∀ {id signature}, .mintConfirmed id signature ∈ s.log →
    ∃ m, ⟨m, true⟩ ∈ s.solana ∧ N.signature m = signature
  clean : ∀ {id signature}, .clean id signature ∈ s.log →
    ∃ m, ⟨m, true⟩ ∈ s.solana ∧ N.signature m = signature
  parsed : ∀ {id signature m}, .parsed id signature m ∈ s.log → N.signature m = signature
  pins : ∀ {id x r}, .pinned id x ∈ s.log → s.outbox.get id = some r → SolanaRow r →
    Shown N cfg.coordinator s r
  txids : ∀ {id x r}, s.outbox.get id = some r → SolanaRow r → r.txid = some x →
    Shown N cfg.coordinator s r
  closed : ∀ {id r}, s.outbox.get id = some r → SolanaRow r → r.status = ActionStatus.confirmed →
    Shown N cfg.coordinator s r

/-- What is proposed for a row is a mint of it. -/
theorem mintOf_of_proposed {log : List Fact} {p : SolanaMintProposal} {cfg : CoordinatorConfig}
    (hp : Proposed L cfg rec log (.mint p)) (hne : rec.id ≠ "") : MintOf cfg log rec p.tx := by
  obtain ⟨fee, ⟨w, b, nonceValue, m, hw, hq, -, -, -, hp⟩, -⟩ := hp
  have hmemo : jsTruthy (some (Json.str rec.id)) = true := by simp [jsTruthy, hne]
  have htx : p.tx = (SolanaMintBroadcaster.mintProposal w (recordToAction rec) b.net
      p.destProvisioned nonceValue).tx := by rw [hp]; rfl
  refine ⟨⟨w, hw, ?_, ?_⟩, ⟨p.destProvisioned, b, hq.2.2.1, hq.2.2.2, ?_⟩, ?_, ?_⟩
  · rw [htx]; rfl
  · rw [htx]; rfl
  · rw [htx]; rfl
  · rw [htx]; rfl
  · rw [htx]
    exact if_pos hmemo

theorem direction_of_mint {log : List Fact} {p : SolanaMintProposal} {cfg : CoordinatorConfig}
    (hp : Proposed L cfg rec log (.mint p)) : rec.direction = .pegIn := by
  obtain ⟨fee, ⟨w, b, nonceValue, m, -, hq, -⟩, -⟩ := hp
  exact hq.1

theorem id_ne_of_pegIn (h : Base N L cfg s) (hrec : .handed rec ∈ s.log)
    (hd : rec.direction = .pegIn) : rec.id ≠ "" := by
  intro hempty
  have hcolon := (h.handed hrec).1.colon.2 (by rw [hd]; decide)
  rw [hempty] at hcolon
  exact absurd hcolon (by decide)

/-- A landed message with the row's id for a memo is the row's mint or someone else's. -/
theorem shown_of_memo {m : SolanaMessage} (h : Inv N L cfg s) (hr : s.outbox.get rec.id = some r)
    (hs : SolanaRow r) (hm : ⟨m, true⟩ ∈ s.solana) (hmemo : m.memo = some rec.id) : Shown N cfg.coordinator s r := by
  have hid : r.id = rec.id := Outbox.id_of_get hr
  have hd : r.direction ≠ .pegOut := by
    rw [hs.1]
    decide
  cases m with
  | other raw memo =>
    refine .inr (.inr ⟨raw, ?_⟩)
    rw [hid, ← hmemo]
    exact hm
  | mint tx =>
    obtain ⟨id, hsent⟩ := h.base.landed hm
    obtain ⟨rec', p, hrec', -, hp, rfl⟩ := h.base.sent hsent
    have hof := mintOf_of_proposed hp (id_ne_of_pegIn h.base (h.base.received hrec')
      (direction_of_mint hp))
    have hsame : rec'.id = rec.id := by
      simpa [SolanaMessage.memo, hof.memo] using hmemo
    have he := h.base.event_of_handed (h.base.received hrec') (by rw [hsame]; exact hr) hd
    exact .inl ⟨p.tx, MintOf.mono (List.Subset.refl _) he hof, hm⟩

theorem shown_of_done {txid : Option String} (h : Inv N L cfg s) (hrec : .handed rec ∈ s.log)
    (hr : s.outbox.get rec.id = some r) (hs : SolanaRow r)
    (hdone : Done N L cfg.coordinator rec s.log txid) : Shown N cfg.coordinator s r := by
  have he : r.event = rec.event := h.base.event_of_handed hrec hr (by rw [hs.1]; decide)
  have hs' : SolanaRow rec := solanaRow_of_event he.symm hs
  obtain ⟨x, -, ⟨hd, -⟩ | ⟨ho, -⟩ | ⟨-, hpin | ⟨m, hclean, hm, hmemo⟩
    | ⟨p, hp, hsig, hsent, hend⟩⟩⟩ := hdone
  · rw [hs'.1] at hd
    cases hd
  · exact absurd hs' (not_solana_of_order ho)
  · exact h.pins hpin hr hs
  · obtain ⟨m', hm', hsig⟩ := h.clean hclean
    obtain rfl : m' = m := N.signature_inj (hsig.trans (h.parsed hm).symm)
    exact shown_of_memo h hr hs hm' hmemo
  · have hof := MintOf.mono (List.Subset.refl _) he
      (mintOf_of_proposed hp (id_ne_of_pegIn h.base hrec hs'.1))
    have hid : r.id = rec.id := Outbox.id_of_get hr
    rw [hsig] at hend
    rcases hend with hend | hend
    · obtain ⟨m, hm, hsame⟩ := h.confirmed hend
      rw [N.signature_inj hsame] at hm
      exact .inl ⟨p.tx, hof, hm⟩
    · refine .inr (.inl ⟨p.tx, hof, ?_, ?_⟩)
      · rw [hid]
        exact hsent
      · rw [hid]
        exact hend

/-- A write that gives the row a `txid` or confirms it has something to show. -/
theorem shown_of_write {job : GatewayJob} {id : String} {status : ActionStatus}
    {patch : StatusPatch} (h : Inv N L cfg s)
    (hmay : jobMay N L cfg job s.log (.store (.setStatus id status patch)))
    (hr : s.outbox.get id = some r) (hs : SolanaRow r)
    (hw : patch.txid ≠ none ∨ status = ActionStatus.confirmed) :
    Shown N cfg.coordinator s r := by
  cases job with
  | turn =>
    cases hmay with
    | requeue | returnDust | returned | start | closeDust | closeParent =>
      rcases hw with hw | hw
      · exact absurd rfl hw
      · cases hw
    | settle now hK hst hR =>
      rename_i rec result
      have hb : result.broadcast = true := by
        rcases hw with hw | hw
        · exact ((settle_txid rec result now _).resolve_left hw).1
        · exact broadcast_of_confirmed hw
      exact shown_of_done h hK hr hs ((h.base.answered (hR hb)).2.1 hb).1
  | submit rec =>
    obtain ⟨⟨rfl, -, hnot, -⟩, hrec⟩ := hmay
    have hreceived : .received rec ∈ s.log := hrec.resolve_left (fun hrec => by cases hrec)
    have he := h.base.event_of_handed (h.base.received hreceived) hr (by rw [hs.1]; decide)
    exact absurd (solanaRow_of_event he.symm hs) hnot
  | redirect =>
    obtain ⟨hst, hnone, -⟩ := hmay
    rcases hw with hw | hw
    · exact absurd hnone hw
    · rw [hw] at hst
      rcases hst with hst | hst <;> cases hst

/-! ## Steps -/

theorem clean_of_run {id signature : String} {i : GatewayInput} {sigs : List SignatureInfo}
    (h : (GatewayOp.run N L (.getSignaturesForAddress id) i s).2 = .ok sigs)
    (hmem : ⟨signature, false⟩ ∈ sigs) : ∃ m, ⟨m, true⟩ ∈ s.solana ∧ N.signature m = signature := by
  rw [← (answer_eq_ok.1 h).2] at hmem
  obtain ⟨⟨m, ok⟩, ht, hsig⟩ := List.mem_map.1 hmem
  obtain ⟨n, -, hn⟩ := List.mem_filterMap.1 ht
  cases ok with
  | false => cases (congrArg SignatureInfo.err hsig : true = false)
  | true => exact ⟨m, List.mem_of_getElem? hn, congrArg SignatureInfo.signature hsig⟩

theorem parsed_of_run {id signature : String} {i : GatewayInput} {m : SolanaMessage}
    (h : (GatewayOp.run N L (.getParsedTransaction id signature) i s).2 = .ok (some m)) :
    N.signature m = signature := by
  have hans : (if i.lags then (none : Option SolanaMessage)
      else (s.solanaAt N signature).map (·.message)) = some m := (answer_eq_ok.1 h).2
  split at hans
  · cases hans
  · obtain ⟨t, ht, rfl⟩ := Option.map_eq_some_iff.1 hans
    exact (find_of_solanaAt ht).2

theorem Inv.exec {job : GatewayJob} {o : GatewayOp} {i : GatewayInput} (h : Inv N L cfg s)
    (hmay : jobMay N L cfg job s.log o) : Inv N L cfg (o.exec N L i s).1 := by
  have hlog : s.log ⊆ (o.exec N L i s).1.log := log_subset_exec o i s
  have hsolana : (o.exec N L i s).1.solana = s.solana := (chains_exec o i s).2.1
  have hsub : s.solana ⊆ (o.exec N L i s).1.solana := by rw [hsolana]; exact List.Subset.refl _
  have hkept : ∀ {r r'}, r'.event = r.event → Shown N cfg.coordinator s r →
      Shown N cfg.coordinator (o.exec N L i s).1 r' := fun he hsh => hsh.mono hlog hsub he
  have hchild : ∀ {child}, o = .store (.enqueue child) →
      ¬ SolanaRow (child.toRecord i.clock) := by
    rintro child rfl ⟨hd, -⟩
    obtain ⟨rec, status, ctx, -, hc⟩ := planned_of_enqueue hmay
    exact child_direction_ne hc hd
  refine ⟨h.base.exec hmay, fun hf => ?_, fun hf => ?_, fun hf => ?_, fun hf hr' hs' => ?_,
    fun hr' hs' hx => ?_, fun hr' hs' hst => ?_⟩
  · rw [hsolana]
    rcases mem_log_exec hf with hf | hf
    · exact h.confirmed hf
    · generalize hrun : (o.run N L i s).2 = ans at hf
      cases hf with
      | confirmed hst =>
        subst hst
        exact signatureStatus_eq_confirmed (answer_eq_ok.1 hrun).2
  · rw [hsolana]
    rcases mem_log_exec hf with hf | hf
    · exact h.clean hf
    · generalize hrun : (o.run N L i s).2 = ans at hf
      cases hf with
      | clean hmem => exact clean_of_run (N := N) (L := L) hrun hmem
  · rcases mem_log_exec hf with hf | hf
    · exact h.parsed hf
    · generalize hrun : (o.run N L i s).2 = ans at hf
      cases hf with
      | parsed hm =>
        subst hm
        exact parsed_of_run (N := N) (L := L) hrun
  · rcases old_or_new hmay hr' with ⟨r, hr, he⟩ | ⟨child, hc, -, -, rfl⟩
    · have hs := solanaRow_of_event he.symm hs'
      refine hkept he ?_
      rcases mem_log_exec hf with hf | hf
      · exact h.pins hf hr hs
      · generalize hrun : (o.run N L i s).2 = ans at hf
        cases hf with
        | row hx =>
          have hget := get_of_run (N := N) (L := L) hrun
          rw [hr] at hget
          rw [← hget] at hx
          exact h.txids hr hs hx
        | pin hpatch => exact shown_of_write h hmay hr hs (.inl (by rw [hpatch]; simp))
    · exact absurd hs' (hchild hc)
  · rcases row_exec hmay hr' with hr | ⟨r, status, patch, rfl, hr, rfl⟩ | ⟨r, fee, -, hr, rfl⟩
      | ⟨child, hc, -, -, rfl⟩
    · exact hkept rfl (h.txids hr hs' hx)
    · by_cases hnone : patch.txid = none
      · change patch.txid.getD r.txid = some _ at hx
        rw [hnone] at hx
        exact hkept (r := r) rfl (h.txids hr hs' hx)
      · exact hkept (r := r) rfl (shown_of_write h hmay hr hs' (.inl hnone))
    · exact hkept (r := r) rfl (h.txids hr hs' hx)
    · exact absurd hs' (hchild hc)
  · rcases row_exec hmay hr' with hr | ⟨r, status, patch, rfl, hr, rfl⟩ | ⟨r, fee, -, hr, rfl⟩
      | ⟨child, hc, -, -, rfl⟩
    · exact hkept rfl (h.closed hr hs' hst)
    · exact hkept (r := r) rfl (shown_of_write h hmay hr hs' (.inr hst))
    · exact hkept (r := r) rfl (h.closed hr hs' hst)
    · exact absurd hs' (hchild hc)

theorem Inv.write {clock : ℤ} {w : OutboxWrite} (h : Inv N L cfg s)
    (hw : w.ofWatcher s.outbox = true) (hfits : w.fits s.outbox = true)
    (hbase : Base N L cfg { s with outbox := w.apply clock s.outbox }) :
    Inv N L cfg { s with outbox := w.apply clock s.outbox } := by
  have hkept : ∀ {r r'}, r'.event = r.event → Shown N cfg.coordinator s r →
      Shown N cfg.coordinator { s with outbox := w.apply clock s.outbox } r' :=
    fun he hsh => hsh.mono (List.Subset.refl _) (List.Subset.refl _) he
  refine ⟨hbase, h.confirmed, h.clean, h.parsed,
    fun hf hr' hs' => ?_, fun hr' hs' hx => ?_, fun hr' hs' hst => ?_⟩ <;>
    rcases row_write hw hfits hr' with hr | ⟨r, status, patch, hr, -, rfl, hlow, -, htxid⟩
      | ⟨input, hi, -, hnone, rfl⟩
  · exact hkept rfl (h.pins hf hr hs')
  · exact hkept (r := r) rfl (h.pins (r := r) hf hr hs')
  · have hids : IdFits (input.toRecord clock) := idFits_detect hw hfits hi
    have hcolon := hids.colon.2 (by rw [hs'.1]; decide)
    have hsome := h.base.pinned hf (by rw [← Outbox.id_of_get hr']; exact hcolon)
    rw [hnone] at hsome
    cases hsome
  · exact hkept rfl (h.txids hr hs' hx)
  · have hd : r.direction ≠ .pegOut := by
      intro hd
      rw [show r.direction = .pegIn from hs'.1] at hd
      cases hd
    change patch.txid.getD r.txid = some _ at hx
    rw [htxid.resolve_right hd] at hx
    exact hkept (r := r) rfl (h.txids (r := r) hr hs' hx)
  · cases hx
  · exact hkept rfl (h.closed hr hs' hst)
  · rw [show status = ActionStatus.confirmed from hst] at hlow
    simp at hlow
  · subst hi
    simp only [OutboxWrite.fits, Bool.and_eq_true, Bool.or_eq_true, decide_eq_true_eq] at hfits
    rw [show input.status.getD seen = ActionStatus.confirmed from hst] at hfits
    rcases hfits.2 with hseen | hheld
    · cases hseen
    · change input.status.getD seen = ActionStatus.confirmed at hst
      rw [hheld] at hst
      cases hst

/-- The chain only grows. -/
theorem Inv.grows (h : Inv N L cfg s) (hbase : Base N L cfg s') (hout : s'.outbox = s.outbox)
    (hlog : s'.log = s.log) (hsub : s.solana ⊆ s'.solana) : Inv N L cfg s' := by
  have hkept : ∀ {r}, Shown N cfg.coordinator s r → Shown N cfg.coordinator s' r := fun hsh =>
    hsh.mono (by rw [hlog]; exact List.Subset.refl _) hsub rfl
  have hseen : ∀ {signature}, (∃ m, ⟨m, true⟩ ∈ s.solana ∧ N.signature m = signature) →
      ∃ m, ⟨m, true⟩ ∈ s'.solana ∧ N.signature m = signature := by
    rintro signature ⟨m, hm, hsig⟩
    exact ⟨m, hsub hm, hsig⟩
  refine ⟨hbase, fun hf => ?_, fun hf => ?_, fun hf => ?_, fun hf hr hs => ?_, fun hr hs hx => ?_,
    fun hr hs hst => ?_⟩
  · rw [hlog] at hf
    exact hseen (h.confirmed hf)
  · rw [hlog] at hf
    exact hseen (h.clean hf)
  · rw [hlog] at hf
    exact h.parsed hf
  · rw [hlog] at hf
    rw [hout] at hr
    exact hkept (h.pins hf hr hs)
  · rw [hout] at hr
    exact hkept (h.txids hr hs hx)
  · rw [hout] at hr
    exact hkept (h.closed hr hs hst)

theorem Inv.apply (h : Inv N L cfg s) (a : GatewayAct) : Inv N L cfg (a.apply L s) := by
  have hbase := h.base.apply a
  have hm := apply_moves (L := L) a s
  generalize a.apply L s = s' at hm hbase
  cases hm
  case write clock w hw hfits => exact h.write hw hfits hbase
  case landSolana => exact h.grows hbase rfl rfl (List.subset_append_left _ _)
  case otherSolana => exact h.grows hbase rfl rfl (List.subset_append_left _ _)
  all_goals exact h.grows hbase rfl rfl (List.Subset.refl _)

theorem inv_init : Inv N L cfg {} where
  base := base_init
  confirmed hf := absurd hf List.not_mem_nil
  clean hf := absurd hf List.not_mem_nil
  parsed hf := absurd hf List.not_mem_nil
  pins hf := absurd hf List.not_mem_nil
  txids hr := by cases hr
  closed hr := by cases hr

end SolanaConfirmation

open SolanaConfirmation Provenance

namespace SolanaConfirmation

/-- A round whose mint is sent to the RPC node. -/
def sentRound : List GatewayEvent :=
  claimed sampleSolanaClaim ++ turnTo 0 1000 ++ handlerTo 1 sampleSolanaRow
    ++ [.step 1 { flag := true }, .step 1 { text := "nonce 1" }, .step 1 {},
      .step 1 { reply := ⟨sampleSolanaClaim.id, "op1", "approval"⟩ },
      .step 1 { reply := ⟨sampleSolanaClaim.id, "op2", "approval"⟩ }, .step 1 {}]

/-- The mint lands and the first poll sees it. -/
def mintedRun : List GatewayEvent :=
  sentRound ++ [.act (.landSolana 0 true), .step 1 {}, .step 1 {}]
    ++ List.replicate 3 (.step 0 { clock := 2000 })

/-- The node drops the mint, and all the polls find nothing. -/
def droppedRun : List GatewayEvent :=
  sentRound ++ .act (.dropSolana 0) :: List.replicate 31 (.step 1 {})
    ++ List.replicate 3 (.step 0 { clock := 33000 })

/-- Nothing was ever sent, but a transfer carries the deposit's id. -/
def impersonatedRun : List GatewayEvent :=
  twiceDelivered "nonce 1" ++ .act (.otherSolana "transfer" (some sampleSolanaClaim.id) true)
      :: handlerTo 3 retriedRow
    ++ [.step 3 { window := [0] }, .step 3 {}, .step 3 { flag := true },
      .step 3 { text := "nonce 1" }, .step 3 {}, .step 3 {}]
    ++ List.replicate 3 (.step 2 { clock := 21000 })

end SolanaConfirmation

end VizGateway
