import VizGateway.Proofs.SameId

/-!
# What a ledger key determines

The ledger keys a proposal by its shape; the signer routes it by the action's direction. Where the
two agree a key stands for one effect, as the ledger means it to. A proposal with the fields of
several shapes is keyed by one part and signed by another.
-/

namespace VizGateway

open Checks Text

/-- The TaPoS fields and the expiration encode alike. -/
def SameTapos {L : Libs} (E : TransactionLayout L) (p p' : JsonObject) : Prop :=
  E.header (p.get "refBlockNum") (p.get "refBlockPrefix") (p.get "expiration")
    = E.header (p'.get "refBlockNum") (p'.get "refBlockPrefix") (p'.get "expiration")

/-- The proposals pay the same amount from and to the same accounts. -/
def SameTransfer (p p' : JsonObject) : Prop :=
  p.get "from" = p'.get "from" ∧ p.get "to" = p'.get "to" ∧ p.get "amount" = p'.get "amount"

/-- The activation surcharge is the same under the flags of both proposals. -/
def SameSurcharge (fees : GatewayFeeConfig) (p p' : JsonObject) : Prop :=
  jsTruthy (p.get "destProvisioned") = jsTruthy (p'.get "destProvisioned")
    ∨ fees.activationSurchargeMilliViz.gram = 0

/-- The proposals name one order address. -/
def SameOrder (L : Libs) (p p' : JsonObject) : Prop :=
  parsedAddress L p "orderAddr" = parsedAddress L p' "orderAddr"

/-- The requests whose key says what is signed: of one direction, and either of the shape their
route signs or alike in the fields the key leaves out. -/
structure KeyDetermines {L : Libs} (E : TransactionLayout L) (fees : GatewayFeeConfig)
    (a a' : CanonicalAction) (p p' : JsonObject) : Prop where
  direction : a.direction = a'.direction
  release : a.direction = .known .pegOut →
    (VizShaped p ∧ VizShaped p') ∨ (SameTransfer p p' ∧ SameTapos E p p')
  mint : a.direction = .known .pegIn → isSolanaMintProposal p = true ∨ SameSurcharge fees p p'
  giveBack : a.direction = .known .gramReturn →
    isSolanaMintProposal p = false ∨ SameOrder L p p'

/-- A request the signer approved, in whatever state of its ledger: what it was keyed as and what
it authorises. -/
structure Approved (L : Libs) (cfg : SignerConfig) (view : RequestView) (action : CanonicalAction)
    (p : JsonObject) (key : String) (effect : Effect) : Prop where
  keyed : ∃ row, proposalKey L p = .ok row ∧ row.key = key
  routed : ∃ hint, routeApproval L cfg view action p hint = .ok effect

section

variable {L : Libs} {cfg : SignerConfig} {view view' : RequestView} {G : Ledger}
  {a a' : CanonicalAction} {p p' : JsonObject} {hint : Option ℕ} {effect effect' : Effect}
  {key : String}

theorem approve_approved {m : SignedProposals} {req : ApproveRequest} {r : Approval}
    (h : (approve L cfg view m req).1 = .ok r) :
    ∃ action key, actionFromWire req.action = some action ∧ r.actionId = action.id
      ∧ Approved L cfg view action req.proposal key r.effect := by
  obtain ⟨action, row, haction, hrow, -, hid, hroute⟩ := approve_eq_ok h
  exact ⟨action, row.key, haction, hid, ⟨row, hrow, rfl⟩, _, hroute⟩

/-! ## The effect of each route -/

/-- What a release signs. -/
theorem release_effect (h : signVizRelease L cfg view a p hint = .ok effect) :
    a.direction = .known .pegOut ∧ (∃ s, p.get "from" = some (.str s))
      ∧ p.get "to" = some (.str a.recipient)
      ∧ p.get "amount" = some (.str (milliToViz a.amountMilliViz))
      ∧ p.get "memo" = some (.str a.id)
      ∧ ∃ bytes, L.toBuffer (buildReleaseTx p) = some bytes ∧ effect = .vizRelease bytes := by
  obtain ⟨hdir, -, ⟨c, -, hfrom⟩, hto, hamt, hmemo, hb⟩ := signVizRelease_eq_ok h
  exact ⟨hdir, ⟨_, hfrom⟩, hto, hamt, hmemo, hb⟩

/-- What a GRAM mint approves: the derived net, at the proposal's address. -/
theorem gramMint_effect (h : approveGramMint L cfg view a p hint = .ok effect) :
    ∃ s orderAddr toAddr, p.get "orderAddr" = some (.str s) ∧ L.addressParse s = some orderAddr
      ∧ L.addressParse a.recipient = some toAddr
      ∧ effect = .gramOrder orderAddr (.mint toAddr (derivedNet cfg.deps.fees .gram
          a.amountMilliViz (jsTruthy (p.get "destProvisioned")))) := by
  obtain ⟨-, -, -, hnet, toAddr, amount, hto, hamt, ho⟩ := approveGramMint_eq_ok h
  obtain ⟨hpos, hp⟩ := assertNet_eq_ok hnet
  rw [hp, bigIntOf_bigintText hpos.le, Option.some.injEq] at hamt
  subst hamt
  obtain ⟨-, s, orderAddr, -, -, hs, haddr, he⟩ := approveOrder_eq_ok ho
  exact ⟨s, orderAddr, toAddr, hs, haddr, hto, he⟩

/-- What a return approves: the action's amount, at the proposal's address. -/
theorem gramReturn_effect (h : approveGramReturn L cfg view a p hint = .ok effect) :
    ∃ s orderAddr toAddr, p.get "orderAddr" = some (.str s) ∧ L.addressParse s = some orderAddr
      ∧ L.addressParse a.recipient = some toAddr
      ∧ effect = .gramOrder orderAddr (.giveBack toAddr a.amountMilliViz) := by
  obtain ⟨-, -, toAddr, hto, ho⟩ := approveGramReturn_eq_ok h
  obtain ⟨-, s, orderAddr, -, -, hs, haddr, he⟩ := approveOrder_eq_ok ho
  exact ⟨s, orderAddr, toAddr, hs, haddr, hto, he⟩

/-! ## The key of each shape -/

theorem solanaKey_message (hsha : Function.Injective L.digestOf) {row row' : SignedProposal}
    (hp : isSolanaMintProposal p = true) (hp' : isSolanaMintProposal p' = true)
    (h : proposalKey L p = .ok row) (h' : proposalKey L p' = .ok row') (hkey : row.key = row'.key) :
    p.get "messageB64" = p'.get "messageB64" := by
  obtain ⟨m, hm, rfl⟩ := proposalKey_solana hp h
  obtain ⟨m', hm', rfl⟩ := proposalKey_solana hp' h'
  rw [hm, hm', hsha (append_left_cancel hkey)]

theorem gramKey_orderAddr {row row' : SignedProposal} {s s' : String}
    (hp : isSolanaMintProposal p = false ∧ isGramMintProposal p = true)
    (hp' : isSolanaMintProposal p' = false ∧ isGramMintProposal p' = true)
    (h : proposalKey L p = .ok row) (h' : proposalKey L p' = .ok row') (hkey : row.key = row'.key)
    (hs : p.get "orderAddr" = some (.str s)) (hs' : p'.get "orderAddr" = some (.str s')) :
    s = s' := by
  rw [proposalKey_gram hp.1 hp.2 h, proposalKey_gram hp'.1 hp'.2 h', hs, hs'] at hkey
  exact append_left_cancel hkey

/-- The keys of different shapes begin differently. -/
theorem solanaKey_ne_gramKey {row row' : SignedProposal} (hp : isSolanaMintProposal p = true)
    (hp' : isSolanaMintProposal p' = false) (hg' : isGramMintProposal p' = true)
    (h : proposalKey L p = .ok row) (h' : proposalKey L p' = .ok row') : row.key ≠ row'.key := by
  obtain ⟨m, -, rfl⟩ := proposalKey_solana hp h
  rw [proposalKey_gram hp' hg' h']
  exact append_ne_append (c := 's') (d := 'g') rfl rfl (by decide) _ _

/-- A VIZ-shaped proposal's key is the hash of what is signed. -/
theorem vizKey_bytes (htrx : Function.Injective L.trxHash) {row row' : SignedProposal}
    (hp : VizShaped p) (hp' : VizShaped p') (h : proposalKey L p = .ok row)
    (h' : proposalKey L p' = .ok row') (hkey : row.key = row'.key) :
    L.toBuffer (buildReleaseTx p) = L.toBuffer (buildReleaseTx p') := by
  obtain ⟨t, ht, hk, -⟩ := proposalKey_viz hp h
  obtain ⟨t', ht', hk', -⟩ := proposalKey_viz hp' h'
  rw [hk, hk'] at hkey
  have htt := append_left_cancel hkey
  subst htt
  unfold releaseTxId computeTrxId at ht ht'
  obtain ⟨b, hb, hbt⟩ := Option.map_eq_some_iff.1 ht
  obtain ⟨b', hb', hbt'⟩ := Option.map_eq_some_iff.1 ht'
  rw [hb, hb', htrx (hbt.trans hbt'.symm)]

/-! ## Route by route -/

/-- Two releases of one id and key. -/
theorem release_iff (htrx : Function.Injective L.trxHash) (E : TransactionLayout L)
    {row row' : SignedProposal} {hint' : Option ℕ} (hid : a.id = a'.id)
    (h : signVizRelease L cfg view a p hint = .ok effect)
    (h' : signVizRelease L cfg view' a' p' hint' = .ok effect')
    (hrow : proposalKey L p = .ok row) (hrow' : proposalKey L p' = .ok row')
    (hkey : row.key = row'.key) :
    effect = effect' ↔
      (VizShaped p ∧ VizShaped p') ∨ (SameTransfer p p' ∧ SameTapos E p p') := by
  obtain ⟨-, ⟨s, hs⟩, ht, hn, hm, b, hb, rfl⟩ := release_effect h
  obtain ⟨-, ⟨s', hs'⟩, ht', hn', hm', b', hb', rfl⟩ := release_effect h'
  rw [Effect.vizRelease.injEq]
  constructor
  · rintro rfl
    refine .inr ?_
    rw [E.toBuffer_eq] at hb hb'
    obtain ⟨hd, hhd, hrest⟩ := Option.bind_eq_some_iff.1 hb
    obtain ⟨hd', hhd', hrest'⟩ := Option.bind_eq_some_iff.1 hb'
    obtain ⟨o, ho, rfl⟩ := Option.map_eq_some_iff.1 hrest
    obtain ⟨o', ho', happ⟩ := Option.map_eq_some_iff.1 hrest'
    have hlen : hd'.length = hd.length := by rw [E.header_length hhd', E.header_length hhd]
    obtain ⟨rfl, rfl⟩ := List.append_inj happ hlen
    unfold buildReleaseTx at ho ho'
    simp only [hs, ht, hn, hm] at ho
    simp only [hs', ht', hn', hm'] at ho'
    obtain ⟨rfl, hrec, hamt, -⟩ := E.body_inj ho ho'
    refine ⟨⟨hs.trans hs'.symm, ?_, ?_⟩, hhd.trans hhd'.symm⟩
    · rw [ht, ht', hrec]
    · rw [hn, hn', hamt]
  · rintro (⟨hp, hp'⟩ | ⟨⟨hfrom, hto, hamt⟩, htapos⟩)
    · have := vizKey_bytes htrx hp hp' hrow hrow' hkey
      rw [hb, hb', Option.some.injEq] at this
      exact this
    · have hmemo : p.get "memo" = p'.get "memo" := by rw [hm, hm', hid]
      have : L.toBuffer (buildReleaseTx p) = L.toBuffer (buildReleaseTx p') := by
        rw [E.toBuffer_eq, E.toBuffer_eq]
        unfold buildReleaseTx
        simp only [hfrom, hto, hamt, hmemo]
        rw [htapos]
      rw [hb, hb', Option.some.injEq] at this
      exact this

/-- The net under two flags agrees exactly when the surcharge does. -/
theorem derivedNet_eq_iff {fees : GatewayFeeConfig} {gross : ℤ} {b b' : Bool} :
    derivedNet fees .gram gross b = derivedNet fees .gram gross b'
      ↔ b = b' ∨ fees.activationSurchargeMilliViz.gram = 0 := by
  unfold derivedNet activationFee pegInFeePolicyFor PerChain.get
  cases b <;> cases b' <;> simp <;> omega

/-- Two GRAM mints of one id and key. -/
theorem gramMint_iff {row row' : SignedProposal} {hint' : Option ℕ}
    (ht : Truthful L G view.nodes) (ht' : Truthful L G view'.nodes) (hid : a.id = a'.id)
    (hp : isSolanaMintProposal p = false ∧ isGramMintProposal p = true)
    (hp' : isSolanaMintProposal p' = false ∧ isGramMintProposal p' = true)
    (h : approveGramMint L cfg view a p hint = .ok effect)
    (h' : approveGramMint L cfg view' a' p' hint' = .ok effect')
    (hrow : proposalKey L p = .ok row) (hrow' : proposalKey L p' = .ok row')
    (hkey : row.key = row'.key) : effect = effect' ↔ SameSurcharge cfg.deps.fees p p' := by
  obtain ⟨hin, hval, -⟩ := approveGramMint_eq_ok h
  obtain ⟨hin', hval', -⟩ := approveGramMint_eq_ok h'
  rw [validateAction_eq_ok, validateActionInner, if_pos hin] at hval
  rw [validateAction_eq_ok, validateActionInner, if_pos hin'] at hval'
  have ha := validatePegIn_unique ht ht' hval hval' hid
  subst ha
  obtain ⟨s, o, t, hs, ho, hto, rfl⟩ := gramMint_effect h
  obtain ⟨s', o', t', hs', ho', hto', rfl⟩ := gramMint_effect h'
  have hss := gramKey_orderAddr hp hp' hrow hrow' hkey hs hs'
  subst hss
  rw [ho, Option.some.injEq] at ho'
  rw [hto, Option.some.injEq] at hto'
  subst ho' hto'
  rw [Effect.gramOrder.injEq, OrderBody.mint.injEq, derivedNet_eq_iff]
  unfold SameSurcharge
  simp only [true_and]

/-- Two returns of one id and key. -/
theorem gramReturn_iff {row row' : SignedProposal} {hint' : Option ℕ}
    (ht : Truthful L G view.nodes) (ht' : Truthful L G view'.nodes) (hid : a.id = a'.id)
    (hg : isGramMintProposal p = true) (hg' : isGramMintProposal p' = true)
    (h : approveGramReturn L cfg view a p hint = .ok effect)
    (h' : approveGramReturn L cfg view' a' p' hint' = .ok effect')
    (hrow : proposalKey L p = .ok row) (hrow' : proposalKey L p' = .ok row')
    (hkey : row.key = row'.key) :
    effect = effect' ↔ isSolanaMintProposal p = false ∨ SameOrder L p p' := by
  obtain ⟨hdir, hval, -⟩ := approveGramReturn_eq_ok h
  obtain ⟨hdir', hval', -⟩ := approveGramReturn_eq_ok h'
  obtain ⟨hrec, hamt⟩ := child_unique ht ht' hval hval' (by simp [hdir]) (by simp [hdir']) hid
    (child_of_gramReturn hval hdir)
  obtain ⟨s, o, t, hs, ho, hto, rfl⟩ := gramReturn_effect h
  obtain ⟨s', o', t', hs', ho', hto', rfl⟩ := gramReturn_effect h'
  rw [hrec, hto, Option.some.injEq] at hto'
  subst hto'
  have horder : SameOrder L p p' ↔ o = o' := by
    unfold SameOrder parsedAddress
    rw [hs, hs']
    simp only [ho, ho', found, Except.ok.injEq]
  rw [Effect.gramOrder.injEq, OrderBody.giveBack.injEq, hamt, horder]
  simp only [and_true]
  refine ⟨.inr, Or.rec (fun hsol => ?_) id⟩
  cases hsol' : isSolanaMintProposal p' with
  | true => exact absurd hkey.symm (solanaKey_ne_gramKey hsol' hsol hg hrow' hrow)
  | false =>
    have hss := gramKey_orderAddr ⟨hsol, hg⟩ ⟨hsol', hg'⟩ hrow hrow' hkey hs hs'
    subst hss
    rw [ho, Option.some.injEq] at ho'
    exact ho'

/-- The direction of the requests an effect comes from. -/
def Effect.direction : Effect → Direction
  | .vizRelease _ => .pegOut
  | .gramOrder _ (.mint _ _) => .pegIn
  | .gramOrder _ (.giveBack _ _) => .gramReturn
  | .solanaMint _ => .pegIn

theorem routeApproval_direction (h : routeApproval L cfg view a p hint = .ok effect) :
    a.direction = .known effect.direction := by
  rcases routeApproval_eq_ok h with ⟨hd, -, h⟩ | ⟨hd, h⟩ | ⟨hd, -, -, h⟩ | ⟨hd, -, -, -, h⟩
  · obtain ⟨s, o, t, -, -, -, rfl⟩ := gramReturn_effect h
    exact hd
  · obtain ⟨-, -, -, -, -, b, -, rfl⟩ := release_effect h
    exact hd
  · obtain ⟨-, -, -, -, m, -, -, rfl⟩ := approveSolanaMint_eq_ok h
    exact hd
  · obtain ⟨s, o, t, -, -, -, rfl⟩ := gramMint_effect h
    exact hd

section

variable {E : TransactionLayout L} {fees : GatewayFeeConfig}

theorem keyDetermines_release (hd : a.direction = .known .pegOut)
    (hd' : a'.direction = .known .pegOut) :
    KeyDetermines E fees a a' p p' ↔
      (VizShaped p ∧ VizShaped p') ∨ (SameTransfer p p' ∧ SameTapos E p p') :=
  ⟨fun h => h.release hd, fun h => ⟨hd.trans hd'.symm, fun _ => h, by simp [hd], by simp [hd]⟩⟩

theorem keyDetermines_mint (hd : a.direction = .known .pegIn)
    (hd' : a'.direction = .known .pegIn) :
    KeyDetermines E fees a a' p p' ↔ isSolanaMintProposal p = true ∨ SameSurcharge fees p p' :=
  ⟨fun h => h.mint hd, fun h => ⟨hd.trans hd'.symm, by simp [hd], fun _ => h, by simp [hd]⟩⟩

theorem keyDetermines_giveBack (hd : a.direction = .known .gramReturn)
    (hd' : a'.direction = .known .gramReturn) :
    KeyDetermines E fees a a' p p' ↔ isSolanaMintProposal p = false ∨ SameOrder L p p' :=
  ⟨fun h => h.giveBack hd, fun h => ⟨hd.trans hd'.symm, by simp [hd], by simp [hd], fun _ => h⟩⟩

end

/-- Two approvals of one action id under one key authorise one effect exactly when the key
determines it. -/
theorem sameKey_sameEffect_iff (hsha : Function.Injective L.digestOf)
    (htrx : Function.Injective L.trxHash) (E : TransactionLayout L)
    (ht : Truthful L G view.nodes) (ht' : Truthful L G view'.nodes)
    (h : Approved L cfg view a p key effect) (h' : Approved L cfg view' a' p' key effect')
    (hid : a.id = a'.id) :
    effect = effect' ↔ KeyDetermines E cfg.deps.fees a a' p p' := by
  obtain ⟨⟨row, hrow, hk⟩, hint, hr⟩ := h
  obtain ⟨⟨row', hrow', hk'⟩, hint', hr'⟩ := h'
  have hkey : row.key = row'.key := hk.trans hk'.symm
  have hdir := routeApproval_direction hr
  have hdir' := routeApproval_direction hr'
  by_cases hne : a.direction = a'.direction
  · rcases routeApproval_eq_ok hr with ⟨hd, hg, h⟩ | ⟨hd, h⟩ | ⟨hd, hs, -, h⟩ | ⟨hd, hs, hg, -, h⟩ <;>
    rcases routeApproval_eq_ok hr' with
      ⟨hd', hg', h'⟩ | ⟨hd', h'⟩ | ⟨hd', hs', -, h'⟩ | ⟨hd', hs', hg', -, h'⟩
    any_goals (rw [hd, hd'] at hne; cases hne; done)
    · rw [keyDetermines_giveBack hd hd']
      exact gramReturn_iff ht ht' hid hg hg' h h' hrow hrow' hkey
    · rw [keyDetermines_release hd hd']
      exact release_iff htrx E hid h h' hrow hrow' hkey
    · -- both Solana: the message is what is keyed
      obtain ⟨-, -, -, -, m, -, hm, rfl⟩ := approveSolanaMint_eq_ok h
      obtain ⟨-, -, -, -, m', -, hm', rfl⟩ := approveSolanaMint_eq_ok h'
      have hmm := solanaKey_message hsha hs hs' hrow hrow' hkey
      rw [hm, hm', Option.some.injEq, Json.str.injEq] at hmm
      rw [keyDetermines_mint hd hd', hmm]
      exact iff_of_true rfl (.inl hs)
    · exact absurd hkey (solanaKey_ne_gramKey hs hs' hg' hrow hrow')
    · exact absurd hkey.symm (solanaKey_ne_gramKey hs' hs hg hrow' hrow)
    · rw [keyDetermines_mint hd hd', hs]
      simp only [Bool.false_eq_true, false_or]
      exact gramMint_iff ht ht' hid ⟨hs, hg⟩ ⟨hs', hg'⟩ h h' hrow hrow' hkey
  · refine iff_of_false (fun he => hne ?_) fun hk => hne hk.direction
    rw [hdir, hdir', he]

end

/-! ## A hybrid on the sample nodes -/

/-- Two releases of the sample burn with other reference blocks, each carrying the fields a GRAM
order is keyed by. -/
def hybridRelease (refBlockNum : ℕ) : JsonObject :=
  [("refBlockNum", .num refBlockNum), ("refBlockPrefix", .num 77),
    ("expiration", .str "2026-01-01T00:01:00"), ("from", .str "gram.gate"), ("to", .str "carol"),
    ("amount", .str "120.000 VIZ"), ("memo", .str sampleBurnHash),
    ("orderHashHex", .str ""), ("orderAddr", .str "x")]

def hybridRequest (refBlockNum : ℕ) : ApproveRequest where
  action := (canonicalPegOut sampleLibs.digestOf sampleBurn).toWire
  proposal := hybridRelease refBlockNum
  sourceBlockNum := none

def hybridEffect (refBlockNum : ℕ) : Effect :=
  .vizRelease ((sampleLibs.toBuffer (buildReleaseTx (hybridRelease refBlockNum))).getD [])

/-- The signer approves both under one key: two live releases of one burn. -/
theorem hybridRelease_twice :
    proposalKey sampleLibs (hybridRelease 1) = proposalKey sampleLibs (hybridRelease 2)
      ∧ (approve sampleLibs sampleConfig (sampleRequestView ["carol"]) (fun _ => none)
          (hybridRequest 1)).1 = .ok ⟨sampleBurnHash, "op1", hybridEffect 1⟩
      ∧ (approve sampleLibs sampleConfig (sampleRequestView ["carol"])
          (approve sampleLibs sampleConfig (sampleRequestView ["carol"]) (fun _ => none)
            (hybridRequest 1)).2 (hybridRequest 2)).1
        = .ok ⟨sampleBurnHash, "op1", hybridEffect 2⟩
      ∧ hybridEffect 1 ≠ hybridEffect 2 := by
  decide +kernel

/-- On the hybrid releases, the fields the key leaves out are what tells the effects apart. -/
theorem sameKey_sameEffect_iff_hybrid :
    hybridEffect 1 = hybridEffect 2 ↔
      KeyDetermines sampleLayout sampleConfig.deps.fees
        (canonicalPegOut sampleLibs.digestOf sampleBurn)
        (canonicalPegOut sampleLibs.digestOf sampleBurn) (hybridRelease 1) (hybridRelease 2) := by
  have h₁ : Approved sampleLibs sampleConfig (sampleRequestView ["carol"])
      (canonicalPegOut sampleLibs.digestOf sampleBurn) (hybridRelease 1) "gram-order:x"
      (hybridEffect 1) :=
    ⟨⟨⟨"gram-order:x", 0⟩, by decide +kernel, rfl⟩, none, by decide +kernel⟩
  have h₂ : Approved sampleLibs sampleConfig (sampleRequestView ["carol"])
      (canonicalPegOut sampleLibs.digestOf sampleBurn) (hybridRelease 2) "gram-order:x"
      (hybridEffect 2) :=
    ⟨⟨⟨"gram-order:x", 0⟩, by decide +kernel, rfl⟩, none, by decide +kernel⟩
  exact sameKey_sameEffect_iff sampleLibs_digestOf sampleLibs_trxHash sampleLayout
    (sampleView_truthful ["carol"]) (sampleView_truthful ["carol"]) h₁ h₂ rfl

end VizGateway
