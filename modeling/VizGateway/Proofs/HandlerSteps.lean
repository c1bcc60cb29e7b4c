import VizGateway.Proofs.Provenance

/-!
# A handler keeps to its row

The walk along a `/submit` handler: each broadcaster's three functions, then the round they make.
-/

namespace VizGateway

open ActionStatus Text

namespace Provenance

variable {N : RemoteNets} {L : Libs} {cfg : CoordinatorConfig} {rec : OutboxRecord}
  {l l' : List Fact}

/-! ## Evidence lasts -/

theorem Quoted.mono {chain : RemoteChainId} {flag : Bool} {b : PegInBreakdown} (hl : l ⊆ l')
    (h : Quoted cfg rec chain l flag b) : Quoted cfg rec chain l' flag b :=
  ⟨h.1, h.2.1, hl h.2.2.1, h.2.2.2⟩

theorem Built.mono {fee : ℤ} {p : Proposal} (hl : l ⊆ l') (h : Built L cfg rec l fee p) :
    Built L cfg rec l' fee p := by
  cases p with
  | release p => exact h
  | order p =>
    obtain ⟨hid, hto, hpin, hret | ⟨b, hq, hnet⟩⟩ := h
    · exact ⟨hid, hto, hl hpin, .inl hret⟩
    · exact ⟨hid, hto, hl hpin, .inr ⟨b, hq.mono hl, hnet⟩⟩
  | mint p =>
    obtain ⟨w, b, v, m, hw, hq, hfee, hv, hm⟩ := h
    exact ⟨w, b, v, m, hw, hq.mono hl, hfee, hl hv, hm⟩

theorem FeeKept.mono {fee : ℤ} (hl : l ⊆ l') (h : FeeKept rec l fee) : FeeKept rec l' fee :=
  fun hd hpos => (h hd hpos).imp (fun h => hl h) fun h => hl h

theorem Proposed.mono {p : Proposal} (hl : l ⊆ l') (h : Proposed L cfg rec l p) :
    Proposed L cfg rec l' p := by
  obtain ⟨fee, hb, hk⟩ := h
  exact ⟨fee, hb.mono hl, hk.mono hl⟩

theorem FeeShown.mono {fee : Option ℤ} (hl : l ⊆ l') (h : FeeShown cfg rec l fee) :
    FeeShown cfg rec l' fee := by
  intro f hf hpos
  obtain ⟨chain, flag, b, hq, hb⟩ := h f hf hpos
  exact ⟨chain, flag, b, hq.mono hl, hb⟩

theorem Unbuilt.mono (hl : l ⊆ l') (h : Unbuilt L cfg rec l) : Unbuilt L cfg rec l' := by
  rcases h with h | ⟨chain, flag, least, hc, hf, hq⟩ | ⟨flag, b, e, hq, he⟩
    | ⟨w, flag, b, nonceValue, hw, hq, hv, hm⟩
  · exact .inl (hl h)
  · exact .inr (.inl ⟨chain, flag, least, hc, hl hf, hq⟩)
  · exact .inr (.inr (.inl ⟨flag, b, e, hq.mono hl, he⟩))
  · exact .inr (.inr (.inr ⟨w, flag, b, nonceValue, hw, hq.mono hl, hl hv, hm⟩))

theorem FeeTold.mono {fee : Option ℤ} (hl : l ⊆ l') (h : FeeTold L cfg rec l fee) :
    FeeTold L cfg rec l' fee := by
  intro hd
  rcases h hd with ⟨chain, flag, b, hq, hfee⟩ | hun
  · exact .inl ⟨chain, flag, b, hq.mono hl, hfee⟩
  · exact .inr (hun.mono hl)

theorem Done.mono {txid : Option String} (hl : l ⊆ l') (h : Done N L cfg rec l txid) :
    Done N L cfg rec l' txid := by
  obtain ⟨x, hx, ⟨hd, hpin, hf⟩ | ⟨ho, hpin, he⟩
    | ⟨hs, hpin | ⟨m, hclean, hm, hmemo⟩ | ⟨p, hp, hsig, hsent, he⟩⟩⟩ := h
  · exact ⟨x, hx, .inl ⟨hd, hl hpin, hl hf⟩⟩
  · exact ⟨x, hx, .inr (.inl ⟨ho, hl hpin, hl he⟩)⟩
  · exact ⟨x, hx, .inr (.inr ⟨hs, .inl (hl hpin)⟩)⟩
  · exact ⟨x, hx, .inr (.inr ⟨hs, .inr (.inl ⟨m, hl hclean, hl hm, hmemo⟩)⟩)⟩
  · exact ⟨x, hx, .inr (.inr ⟨hs, .inr (.inr ⟨p, hp.mono hl, hsig, hl hsent,
      he.imp (fun h => hl h) fun h => hl h⟩)⟩)⟩

theorem grows_handlerMay : Grows (HandlerMay N L cfg rec) := by
  intro l l' o hl h
  cases o
  case store o =>
    cases o
    case setFee =>
      obtain ⟨hid, hpos, chain, flag, b, hq, hb⟩ := h
      exact ⟨hid, hpos, chain, flag, b, hq.mono hl, hb⟩
    all_goals exact h
  case respond =>
    exact ⟨h.1, fun hb => ⟨(h.2.1 hb).1.mono hl, (h.2.1 hb).2.mono hl⟩, h.2.2.mono hl⟩
  case approve => exact ⟨h.1, h.2.mono hl⟩
  case sendRawTransaction =>
    obtain ⟨hid, p, hp, htx⟩ := h
    exact ⟨hid, p, hp.mono hl, htx⟩
  case broadcastTransaction =>
    obtain ⟨hid, hmemo, hd, x, hx, hpin⟩ := h
    exact ⟨hid, hmemo, hd, x, hx, hl hpin⟩
  all_goals exact h

theorem Built.feeShown {fee : ℤ} {p : Proposal} (h : Built L cfg rec l fee p) :
    FeeShown cfg rec l (some fee) := by
  rintro f ⟨⟩ hpos
  cases p with
  | release p =>
    obtain ⟨-, -, rfl⟩ := h
    exact absurd hpos (lt_irrefl _)
  | order p =>
    obtain ⟨-, -, -, ⟨-, -, rfl⟩ | ⟨b, hq, -, hfee, -⟩⟩ := h
    · exact absurd hpos (lt_irrefl _)
    · exact ⟨_, _, b, hq, hfee⟩
  | mint p =>
    obtain ⟨w, b, v, m, -, hq, hfee, -⟩ := h
    exact ⟨_, _, b, hq, hfee⟩

/-- What was built for a peg-in was quoted. -/
theorem Built.feeTold {fee : ℤ} {p : Proposal} (h : Built L cfg rec l fee p) :
    FeeTold L cfg rec l (some fee) := by
  intro hd
  cases p with
  | release p => exact absurd (by rw [hd]; decide) (fun hne : ¬ rec.direction.wire = .pegOut => hne h.1)
  | order p =>
    obtain ⟨-, -, -, ⟨hret, -⟩ | ⟨b, hq, -, hfee, -⟩⟩ := h
    · rw [hd] at hret
      cases hret
    · exact .inl ⟨_, _, b, hq, congrArg some hfee⟩
  | mint p =>
    obtain ⟨w, b, v, m, -, hq, hfee, -⟩ := h
    exact .inl ⟨_, _, b, hq, congrArg some hfee⟩

/-! ## Calls -/

variable (N L cfg rec) in
abbrev Acts {α : Type} (Q : α → List Fact → Prop) (p : GatewayM α) (l : List Fact) : Prop :=
  Along N L (HandlerMay N L cfg rec) Q p l

variable (N L cfg rec) in
/-- The building of a proposal: for a peg-in it throws for a reason the log knows. -/
abbrev Builds {α : Type} (Q : α → List Fact → Prop) (p : GatewayM α) (l : List Fact) : Prop :=
  Walks N L (HandlerMay N L cfg rec) Q (fun l' => rec.direction = .pegIn → Unbuilt L cfg rec l') p l

theorem acts_call {o : GatewayOp} (ho : HandlerMay N L cfg rec l o) :
    Acts N L cfg rec (fun a l' => o.facts (.ok a) ⊆ l') (Prog.ask o) l :=
  along_call grows_handlerMay ho

/-- A call whose answer is not looked at. -/
theorem acts_void {o : GatewayOp} (ho : HandlerMay N L cfg rec l o) :
    Acts N L cfg rec (fun _ _ => True) (Prog.ask o) l :=
  (acts_call ho).imp fun _ _ _ _ => trivial

theorem builds_call {o : GatewayOp} (ho : HandlerMay N L cfg rec l o)
    (hE : ∀ e, .callFailed rec.id ∈ o.facts (.error e)) :
    Builds N L cfg rec (fun a l' => o.facts (.ok a) ⊆ l') (Prog.ask o) l :=
  walks_call grows_handlerMay ho fun e _ hfacts _ => .inl (hfacts (hE e))

/-- Nothing is asked of what another row's building throws. -/
theorem builds_of_acts {α : Type} {Q : α → List Fact → Prop} {p : GatewayM α}
    (hd : rec.direction ≠ .pegIn) (h : Acts N L cfg rec Q p l) : Builds N L cfg rec Q p l :=
  h.mono (fun _ _ _ h => h) fun _ _ _ hd' => absurd hd' hd

theorem acts_ofExcept {α : Type} {r : Except String α} {Q : α → List Fact → Prop}
    (h : ∀ a, r = .ok a → ∀ l', l ⊆ l' → Q a l') : Acts N L cfg rec Q (Prog.ofExcept r) l := by
  cases r with
  | ok a => exact along_pure (h a rfl)
  | error e => exact along_throw

/-- Reading the row: its `txid`, if it has one, was pinned. -/
theorem builds_get : Builds N L cfg rec
    (fun r l' => ∀ x, txidOf r = some x → .pinned rec.id x ∈ l') (Gateway.get rec.id) l := by
  refine (builds_call (o := .store (.get rec.id)) trivial fun _ => List.mem_singleton_self _).imp
    fun r l' _ hfacts x hx => ?_
  have hr : (r.bind (·.txid)) = some x := (truthy_eq_some.1 hx).1
  refine hfacts ?_
  change _ ∈ ((r.bind (·.txid)).map (Fact.pinned rec.id)).toList
  rw [hr]
  exact List.mem_singleton_self _

theorem builds_pin {x : String} (hrow : ¬ SolanaRow rec) :
    Builds N L cfg rec (fun _ l' => .pinned rec.id x ∈ l')
      (Gateway.setStatus rec.id broadcast { txid := some (some x) }) l :=
  (builds_call (o := .store (.setStatus rec.id broadcast { txid := some (some x) }))
    ⟨rfl, rfl, hrow, x, rfl⟩ fun _ => List.mem_singleton_self _).imp fun _ _ _ hfacts => hfacts (List.mem_singleton_self _)

/-! ## Releases -/

theorem acts_pollConfirmed {txid : String} : ∀ (polls : ℕ) (l : List Fact), Acts N L cfg rec
    (fun x l' => x = txid ∧ .releaseFound rec.id txid ∈ l')
    (VizReleaseBroadcaster.pollConfirmed rec.id txid polls) l
  | 0, _ => along_throw
  | polls + 1, l => by
    refine along_bind (acts_call (o := .confirmReleaseByTxId rec.id txid) rfl)
      fun found l' _ hfacts => ?_
    cases found with
    | true => exact along_pure fun _ hl => ⟨rfl, hl (hfacts (List.mem_singleton_self _))⟩
    | false => exact acts_pollConfirmed polls l'

section Release

variable (hd : rec.direction.wire = .pegOut)
include hd

theorem acts_buildRelease : Acts N L cfg rec
    (fun r l' => Built L cfg rec l' r.feeMilliViz (.release r.proposal))
    (VizReleaseBroadcaster.buildProposal L cfg (recordToAction rec)) l := by
  have hbuild : ∀ account l, Acts N L cfg rec
      (fun r l' => Built L cfg rec l' r.feeMilliViz (.release r.proposal))
      (VizReleaseBroadcaster.build (recordToAction rec) account) l := by
    intro account l
    refine along_bind (Q := fun p _ => p.memo = rec.id)
      (along_ask grows_handlerMay (o := .buildReleaseProposal _ _) rfl ?_) fun p l' _ hp => ?_
    · intro i t a _ ha _ _ _
      rw [← (answer_eq_ok.1 ha).2]
      rfl
    · exact along_bind (acts_void (o := .setPin _ _) ⟨rfl, hp⟩) fun _ _ _ _ =>
        along_pure fun _ _ => ⟨hd, hp, rfl⟩
  unfold VizReleaseBroadcaster.buildProposal
  split
  · exact along_throw
  · exact along_throw
  · refine along_bind (Q := fun prev _ => ∀ p, prev = some p → p.memo = rec.id)
      (along_ask grows_handlerMay (o := .getPin _) rfl ?_) fun prev l' _ hprev => ?_
    · rintro i t a hw ha _ _ _ p rfl
      injection ha with ha
      obtain ⟨x, hx, rfl⟩ := Option.map_eq_some_iff.1 ha
      rw [hw.pins x (List.mem_of_find?_eq_some hx)]
      have hid := List.find?_some hx
      exact of_decide_eq_true hid
    · cases prev with
      | none => exact hbuild _ _
      | some p =>
        refine along_bind (acts_void (o := .dateNow) trivial) fun now _ _ _ => ?_
        split
        · exact along_pure fun _ _ => ⟨hd, hprev p rfl, rfl⟩
        · exact hbuild _ _

theorem acts_broadcastRelease {p : VizReleaseProposal} (hp : p.memo = rec.id)
    {signatures : List String} : Acts N L cfg rec
    (fun x l' => Done N L cfg rec l' (some x))
    (VizReleaseBroadcaster.broadcast L (recordToAction rec) p signatures) l := by
  unfold VizReleaseBroadcaster.broadcast
  split
  · exact along_throw
  · next txid htxid =>
    refine along_bind (builds_pin fun hs => by rw [hs.1] at hd; cases hd).along
      fun _ l₁ _ hpin => ?_
    refine along_bind (Q := fun x l' => x = txid ∧ .pinned rec.id txid ∈ l'
      ∧ .releaseFound rec.id txid ∈ l') ?_ fun sent l₂ _ hsent => ?_
    · unfold VizReleaseBroadcaster.broadcastRelease
      split
      · exact along_throw
      · refine along_bind (acts_void (o := .activeAuthority _) trivial) fun _ l₂ hl₂ _ => ?_
        refine along_bind (Q := fun _ _ => True) (along_catch (acts_void
          (o := .broadcastTransaction _ _) ⟨rfl, hp, hd, txid, htxid, hl₂ hpin⟩)
          fun _ _ _ _ => along_pure fun _ _ => trivial) fun _ l₃ hl₃ _ => ?_
        exact (acts_pollConfirmed _ l₃).imp fun x l' hl' hx =>
          ⟨hx.1, hl' (hl₃ (hl₂ hpin)), hx.2⟩
    · refine along_bind (acts_void (o := .deletePin _) rfl) fun _ l₃ hl₃ _ =>
        along_pure fun l₄ hl₄ => ?_
      obtain ⟨rfl, hpin', hfound⟩ := hsent
      exact ⟨sent, by rw [ite_self], .inl ⟨hd, hl₄ (hl₃ hpin'), hl₄ (hl₃ hfound)⟩⟩

theorem acts_releaseExecuted : Acts N L cfg rec
    (fun check l' => check.executed = true → Done N L cfg rec l' check.txid)
    (VizReleaseBroadcaster.actionExecuted (recordToAction rec)) l := by
  refine along_bind builds_get.along fun r l₁ _ hr => ?_
  split
  · exact along_pure fun _ _ h => by simp at h
  · next txid htxid =>
    refine along_bind (acts_call (o := .confirmReleaseByTxId _ _) rfl) fun found l₂ hl₂ hfacts => ?_
    refine along_pure fun l₃ hl₃ => ?_
    cases found with
    | false => intro h; simp at h
    | true =>
      exact fun _ => ⟨txid, rfl, .inl ⟨hd, hl₃ (hl₂ (hr txid htxid)),
        hl₃ (hfacts (List.mem_singleton_self _))⟩⟩

end Release

/-! ## Orders -/

section Order

theorem not_solana_of_order (ho : OrderRow rec) : ¬ SolanaRow rec := by
  rintro ⟨hd, hc⟩
  rcases ho with ho | ⟨-, ho⟩
  · rw [hd] at ho
    cases ho
  · rw [hc] at ho
    cases ho

theorem builds_pinOrder (ho : OrderRow rec) :
    Builds N L cfg rec (fun next l' => .pinned rec.id next.orderAddr ∈ l')
      (GramBroadcaster.pinOrder (recordToAction rec)) l := by
  refine along_bind builds_get fun r l₁ _ hr => ?_
  split
  · next txid htxid => exact along_pure fun l' hl' => hl' (hr txid htxid)
  · refine along_bind (builds_call (o := .nextOrderAddress _) rfl
      fun _ => List.mem_singleton_self _) fun next l₂ _ _ => ?_
    exact along_bind (builds_pin (not_solana_of_order ho)) fun _ l₃ _ hpin =>
      along_pure fun l' hl' => hl' hpin

theorem builds_propose {amount fee : ℤ} {flag : Bool} {hash : String} (ho : OrderRow rec)
    (h : (rec.direction = .gramReturn ∧ amount = rec.amountMilliViz ∧ fee = 0)
      ∨ ∃ b, Quoted cfg rec .gram l flag b ∧ amount = b.net ∧ fee = b.fee
        ∧ GramBroadcaster.orderHashFor L .mint rec.recipient b.net = .ok hash) :
    Builds N L cfg rec (fun r l' => Built L cfg rec l' r.feeMilliViz (.order r.proposal))
      (GramBroadcaster.propose (recordToAction rec) amount flag fee hash) l := by
  refine along_bind (builds_pinOrder ho) fun next l₁ hl₁ hpin => along_pure fun l₂ hl₂ => ?_
  refine ⟨rfl, rfl, hl₂ hpin, h.imp id ?_⟩
  rintro ⟨b, hq, hnet, hfee, hhash⟩
  exact ⟨b, (hq.mono hl₁).mono hl₂, hnet, hfee, hhash⟩

theorem builds_return (hd : rec.direction = .gramReturn) : Builds N L cfg rec
    (fun r l' => Built L cfg rec l' r.feeMilliViz (.order r.proposal))
    (GramBroadcaster.buildReturn L (recordToAction rec)) l := by
  refine along_bind (builds_of_acts (by rw [hd]; decide)
    (acts_ofExcept (Q := fun _ _ => True) fun _ _ _ _ => trivial)) fun hash l₁ _ _ => ?_
  exact builds_propose (.inl hd) (.inl ⟨hd, rfl, rfl⟩)

/-- Reading the destination: a quote under the flag read is one the log knows. -/
theorem builds_provisioned {chain : RemoteChainId} (hd : rec.direction = .pegIn)
    (hc : rec.remoteChain = some chain) : Builds N L cfg rec
    (fun flag l' => .provisioned chain rec.id flag ∈ l')
    (Prog.ask (GatewayOp.isDestinationProvisioned chain rec.id rec.recipient)) l :=
  (builds_call (o := .isDestinationProvisioned _ _ _) ⟨hd, hc, rfl, rfl⟩
    fun _ => List.mem_singleton_self _).imp
    fun _ _ _ hfacts => hfacts (List.mem_singleton_self _)

theorem builds_mint (hd : rec.direction = .pegIn) (hc : rec.remoteChain = some .gram) :
    Builds N L cfg rec (fun r l' => Built L cfg rec l' r.feeMilliViz (.order r.proposal))
      (GramBroadcaster.buildMint L cfg (recordToAction rec)) l := by
  refine along_bind (builds_provisioned hd hc) fun flag l₁ _ hflag => ?_
  split
  · next least hq =>
    exact walks_throw fun l₂ hl₂ _ => .inr (.inl ⟨_, flag, least, hc, hl₂ hflag, hq⟩)
  · next b hb =>
    have hquote : Quoted cfg rec .gram l₁ flag b := ⟨hd, hc, hflag, hb⟩
    cases hhash : GramBroadcaster.orderHashFor L .mint (recordToAction rec).recipient b.net with
    | error e =>
      exact walks_throw fun l₂ hl₂ _ => .inr (.inr (.inl ⟨flag, b, e, hquote.mono hl₂, hhash⟩))
    | ok hash => exact builds_propose (.inr ⟨hd, hc⟩) (.inr ⟨b, hquote, rfl, rfl, hhash⟩)

variable (ho : OrderRow rec)
include ho

theorem acts_waitExecuted {addr : String} : ∀ (polls : ℕ) (l : List Fact),
    .pinned rec.id addr ∈ l → Acts N L cfg rec (fun x l' => Done N L cfg rec l' (some x))
      (GramBroadcaster.waitExecuted rec.id addr polls) l
  | 0, _, _ => along_throw
  | polls + 1, l, hpin => by
    refine along_bind (acts_call (o := .orderExecuted rec.id addr) rfl) fun executed l₁ hl₁ hfacts => ?_
    cases executed with
    | true =>
      exact along_pure fun l₂ hl₂ => ⟨addr, rfl, .inr (.inl ⟨ho, hl₂ (hl₁ hpin),
        hl₂ (hfacts (List.mem_singleton_self _))⟩)⟩
    | false =>
      refine along_bind (acts_void (o := .beforeDeadline) trivial) fun waiting l₂ hl₂ _ => ?_
      cases waiting with
      | true => exact acts_waitExecuted polls l₂ (hl₂ (hl₁ hpin))
      | false => exact along_throw

theorem acts_orderExecuted : Acts N L cfg rec
    (fun check l' => check.executed = true → Done N L cfg rec l' check.txid)
    (GramBroadcaster.actionExecuted (recordToAction rec)) l := by
  refine along_bind builds_get.along fun r l₁ _ hr => ?_
  split
  · exact along_pure fun _ _ h => by simp at h
  · next txid htxid =>
    refine along_bind (acts_call (o := .orderExecuted _ _) rfl) fun executed l₂ hl₂ hfacts => ?_
    refine along_pure fun l₃ hl₃ => ?_
    cases executed with
    | false => intro h; simp at h
    | true =>
      exact fun _ => ⟨txid, rfl, .inr (.inl ⟨ho, hl₃ (hl₂ (hr txid htxid)),
        hl₃ (hfacts (List.mem_singleton_self _))⟩)⟩

end Order

/-! ## Mints on Solana -/

theorem acts_confirmSignature {signature : String} : ∀ (attempts : ℕ) (l : List Fact),
    0 < attempts → Acts N L cfg rec
      (fun _ l' => .mintConfirmed rec.id signature ∈ l' ∨ .pollsOver rec.id signature ∈ l')
      (SolanaMintBroadcaster.confirmSignature rec.id signature attempts) l
  | 0, _, h => absurd h (lt_irrefl 0)
  | attempts + 1, l, _ => by
    refine along_bind (acts_call (o := .getSignatureStatus rec.id signature attempts) rfl)
      fun status l₁ _ hfacts => ?_
    cases status with
    | failed => exact along_throw
    | confirmed => exact along_pure fun l₂ hl₂ => .inl (hl₂ (hfacts (List.mem_singleton_self _)))
    | unknown =>
      cases attempts with
      | zero => exact along_pure fun l₂ hl₂ => .inr (hl₂ (hfacts (List.mem_singleton_self _)))
      | succ n => exact acts_confirmSignature (n + 1) l₁ n.succ_pos

section Mint

variable (hd : rec.direction = .pegIn) (hc : rec.remoteChain = some .solana)
include hd hc

theorem builds_solana {w : SolanaWriter} (hw : cfg.solana = some w) : Builds N L cfg rec
    (fun r l' => Built L cfg rec l' r.feeMilliViz (.mint r.proposal))
    (SolanaMintBroadcaster.buildProposal L cfg w (recordToAction rec)) l := by
  refine along_bind (builds_provisioned hd hc) fun flag l₁ _ hflag => ?_
  split
  · next least hq =>
    exact walks_throw fun l₂ hl₂ _ => .inr (.inl ⟨_, flag, least, hc, hl₂ hflag, hq⟩)
  · next b hb =>
    have hquote : Quoted cfg rec .solana l₁ flag b := ⟨hd, hc, hflag, hb⟩
    refine along_bind (Q := fun p l' => Built L cfg rec l' b.fee (.mint p)) ?_
      fun p l₂ _ hp => along_pure fun l₃ hl₃ => hp.mono hl₃
    refine along_bind (builds_call (o := .getNonce _) rfl fun _ => List.mem_singleton_self _)
      fun nonceValue l₂ hl₂ hfacts => ?_
    have hnonce : .nonce rec.id nonceValue ∈ l₂ := hfacts (List.mem_singleton_self _)
    dsimp only
    split
    · next hm =>
      exact walks_throw fun l₃ hl₃ _ => .inr (.inr (.inr
        ⟨w, flag, b, nonceValue, hw, (hquote.mono hl₂).mono hl₃, hl₃ hnonce, hm⟩))
    · next m hm =>
      exact along_pure fun l₃ hl₃ => ⟨w, b, nonceValue, m, hw, (hquote.mono hl₂).mono hl₃,
        rfl, hl₃ hnonce, hm, rfl⟩

theorem acts_submitMint {p : SolanaMintProposal} (hp : Proposed L cfg rec l (.mint p))
    {mintAuth : List String} : Acts N L cfg rec (fun x l' => Done N L cfg rec l' (some x))
    (SolanaMintBroadcaster.broadcast (recordToAction rec) p mintAuth) l := by
  unfold SolanaMintBroadcaster.broadcast
  split
  · exact along_throw
  · split
    · exact along_throw
    · refine along_bind (Q := fun x l' => x = N.signature (.mint p.tx) ∧ .sent rec.id p.tx ∈ l')
        (along_ask grows_handlerMay (o := .sendRawTransaction _ _) ⟨rfl, p, hp, rfl⟩ ?_)
        fun x l₁ hl₁ hx => ?_
      · intro i t a _ ha _ _ hfacts
        exact ⟨(answer_eq_ok.1 ha).2.symm, hfacts (List.mem_singleton_self _)⟩
      · refine along_bind (acts_confirmSignature _ _ (by decide)) fun _ l₂ hl₂ hended => ?_
        exact along_pure fun l₃ hl₃ => ⟨x, rfl, .inr (.inr ⟨⟨hd, hc⟩, .inr (.inr
          ⟨p, ((hp.mono hl₁).mono hl₂).mono hl₃, hx.1, hl₃ (hl₂ hx.2),
            hended.imp (fun h => hl₃ h) fun h => hl₃ h⟩)⟩)⟩

theorem acts_scanMints : ∀ (sigs : List SignatureInfo) (l : List Fact),
    (∀ x ∈ sigs, x.err = false → .clean rec.id x.signature ∈ l) → Acts N L cfg rec
      (fun found l' => ∀ x, found = some x → Done N L cfg rec l' (some x))
      (SolanaMintBroadcaster.scanMints rec.id sigs) l
  | [], _, _ => along_pure fun _ _ _ h => by cases h
  | s :: sigs, l, hclean => by
    unfold SolanaMintBroadcaster.scanMints
    split
    · exact acts_scanMints sigs l fun x hx => hclean x (List.mem_cons_of_mem _ hx)
    · next herr =>
      refine along_bind (acts_call (o := .getParsedTransaction _ _) rfl) fun tx l₁ hl₁ hfacts => ?_
      split
      · next hmemo =>
        refine along_pure fun l₂ hl₂ x hx => ?_
        cases hx
        obtain ⟨m, hm, hmemo⟩ := Option.bind_eq_some_iff.1 hmemo
        subst hm
        exact ⟨s.signature, rfl, .inr (.inr ⟨⟨hd, hc⟩, .inr (.inl ⟨m,
          hl₂ (hl₁ (hclean s List.mem_cons_self (by simpa using herr))),
          hl₂ (hfacts (List.mem_singleton_self _)), hmemo⟩)⟩)⟩
      · exact acts_scanMints sigs l₁ fun x hx he => hl₁ (hclean x (List.mem_cons_of_mem _ hx) he)

theorem acts_solanaExecuted : Acts N L cfg rec
    (fun check l' => check.executed = true → Done N L cfg rec l' check.txid)
    (SolanaMintBroadcaster.actionExecuted (recordToAction rec)) l := by
  refine along_bind builds_get.along fun r l₁ _ hr => ?_
  split
  · next txid htxid =>
    exact along_pure fun l₂ hl₂ _ =>
      ⟨txid, rfl, .inr (.inr ⟨⟨hd, hc⟩, .inl (hl₂ (hr txid htxid))⟩)⟩
  · split
    · refine along_bind (Q := fun found l' => ∀ x, found = some x → Done N L cfg rec l' (some x))
        ?_ fun found l₂ _ hfound => along_pure fun l₃ hl₃ => ?_
      · refine along_bind (acts_call (o := .getSignaturesForAddress _) rfl)
          fun sigs l₂ _ hfacts => ?_
        refine acts_scanMints hd hc sigs l₂ fun x hx herr => hfacts ?_
        exact List.mem_map.2 ⟨x, List.mem_filter.2 ⟨hx, by simpa using herr⟩, rfl⟩
      · cases found with
        | none => intro h; simp at h
        | some x => exact fun _ => (hfound x rfl).mono hl₃
    · exact along_pure fun _ _ h => by simp at h

end Mint

/-! ## The round -/

/-- The three functions of a broadcaster do what they are for. -/
structure Sound {P : Type} (N : RemoteNets) (L : Libs) (cfg : CoordinatorConfig)
    (rec : OutboxRecord) (b : Broadcaster P) : Prop where
  build : ∀ l, Builds N L cfg rec
    (fun r l' => Built L cfg rec l' r.feeMilliViz (b.toProposal r.proposal))
    (b.buildProposal (recordToAction rec)) l
  broadcast : ∀ l p signatures, Proposed L cfg rec l (b.toProposal p) → Acts N L cfg rec
    (fun x l' => Done N L cfg rec l' (some x)) (b.broadcast (recordToAction rec) p signatures) l
  executed : ∀ l, Acts N L cfg rec
    (fun check l' => check.executed = true → Done N L cfg rec l' check.txid)
    (b.actionExecuted (recordToAction rec)) l

theorem sound_release (hd : rec.direction.wire = .pegOut) :
    Sound N L cfg rec (vizReleaseBroadcaster L cfg) where
  build _ := builds_of_acts (fun hd' => by rw [hd'] at hd; cases hd) (acts_buildRelease hd)
  broadcast _ _ _ hp := by
    obtain ⟨_, hb, -⟩ := hp
    exact acts_broadcastRelease hd hb.2.1
  executed _ := acts_releaseExecuted hd

theorem sound_gramReturn (hd : rec.direction = .gramReturn) :
    Sound N L cfg rec (gramReturnBroadcaster L cfg) where
  build _ := builds_return hd
  broadcast _ _ _ hp := by
    obtain ⟨_, hb, -⟩ := hp
    exact acts_waitExecuted (.inl hd) _ _ hb.2.2.1
  executed _ := acts_orderExecuted (.inl hd)

theorem sound_gramMint (hd : rec.direction = .pegIn) (hc : rec.remoteChain = some .gram) :
    Sound N L cfg rec (gramMintBroadcaster L cfg) where
  build _ := builds_mint hd hc
  broadcast _ _ _ hp := by
    obtain ⟨_, hb, -⟩ := hp
    exact acts_waitExecuted (.inr ⟨hd, hc⟩) _ _ hb.2.2.1
  executed _ := acts_orderExecuted (.inr ⟨hd, hc⟩)

theorem sound_solana (hd : rec.direction = .pegIn) (hc : rec.remoteChain = some .solana)
    {w : SolanaWriter} (hw : cfg.solana = some w) :
    Sound N L cfg rec (solanaMintBroadcaster L cfg w) where
  build _ := builds_solana hd hc hw
  broadcast _ _ _ hp := acts_submitMint hd hc hp
  executed _ := acts_solanaExecuted hd hc

/-- The fee's write is tried once: it is pinned or lost. -/
theorem walks_pinFee {E : List Fact → Prop} {fee : ℤ} (h : FeeShown cfg rec l (some fee)) :
    Walks N L (HandlerMay N L cfg rec) (fun _ l' => FeeKept rec l' fee) E
      (Orchestrator.pinFee (recordToAction rec) fee) l := by
  unfold Orchestrator.pinFee
  split
  · next hskip =>
    refine along_pure fun l' _ hd hpos => ?_
    rcases hskip with hne | hle
    · exact absurd (by rw [recordToAction, hd]; rfl) hne
    · omega
  · next hgo =>
    rw [not_or, not_le] at hgo
    obtain ⟨chain, flag, b, hq, hb⟩ := h fee rfl hgo.2
    have hset : Walks N L (HandlerMay N L cfg rec) (fun _ l' => FeeKept rec l' fee)
        (fun l' => .feeLost rec.id ∈ l') (Prog.ask (GatewayOp.store (.setFee rec.id fee))) l :=
      (walks_call grows_handlerMay (o := .store (.setFee rec.id fee))
        ⟨rfl, hgo.2, chain, flag, b, hq, hb⟩ fun _ _ hfacts => hfacts (List.mem_singleton_self _)).imp
        fun _ _ _ hfacts _ _ => .inl (hfacts (List.mem_singleton_self _))
    exact along_catch hset fun _ _ _ hlost => along_pure fun _ hl' _ _ => .inr (hl' hlost)

theorem acts_collect {p : Proposal} {hint : Option ℕ} : ∀ (signers : List String)
    (set : ApprovalSet) (l : List Fact), Proposed L cfg rec l p → Acts N L cfg rec
      (fun _ _ => True) (Orchestrator.collect cfg (recordToAction rec) p hint signers set) l
  | [], _, _, _ => along_pure fun _ _ => trivial
  | _ :: rest, set, l, hp => by
    refine along_bind (Q := fun _ _ => True) (along_catch (F := fun _ => True) ?_
      fun _ _ _ _ => along_pure fun _ _ => trivial) fun reply l₁ hl₁ _ => ?_
    · exact along_bind (acts_void (o := .approve _ _ _ _) ⟨rfl, hp⟩) fun _ _ _ _ =>
        along_pure fun _ _ => trivial
    · dsimp only
      split
      · exact along_pure fun _ _ => trivial
      · exact acts_collect rest _ l₁ (hp.mono hl₁)

/-- What an answer says holds by the log. -/
def Answers (N : RemoteNets) (L : Libs) (cfg : CoordinatorConfig) (rec : OutboxRecord)
    (result : DeliveryResult) (log : List Fact) : Prop :=
  (result.broadcast = true → Done N L cfg rec log result.txid
    ∧ FeeTold L cfg rec log result.feeMilliViz) ∧ FeeShown cfg rec log result.feeMilliViz

theorem Answers.mono {result : DeliveryResult} (hl : l ⊆ l') (h : Answers N L cfg rec result l) :
    Answers N L cfg rec result l' :=
  ⟨fun hb => ⟨(h.1 hb).1.mono hl, (h.1 hb).2.mono hl⟩, h.2.mono hl⟩

theorem answers_of_failed {result : DeliveryResult} (hb : result.broadcast = false)
    (hfee : FeeShown cfg rec l result.feeMilliViz) : Answers N L cfg rec result l :=
  ⟨fun h => absurd h (by rw [hb]; decide), hfee⟩

section Round

variable {P : Type} {b : Broadcaster P} (hb : Sound N L cfg rec b)
include hb

theorem acts_recover {txid : Option String} (h : Done N L cfg rec l txid) : Acts N L cfg rec
    (Answers N L cfg rec) (Orchestrator.recover b (recordToAction rec) txid) l := by
  refine along_bind
    (Q := fun fee l' => FeeTold L cfg rec l' (some fee) ∧ FeeShown cfg rec l' (some fee)) ?_
    fun fee l₁ hl₁ hfee => along_pure fun l₂ hl₂ =>
      Answers.mono hl₂ ⟨fun _ => ⟨h.mono hl₁, hfee.1⟩, hfee.2⟩
  refine along_catch (F := fun l' => rec.direction = .pegIn → Unbuilt L cfg rec l') ?_
    fun _ l₁ _ hun => ?_
  · refine along_bind (hb.build l) fun built l₁ _ hbuilt => ?_
    refine along_bind (walks_pinFee hbuilt.feeShown) fun _ l₂ hl₂ _ => along_pure fun l₃ hl₃ => ?_
    exact ⟨(hbuilt.feeTold.mono hl₂).mono hl₃, (hbuilt.feeShown.mono hl₂).mono hl₃⟩
  · refine along_pure fun l₂ hl₂ => ⟨fun hd => .inr ((hun hd).mono hl₂), fun f hf hpos => ?_⟩
    cases hf
    exact absurd hpos (lt_irrefl 0)

theorem acts_finish {built : BuildResult P} {set : ApprovalSet}
    (hp : Proposed L cfg rec l (b.toProposal built.proposal))
    (hbuilt : Built L cfg rec l built.feeMilliViz (b.toProposal built.proposal)) :
    Acts N L cfg rec (Answers N L cfg rec)
      (Orchestrator.finish b (recordToAction rec) built set) l := by
  refine along_catch (F := fun _ => True) (along_bind (hb.broadcast l _ _ hp)
    fun txid l₁ hl₁ hdone => along_pure fun l₂ hl₂ => ?_) fun e l₁ hl₁ _ => ?_
  · exact Answers.mono hl₂ ⟨fun _ => ⟨hdone, hbuilt.feeTold.mono hl₁⟩, hbuilt.feeShown.mono hl₁⟩
  · exact along_pure fun l₂ hl₂ =>
      answers_of_failed rfl ((hbuilt.feeShown.mono hl₁).mono hl₂)

theorem acts_drive {signers : List String} {hint : Option ℕ} : Acts N L cfg rec
    (Answers N L cfg rec)
    (Orchestrator.drive cfg b signers (recordToAction rec) hint) l := by
  refine along_bind (hb.build l).along fun built l₁ _ hbuilt => ?_
  refine along_bind (walks_pinFee hbuilt.feeShown) fun _ l₂ hl₂ hkept => ?_
  have hp : Proposed L cfg rec l₂ (b.toProposal built.proposal) :=
    ⟨_, hbuilt.mono hl₂, hkept⟩
  refine along_bind (acts_collect signers [] l₂ hp) fun set l₃ hl₃ _ => ?_
  have hbuilt' := (hbuilt.mono hl₂).mono hl₃
  split
  · exact acts_finish hb (hp.mono hl₃) hbuilt'
  · exact along_pure fun l₄ hl₄ => answers_of_failed rfl (hbuilt'.feeShown.mono hl₄)

theorem acts_process {signers : List String} {hint : Option ℕ} : Acts N L cfg rec
    (Answers N L cfg rec)
    (Orchestrator.process cfg b signers (recordToAction rec) hint) l := by
  refine along_bind (hb.executed l) fun check l₁ _ hcheck => ?_
  split
  · next h => exact acts_recover hb (hcheck h)
  · exact acts_drive hb

theorem acts_runRound : Acts N L cfg rec (Answers N L cfg rec)
    (runRound cfg b (recordToAction rec)) l := by
  refine along_bind (Q := fun _ _ => True) ?_ fun hint l₁ _ _ => ?_
  · unfold resolveSourceHint
    split
    · exact along_pure fun _ _ => trivial
    · refine along_bind (acts_void (o := .store (.get _)) trivial) fun r _ _ _ => ?_
      split
      · exact along_pure fun _ _ => trivial
      · exact along_pure fun _ _ => trivial
  · exact along_bind (acts_void (o := .liveSigners) trivial) fun signers l₂ _ _ =>
      acts_process hb

end Round

theorem acts_orchestrate : Acts N L cfg rec (Answers N L cfg rec)
    (orchestrate L cfg (recordToAction rec)) l := by
  unfold orchestrate
  cases hd : rec.direction
  case gramReturn =>
    rw [if_pos (by rw [recordToAction, hd]; rfl)]
    split
    · exact acts_runRound (sound_gramReturn hd)
    · exact along_throw
  case pegOut | feeSweep | refund =>
    rw [if_neg (by rw [recordToAction, hd]; simp [OutboxDirection.wire]),
      if_pos (by rw [recordToAction, hd]; rfl)]
    exact acts_runRound (sound_release (by rw [hd]; rfl))
  case pegIn =>
    rw [if_neg (by rw [recordToAction, hd]; simp [OutboxDirection.wire]),
      if_neg (by rw [recordToAction, hd]; simp [OutboxDirection.wire])]
    cases hc : rec.remoteChain with
    | none =>
      simp only [recordToAction, hc, Option.map_none]
      exact along_throw
    | some chain =>
      cases chain with
      | solana =>
        have hc' : (recordToAction rec).remoteChain = some (.known .solana) := by
          rw [recordToAction, hc]
          rfl
        simp only [hc']
        split
        · exact along_throw
        · next w hw => exact acts_runRound (sound_solana hd hc hw)
      | gram =>
        have hc' : (recordToAction rec).remoteChain = some (.known .gram) := by
          rw [recordToAction, hc]
          rfl
        simp only [hc']
        split
        · exact acts_runRound (sound_gramMint hd hc)
        · exact along_throw

/-- A handler calls what the log justifies, and nothing before it received its request. -/
def HandlerDoes (N : RemoteNets) (L : Libs) (cfg : CoordinatorConfig) (rec : OutboxRecord)
    (log : List Fact) (o : GatewayOp) : Prop :=
  HandlerMay N L cfg rec log o ∧ (o = .receive rec ∨ .received rec ∈ log)

theorem grows_handlerDoes : Grows (HandlerDoes N L cfg rec) :=
  fun _ _ _ hl h => ⟨grows_handlerMay _ _ _ hl h.1, h.2.imp id fun h => hl h⟩

theorem along_handleSubmit :
    Along N L (HandlerDoes N L cfg rec) (fun _ _ => True) (handleSubmit L cfg rec) l := by
  refine along_bind (along_call grows_handlerDoes (o := .receive rec) ⟨rfl, .inl rfl⟩)
    fun _ l₁ _ hfacts => ?_
  have hreceived : .received rec ∈ l₁ := hfacts (List.mem_singleton_self _)
  suffices h : Along N L (HandlerMay N L cfg rec) (fun _ _ => True) _ l₁ from
    h.strengthen fun l₂ o hl₂ hmay => ⟨hmay, .inr (hl₂ hreceived)⟩
  have hnone : ∀ (e : String) l, Answers N L cfg rec
      { broadcast := false, error := some e } l :=
    fun e l => answers_of_failed rfl fun f hf => by simp at hf
  refine along_bind (Q := Answers N L cfg rec) (along_catch (F := fun _ => True) ?_ fun _ _ _ _ =>
    along_pure fun l₂ _ => hnone _ l₂) fun result l₂ _ hresult => ?_
  · refine along_bind (acts_void (o := .store .isPaused) trivial) fun paused l₂ _ _ => ?_
    cases paused with
    | true => exact along_pure fun l₃ _ => hnone _ l₃
    | false => exact acts_orchestrate
  · exact acts_void (o := .respond rec result) ⟨rfl, hresult.1, hresult.2⟩

end Provenance

end VizGateway
