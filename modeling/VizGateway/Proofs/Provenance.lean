import VizGateway.Gateway

/-!
# Why the gateway's programs do what they do

Along every program, at whatever await it stands, the log justifies the call it is about to make:
a handler acts on its own row, proposes what it quoted, and answers with a broadcast only on
evidence that the action was executed; the dispatcher writes only rows it was handed, and confirms
only what was answered.
-/

namespace VizGateway

open ActionStatus Text

/-- The rows that are settled by a multisig order. -/
def OrderRow (r : OutboxRecord) : Prop :=
  r.direction = .gramReturn ∨ r.direction = .pegIn ∧ r.remoteChain = some .gram

instance (r : OutboxRecord) : Decidable (OrderRow r) := inferInstanceAs (Decidable (_ ∨ _))

/-- The rows that are settled by a mint on Solana. -/
def SolanaRow (r : OutboxRecord) : Prop := r.direction = .pegIn ∧ r.remoteChain = some .solana

instance (r : OutboxRecord) : Decidable (SolanaRow r) := inferInstanceAs (Decidable (_ ∧ _))

namespace Provenance

variable (N : RemoteNets) (L : Libs) (cfg : CoordinatorConfig)

/-! ## What justifies a handler's call -/

/-- The fee policy of a chain quoted this for the row, its destination read as `flag`. -/
def Quoted (rec : OutboxRecord) (chain : RemoteChainId) (log : List Fact) (flag : Bool)
    (b : PegInBreakdown) : Prop :=
  rec.direction = .pegIn ∧ rec.remoteChain = some chain ∧ .provisioned chain rec.id flag ∈ log
    ∧ quotePegIn rec.amountMilliViz flag (pegInFeePolicyFor cfg.fees chain) = .ok b

/-- A proposal as its broadcaster builds it for the row, the fee withheld with it. -/
def Built (rec : OutboxRecord) (log : List Fact) (fee : ℤ) : Proposal → Prop
  | .release p => rec.direction.wire = .pegOut ∧ p.memo = rec.id ∧ fee = 0
  | .order p =>
    p.actionId = rec.id ∧ p.toAddress = rec.recipient ∧ .pinned rec.id p.orderAddr ∈ log
      ∧ ((rec.direction = .gramReturn ∧ p.amountMilliViz = rec.amountMilliViz ∧ fee = 0)
        ∨ ∃ b, Quoted cfg rec .gram log p.destProvisioned b ∧ p.amountMilliViz = b.net
          ∧ fee = b.fee
          ∧ GramBroadcaster.orderHashFor L .mint rec.recipient b.net = .ok p.orderHashHex)
  | .mint p =>
    ∃ w b nonceValue m, cfg.solana = some w ∧ Quoted cfg rec .solana log p.destProvisioned b
      ∧ fee = b.fee ∧ .nonce rec.id nonceValue ∈ log
      ∧ L.serializeMessage (SolanaMintBroadcaster.mintProposal w (recordToAction rec) b.net
          p.destProvisioned nonceValue).tx = some m
      ∧ p = { SolanaMintBroadcaster.mintProposal w (recordToAction rec) b.net p.destProvisioned
          nonceValue with messageB64 := m }

/-- A positive fee was pinned, or its write failed. -/
def FeeKept (rec : OutboxRecord) (log : List Fact) (fee : ℤ) : Prop :=
  rec.direction = .pegIn → 0 < fee → .feePinned rec.id fee ∈ log ∨ .feeLost rec.id ∈ log

/-- A proposal that goes to the signers. -/
def Proposed (rec : OutboxRecord) (log : List Fact) (p : Proposal) : Prop :=
  ∃ fee, Built L cfg rec log fee p ∧ FeeKept rec log fee

/-- The evidence behind an answer that reports a broadcast. -/
def Done (rec : OutboxRecord) (log : List Fact) (txid : Option String) : Prop :=
  ∃ x, txid = some x
    ∧ ((rec.direction.wire = .pegOut ∧ .pinned rec.id x ∈ log ∧ .releaseFound rec.id x ∈ log)
      ∨ (OrderRow rec ∧ .pinned rec.id x ∈ log ∧ .executed rec.id x ∈ log)
      ∨ (SolanaRow rec ∧ (.pinned rec.id x ∈ log
        ∨ (∃ m, .clean rec.id x ∈ log ∧ .parsed rec.id x m ∈ log ∧ m.memo = some rec.id)
        ∨ ∃ p, Proposed L cfg rec log (.mint p) ∧ x = N.signature (.mint p.tx)
          ∧ .sent rec.id p.tx ∈ log
          ∧ (.mintConfirmed rec.id x ∈ log ∨ .pollsOver rec.id x ∈ log))))

/-- An answer's positive fee is one that was quoted. -/
def FeeShown (rec : OutboxRecord) (log : List Fact) (fee : Option ℤ) : Prop :=
  ∀ f, fee = some f → 0 < f → ∃ chain flag b, Quoted cfg rec chain log flag b ∧ f = b.fee

/-- Why a mint's proposal was not built: a call threw, the quote is below the minimum, or the order
or the message cannot be packed. -/
def Unbuilt (rec : OutboxRecord) (log : List Fact) : Prop :=
  .callFailed rec.id ∈ log
    ∨ (∃ chain flag least, rec.remoteChain = some chain ∧ .provisioned chain rec.id flag ∈ log
      ∧ quotePegIn rec.amountMilliViz flag (pegInFeePolicyFor cfg.fees chain) = .belowMin least)
    ∨ (∃ flag b e, Quoted cfg rec .gram log flag b
      ∧ GramBroadcaster.orderHashFor L .mint rec.recipient b.net = .error e)
    ∨ ∃ w flag b nonceValue, cfg.solana = some w ∧ Quoted cfg rec .solana log flag b
      ∧ .nonce rec.id nonceValue ∈ log
      ∧ L.serializeMessage (SolanaMintBroadcaster.mintProposal w (recordToAction rec) b.net flag
          nonceValue).tx = none

/-- The answer that confirms a peg-in tells its fee, unless the proposal could not be built again. -/
def FeeTold (rec : OutboxRecord) (log : List Fact) (fee : Option ℤ) : Prop :=
  rec.direction = .pegIn → (∃ chain flag b, Quoted cfg rec chain log flag b ∧ fee = some b.fee)
    ∨ Unbuilt L cfg rec log

/-- What a handler of the row may call. -/
def HandlerMay (rec : OutboxRecord) (log : List Fact) : GatewayOp → Prop
  | .store (.get _) => True
  | .store .isPaused => True
  | .store (.setStatus id status patch) =>
    id = rec.id ∧ status = broadcast ∧ ¬ SolanaRow rec ∧ ∃ x, patch = { txid := some (some x) }
  | .store (.setFee id fee) =>
    id = rec.id ∧ 0 < fee ∧ ∃ chain flag b, Quoted cfg rec chain log flag b ∧ fee = b.fee
  | .store _ => False
  | .receive rec' => rec' = rec
  | .respond rec' result =>
    rec' = rec ∧ (result.broadcast = true → Done N L cfg rec log result.txid
      ∧ FeeTold L cfg rec log result.feeMilliViz) ∧ FeeShown cfg rec log result.feeMilliViz
  | .approve _ action proposal _ => action = recordToAction rec ∧ Proposed L cfg rec log proposal
  | .sendRawTransaction id tx =>
    id = rec.id ∧ ∃ p, Proposed L cfg rec log (.mint p) ∧ tx = p.tx
  | .broadcastTransaction id p =>
    id = rec.id ∧ p.memo = rec.id ∧ rec.direction.wire = .pegOut
      ∧ ∃ x, releaseTxId L p.toJson = some x ∧ .pinned rec.id x ∈ log
  | .setPin id p => id = rec.id ∧ p.memo = rec.id
  | .isDestinationProvisioned chain id recipient =>
    rec.direction = .pegIn ∧ rec.remoteChain = some chain ∧ id = rec.id ∧ recipient = rec.recipient
  | .nextOrderAddress id => id = rec.id
  | .orderExecuted id _ => id = rec.id
  | .getNonce id => id = rec.id
  | .getSignatureStatus id _ _ => id = rec.id
  | .getSignaturesForAddress id => id = rec.id
  | .getParsedTransaction id _ => id = rec.id
  | .getPin id => id = rec.id
  | .deletePin id => id = rec.id
  | .confirmReleaseByTxId id _ => id = rec.id
  | .liveSigners | .dateNow | .beforeDeadline => True
  | .buildReleaseProposal action _ => action = recordToAction rec
  | .activeAuthority _ => True
  | .post _ | .await _ | .getState _ | .setState _ => False

/-! ## Carrying a justification along a program -/

/-- Release bodies are remembered under the action they are for, and every answer under way was
given. -/
structure Wellformed (s : GatewayState) : Prop where
  pins : ∀ x ∈ s.pins, x.2.memo = x.1
  responses : ∀ x ∈ s.responses, .answered x.1 x.2 ∈ s.log

theorem log_run (o : GatewayOp) (i : GatewayInput) (s : GatewayState) :
    (o.run N L i s).1.log = s.log := by
  cases o
  case await =>
    simp only [GatewayOp.run]
    split
    · rfl
    · split <;> rfl
    · rfl
  case post | receive | sendRawTransaction | broadcastTransaction | setState =>
    simp only [GatewayOp.run]
    split <;> rfl
  all_goals rfl

theorem log_exec (o : GatewayOp) (i : GatewayInput) (s : GatewayState) :
    (o.exec N L i s).1.log = o.facts (o.run N L i s).2 ++ s.log := by
  rw [← log_run N L o i s]
  rfl

theorem answer_eq_ok {α : Type} {i : GatewayInput} {a b : α} :
    i.answer a = .ok b ↔ i.fails = none ∧ a = b := by
  unfold GatewayInput.answer
  cases i.fails with
  | none => simp
  | some e => simp

/-- What a log justifies, a longer one does. -/
def Grows (may : List Fact → GatewayOp → Prop) : Prop :=
  ∀ l l' o, l ⊆ l' → may l o → may l' o

def logContract (may : List Fact → GatewayOp → Prop) :
    Prog.Contract GatewayOp GatewayOp.Ans String GatewayState GatewayInput where
  exec o i s := o.exec N L i s
  rely s t := s.log ⊆ t.log
  rely_refl _ := List.Subset.refl _
  rely_trans := List.Subset.trans
  allowed _ _ s := Wellformed s
  point o s := may s.log o

variable (may : List Fact → GatewayOp → Prop) {α β : Type}

/-- From any log with `l` in it the program only calls what it may, ends in `Q` and throws in
`E`. -/
def Walks (Q : α → List Fact → Prop) (E : List Fact → Prop) (p : GatewayM α) (l : List Fact) :
    Prop :=
  ∀ s : GatewayState, l ⊆ s.log → Prog.Safe (logContract N L may)
    (fun a s => l ⊆ s.log ∧ Q a s.log) (fun _ s => l ⊆ s.log ∧ E s.log) p s

/-- The same, whatever it throws. -/
abbrev Along (Q : α → List Fact → Prop) (p : GatewayM α) (l : List Fact) : Prop :=
  Walks N L may Q (fun _ => True) p l

variable {N L may} {Q : α → List Fact → Prop} {R : β → List Fact → Prop} {E : List Fact → Prop}
  {p : GatewayM α} {l : List Fact}

theorem along_pure {a : α} (h : ∀ l', l ⊆ l' → Q a l') : Walks N L may Q E (pure a) l :=
  fun s hs => ⟨hs, h s.log hs⟩

theorem walks_throw {e : String} (h : ∀ l', l ⊆ l' → E l') : Walks N L may Q E (throw e) l :=
  fun s hs => ⟨hs, h s.log hs⟩

theorem along_throw {e : String} : Along N L may Q (throw e) l := walks_throw fun _ _ => trivial

theorem Walks.mono {Q' : α → List Fact → Prop} {E' : List Fact → Prop}
    (hp : Walks N L may Q E p l) (hQ : ∀ a l', l ⊆ l' → Q a l' → Q' a l')
    (hE : ∀ l', l ⊆ l' → E l' → E' l') : Walks N L may Q' E' p l :=
  fun s hs => (hp s hs).mono (fun a t ht => ⟨ht.1, hQ a t.log ht.1 ht.2⟩)
    fun _ t ht => ⟨ht.1, hE t.log ht.1 ht.2⟩

theorem Walks.imp {Q' : α → List Fact → Prop} (hp : Walks N L may Q E p l)
    (h : ∀ a l', l ⊆ l' → Q a l' → Q' a l') : Walks N L may Q' E p l :=
  hp.mono h fun _ _ h => h

theorem Walks.along (hp : Walks N L may Q E p l) : Along N L may Q p l :=
  hp.mono (fun _ _ _ h => h) fun _ _ _ => trivial

theorem along_bind {f : α → GatewayM β} (hp : Walks N L may Q E p l)
    (hf : ∀ a l', l ⊆ l' → Q a l' → Walks N L may R E (f a) l') :
    Walks N L may R E (p >>= f) l := by
  intro s hs
  refine Prog.safe_bind ((hp s hs).mono (fun a t ht => ?_) fun _ _ => id)
  exact (hf a t.log ht.1 ht.2 t (List.Subset.refl _)).mono
    (fun _ _ hu => ⟨List.Subset.trans ht.1 hu.1, hu.2⟩)
    fun _ _ hu => ⟨List.Subset.trans ht.1 hu.1, hu.2⟩

/-- What every log past `l` adds to a justification. -/
theorem Walks.strengthen {may' : List Fact → GatewayOp → Prop} (hp : Walks N L may Q E p l)
    (h : ∀ l' o, l ⊆ l' → may l' o → may' l' o) : Walks N L may' Q E p l := by
  intro s hs
  have key : ∀ {p : GatewayM α} {s : GatewayState}, l ⊆ s.log →
      Prog.Safe (logContract N L may) (fun a s => l ⊆ s.log ∧ Q a s.log)
        (fun _ s => l ⊆ s.log ∧ E s.log) p s →
      Prog.Safe (logContract N L may') (fun a s => l ⊆ s.log ∧ Q a s.log)
        (fun _ s => l ⊆ s.log ∧ E s.log) p s := by
    intro p
    induction p with
    | ret a => exact fun _ h => h
    | throw e => exact fun _ h => h
    | call o k ih =>
      intro s hs hsafe t ht
      obtain ⟨hpoint, hnext⟩ := hsafe t ht
      have hlt := List.Subset.trans hs ht
      refine ⟨h _ _ hlt hpoint, fun i hi => ih _ ?_ (hnext i hi)⟩
      refine List.Subset.trans hlt ?_
      change t.log ⊆ (o.exec N L i t).1.log
      rw [log_exec]
      exact List.subset_append_right _ _
  exact key hs (hp s hs)

theorem along_catch {F : List Fact → Prop} {h : String → GatewayM α} (hp : Walks N L may Q F p l)
    (hh : ∀ e l', l ⊆ l' → F l' → Walks N L may Q E (h e) l') :
    Walks N L may Q E (tryCatch p h) l := by
  intro s hs
  refine Prog.safe_catch ((hp s hs).mono (fun _ _ => id) fun e t ht => ?_)
  exact (hh e t.log ht.1 ht.2 t (List.Subset.refl _)).mono
    (fun _ _ hu => ⟨List.Subset.trans ht.1 hu.1, hu.2⟩)
    fun _ _ hu => ⟨List.Subset.trans ht.1 hu.1, hu.2⟩

/-- One call: it may be made, and what is known of its outcome is its facts and where an answer
came from. -/
theorem walks_ask (hmay : Grows may) {o : GatewayOp} {Q : o.Ans → List Fact → Prop} (ho : may l o)
    (hQ : ∀ i t a, Wellformed t → (o.run N L i t).2 = .ok a →
      ∀ l', t.log ⊆ l' → o.facts (.ok a) ⊆ l' → Q a l')
    (hE : ∀ e l', o.facts (.error e) ⊆ l' → E l') :
    Walks N L may Q E (Prog.ask o) l := by
  intro s hs
  have hgrows : ∀ i t, s.log ⊆ t.log → t.log ⊆ (o.exec N L i t).1.log
      ∧ l ⊆ (o.exec N L i t).1.log := by
    intro i t ht
    have hsub : t.log ⊆ (o.exec N L i t).1.log := by
      rw [log_exec]
      exact List.subset_append_right _ _
    exact ⟨hsub, List.Subset.trans hs (List.Subset.trans ht hsub)⟩
  have hfacts : ∀ i t r, (o.exec N L i t).2 = r → o.facts r ⊆ (o.exec N L i t).1.log := by
    rintro i t r rfl
    rw [log_exec]
    exact List.subset_append_left _ _
  refine Prog.safe_ask (fun t ht => hmay _ _ _ (List.Subset.trans hs ht) ho)
    (fun t ht i hi a ha => ⟨(hgrows i t ht).2, ?_⟩)
    fun t ht i _ e he => ⟨(hgrows i t ht).2, hE e _ (hfacts i t _ he)⟩
  exact hQ i t a hi ha _ (hgrows i t ht).1 (hfacts i t _ ha)

theorem along_ask (hmay : Grows may) {o : GatewayOp} {Q : o.Ans → List Fact → Prop} (ho : may l o)
    (hQ : ∀ i t a, Wellformed t → (o.run N L i t).2 = .ok a →
      ∀ l', t.log ⊆ l' → o.facts (.ok a) ⊆ l' → Q a l') :
    Along N L may Q (Prog.ask o) l := walks_ask hmay ho hQ fun _ _ _ => trivial

/-- One call whose outcome only leaves its facts. -/
theorem walks_call (hmay : Grows may) {o : GatewayOp} (ho : may l o)
    (hE : ∀ e l', o.facts (.error e) ⊆ l' → E l') :
    Walks N L may (fun a l' => o.facts (.ok a) ⊆ l') E (Prog.ask o) l :=
  walks_ask hmay ho (fun _ _ _ _ _ _ _ h => h) hE

theorem along_call (hmay : Grows may) {o : GatewayOp} (ho : may l o) :
    Along N L may (fun a l' => o.facts (.ok a) ⊆ l') (Prog.ask o) l :=
  walks_call hmay ho fun _ _ _ => trivial

end Provenance

end VizGateway
