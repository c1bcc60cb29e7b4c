import VizGateway.Sample

/-!
# Source validation is sound

An accepted action is the canonical action of a source event that the operator's own nodes show
final. Events are named by the exact ids their chains give them, so what an event determines, it
determines for every id a coordinator may try, at every time.
-/

namespace VizGateway

open Checks Text

/-- A source event, by the ids its chain gives it. -/
inductive SourceEvent
  | transfer (trxId : String) (opIndex : ℕ)
  | burn (txHash : String)
  | deposit (signature ata : String)
  deriving DecidableEq, Repr

/-- The final transactions of the three chains, each under its own id. -/
structure Ledger where
  vizTx : String → Option (List VizOp)
  gramTx : String → Option GramTx
  solanaTx : String → Option ParsedTx

/-- The nodes return a transaction only for its exact id. -/
structure Truthful (L : Libs) (G : Ledger) (view : NodeView) : Prop where
  viz : ∀ {trxId ops}, view.viz.Final L trxId ops → G.vizTx trxId = some ops
  gram : ∀ {txs tx}, view.gram.getTransactions = .ok txs → tx ∈ txs → G.gramTx tx.hash = some tx
  solana : ∀ {sig tx}, view.solana.getParsedTransaction sig = .ok (some tx) →
    G.solanaTx sig = some tx

/-- The event is final on the nodes and determines the action. -/
inductive Confirms (L : Libs) (deps : SourceValidatorDeps) (view : NodeView) :
    SourceEvent → CanonicalAction → Prop
  | transfer {trxId opIndex blockNum ops d} (hfin : view.viz.Final L trxId ops)
      (hd : depositFromOps L deps.reader trxId opIndex blockNum ops = .ok d)
      (hv : d.destinationValid = true) :
      Confirms L deps view (.transfer trxId opIndex) (canonicalPegIn L.digestOf d)
  | burn {b} (hfin : view.gram.Final L b) :
      Confirms L deps view (.burn b.sourceId) (canonicalPegOut L.digestOf b)
  | deposit {action : CanonicalAction} {ata dep}
      (hata : L.depositAta deps.depositProgramId action.recipient deps.wvizMint = some ata)
      (hfin : view.solana.Final action.id ata dep) :
      Confirms L deps view (.deposit action.id ata)
        (canonicalPegOut L.digestOf (solanaBurn action ata dep))

/-- An action whose id has none of the child suffixes. -/
def NoSuffix (id : String) : Prop :=
  endsWith id feeSweepSuffix = false ∧ endsWith id refundSuffix = false
    ∧ endsWith id returnSuffix = false

/-- The actions that stand for a source event of their own. -/
def IsSourceAction (a : CanonicalAction) : Prop :=
  a.direction = .known .pegIn ∨ (a.direction = .known .pegOut ∧ NoSuffix a.id)

variable {L : Libs} {deps : SourceValidatorDeps} {G : Ledger} {view view' : NodeView}
  {a a' : CanonicalAction} {hint : Option ℕ} {e : SourceEvent}

/-! ## What an event determines -/

/-- One transfer op has one deposit up to the block it was served from. -/
theorem depositFromOps_unique {R : VizReader} {trxId : String} {opIndex m n : ℕ}
    {ops : List VizOp} {d d' : VizDeposit} (h : depositFromOps L R trxId opIndex m ops = .ok d)
    (h' : depositFromOps L R trxId opIndex n ops = .ok d') : d' = { d with blockNum := n } := by
  obtain ⟨op, chain, amount, hop, -, hchain, hamount, rfl⟩ := depositFromOps_eq_ok.1 h
  obtain ⟨op', chain', amount', hop', -, hchain', hamount', rfl⟩ := depositFromOps_eq_ok.1 h'
  rw [hop, Option.some.injEq] at hop'
  subst hop'
  rw [hchain, Option.some.injEq] at hchain'
  rw [hamount, Option.some.injEq] at hamount'
  subst hchain' hamount'
  exact depositOf_blockNum ..

/-- One burn transaction has one burn up to the height it was read at. -/
theorem burnFromTx_unique {tx : GramTx} {c c' : ℤ} {m n : ℕ} {b b' : RemoteBurn}
    (h : burnFromTx L tx c m = .ok (some b)) (h' : burnFromTx L tx c' n = .ok (some b')) :
    b' = { b with height := n } := by
  obtain ⟨-, -, body, parsed, hbody, hp, rfl⟩ := burnFromTx_eq_some h
  obtain ⟨-, -, body', parsed', hbody', hp', rfl⟩ := burnFromTx_eq_some h'
  rw [hbody, Option.some.injEq] at hbody'
  subst hbody'
  rw [hp, Except.ok.injEq, Option.some.injEq] at hp'
  subst hp'
  rfl

/-- What truthful nodes say of a deposit differs in the serving block at most. -/
theorem getDeposit_unique {R : VizReader} {trxId : String} {opIndex : ℕ} {hint' : Option ℕ}
    {d d' : VizDeposit} (ht : Truthful L G view) (ht' : Truthful L G view')
    (h : getDeposit L R view.viz trxId opIndex hint = .ok (some d))
    (h' : getDeposit L R view'.viz trxId opIndex hint' = .ok (some d')) :
    ∃ n, d' = { d with blockNum := n } := by
  obtain ⟨m, ops, hfin, hd⟩ := getDeposit_eq_some h
  obtain ⟨n, ops', hfin', hd'⟩ := getDeposit_eq_some h'
  have hops := (ht.viz hfin).symm.trans (ht'.viz hfin')
  rw [Option.some.injEq] at hops
  subst hops
  exact ⟨n, depositFromOps_unique hd hd'⟩

/-- What truthful nodes say of a burn differs in the height at most. -/
theorem Final.burn_unique {b b' : RemoteBurn} (ht : Truthful L G view) (ht' : Truthful L G view')
    (h : view.gram.Final L b) (h' : view'.gram.Final L b') (hid : b.sourceId = b'.sourceId) :
    ∃ n, b' = { b with height := n } := by
  obtain ⟨txs, tx, height, htxs, hmem, hhash, hb⟩ := h
  obtain ⟨txs', tx', height', htxs', hmem', hhash', hb'⟩ := h'
  have htx := ht.gram htxs hmem
  have htx' := ht'.gram htxs' hmem'
  rw [hhash', ← hid, ← hhash, htx, Option.some.injEq] at htx'
  subst htx'
  exact ⟨_, burnFromTx_unique hb hb'⟩

theorem getBurn_unique {id : String} {b b' : RemoteBurn} (ht : Truthful L G view)
    (ht' : Truthful L G view') (h : getBurn L view.gram id = .ok (some b))
    (h' : getBurn L view'.gram id = .ok (some b')) : ∃ n, b' = { b with height := n } := by
  obtain ⟨hfin, hid⟩ := getBurn_eq_some h
  obtain ⟨hfin', hid'⟩ := getBurn_eq_some h'
  exact Final.burn_unique ht ht' hfin hfin' (hid.trans hid'.symm)

/-- Deposit-address derivation is injective in the account name. -/
def AtaInjective (L : Libs) : Prop :=
  ∀ {programId mint x y ata : String}, L.depositAta programId x mint = some ata →
    L.depositAta programId y mint = some ata → x = y

/-- An event determines its action across all truthful views. -/
theorem Confirms.unique (hata : AtaInjective L) (ht : Truthful L G view)
    (ht' : Truthful L G view') (h : Confirms L deps view e a) (h' : Confirms L deps view' e a') :
    a' = a := by
  cases h with
  | transfer hfin hd hv =>
    cases h' with
    | transfer hfin' hd' hv' =>
      have hops := (ht.viz hfin).symm.trans (ht'.viz hfin')
      rw [Option.some.injEq] at hops
      subst hops
      rw [depositFromOps_unique hd hd']
      rfl
  | @burn b hfin =>
    generalize hid : b.sourceId = id at h'
    cases h' with
    | @burn b' hfin' =>
      obtain ⟨n, rfl⟩ := Final.burn_unique ht ht' hfin hfin' hid
      rfl
  | @deposit action ata dep hat hfin =>
    generalize hid : action.id = id at h'
    cases h' with
    | @deposit action' _ dep' hat' hfin' =>
      have hrec := hata hat hat'
      obtain ⟨tx, p, htx, -, -, hp, rfl⟩ := hfin
      obtain ⟨tx', p', htx', -, -, hp', rfl⟩ := hfin'
      have heq := ht.solana htx
      rw [hid, ht'.solana htx', Option.some.injEq] at heq
      subst heq
      rw [hp, Except.ok.injEq, Option.some.injEq] at hp'
      subst hp'
      simp [canonicalPegOut, pegOutBody, solanaBurn, hrec, hid]

/-! ## What acceptance confirms -/

theorem confirms_of_validatePegIn (h : validatePegIn L deps view a hint = .ok ()) :
    ∃ e, Confirms L deps view e a := by
  obtain ⟨key, d, -, hd, hv, rfl⟩ := validatePegIn_eq_ok.1 h
  obtain ⟨blockNum, ops, hfin, hops⟩ := getDeposit_eq_some hd
  exact ⟨_, .transfer hfin hops hv⟩

theorem confirms_of_validateSolanaPegOut (h : validateSolanaPegOut L deps view a = .ok ()) :
    ∃ e, Confirms L deps view e a := by
  obtain ⟨-, ata, dep, hata, hdep, ha⟩ := validateSolanaPegOut_eq_ok.1 h
  have hconf : Confirms L deps view _ _ := .deposit hata (getDepositTransfer_eq_some hdep)
  rw [← ha] at hconf
  exact ⟨_, hconf⟩

theorem confirms_of_validateTonPegOut (h : validateTonPegOut L view a = .ok ()) :
    ∃ e, Confirms L deps view e a := by
  obtain ⟨b, hb, rfl⟩ := validateTonPegOut_eq_ok.1 h
  exact ⟨_, .burn (getBurn_eq_some hb).1⟩

theorem confirms_of_validateAction (h : validateAction L deps view a hint = .ok ())
    (ha : IsSourceAction a) : ∃ e, Confirms L deps view e a := by
  rw [validateAction_eq_ok] at h
  unfold validateActionInner at h
  rcases ha with hin | ⟨hout, hfee, hrefund, hreturn⟩
  · rw [if_pos hin] at h
    exact confirms_of_validatePegIn h
  · rw [hout, hfee, hrefund, hreturn] at h
    simp only [Wire.known.injEq, reduceCtorEq, Bool.false_eq_true, ↓reduceIte] at h
    split_ifs at h
    · exact confirms_of_validateSolanaPegOut h
    · exact confirms_of_validateTonPegOut h

theorem Confirms.destination (h : Confirms L deps view e a)
    (hin : a.direction = .known .pegIn) :
    ∃ chain, a.remoteChain = some (.known chain) ∧ isValidRemoteAddress chain a.recipient = true := by
  cases h with
  | @transfer _ _ _ _ d hfin hd hv => exact ⟨d.remoteChain, rfl, depositFromOps_destination hd hv⟩
  | burn hfin => simp [canonicalPegOut] at hin
  | deposit hata hfin => simp [canonicalPegOut] at hin

/-- An accepted mint or burn release is the canonical action of a final source event; a mint has a
valid destination; and no other action is accepted for that event, by whatever id, at whatever
time. -/
theorem validateAction_sound (hata : AtaInjective L) (ht : Truthful L G view)
    (h : validateAction L deps view a hint = .ok ()) (ha : IsSourceAction a) :
    ∃ e, Confirms L deps view e a
      ∧ (a.direction = .known .pegIn → ∃ chain, a.remoteChain = some (.known chain)
          ∧ isValidRemoteAddress chain a.recipient = true)
      ∧ ∀ {view' a' hint'}, Truthful L G view' →
          validateAction L deps view' a' hint' = .ok () → IsSourceAction a' →
          Confirms L deps view' e a' → a' = a := by
  obtain ⟨e, he⟩ := confirms_of_validateAction h ha
  exact ⟨e, he, he.destination, fun ht' _ _ he' => he.unique hata ht ht' he'⟩

/-! ## On the sample nodes -/

/-- The transactions behind the sample deposit and burn. -/
def sampleLedger : Ledger where
  vizTx := fun id => if id = sampleTrxId then some [sampleTransfer] else none
  gramTx := fun hash => if hash = sampleBurnHash then some sampleGramTx else none
  solanaTx := fun _ => none

theorem sampleView_truthful (accounts : List String) :
    Truthful sampleLibs sampleLedger (sampleView accounts) where
  viz := by
    intro trxId ops hfin
    cases hfin with
    | history block_num lib h hlib hle =>
      simp only [historyTx, sampleView] at h
      split_ifs at h with hid
      simp only [Option.map_some, Option.some.injEq, Prod.mk.injEq] at h
      simp [sampleLedger, hid, h.2.2]
    | blockLog n _ _ _ _ hn => simp [sampleView] at hn
  gram := by
    intro txs tx htxs hmem
    simp only [sampleView, Except.ok.injEq] at htxs
    subst htxs
    rw [List.mem_singleton.1 hmem, sampleLedger]
    rfl
  solana := by
    intro sig tx h
    simp [sampleView] at h

theorem sampleLibs_ataInjective : AtaInjective sampleLibs := by
  intro programId mint x y ata hx hy
  simp only [sampleLibs] at hx hy
  split_ifs at hx hy
  rw [← hx, Option.some.injEq] at hy
  have h' := congrArg String.toList hy
  rw [String.toList_append, String.toList_append, List.append_cancel_left_eq] at h'
  exact (String.toList_inj.1 h').symm

/-- The mint of the sample deposit is accepted, and is the one action the deposit determines. -/
theorem validateAction_sound_sample :
    ∃ e, Confirms sampleLibs sampleDeps (sampleView [])
        e (canonicalPegIn sampleLibs.digestOf sampleDeposit)
      ∧ ∀ {view' a' hint'}, Truthful sampleLibs sampleLedger view' →
          validateAction sampleLibs sampleDeps view' a' hint' = .ok () → IsSourceAction a' →
          Confirms sampleLibs sampleDeps view' e a' →
          a' = canonicalPegIn sampleLibs.digestOf sampleDeposit := by
  have hacc : validateAction sampleLibs sampleDeps (sampleView [])
      (canonicalPegIn sampleLibs.digestOf sampleDeposit) none = .ok () := by decide +kernel
  obtain ⟨e, he, -, huniq⟩ := validateAction_sound sampleLibs_ataInjective
    (sampleView_truthful []) hacc (.inl rfl)
  exact ⟨e, he, huniq⟩

end VizGateway
