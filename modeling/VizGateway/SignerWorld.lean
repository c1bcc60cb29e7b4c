import VizGateway.Signer
import VizGateway.Lib.Runs

/-!
# One signer over time

Approve requests, landings and the chain's clock, in any order. A release can land while the head
time has not passed its expiration. What the signer authorised is kept beside its ledger, so that
the two can be compared.
-/

namespace VizGateway

open Checks Text

/-! ## Expirations -/

/-- The form of a chain time, without a zone. -/
def isGrapheneTime (s : String) : Bool :=
  s.toList.length == 19 && (s.toList.zip "0000-00-00T00:00:00".toList).all fun c =>
    if c.2 = '0' then c.1.isDigit else c.1 == c.2

def hasGrapheneTime (p : JsonObject) : Prop :=
  ∃ s, p.get "expiration" = some (.str s) ∧ isGrapheneTime s = true

/-- The expiration the chain reads off the bytes of a transaction. -/
structure ReleaseChain (L : Libs) where
  expiryOf : List UInt8 → ℤ
  /-- The serializer writes the time it is given, cut to seconds. -/
  expiryOf_le : ∀ {p : JsonObject} {s : String} {bytes : List UInt8} {ms : ℤ},
    p.get "expiration" = some (.str s) → isGrapheneTime s = true →
    L.toBuffer (buildReleaseTx p) = some bytes → L.dateParse (s ++ "Z") = some ms →
    expiryOf bytes ≤ ms

/-! ## States and events -/

structure Authorised where
  actionId : String
  effect : Effect
  payout : ℤ
  deriving DecidableEq, Repr

structure SignerWorld where
  ledger : SignedProposals
  landed : List (List UInt8)
  headMs : ℤ
  authorised : List Authorised

inductive SignerEvent
  | approve (view : RequestView) (req : ApproveRequest)
  | land (bytes : List UInt8)
  | advance (headMs : ℤ)

/-- What an approved request pays: the net of a mint, the amount of anything else. -/
def payoutOf (cfg : SignerConfig) (action : CanonicalAction) (p : JsonObject) : ℤ :=
  if action.direction = .known .pegIn then
    derivedNet cfg.deps.fees (if isSolanaMintProposal p then .solana else .gram)
      action.amountMilliViz (jsTruthy (p.get "destProvisioned"))
  else action.amountMilliViz

def authorisedBy (cfg : SignerConfig) (req : ApproveRequest) (r : Except String Approval) :
    List Authorised :=
  match r, actionFromWire req.action with
  | .ok a, some action =>
    [{ actionId := a.actionId, effect := a.effect, payout := payoutOf cfg action req.proposal }]
  | _, _ => []

section

variable {L : Libs} (R : ReleaseChain L) (cfg : SignerConfig)

def SignerWorld.step (s : SignerWorld) : SignerEvent → SignerWorld
  | .approve view req =>
    { s with
      ledger := (VizGateway.approve L cfg view s.ledger req).2
      authorised := authorisedBy cfg req (VizGateway.approve L cfg view s.ledger req).1
        ++ s.authorised }
  | .land bytes =>
    if s.headMs ≤ R.expiryOf bytes then { s with landed := bytes :: s.landed } else s
  | .advance headMs => { s with headMs := max s.headMs headMs }

/-- Before the first request. -/
def SignerWorld.init (landed : List (List UInt8)) (headMs : ℤ) : SignerWorld where
  ledger := fun _ => none
  landed := landed
  headMs := headMs
  authorised := []

/-- A release that never landed and never will. -/
def SignerWorld.Dead (s : SignerWorld) (bytes : List UInt8) : Prop :=
  bytes ∉ s.landed ∧ R.expiryOf bytes < s.headMs

/-- The ledger key of a release. -/
def releaseKey (L : Libs) (bytes : List UInt8) : String := vizKeyPrefix ++ L.trxHash bytes

/-- What the node lets through as expired is expired, and what landed it reports. -/
def SignerWorld.Reveals (L : Libs) (s : SignerWorld) (view : RequestView)
    (prev : SignedProposal) : Prop :=
  ∀ ms, headBlockTimeMs L view.nodes.viz = .ok ms → prev.expiresAtMs + vizExpiryMarginMs < ms →
    prev.expiresAtMs < s.headMs
      ∧ ∀ bytes ∈ s.landed, prev.key = releaseKey L bytes →
          releaseLanded view.nodes.viz (prevTxid prev) = true

/-- The proposal has the shape its direction is signed by. -/
def ShapeFits (action : CanonicalAction) (p : JsonObject) : Prop :=
  (action.direction = .known .pegOut → VizShaped p)
    ∧ (action.direction = .known .gramReturn → isSolanaMintProposal p = false)

/-- A request for the id is keyed by the shape it is signed by, carries a chain time if that is a
release's, and the node reveals the release it would replace. -/
def RequestMeets (L : Libs) (id : String) (s : SignerWorld) : SignerEvent → Prop
  | .approve view req => ∀ action row, actionFromWire req.action = some action → action.id = id →
      proposalKey L req.proposal = .ok row →
      ShapeFits action req.proposal ∧ (VizShaped req.proposal → hasGrapheneTime req.proposal)
        ∧ ∀ prev, s.ledger id = some prev → prev.key ≠ row.key → s.Reveals L view prev
  | _ => True

/-! ## The ledger and what was authorised -/

/-- The key stands for the effect. -/
def EffectKeyed (L : Libs) (key : String) : Effect → Prop
  | .vizRelease bytes => key = releaseKey L bytes
  | .gramOrder orderAddr _ =>
    ∃ s, key = "gram-order:" ++ s ∧ L.addressParse s = some orderAddr
  | .solanaMint messageB64 => key = "solana-msg:" ++ L.digestOf messageB64

/-- A release's row outlives the release, and an authorised effect is the row's or dead. -/
structure Keyed (s : SignerWorld) (id : String) : Prop where
  expiry : ∀ {row bytes}, s.ledger id = some row → row.key = releaseKey L bytes →
    R.expiryOf bytes ≤ row.expiresAtMs
  effect : ∀ {e}, e ∈ s.authorised → e.actionId = id → ∃ row, s.ledger id = some row
    ∧ (EffectKeyed L row.key e.effect ∨ ∃ bytes, e.effect = .vizRelease bytes ∧ s.Dead R bytes)

end

section

variable {L : Libs} {R : ReleaseChain L} {cfg : SignerConfig} {s : SignerWorld}
  {view : RequestView} {req : ApproveRequest} {p : JsonObject} {row : SignedProposal} {id : String}
  {effect : Effect} {action : CanonicalAction} {hint : Option ℕ} {bytes : List UInt8}

theorem keyed_init (landed : List (List UInt8)) (headMs : ℤ) :
    Keyed R (SignerWorld.init landed headMs) id where
  expiry := by simp [SignerWorld.init]
  effect := by simp [SignerWorld.init]

/-- The dead stay dead. -/
theorem SignerWorld.Dead.step (h : s.Dead R bytes) (e : SignerEvent) :
    (s.step R cfg e).Dead R bytes := by
  obtain ⟨hland, hexp⟩ := h
  cases e with
  | approve view req => exact ⟨hland, hexp⟩
  | land b =>
    unfold SignerWorld.step
    dsimp only
    split_ifs with hb
    · refine ⟨?_, hexp⟩
      rw [List.mem_cons, not_or]
      refine ⟨?_, hland⟩
      rintro rfl
      omega
    · exact ⟨hland, hexp⟩
  | advance ms =>
    refine ⟨hland, ?_⟩
    change R.expiryOf bytes < max s.headMs ms
    omega

/-! ## Keys and effects -/

theorem shape_of_vizKey (h : proposalKey L p = .ok row)
    (hviz : startsWith row.key vizKeyPrefix = true) : VizShaped p := by
  obtain ⟨r, hr⟩ := startsWith_iff.1 hviz
  by_cases hsol : isSolanaMintProposal p = true
  · obtain ⟨m, -, rfl⟩ := proposalKey_solana hsol h
    exact absurd hr (append_ne_append (c := 's') (d := 'v') rfl rfl (by decide) _ _)
  · rw [Bool.not_eq_true] at hsol
    by_cases hgram : isGramMintProposal p = true
    · rw [proposalKey_gram hsol hgram h] at hr
      exact absurd hr (append_ne_append (c := 'g') (d := 'v') rfl rfl (by decide) _ _)
    · rw [Bool.not_eq_true] at hgram
      exact ⟨hsol, hgram⟩

/-- A row written as a release's expires no sooner than the release. -/
theorem expiry_of_proposalKey (htrx : Function.Injective L.trxHash)
    (h : proposalKey L p = .ok row) (hkey : row.key = releaseKey L bytes)
    (htime : VizShaped p → hasGrapheneTime p) : R.expiryOf bytes ≤ row.expiresAtMs := by
  have hshape := shape_of_vizKey h (by rw [hkey, releaseKey, startsWith_append])
  obtain ⟨txid, htx, hk, hms⟩ := proposalKey_viz hshape h
  rw [hkey, releaseKey] at hk
  have htxid := append_left_cancel hk
  unfold releaseTxId computeTrxId at htx
  obtain ⟨b, hb, hbt⟩ := Option.map_eq_some_iff.1 htx
  have hbb := htrx (htxid.trans hbt.symm)
  subst hbb
  obtain ⟨t, ht, hgt⟩ := htime hshape
  rw [ht] at hms
  exact R.expiryOf_le ht hgt hb hms

theorem shapeFits_of_vizShaped (h : VizShaped p) :
    ShapeFits action p :=
  ⟨fun _ => h, fun _ => h.1⟩

/-- A typed release proposal has no other shape. -/
theorem vizShaped_toJson (p : VizReleaseProposal) : VizShaped p.toJson := ⟨rfl, rfl⟩

/-- A proposal that fits its direction is signed as what it is keyed as. -/
theorem effectKeyed_of_route (h : proposalKey L p = .ok row) (hfits : ShapeFits action p)
    (hr : routeApproval L cfg view action p hint = .ok effect) : EffectKeyed L row.key effect := by
  rcases routeApproval_eq_ok hr with
    ⟨hd, hg, hret⟩ | ⟨hd, hv⟩ | ⟨-, hs, -, hm⟩ | ⟨-, hs, hg, -, hm⟩
  · obtain ⟨-, -, toAddr, -, ho⟩ := approveGramReturn_eq_ok hret
    obtain ⟨-, s, o, -, -, hs, haddr, rfl⟩ := approveOrder_eq_ok ho
    rw [proposalKey_gram (hfits.2 hd) hg h, hs]
    exact ⟨s, rfl, haddr⟩
  · obtain ⟨-, -, -, -, -, -, b, hb, rfl⟩ := signVizRelease_eq_ok hv
    obtain ⟨txid, htx, hk, -⟩ := proposalKey_viz (hfits.1 hd) h
    unfold releaseTxId computeTrxId at htx
    rw [hb, Option.map_some, Option.some.injEq] at htx
    exact hk.trans (by rw [releaseKey, htx])
  · obtain ⟨-, -, -, -, m, -, hmsg, rfl⟩ := approveSolanaMint_eq_ok hm
    obtain ⟨m', hm', rfl⟩ := proposalKey_solana hs h
    rw [hmsg, Option.some.injEq, Json.str.injEq] at hm'
    subst hm'
    rfl
  · obtain ⟨-, -, -, -, toAddr, amount, -, -, ho⟩ := approveGramMint_eq_ok hm
    obtain ⟨-, s, o, -, -, ho', haddr, rfl⟩ := approveOrder_eq_ok ho
    rw [proposalKey_gram hs hg h, ho']
    exact ⟨s, rfl, haddr⟩

/-- Only a release has a release's key. -/
theorem EffectKeyed.release {key : String} (h : EffectKeyed L key effect)
    (hviz : startsWith key vizKeyPrefix = true) :
    ∃ bytes, effect = .vizRelease bytes ∧ key = releaseKey L bytes := by
  obtain ⟨r, hr⟩ := startsWith_iff.1 hviz
  cases effect with
  | vizRelease bytes => exact ⟨bytes, rfl, h⟩
  | gramOrder orderAddr body =>
    obtain ⟨s, hs, -⟩ := h
    exact absurd (hr.symm.trans hs) (append_ne_append (c := 'v') (d := 'g') rfl rfl (by decide) _ _)
  | solanaMint m =>
    exact absurd (hr.symm.trans h) (append_ne_append (c := 'v') (d := 's') rfl rfl (by decide) _ _)

theorem releaseKey_injective (htrx : Function.Injective L.trxHash) :
    Function.Injective (releaseKey L) :=
  fun _ _ h => htrx (append_left_cancel h)

/-- What was authorised under a replaceable row is dead. -/
theorem dead_of_replaceable (hs : Keyed R s id) {prev : SignedProposal}
    (hprev : s.ledger id = some prev) (hrep : Replaceable L view.nodes.viz prev row)
    (hrev : s.Reveals L view prev) {e : Authorised} (he : e ∈ s.authorised)
    (hid : e.actionId = id) : ∃ bytes, e.effect = .vizRelease bytes ∧ s.Dead R bytes := by
  obtain ⟨r, hr, hkeyed | hdead⟩ := hs.effect he hid
  · rw [hprev, Option.some.injEq] at hr
    subst hr
    obtain ⟨bytes, heff, hkey⟩ := hkeyed.release hrep.prevViz
    obtain ⟨ms, hms, hlt⟩ := hrep.expired
    obtain ⟨hhead, hland⟩ := hrev ms hms hlt
    have hexp := hs.expiry hprev hkey
    refine ⟨bytes, heff, fun hmem => ?_, by omega⟩
    have := hland bytes hmem hkey
    rw [hrep.notLanded] at this
    exact Bool.false_ne_true this
  · exact hdead

/-! ## One step -/

theorem approve_ledger (L : Libs) (cfg : SignerConfig) (view : RequestView) (m : SignedProposals)
    (req : ApproveRequest) :
    ((approve L cfg view m req).2 = m ∧ ∀ a, (approve L cfg view m req).1 ≠ .ok a)
      ∨ ∃ action row, actionFromWire req.action = some action
          ∧ proposalKey L req.proposal = .ok row
          ∧ runGate L view.nodes.viz m action.id row = .ok (approve L cfg view m req).2 := by
  generalize h : approve L cfg view m req = r
  unfold approve at h
  split at h
  · subst h
    exact .inl ⟨rfl, by simp⟩
  · split at h
    · subst h
      exact .inl ⟨rfl, by simp⟩
    · next action haction =>
      split at h
      · subst h
        exact .inl ⟨rfl, by simp⟩
      · next m' hm' =>
        unfold assertNotReplay at hm'
        rw [bind_eq_ok] at hm'
        obtain ⟨row, hrow, hgate⟩ := hm'
        subst h
        exact .inr ⟨action, row, haction, hrow, hgate⟩

/-- The entry an approved request adds. -/
theorem mem_authorisedBy {r : Except String Approval} {e : Authorised}
    (h : e ∈ authorisedBy cfg req r) :
    ∃ a action, r = .ok a ∧ actionFromWire req.action = some action ∧ e.actionId = a.actionId
      ∧ e.effect = a.effect ∧ e.payout = payoutOf cfg action req.proposal := by
  unfold authorisedBy at h
  split at h
  · next a action haction =>
    rw [List.mem_singleton] at h
    subst h
    exact ⟨a, action, rfl, haction, rfl, rfl, rfl⟩
  · simp at h

/-- The id's row is kept, and what is added is keyed by it. -/
theorem Keyed.keep {s' : SignerWorld} {new : List Authorised} (hs : Keyed R s id)
    (hl : s'.ledger id = s.ledger id) (ha : s'.authorised = new ++ s.authorised)
    (hnew : ∀ {e}, e ∈ new → e.actionId = id →
      ∃ row, s'.ledger id = some row ∧ EffectKeyed L row.key e.effect)
    (hdead : ∀ {bytes}, s.Dead R bytes → s'.Dead R bytes) : Keyed R s' id where
  expiry := by
    rw [hl]
    exact hs.expiry
  effect := by
    intro e he hid
    rw [ha, List.mem_append] at he
    rcases he with he | he
    · obtain ⟨row, hrow, hk⟩ := hnew he hid
      exact ⟨row, hrow, .inl hk⟩
    · obtain ⟨row, hrow, hk | ⟨bytes, heff, hd⟩⟩ := hs.effect he hid
      · exact ⟨row, hl.trans hrow, .inl hk⟩
      · exact ⟨row, hl.trans hrow, .inr ⟨bytes, heff, hdead hd⟩⟩

/-- The id's row is written, and all that was authorised for the id before is dead. -/
theorem Keyed.write {s' : SignerWorld} {new : List Authorised} (hl : s'.ledger id = some row)
    (hexp : ∀ {bytes}, row.key = releaseKey L bytes → R.expiryOf bytes ≤ row.expiresAtMs)
    (ha : s'.authorised = new ++ s.authorised)
    (hnew : ∀ {e}, e ∈ new → e.actionId = id →
      ∃ row, s'.ledger id = some row ∧ EffectKeyed L row.key e.effect)
    (hold : ∀ {e}, e ∈ s.authorised → e.actionId = id →
      ∃ bytes, e.effect = .vizRelease bytes ∧ s'.Dead R bytes) : Keyed R s' id where
  expiry := by
    intro r bytes hr hk
    rw [hl, Option.some.injEq] at hr
    subst hr
    exact hexp hk
  effect := by
    intro e he hid
    rw [ha, List.mem_append] at he
    rcases he with he | he
    · obtain ⟨r, hr, hk⟩ := hnew he hid
      exact ⟨r, hr, .inl hk⟩
    · exact ⟨row, hl, .inr (hold he hid)⟩

/-- What an approve step adds for the id is keyed by the row the ledger then holds. -/
theorem effect_of_authorisedBy {e : Authorised}
    (hfits : ∀ {action}, actionFromWire req.action = some action → action.id = id →
      ShapeFits action req.proposal)
    (he : e ∈ authorisedBy cfg req (approve L cfg view s.ledger req).1) (hid : e.actionId = id) :
    ∃ row, (approve L cfg view s.ledger req).2 id = some row ∧ EffectKeyed L row.key e.effect := by
  obtain ⟨a, -, hok, -, heid, heff, -⟩ := mem_authorisedBy he
  obtain ⟨action, row, haction, hrow, hgate, haid, hroute⟩ := approve_eq_ok hok
  rw [heid, haid] at hid
  have hkey := runGate_key hgate
  rw [hid] at hkey
  obtain ⟨r, hr, hrk⟩ := Option.map_eq_some_iff.1 hkey
  refine ⟨r, hr, ?_⟩
  rw [heff, hrk]
  exact effectKeyed_of_route hrow (hfits haction hid) hroute

theorem Keyed.approve (htrx : Function.Injective L.trxHash) (hs : Keyed R s id)
    (view : RequestView) (req : ApproveRequest)
    (hmeets : RequestMeets L id s (.approve view req)) :
    Keyed R (s.step R cfg (.approve view req)) id := by
  have hl : (s.step R cfg (.approve view req)).ledger
      = (VizGateway.approve L cfg view s.ledger req).2 := rfl
  have ha : (s.step R cfg (.approve view req)).authorised
      = authorisedBy cfg req (VizGateway.approve L cfg view s.ledger req).1 ++ s.authorised := rfl
  rcases approve_ledger L cfg view s.ledger req with ⟨hm, hno⟩ | ⟨action, row, haction, hrow, hgate⟩
  · refine hs.keep (by rw [hl, hm]) ha (fun he _ => ?_) fun h => h
    obtain ⟨a, -, hok, -⟩ := mem_authorisedBy he
    exact absurd hok (hno a)
  · have hnew : ∀ {e}, e ∈ authorisedBy cfg req (VizGateway.approve L cfg view s.ledger req).1 →
        e.actionId = id → ∃ row, (VizGateway.approve L cfg view s.ledger req).2 id = some row
          ∧ EffectKeyed L row.key e.effect := by
      refine effect_of_authorisedBy fun {action'} haction' hid' => ?_
      exact (hmeets action' row haction' hid' hrow).1
    by_cases hid : action.id = id
    · obtain ⟨-, htime, hrev⟩ := hmeets action row haction hid hrow
      rw [hid] at hgate
      rcases runGate_eq_ok hgate with ⟨hnone, hm⟩ | ⟨-, -, -, hm⟩ | ⟨prev, hprev, hrep, hm⟩
      · -- an unseen id has nothing authorised
        refine Keyed.write (by rw [hl, hm, Function.update_self])
          (fun hk => expiry_of_proposalKey htrx hrow hk htime) ha hnew
          fun he heid => ?_
        obtain ⟨r, hr, -⟩ := hs.effect he heid
        simp [hnone] at hr
      · exact hs.keep (by rw [hl, hm]) ha hnew fun h => h
      · exact Keyed.write (by rw [hl, hm, Function.update_self])
          (fun hk => expiry_of_proposalKey htrx hrow hk htime) ha hnew
          (dead_of_replaceable hs hprev hrep (hrev prev hprev hrep.ne))
    · exact hs.keep (by rw [hl, runGate_of_ne hgate (Ne.symm hid)]) ha hnew fun h => h

/-- One step keeps the ledger in step with what was authorised. -/
theorem Keyed.step (htrx : Function.Injective L.trxHash) (hs : Keyed R s id) (e : SignerEvent)
    (hmeets : RequestMeets L id s e) : Keyed R (s.step R cfg e) id := by
  have hdead : ∀ {bytes}, s.Dead R bytes → (s.step R cfg e).Dead R bytes := fun h => h.step e
  cases e with
  | land b =>
    have hl : (s.step R cfg (.land b)).ledger = s.ledger := by
      unfold SignerWorld.step
      dsimp only
      split_ifs <;> rfl
    have ha : (s.step R cfg (.land b)).authorised = [] ++ s.authorised := by
      unfold SignerWorld.step
      dsimp only
      split_ifs <;> rfl
    exact hs.keep (by rw [hl]) ha (by simp) hdead
  | advance ms =>
    have ha : (s.step R cfg (.advance ms)).authorised = [] ++ s.authorised := rfl
    exact hs.keep rfl ha (by simp) hdead
  | approve view req => exact hs.approve htrx view req hmeets

end

end VizGateway
