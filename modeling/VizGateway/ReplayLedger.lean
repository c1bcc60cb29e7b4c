import VizGateway.SourceValidator

/-!
# The replay ledger

Each signer keeps, in its own store, the one proposal key it has signed for each action id. The
gate runs before validation and signing: it claims the key of an unseen action, passes the key it
holds, and lets a VIZ key be replaced only once the transaction it stands for is past its
expiration and did not land. Each branch between two awaits is a function of its own, so that the
whole gate and its interleavings are made of the same pieces.
-/

namespace VizGateway

open Checks Text

/-! ## Proposals -/

/-- A VIZ release proposal with the types its interface gives it; `sender` and `receiver` are its
`from` and `to`. -/
structure VizReleaseProposal where
  refBlockNum : ℕ
  refBlockPrefix : ℕ
  expiration : String
  sender : String
  receiver : String
  amount : String
  memo : String
  deriving DecidableEq, Repr

def VizReleaseProposal.toJson (p : VizReleaseProposal) : JsonObject :=
  [("refBlockNum", .num p.refBlockNum), ("refBlockPrefix", .num p.refBlockPrefix),
    ("expiration", .str p.expiration), ("from", .str p.sender), ("to", .str p.receiver),
    ("amount", .str p.amount), ("memo", .str p.memo)]

/-- The unsigned transfer of a proposal, its fields whatever the JSON object holds. -/
def buildReleaseTx (p : JsonObject) : VizTransaction where
  ref_block_num := p.get "refBlockNum"
  ref_block_prefix := p.get "refBlockPrefix"
  expiration := p.get "expiration"
  operations := [("transfer", [("from", p.get "from"), ("to", p.get "to"),
    ("amount", p.get "amount"), ("memo", p.get "memo")])]
  extensions := []

def releaseTxId (L : Libs) (p : JsonObject) : Option String := computeTrxId L (buildReleaseTx p)

def isSolanaMintProposal (p : JsonObject) : Bool :=
  p.has "messageB64" && p.has "mint" && p.has "multisig"

def isGramMintProposal (p : JsonObject) : Bool := p.has "orderHashHex"

/-! ## Ledger rows -/

structure SignedProposal where
  key : String
  expiresAtMs : ℤ
  deriving DecidableEq, Repr

def vizKeyPrefix : String := "viz-tx:"

def vizExpiryMarginMs : ℤ := 60000

/-- Keyed by the proposal's shape alone. -/
def proposalKey (L : Libs) (p : JsonObject) : Except String SignedProposal :=
  if isSolanaMintProposal p then
    match p.get "messageB64" with
    | some (.str m) => .ok { key := "solana-msg:" ++ L.digestOf m, expiresAtMs := 0 }
    | _ => .error "The \"data\" argument must be of type string"
  else if isGramMintProposal p then
    .ok { key := "gram-order:" ++ jsString (p.get "orderAddr"), expiresAtMs := 0 }
  else do
    let expiration := jsString (p.get "expiration")
    let expiresAtMs ← found (L.dateParse (expiration ++ "Z"))
      s!"unparseable proposal expiration {expiration} — refusing to sign"
    let txid ← found (releaseTxId L p) "unserializable release proposal"
    return { key := vizKeyPrefix ++ txid, expiresAtMs }

/-- The table `signed_proposals`, one row an action id. -/
abbrev SignedProposals := String → Option SignedProposal

/-- A conditional write: an insert without an expected key, a compare-and-swap with one. -/
def putSignedProposal (m : SignedProposals) (actionId : String) (row : SignedProposal)
    (expectedPrevKey : Option String) : Bool × SignedProposals :=
  match expectedPrevKey, m actionId with
  | none, none => (true, Function.update m actionId (some row))
  | none, some _ => (false, m)
  | some _, none => (false, m)
  | some k, some r =>
    if r.key = k then (true, Function.update m actionId (some row)) else (false, m)

/-! ## The gate, await by await -/

/-- What a gate does next. -/
inductive GateStep
  | pass
  | refuse (message : String)
  | claim
  | reread
  | readHead (prev : SignedProposal)
  | readLanded (prev : SignedProposal)
  | swap (prev : SignedProposal)
  deriving DecidableEq, Repr

open GateStep

section

variable (actionId : String) (row : SignedProposal)

/-- After the first read of the ledger. -/
def afterGet : Option SignedProposal → GateStep
  | none => claim
  | some prev =>
    if prev.key = row.key then .pass
    else if startsWith row.key vizKeyPrefix = false ∨ startsWith prev.key vizKeyPrefix = false then
      refuse s!"{actionId}: already signed as {prev.key}, now asked for {row.key} — the coordinator reuses the order/nonce on legit re-drives, so a different proposal is a replay attempt"
    else readHead prev

/-- After the insert: a lost race reads the winner. -/
def afterClaim (inserted : Bool) : GateStep := if inserted then .pass else reread

def afterReread (won : Option SignedProposal) : GateStep :=
  if won.map SignedProposal.key = some row.key then .pass
  else refuse s!"{actionId}: lost first-claim race to a concurrent DIFFERENT proposal — refusing"

def afterHead (prev : SignedProposal) (head : Except String ℤ) : GateStep :=
  match head with
  | .error e => refuse e
  | .ok headMs =>
    if headMs ≤ prev.expiresAtMs + vizExpiryMarginMs then
      refuse s!"{actionId}: a previously signed release ({prev.key}) is still live — refusing a second live signature"
    else readLanded prev

/-- The transaction id behind a VIZ key. -/
def prevTxid (prev : SignedProposal) : String := dropStr prev.key vizKeyPrefix.toList.length

def afterLanded (prev : SignedProposal) (landed : Bool) : GateStep :=
  if landed then
    refuse s!"{actionId}: release ALREADY LANDED on VIZ as {prevTxid prev} — signing another is a double release (replay attack?)"
  else swap prev

def afterSwap (swapped : Bool) : GateStep :=
  if swapped then .pass
  else refuse s!"{actionId}: replay-ledger CAS lost to a concurrent update — refusing"

end

/-- `releaseLanded`: whether the node confirms the exact transaction id. -/
def releaseLanded (node : VizNode) (txid : String) : Bool := (confirmReleaseByTxId node txid).isSome

/-- One piece of a gate, up to its next await, on the ledger as it finds it; `none` is the gate
before its first read. -/
def gateMove (L : Libs) (node : VizNode) (m : SignedProposals) (actionId : String)
    (row : SignedProposal) : Option GateStep → GateStep × SignedProposals
  | none => (afterGet actionId row (m actionId), m)
  | some claim =>
    let r := putSignedProposal m actionId row none
    (afterClaim r.1, r.2)
  | some reread => (afterReread actionId row (m actionId), m)
  | some (readHead prev) => (afterHead actionId prev (headBlockTimeMs L node), m)
  | some (readLanded prev) =>
    (afterLanded actionId prev (releaseLanded node (prevTxid prev)), m)
  | some (swap prev) =>
    let r := putSignedProposal m actionId row (some prev.key)
    (afterSwap actionId r.1, r.2)
  | some step => (step, m)

/-- A gate left alone: either it passes, with the ledger after it, or it refuses. -/
def runGate (L : Libs) (node : VizNode) (m : SignedProposals) (actionId : String)
    (row : SignedProposal) : Except String SignedProposals :=
  match afterGet actionId row (m actionId) with
  | .pass => .ok m
  | claim => .ok (putSignedProposal m actionId row none).2
  | readHead prev =>
    match afterHead actionId prev (headBlockTimeMs L node) with
    | readLanded prev =>
      match afterLanded actionId prev (releaseLanded node (prevTxid prev)) with
      | swap prev => .ok (putSignedProposal m actionId row (some prev.key)).2
      | refuse e => .error e
      | _ => .error ""
    | refuse e => .error e
    | _ => .error ""
  | refuse e => .error e
  | _ => .error ""

/-- `assertNotReplay`, with no other request in between. -/
def assertNotReplay (L : Libs) (node : VizNode) (m : SignedProposals) (actionId : String)
    (proposal : JsonObject) : Except String SignedProposals := do
  let row ← proposalKey L proposal
  runGate L node m actionId row

/-! ## What the gate lets through -/

theorem putSignedProposal_insert {m : SignedProposals} {actionId : String} {row : SignedProposal}
    (h : m actionId = none) :
    putSignedProposal m actionId row none = (true, Function.update m actionId (some row)) := by
  unfold putSignedProposal
  rw [h]

theorem putSignedProposal_swap {m : SignedProposals} {actionId : String}
    {row prev : SignedProposal} (h : m actionId = some prev) :
    putSignedProposal m actionId row (some prev.key)
      = (true, Function.update m actionId (some row)) := by
  unfold putSignedProposal
  rw [h]
  simp

/-- A write that succeeds leaves the given row in place and every other id's row alone. -/
theorem putSignedProposal_true {m m' : SignedProposals} {actionId : String} {row : SignedProposal}
    {expected : Option String} (h : putSignedProposal m actionId row expected = (true, m')) :
    m' = Function.update m actionId (some row)
      ∧ (m actionId).map SignedProposal.key = expected := by
  unfold putSignedProposal at h
  rcases expected with _ | k <;> rcases hm : m actionId with _ | r <;> simp only [hm] at h
  · exact ⟨(Prod.mk.inj h).2.symm, rfl⟩
  · simp at h
  · simp at h
  · split_ifs at h with hk
    · exact ⟨(Prod.mk.inj h).2.symm, congrArg some hk⟩
    · simp at h

/-- A write that fails changes nothing. -/
theorem putSignedProposal_false {m m' : SignedProposals} {actionId : String} {row : SignedProposal}
    {expected : Option String} (h : putSignedProposal m actionId row expected = (false, m')) :
    m' = m := by
  unfold putSignedProposal at h
  rcases expected with _ | k <;> rcases hm : m actionId with _ | r <;> simp only [hm] at h
  · simp at h
  · exact (Prod.mk.inj h).2.symm
  · exact (Prod.mk.inj h).2.symm
  · split_ifs at h
    · simp at h
    · exact (Prod.mk.inj h).2.symm

theorem afterGet_eq_pass {actionId : String} {row : SignedProposal} {prev : Option SignedProposal}
    (h : afterGet actionId row prev = .pass) : ∃ r, prev = some r ∧ r.key = row.key := by
  unfold afterGet at h
  rcases prev with _ | r
  · simp at h
  · simp only at h
    split_ifs at h with hk
    exact ⟨r, rfl, hk⟩

theorem afterGet_eq_claim {actionId : String} {row : SignedProposal}
    {prev : Option SignedProposal} (h : afterGet actionId row prev = claim) : prev = none := by
  unfold afterGet at h
  rcases prev with _ | r
  · rfl
  · simp only at h
    split_ifs at h

theorem afterGet_eq_readHead {actionId : String} {row p : SignedProposal}
    {prev : Option SignedProposal} (h : afterGet actionId row prev = readHead p) :
    prev = some p ∧ p.key ≠ row.key ∧ startsWith row.key vizKeyPrefix = true
      ∧ startsWith p.key vizKeyPrefix = true := by
  unfold afterGet at h
  rcases prev with _ | r
  · simp at h
  · simp only at h
    split_ifs at h with hk hviz
    rw [readHead.injEq] at h
    subst h
    rw [not_or, Bool.not_eq_false, Bool.not_eq_false] at hviz
    exact ⟨rfl, hk, hviz⟩

theorem afterHead_eq_readLanded {actionId : String} {prev p : SignedProposal}
    {head : Except String ℤ} (h : afterHead actionId prev head = readLanded p) :
    p = prev ∧ ∃ headMs, head = .ok headMs ∧ prev.expiresAtMs + vizExpiryMarginMs < headMs := by
  unfold afterHead at h
  rcases head with e | headMs
  · simp at h
  · simp only at h
    split_ifs at h with hlive
    rw [readLanded.injEq] at h
    exact ⟨h.symm, headMs, rfl, Int.not_le.1 hlive⟩

theorem afterHead_cases (actionId : String) (prev : SignedProposal) (head : Except String ℤ) :
    (∃ e, afterHead actionId prev head = refuse e)
      ∨ afterHead actionId prev head = readLanded prev := by
  unfold afterHead
  rcases head with e | headMs
  · exact .inl ⟨e, rfl⟩
  · dsimp only
    split_ifs
    · exact .inl ⟨_, rfl⟩
    · exact .inr rfl

theorem afterLanded_eq_swap {actionId : String} {prev p : SignedProposal} {landed : Bool}
    (h : afterLanded actionId prev landed = swap p) : p = prev ∧ landed = false := by
  unfold afterLanded at h
  split_ifs at h with hl
  rw [swap.injEq] at h
  exact ⟨h.symm, Bool.not_eq_true _ ▸ hl⟩

/-- The row whose replacement a gate has found safe, as the node answered. -/
structure Replaceable (L : Libs) (node : VizNode) (prev row : SignedProposal) : Prop where
  ne : prev.key ≠ row.key
  viz : startsWith row.key vizKeyPrefix = true
  prevViz : startsWith prev.key vizKeyPrefix = true
  expired : ∃ headMs, headBlockTimeMs L node = .ok headMs
    ∧ prev.expiresAtMs + vizExpiryMarginMs < headMs
  notLanded : releaseLanded node (prevTxid prev) = false

/-- A gate passes on an unseen action, on the key it holds, or over a row it may replace; the first
and the last write its own row. -/
theorem runGate_eq_ok {L : Libs} {node : VizNode} {m m' : SignedProposals} {actionId : String}
    {row : SignedProposal} (h : runGate L node m actionId row = .ok m') :
    (m actionId = none ∧ m' = Function.update m actionId (some row))
      ∨ (∃ prev, m actionId = some prev ∧ prev.key = row.key ∧ m' = m)
      ∨ ∃ prev, m actionId = some prev ∧ Replaceable L node prev row
          ∧ m' = Function.update m actionId (some row) := by
  unfold runGate at h
  split at h
  · next hg =>
    obtain ⟨r, hr, hk⟩ := afterGet_eq_pass hg
    exact .inr (.inl ⟨r, hr, hk, (Except.ok.inj h).symm⟩)
  · next hg =>
    have hn := afterGet_eq_claim hg
    rw [putSignedProposal_insert hn] at h
    exact .inl ⟨hn, (Except.ok.inj h).symm⟩
  · next prev hg =>
    obtain ⟨hm, hne, hviz, hpviz⟩ := afterGet_eq_readHead hg
    split at h
    · next p hh =>
      obtain ⟨rfl, hexp⟩ := afterHead_eq_readLanded hh
      split at h
      · next q hl =>
        obtain ⟨rfl, hland⟩ := afterLanded_eq_swap hl
        rw [putSignedProposal_swap hm] at h
        exact .inr (.inr ⟨q, hm, ⟨hne, hviz, hpviz, hexp, hland⟩, (Except.ok.inj h).symm⟩)
      · simp at h
      · simp at h
    · simp at h
    · simp at h
  · simp at h
  · simp at h

/-- Four moves of a gate left alone. -/
def fourMoves (L : Libs) (node : VizNode) (m : SignedProposals) (actionId : String)
    (row : SignedProposal) : GateStep × SignedProposals :=
  let move := fun (r : GateStep × SignedProposals) => gateMove L node r.2 actionId row (some r.1)
  move (move (move (gateMove L node m actionId row none)))

/-- The gate is its pieces, one after the other. -/
theorem runGate_eq_ok_iff {L : Libs} {node : VizNode} {m m' : SignedProposals}
    {actionId : String} {row : SignedProposal} :
    runGate L node m actionId row = .ok m' ↔ fourMoves L node m actionId row = (.pass, m') := by
  unfold runGate fourMoves
  simp only [gateMove]
  rcases hm : m actionId with _ | prev
  · simp only [afterGet, putSignedProposal_insert hm, afterClaim, ↓reduceIte,
      Except.ok.injEq, Prod.mk.injEq, true_and]
  · by_cases hk : prev.key = row.key
    · simp only [afterGet, hk, ↓reduceIte, Except.ok.injEq, Prod.mk.injEq, true_and]
    · by_cases hviz : startsWith row.key vizKeyPrefix = false ∨ startsWith prev.key vizKeyPrefix = false
      · simp only [afterGet, if_neg hk, if_pos hviz, reduceCtorEq, Prod.mk.injEq, false_and]
      · simp only [afterGet, if_neg hk, if_neg hviz]
        rcases afterHead_cases actionId prev (headBlockTimeMs L node) with ⟨e, hh⟩ | hh
        · simp only [hh, reduceCtorEq, Prod.mk.injEq, false_and]
        · rw [hh]
          cases hl : releaseLanded node (prevTxid prev) <;>
            simp [afterLanded, hl, putSignedProposal_swap hm, afterSwap]

/-- Whatever a gate lets through, its row's key is the one the ledger then holds. -/
theorem runGate_key {L : Libs} {node : VizNode} {m m' : SignedProposals} {actionId : String}
    {row : SignedProposal} (h : runGate L node m actionId row = .ok m') :
    (m' actionId).map SignedProposal.key = some row.key := by
  rcases runGate_eq_ok h with ⟨-, rfl⟩ | ⟨prev, hm, hk, rfl⟩ | ⟨prev, -, -, rfl⟩
  · simp
  · rw [hm, Option.map_some, hk]
  · simp

/-- No other id's row is touched. -/
theorem runGate_of_ne {L : Libs} {node : VizNode} {m m' : SignedProposals} {actionId id : String}
    {row : SignedProposal} (h : runGate L node m actionId row = .ok m') (hne : id ≠ actionId) :
    m' id = m id := by
  rcases runGate_eq_ok h with ⟨-, rfl⟩ | ⟨prev, -, -, rfl⟩ | ⟨prev, -, -, rfl⟩
  · exact Function.update_of_ne hne _ _
  · rfl
  · exact Function.update_of_ne hne _ _

/-! ## Keys by shape -/

/-- A proposal the ledger keys as a VIZ release. -/
def VizShaped (p : JsonObject) : Prop := isSolanaMintProposal p = false ∧ isGramMintProposal p = false

instance (p : JsonObject) : Decidable (VizShaped p) := inferInstanceAs (Decidable (_ ∧ _))

theorem proposalKey_viz {L : Libs} {p : JsonObject} {row : SignedProposal} (hp : VizShaped p)
    (h : proposalKey L p = .ok row) :
    ∃ txid, releaseTxId L p = some txid ∧ row.key = vizKeyPrefix ++ txid
      ∧ L.dateParse (jsString (p.get "expiration") ++ "Z") = some row.expiresAtMs := by
  unfold proposalKey at h
  rw [hp.1, hp.2] at h
  simp only [Bool.false_eq_true, ↓reduceIte, bind_eq_ok, found_eq_ok, pure_eq_ok] at h
  obtain ⟨ms, hms, txid, htx, rfl⟩ := h
  exact ⟨txid, htx, rfl, hms⟩

theorem proposalKey_solana {L : Libs} {p : JsonObject} {row : SignedProposal}
    (hp : isSolanaMintProposal p = true) (h : proposalKey L p = .ok row) :
    ∃ m, p.get "messageB64" = some (.str m) ∧ row = ⟨"solana-msg:" ++ L.digestOf m, 0⟩ := by
  unfold proposalKey at h
  rw [if_pos hp] at h
  split at h
  · next m hm => exact ⟨m, hm, (Except.ok.inj h).symm⟩
  · simp at h

theorem proposalKey_gram {L : Libs} {p : JsonObject} {row : SignedProposal}
    (hs : isSolanaMintProposal p = false) (hp : isGramMintProposal p = true)
    (h : proposalKey L p = .ok row) : row = ⟨"gram-order:" ++ jsString (p.get "orderAddr"), 0⟩ := by
  unfold proposalKey at h
  rw [hs, if_neg Bool.false_ne_true, if_pos hp] at h
  exact (Except.ok.inj h).symm

/-- A VIZ key gives back its transaction id. -/
theorem prevTxid_viz {row : SignedProposal} {txid : String} (h : row.key = vizKeyPrefix ++ txid) :
    prevTxid row = txid := by
  unfold prevTxid
  rw [h, dropStr_append]

end VizGateway
