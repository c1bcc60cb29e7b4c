import VizGateway.Federation
import VizGateway.Sample

/-!
# One release an action

On each signer a key whose gate ever passed is the ledger's or stands for a release that is dead on
the signer's node, and so on the chain. Two releases with quorums share a signer, so at most one of
them lands, whatever the handlers of a signer do to each other's claims.
-/

namespace VizGateway

open Checks Text Runs GateStep

section

variable {L : Libs} (R : ReleaseChain L)

/-- The key stands for releases that are dead on the node only. -/
def DeadKey (node : Chain) (key : String) : Prop :=
  ∀ bytes, key = releaseKey L bytes → node.Dead R bytes

/-- The ledger holds the key, or holds another and the key's release is dead. -/
def SignerState.Held (st : SignerState) (id key : String) : Prop :=
  ∃ row, st.ledger id = some row ∧ (row.key = key ∨ DeadKey R st.node key)

/-- What a handler has established so far. -/
def SignerState.Reached (st : SignerState) (t : Task) : Option GateStep → Prop
  | some .pass => st.Held R t.action.id t.row.key
  | some (readHead prev) =>
    ∀ bytes, prev.key = releaseKey L bytes → R.expiryOf bytes ≤ prev.expiresAtMs
  | some (readLanded prev) =>
    ∀ bytes, prev.key = releaseKey L bytes → R.expiryOf bytes < st.node.headMs
  | some (swap prev) => DeadKey R st.node prev.key
  | _ => True

/-- A signer's ledger, its handlers and its signatures agree. -/
structure SignerOk (st : SignerState) : Prop where
  expiry : ∀ {id row bytes}, st.ledger id = some row → row.key = releaseKey L bytes →
    R.expiryOf bytes ≤ row.expiresAtMs
  signed : ∀ {id bytes}, (id, bytes) ∈ st.signed → st.Held R id (releaseKey L bytes)
  keyed : ∀ {j t}, st.tasks j = some t → proposalKey L t.proposal.toJson = .ok t.row
    ∧ isGrapheneTime t.proposal.expiration = true
  reached : ∀ {j t}, st.tasks j = some t → st.Reached R t t.next

structure FederationOk {n : ℕ} (s : Federation n) : Prop where
  chain : s.chain.Valid R
  node : ∀ i, (s.signer i).node <:+ s.chain
  signer : ∀ i, SignerOk R (s.signer i)

end

section

variable {L : Libs} {R : ReleaseChain L} {st : SignerState} {t : Task} {id key : String}
  {row : SignedProposal}

theorem signerOk_init : SignerOk R .init := by
  constructor <;> simp [SignerState.init]

theorem federationOk_init (n : ℕ) : FederationOk R (.init n) where
  chain := trivial
  node := fun _ => List.suffix_refl _
  signer := fun _ => signerOk_init

/-! ## What a longer node keeps -/

section

variable {c : Chain}

theorem DeadKey.mono (hc : c.Valid R) (hv : st.node <:+ c) (h : DeadKey R st.node key) :
    DeadKey R c key := fun bytes hk => (h bytes hk).mono hc hv

theorem SignerState.Held.mono (hc : c.Valid R) (hv : st.node <:+ c) (h : st.Held R id key) :
    SignerState.Held R { st with node := c } id key := by
  obtain ⟨row, hrow, hk⟩ := h
  exact ⟨row, hrow, hk.imp_right (·.mono hc hv)⟩

theorem SignerOk.observe (hc : c.Valid R) (hv : st.node <:+ c) (h : SignerOk R st) :
    SignerOk R { st with node := c } where
  expiry := h.expiry
  signed := fun hmem => (h.signed hmem).mono hc hv
  keyed := h.keyed
  reached := by
    intro j t ht
    have hr := h.reached ht
    cases hn : t.next with
    | none => trivial
    | some step =>
      rw [hn] at hr
      cases step with
      | pass => exact SignerState.Held.mono hc hv hr
      | readHead prev => exact hr
      | readLanded prev =>
        exact fun bytes hk => (hr bytes hk).trans_le (Chain.headMs_le hc hv)
      | swap prev => exact DeadKey.mono hc hv hr
      | refuse e => trivial
      | claim => trivial
      | reread => trivial

end

/-! ## What a move of a gate does -/

/-- A move leaves the ledger alone, or writes its row over none or over the one it may replace. -/
theorem gateMove_ledger (L : Libs) (node : VizNode) (m : SignedProposals) (id : String)
    (row : SignedProposal) (next : Option GateStep) :
    (gateMove L node m id row next).2 = m
      ∨ ((gateMove L node m id row next).2 = Function.update m id (some row)
        ∧ (m id = none ∨ ∃ prev, next = some (swap prev)
            ∧ (m id).map SignedProposal.key = some prev.key)) := by
  cases next with
  | none => exact .inl rfl
  | some step =>
    cases step with
    | claim =>
      cases hput : putSignedProposal m id row none with
      | mk ok m' =>
        cases ok with
        | true =>
          obtain ⟨rfl, hm⟩ := putSignedProposal_true hput
          exact .inr ⟨by simp [gateMove, hput], .inl (by simpa using hm)⟩
        | false =>
          have := putSignedProposal_false hput
          exact .inl (by simp [gateMove, hput, this])
    | swap prev =>
      cases hput : putSignedProposal m id row (some prev.key) with
      | mk ok m' =>
        cases ok with
        | true =>
          obtain ⟨rfl, hm⟩ := putSignedProposal_true hput
          exact .inr ⟨by simp [gateMove, hput], .inr ⟨prev, rfl, hm⟩⟩
        | false =>
          have := putSignedProposal_false hput
          exact .inl (by simp [gateMove, hput, this])
    | _ => exact .inl rfl

/-- What a move from `next` to `step` has established. -/
def Moved (L : Libs) (node : VizNode) (m m' : SignedProposals) (id : String)
    (row : SignedProposal) (next : Option GateStep) : GateStep → Prop
  | .pass => next ≠ some .pass → (m' id).map SignedProposal.key = some row.key
  | readHead prev => m id = some prev
  | readLanded prev => next = some (readHead prev)
    ∧ ∃ ms, headBlockTimeMs L node = .ok ms ∧ prev.expiresAtMs + vizExpiryMarginMs < ms
  | swap prev => next = some (readLanded prev) ∧ releaseLanded node (prevTxid prev) = false
  | _ => True

theorem moved_put {node : VizNode} {m : SignedProposals} {next : Option GateStep}
    {expected : Option String} {ok lost : GateStep}
    (hlost : ∀ m', Moved L node m m' id row next lost) (hok : ok = .pass) :
    Moved L node m (putSignedProposal m id row expected).2 id row next
      (if (putSignedProposal m id row expected).1 then ok else lost) := by
  cases hput : putSignedProposal m id row expected with
  | mk inserted m' =>
    cases inserted with
    | true =>
      obtain ⟨rfl, -⟩ := putSignedProposal_true hput
      subst hok
      exact fun _ => by simp
    | false => exact hlost m'

theorem gateMove_moved (L : Libs) (node : VizNode) (m : SignedProposals) (id : String)
    (row : SignedProposal) (next : Option GateStep) :
    Moved L node m (gateMove L node m id row next).2 id row next
      (gateMove L node m id row next).1 := by
  cases next with
  | none =>
    change Moved L node m m id row none (afterGet id row (m id))
    rcases hm : m id with _ | prev
    · trivial
    · unfold afterGet
      dsimp only
      split_ifs with hk
      · exact fun _ => by rw [hm, Option.map_some, hk]
      · trivial
      · exact hm
  | some step =>
    cases step with
    | pass => exact fun h => absurd rfl h
    | refuse e => trivial
    | claim => exact moved_put (fun _ => trivial) rfl
    | reread =>
      change Moved L node m m id row _ (afterReread id row (m id))
      unfold afterReread
      split_ifs with hk
      · exact fun _ => hk
      · trivial
    | readHead prev =>
      change Moved L node m m id row _ (afterHead id prev (headBlockTimeMs L node))
      rcases afterHead_cases id prev (headBlockTimeMs L node) with ⟨e, he⟩ | he
      · rw [he]
        trivial
      · rw [he]
        exact ⟨rfl, (afterHead_eq_readLanded he).2⟩
    | readLanded prev =>
      change Moved L node m m id row _ (afterLanded id prev (releaseLanded node (prevTxid prev)))
      cases hl : releaseLanded node (prevTxid prev) with
      | true => trivial
      | false => exact ⟨rfl, hl⟩
    | swap prev => exact moved_put (fun _ => trivial) rfl

/-! ## What a write to the ledger keeps -/

/-- A row written over a dead one: whatever was held for the id is held still. -/
theorem SignerState.Held.write {m : SignedProposals}
    (hm : m = Function.update st.ledger id (some row))
    (hdead : ∀ {k}, st.Held R id k → DeadKey R st.node k) {id' : String}
    (h : st.Held R id' key) : SignerState.Held R { st with ledger := m } id' key := by
  subst hm
  by_cases hid : id' = id
  · subst hid
    exact ⟨row, Function.update_self .., .inr (hdead h)⟩
  · obtain ⟨r, hr, hk⟩ := h
    exact ⟨r, by rw [← hr]; exact Function.update_of_ne hid _ _, hk⟩

theorem SignerState.Reached.of_held {st' : SignerState} {next : Option GateStep}
    (h : st.Reached R t next) (hnode : st'.node = st.node)
    (hheld : ∀ {id key}, st.Held R id key → st'.Held R id key) : st'.Reached R t next := by
  cases next with
  | none => trivial
  | some step =>
    cases step with
    | pass => exact hheld h
    | readHead prev => exact h
    | readLanded prev =>
      change ∀ bytes, _ → _ < st'.node.headMs
      rw [hnode]
      exact h
    | swap prev =>
      change DeadKey R st'.node _
      rw [hnode]
      exact h
    | refuse e => trivial
    | claim => trivial
    | reread => trivial

/-! ## One handler, one move -/

section

variable {view : RequestView} {j : ℕ} {next : Option GateStep}

/-- A node that answers from the blocks it has. -/
structure NodeTruthful (L : Libs) (node : Chain) (viz : VizNode) : Prop where
  head : ∀ {ms}, headBlockTimeMs L viz = .ok ms → ms = node.headMs
  landed : ∀ {bytes}, node.Landed bytes → releaseLanded viz (L.trxHash bytes) = true

/-- What was held for the id of a row about to be written is dead. -/
theorem dead_of_write (hreached : st.Reached R t next)
    (h : st.ledger t.action.id = none ∨ ∃ prev, next = some (swap prev)
      ∧ (st.ledger t.action.id).map SignedProposal.key = some prev.key)
    (hheld : st.Held R t.action.id key) : DeadKey R st.node key := by
  obtain ⟨r, hr, hk⟩ := hheld
  rcases h with hnone | ⟨prev, rfl, hprev⟩
  · simp [hnone] at hr
  · rw [hr, Option.map_some, Option.some.injEq] at hprev
    rcases hk with rfl | hdead
    · rw [hprev]
      exact hreached
    · exact hdead

/-- What a move establishes for its own handler. -/
theorem reached_of_move (hok : SignerOk R st) (ht : NodeTruthful L st.node view.nodes.viz)
    (hreached : st.Reached R t next) (hnext : next ≠ some .pass) {st' : SignerState}
    (hnode : st'.node = st.node)
    (hl : st'.ledger = (gateMove L view.nodes.viz st.ledger t.action.id t.row next).2) :
    st'.Reached R t (some (gateMove L view.nodes.viz st.ledger t.action.id t.row next).1) := by
  have hmoved := gateMove_moved L view.nodes.viz st.ledger t.action.id t.row next
  cases hstep : (gateMove L view.nodes.viz st.ledger t.action.id t.row next).1 with
  | pass =>
    rw [hstep] at hmoved
    obtain ⟨r, hr, hk⟩ := Option.map_eq_some_iff.1 (hmoved hnext)
    exact ⟨r, hl ▸ hr, .inl hk⟩
  | refuse e => trivial
  | claim => trivial
  | reread => trivial
  | readHead prev =>
    rw [hstep] at hmoved
    exact fun bytes hk => hok.expiry hmoved hk
  | readLanded prev =>
    rw [hstep] at hmoved
    obtain ⟨rfl, ms, hms, hlt⟩ := hmoved
    intro bytes hk
    have hexp : R.expiryOf bytes ≤ prev.expiresAtMs := hreached bytes hk
    have hhead := ht.head hms
    unfold vizExpiryMarginMs at hlt
    rw [hnode]
    omega
  | swap prev =>
    rw [hstep] at hmoved
    obtain ⟨rfl, hland⟩ := hmoved
    intro bytes hk
    rw [hnode]
    refine ⟨fun hb => ?_, hreached bytes hk⟩
    have := ht.landed hb
    rw [prevTxid_viz hk] at hland
    rw [hland] at this
    exact Bool.false_ne_true this

theorem move_tasks {node : VizNode} {k : ℕ} {t' : Task}
    (h : (st.move L j t node).tasks k = some t') :
    (∃ next, next = (gateMove L node st.ledger t.action.id t.row t.next).1
      ∧ t' = { t with next := some next }) ∨ st.tasks k = some t' := by
  change Function.update st.tasks j _ k = some t' at h
  by_cases hk : k = j
  · rw [hk, Function.update_self, Option.some.injEq] at h
    exact .inl ⟨_, rfl, h.symm⟩
  · rw [Function.update_of_ne hk] at h
    exact .inr h

/-- A suspended handler's move keeps the signer's books. -/
theorem SignerOk.move (htrx : Function.Injective L.trxHash) (hok : SignerOk R st)
    (ht : NodeTruthful L st.node view.nodes.viz) (hj : st.tasks j = some t)
    (hnext : t.next ≠ some .pass) :
    SignerOk R (st.move L j t view.nodes.viz) := by
  obtain ⟨hrow, htime⟩ := hok.keyed hj
  have hreached := hok.reached hj
  have hheld : ∀ {id key}, st.Held R id key → (st.move L j t view.nodes.viz).Held R id key := by
    intro id key h
    rcases gateMove_ledger L view.nodes.viz st.ledger t.action.id t.row t.next
      with hm | ⟨hm, hwhy⟩
    · obtain ⟨r, hr, hk⟩ := h
      exact ⟨r, (congrFun hm id).trans hr, hk⟩
    · exact h.write hm (dead_of_write hreached hwhy)
  refine ⟨?_, fun hmem => hheld (hok.signed hmem), ?_, ?_⟩
  · intro id r bytes hr hk
    rcases gateMove_ledger L view.nodes.viz st.ledger t.action.id t.row t.next
      with hm | ⟨hm, -⟩
    · exact hok.expiry ((congrFun hm id).symm.trans hr) hk
    · have hr' := (congrFun hm id).symm.trans hr
      by_cases hid : id = t.action.id
      · subst hid
        rw [Function.update_self, Option.some.injEq] at hr'
        subst hr'
        exact expiry_of_proposalKey htrx hrow hk fun _ => ⟨_, rfl, htime⟩
      · rw [Function.update_of_ne hid] at hr'
        exact hok.expiry hr' hk
  · intro k t' ht'
    rcases move_tasks ht' with ⟨next, -, rfl⟩ | ht'
    · exact ⟨hrow, htime⟩
    · exact hok.keyed ht'
  · intro k t' ht'
    rcases move_tasks ht' with ⟨next, rfl, rfl⟩ | ht'
    · exact reached_of_move hok ht hreached hnext rfl rfl
    · exact (hok.reached ht').of_held rfl hheld

/-- Handlers come and go without harm. -/
theorem SignerOk.drop {tasks : ℕ → Option Task} (hok : SignerOk R st)
    (htasks : ∀ {k t}, tasks k = some t → st.tasks k = some t) :
    SignerOk R { st with tasks := tasks } where
  expiry := hok.expiry
  signed := hok.signed
  keyed := fun ht => hok.keyed (htasks ht)
  reached := fun ht => (hok.reached (htasks ht)).of_held rfl fun h => h

theorem some_of_update_none {tasks : ℕ → Option Task} {k : ℕ} {t : Task}
    (h : Function.update tasks j none k = some t) : tasks k = some t := by
  by_cases hk : k = j
  · subst hk
    rw [Function.update_self] at h
    simp at h
  · rwa [Function.update_of_ne hk] at h

/-- A signature is on the release its handler's row stands for. -/
theorem mem_sign {cfg : SignerConfig} (hrow : proposalKey L t.proposal.toJson = .ok t.row)
    {bytes : List UInt8} (h : (id, bytes) ∈ st.sign L cfg t view) :
    (id = t.action.id ∧ t.row.key = releaseKey L bytes) ∨ (id, bytes) ∈ st.signed := by
  unfold SignerState.sign at h
  split at h
  · next b hroute =>
    rcases List.mem_cons.1 h with heq | h
    · obtain ⟨rfl, rfl⟩ := Prod.mk.inj heq
      exact .inl ⟨rfl, effectKeyed_of_route hrow
        (shapeFits_of_vizShaped (vizShaped_toJson t.proposal)) hroute⟩
    · exact .inr h
  · exact .inr h

theorem SignerOk.resume (htrx : Function.Injective L.trxHash) {cfg : SignerConfig}
    (hok : SignerOk R st) (ht : NodeTruthful L st.node view.nodes.viz) :
    SignerOk R (st.resume L cfg j view) := by
  unfold SignerState.resume
  split
  · exact hok
  · next t hj =>
    split
    · next hnext =>
      have hheld : st.Held R t.action.id t.row.key := by
        have := hok.reached hj
        rwa [hnext] at this
      refine ⟨hok.expiry, fun {id bytes} hmem => ?_, fun ht => hok.keyed (some_of_update_none ht),
        fun ht => (hok.reached (some_of_update_none ht)).of_held rfl fun h => h⟩
      rcases mem_sign (hok.keyed hj).1 hmem with ⟨rfl, hkey⟩ | hmem
      · rw [← hkey]
        exact hheld
      · exact hok.signed hmem
    · exact hok.drop some_of_update_none
    · next hpass hrefuse => exact hok.move htrx ht hj hpass

theorem SignerOk.receive (hok : SignerOk R st) {wire : WireAction} {p : VizReleaseProposal}
    {hint : Option ℕ} (htime : isGrapheneTime p.expiration = true) :
    SignerOk R (st.receive L j wire p hint) := by
  unfold SignerState.receive
  split
  · next action row hj haction hrow =>
    have htasks : ∀ {k t}, Function.update st.tasks j
        (some { action, proposal := p, row, hint, next := none }) k = some t →
        (t.proposal = p ∧ t.row = row ∧ t.next = none) ∨ st.tasks k = some t := by
      intro k t ht
      by_cases hk : k = j
      · rw [hk, Function.update_self, Option.some.injEq] at ht
        subst ht
        exact .inl ⟨rfl, rfl, rfl⟩
      · rw [Function.update_of_ne hk] at ht
        exact .inr ht
    refine ⟨hok.expiry, hok.signed, fun ht => ?_, fun {k t} ht => ?_⟩
    · rcases htasks ht with ⟨hp, hr, -⟩ | ht
      · rw [hp, hr]
        exact ⟨hrow, htime⟩
      · exact hok.keyed ht
    · rcases htasks ht with ⟨-, -, hn⟩ | ht
      · rw [hn]
        trivial
      · exact (hok.reached ht).of_held rfl fun h => h
  · exact hok

theorem signerOk_crash (hok : SignerOk R st) : SignerOk R { st with tasks := fun _ => none } :=
  hok.drop fun h => by simp at h

end

/-! ## The federation -/

section

variable {n T : ℕ} {s : Federation n} {cfg : Fin n → SignerConfig} {i : Fin n}

theorem FederationOk.set (hok : FederationOk R s) {st : SignerState} (hnode : st.node <:+ s.chain)
    (hst : SignerOk R st) : FederationOk R (s.set i st) where
  chain := hok.chain
  node := by
    intro k
    change (Function.update s.signer i st k).node <:+ s.chain
    by_cases hk : k = i
    · rw [hk, Function.update_self]
      exact hnode
    · rw [Function.update_of_ne hk]
      exact hok.node k
  signer := by
    intro k
    change SignerOk R (Function.update s.signer i st k)
    by_cases hk : k = i
    · rw [hk, Function.update_self]
      exact hst
    · rw [Function.update_of_ne hk]
      exact hok.signer k

theorem receive_node {st : SignerState} {j : ℕ} {wire : WireAction} {p : VizReleaseProposal}
    {hint : Option ℕ} : (st.receive L j wire p hint).node = st.node := by
  unfold SignerState.receive
  split <;> rfl

theorem resume_node {st : SignerState} {j : ℕ} {view : RequestView} {c : SignerConfig} :
    (st.resume L c j view).node = st.node := by
  unfold SignerState.resume
  split
  · rfl
  · split <;> rfl

/-- Every event keeps every signer's books. -/
theorem FederationOk.step (htrx : Function.Injective L.trxHash) (hok : FederationOk R s)
    {e : FederationEvent n} (ht : TruthfulNode L s e) : FederationOk R (s.step R cfg e) := by
  cases e with
  | produce b =>
    unfold Federation.step
    dsimp only
    split_ifs with hb
    · exact ⟨⟨hb, hok.chain⟩, fun k => (hok.node k).trans (List.suffix_cons _ _), hok.signer⟩
    · exact hok
  | observe i c =>
    unfold Federation.step
    dsimp only
    split_ifs with hc
    · exact hok.set hc.2 ((hok.signer i).observe (hok.chain.suffix hc.2) hc.1)
    · exact hok
  | receive i j wire p hint =>
    exact hok.set (by rw [receive_node]; exact hok.node i) ((hok.signer i).receive ht)
  | resume i j view =>
    exact hok.set (by rw [resume_node]; exact hok.node i)
      ((hok.signer i).resume htrx ⟨fun h => ht.1 _ h, fun h => ht.2 _ h⟩)
  | crash i => exact hok.set (hok.node i) (signerOk_crash (hok.signer i))

/-- At most one release of an action both has a quorum and lands. -/
def ReleasesUnique (T : ℕ) (s : Federation n) : Prop :=
  ∀ id bytes other, s.Quorum T id bytes → s.Quorum T id other →
    s.chain.Landed bytes → s.chain.Landed other → bytes = other

/-- Two quorums share a signer, and of what one signer signed for an action one release lands. -/
theorem FederationOk.releasesUnique (htrx : Function.Injective L.trxHash) (hT : n < 2 * T)
    (hok : FederationOk R s) : ReleasesUnique T s := by
  intro id bytes other hq hq' hland hland'
  unfold Federation.Quorum at hq hq'
  obtain ⟨i, hi⟩ := Finset.inter_nonempty_of_card_lt_card_add_card
    (Finset.filter_subset (fun i => (id, bytes) ∈ (s.signer i).signed) Finset.univ)
    (Finset.filter_subset (fun i => (id, other) ∈ (s.signer i).signed) Finset.univ)
    (by rw [Finset.card_univ, Fintype.card_fin]; omega)
  rw [Finset.mem_inter, Finset.mem_filter, Finset.mem_filter] at hi
  obtain ⟨row, hrow, hk⟩ := (hok.signer i).signed hi.1.2
  obtain ⟨row', hrow', hk'⟩ := (hok.signer i).signed hi.2.2
  rw [hrow, Option.some.injEq] at hrow'
  subst hrow'
  have halive : ∀ {b}, s.chain.Landed b → ¬ DeadKey R (s.signer i).node (releaseKey L b) :=
    fun hb hd => ((hd _ rfl).mono hok.chain (hok.node i)).1 hb
  rcases hk with hk | hk
  · rcases hk' with hk' | hk'
    · exact releaseKey_injective htrx (hk.symm.trans hk')
    · exact absurd hk' (halive hland')
  · exact absurd hk (halive hland)

/-- With honest signers, truthful nodes and a threshold over half, whatever the requests and
however their handlers interleave, one release of an action at most is signed by a quorum and
lands. -/
theorem quorum_one_release (htrx : Function.Injective L.trxHash) (hT : n < 2 * T)
    {es : List (FederationEvent n)}
    (h : Meets (Federation.step R cfg) (TruthfulNode L) (.init n) es) :
    ReleasesUnique T (run (Federation.step R cfg) (.init n) es) := by
  have hok := run_inv (fun s e (hs : FederationOk R s) he => hs.step htrx he)
    (federationOk_init n) h
  exact hok.releasesUnique htrx hT

end

end

/-! ## Two signers of two -/

def sampleBlock : Block where
  timeMs := 1767225600000
  txs := []

/-- The block in which the sample release lands. -/
def landingBlock : Block where
  timeMs := 1767225603000
  txs := [sampleReleaseBytes 1]

def sampleProposal : VizReleaseProposal where
  refBlockNum := 1
  refBlockPrefix := 77
  expiration := "2026-01-01T00:01:00"
  sender := "gram.gate"
  receiver := "carol"
  amount := "120.000 VIZ"
  memo := sampleBurnHash

/-- A handler reads the ledger, claims its key and signs. -/
def signingEvents (i : Fin 2) : List (FederationEvent 2) :=
  [.observe i [sampleBlock],
    .receive i 0 (canonicalPegOut sampleLibs.digestOf sampleBurn).toWire sampleProposal none,
    .resume i 0 (sampleRequestView ["carol"]), .resume i 0 (sampleRequestView ["carol"]),
    .resume i 0 (sampleRequestView ["carol"])]

def quorumEvents : List (FederationEvent 2) :=
  .produce sampleBlock :: (signingEvents 0 ++ (signingEvents 1 ++ [.produce landingBlock]))

def quorumWorld : Federation 2 :=
  run (Federation.step sampleChain fun _ => sampleConfig) (.init 2) quorumEvents

theorem truthfulNode_sample {s : Federation 2} {i : Fin 2} {j : ℕ}
    (hnode : (s.signer i).node = [sampleBlock]) :
    TruthfulNode sampleLibs s (.resume i j (sampleRequestView ["carol"])) := by
  refine ⟨fun ms hms => ?_, fun bytes hb => ?_⟩
  · have hhead : headBlockTimeMs sampleLibs (sampleRequestView ["carol"]).nodes.viz
        = .ok 1767225600000 := by decide +kernel
    rw [hhead, Except.ok.injEq] at hms
    rw [hnode, ← hms]
    rfl
  · rw [hnode] at hb
    obtain ⟨b, hb, hmem⟩ := hb
    rw [List.mem_singleton.1 hb] at hmem
    exact absurd hmem List.not_mem_nil

/-- Both sign the sample release, it lands, and no other one of its action does. -/
theorem quorum_one_release_sample :
    quorumWorld.Quorum 2 sampleBurnHash (sampleReleaseBytes 1)
      ∧ quorumWorld.chain = [landingBlock, sampleBlock] ∧ ReleasesUnique 2 quorumWorld := by
  have htime : isGrapheneTime sampleProposal.expiration = true := by decide
  have hmeets : Meets (Federation.step sampleChain fun _ => sampleConfig)
      (TruthfulNode sampleLibs) (.init 2) quorumEvents := by
    refine ⟨trivial, trivial, htime, ?_, ?_, ?_, trivial, htime, ?_, ?_, ?_, trivial, trivial⟩
    · exact truthfulNode_sample (by decide +kernel)
    · exact truthfulNode_sample (by decide +kernel)
    · exact truthfulNode_sample (by decide +kernel)
    · exact truthfulNode_sample (by decide +kernel)
    · exact truthfulNode_sample (by decide +kernel)
    · exact truthfulNode_sample (by decide +kernel)
  refine ⟨?_, by decide +kernel, quorum_one_release sampleLibs_trxHash (by decide) hmeets⟩
  unfold Federation.Quorum
  decide +kernel

end VizGateway
