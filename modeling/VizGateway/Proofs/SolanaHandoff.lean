import VizGateway.Lib.Handover
import VizGateway.Lib.Runs
import VizGateway.SolanaRotation
import VizGateway.Proofs.RotationProposal
import VizGateway.Sample

/-!
# The mint's authorities follow the accepted operator sets

A message that an honest operator signs mints, or hands both authorities to a multisig that has the
members and the threshold of a master proposal the operator was given. So as long as every set that is
signed for has fewer keys out of honest hands than its threshold, both authorities stay together, with
such a multisig (`authorities_follow_accepted`), whatever files and transactions the others make up.
-/

namespace VizGateway

open Checks JsonTree Text

namespace SolanaHandoff

variable {Key : Type} (S : RotationSdk Key) (honest : Key → Bool)

/-- The multisig has the members and the threshold of the master's new operators. -/
def Matches (master : JsonTree) (ms : SplMultisig Key) : Prop :=
  ∃ operators, master.get "newOperators" = some (.arr operators) ∧
    (operators.map fun o => S.publicKey ((o.get "solanaPubkey").map S.ofTree)).Perm
      (ms.members.map some) ∧
    S.uint8 (master.get "newThreshold") = some ms.threshold

/-- Fewer members than the threshold are not honest. -/
def FewFaulty (ms : SplMultisig Key) : Prop :=
  ms.members.countP (fun k => !honest k) < ms.threshold

/-- The same of a master's new operators. -/
def Trusted (master : JsonTree) : Prop :=
  ∀ operators t, master.get "newOperators" = some (.arr operators) →
    S.uint8 (master.get "newThreshold") = some t →
      operators.countP (fun o =>
        (S.publicKey ((o.get "solanaPubkey").map S.ofTree)).any fun k => !honest k) < t

variable {S honest}

theorem fewFaulty_of_matches {master : JsonTree} {ms : SplMultisig Key} (h : Matches S master ms)
    (htrusted : Trusted S honest master) : FewFaulty honest ms := by
  obtain ⟨operators, hoperators, hperm, ht⟩ := h
  have hlt := htrusted operators _ hoperators ht
  have hcount := hperm.countP_eq fun k => k.any fun k => !honest k
  rw [List.countP_map, List.countP_map] at hcount
  unfold FewFaulty
  have hmembers : ms.members.countP ((fun k => k.any fun k => !honest k) ∘ some) =
      ms.members.countP fun k => !honest k := rfl
  rw [← hmembers, ← hcount]
  exact hlt

/-! ## What the checks let through -/

section Checked

variable {R : Runtime}

theorem strictEqual_str {v : Option JsonTree} {s : String}
    (h : strictEqual v (some (.str s)) = true) : v = some (.str s) := by
  simp only [strictEqual, Bool.and_eq_true, decide_eq_true_eq] at h
  exact h.1

theorem sameItems_texts {a : List (Option JsonTree)} {texts : List (Option JsonTree)}
    (htexts : ∀ v ∈ texts, ∃ s, v = some (.str s)) (h : sameItems a texts = true) : a = texts := by
  simp only [sameItems, Bool.and_eq_true, decide_eq_true_eq, List.all_eq_true] at h
  obtain ⟨hlen, hall⟩ := h
  refine List.ext_getElem hlen fun i hi hi' => ?_
  obtain ⟨s, hs⟩ := htexts _ (List.getElem_mem hi')
  have hzip := hall (a[i], texts[i]) (List.mem_iff_getElem.2 ⟨i, by simpa using ⟨hi, hi'⟩, by simp⟩)
  rw [hs] at hzip ⊢
  exact strictEqual_str hzip

theorem property_of_ok {p : JsonTree} {key : String} {v : Option JsonTree}
    (h : property (some p) key = .ok v) : v = p.get key := by
  obtain ⟨_, hp, hv⟩ := property_eq_ok h
  cases hp
  exact hv.symm

theorem solanaKeys_eq_ok {v : Option JsonTree} {keys : List (Option JsonTree)}
    (h : solanaKeys v = .ok keys) :
    ∃ operators, v = some (.arr operators) ∧ keys = operators.map (·.get "solanaPubkey") := by
  unfold solanaKeys at h
  split at h
  · next operators =>
    have hkeys := (mapM_eq_ok.1 h).imp fun o key hkey => property_of_ok hkey
    refine ⟨operators, rfl, ?_⟩
    rw [← List.forall₂_eq_eq_eq, List.forall₂_map_right_iff]
    exact hkeys.flip
  · cases h

/-- A multisig that passed the check has the members and the threshold of the master's operators. -/
theorem matches_of_validate {p master : JsonTree} {ms : SplMultisig Key} {u : Unit}
    (h : validateHandoffProposal S R p master ⟨ms.members.map S.toBase58, ms.threshold⟩ = .ok u) :
    Matches S master ms := by
  simp only [validateHandoffProposal, bind_eq_ok, require_eq_ok] at h
  obtain ⟨_, -, _, -, _, -, _, -, _, -, message, hmessage, _, -, _, -, operators, hoperators,
    expected, hexpected, _, -, newThreshold, hthreshold, _, ht, a, ha, b, hb, hsame⟩ := h
  obtain rfl := property_of_ok hoperators
  obtain rfl := property_of_ok hthreshold
  obtain ⟨operators, hoperators, rfl⟩ := solanaKeys_eq_ok hexpected
  have hbperm := sortKeys_perm hb
  have htexts : ∀ v ∈ b, ∃ s, v = some (.str s) := by
    intro v hv
    obtain ⟨s, -, rfl⟩ := List.mem_map.1 (hbperm.subset hv)
    exact ⟨s, rfl⟩
  obtain rfl := sameItems_texts htexts hsame
  have hperm : (operators.map (·.get "solanaPubkey")).Perm
      ((ms.members.map S.toBase58).map fun s => some (.str s)) :=
    (sortKeys_perm ha).symm.trans hbperm
  refine ⟨operators, hoperators, ?_, ?_⟩
  · have hkeys := hperm.map fun v => S.publicKey (v.map S.ofTree)
    rw [List.map_map, List.map_map, List.map_map] at hkeys
    refine hkeys.trans (List.Perm.of_eq (List.map_congr_left fun k _ => ?_))
    simp only [Function.comp_apply, Option.map_some, S.ofTree_str, S.publicKey_toBase58]
  · rw [ht]
    exact S.uint8_num _ (by have := ms.bounds; omega)

theorem message_of_signHandoff {p : JsonTree} {member : Key} {message : String}
    (h : S.signHandoff p member = .ok message) : S.handoffMessageB64 p = .ok message := by
  simp only [RotationSdk.signHandoff, bind_eq_ok, require_eq_ok, pure_eq_ok] at h
  obtain ⟨_, hmessage, _, -, _, -, _, -, _, -, rfl⟩ := h
  exact hmessage

variable {cfg : SolanaRotationConfig Key} {chain : MintChain Key}
  {p master : JsonTree} {nowMs : ℤ} {k : Key} {message : String}

theorem coSignSolana_eq_ok (h : coSignSolana S R cfg chain p master nowMs = .ok (some (k, message))) :
    ∃ address ms, S.key (p.get "newMultisig") = .ok address ∧ chain.multisigs address = some ms ∧
      Matches S master ms ∧ S.handoffMessageB64 p = .ok message := by
  simp only [coSignSolana, readMultisigMembers, bind_eq_ok, found_eq_ok, pure_eq_ok] at h
  obtain ⟨member, -, _, -, newMultisig, hnew, address, haddress, _, ⟨ms, hms, rfl⟩, _, hvalid,
    _, -, already, -, h⟩ := h
  obtain rfl := property_of_ok hnew
  refine ⟨address, ms, haddress, hms, matches_of_validate hvalid, ?_⟩
  split_ifs at h
  · simp at h
  · simp only [bind_eq_ok, pure_eq_ok, Option.some.injEq, Prod.mk.injEq] at h
    obtain ⟨_, hsigned, -, rfl⟩ := h
    exact message_of_signHandoff hsigned

theorem matches_of_newMultisigOf {ms : SplMultisig Key}
    (h : newMultisigOf S R cfg master nowMs = .ok ms) : Matches S master ms := by
  simp only [newMultisigOf, bind_eq_ok, require_eq_ok, found_eq_ok] at h
  obtain ⟨_, -, _, -, _, -, _, hoperators, _, hkeys, _, -, _, -, members, hmembers, _, hthreshold,
    threshold, ht, h⟩ := h
  obtain rfl := property_of_ok hoperators
  obtain rfl := property_of_ok hthreshold
  obtain ⟨operators, hoperators, rfl⟩ := solanaKeys_eq_ok hkeys
  split_ifs at h with hbounds
  obtain rfl := pure_eq_ok.1 h
  refine ⟨operators, hoperators, List.Perm.of_eq ?_, ht⟩
  have hall := (mapM_eq_ok.1 hmembers).imp fun v k hk => found_eq_ok.1 hk
  rw [← List.forall₂_eq_eq_eq, List.forall₂_map_left_iff, List.forall₂_map_right_iff]
  rwa [List.forall₂_map_left_iff] at hall

/-- The proposer signs for the multisig it has created. -/
theorem proposer_eq_ok {newMultisig : Key} {nonce : Option String}
    (h : handoffProposal S R cfg chain newMultisig nonce >>= proposerSignature S cfg =
      .ok (some (k, message))) :
    ∃ p, S.handoffMessageB64 p = .ok message ∧ S.key (p.get "newMultisig") = .ok newMultisig := by
  obtain ⟨p, hp, hsigned⟩ := bind_eq_ok.1 h
  refine ⟨p, ?_, ?_⟩
  · unfold proposerSignature at hsigned
    split at hsigned
    · cases hsigned
    · simp only [bind_eq_ok] at hsigned
      obtain ⟨_, -, hsigned⟩ := hsigned
      split_ifs at hsigned
      · simp only [bind_eq_ok, pure_eq_ok, Option.some.injEq, Prod.mk.injEq] at hsigned
        obtain ⟨_, hsigned, -, rfl⟩ := hsigned
        exact message_of_signHandoff hsigned
      · simp at hsigned
  · simp only [handoffProposal, bind_eq_ok, pure_eq_ok] at hp
    obtain ⟨submitter, -, _, -, _, -, _, -, nonceValue, -, signers, -, message', -, rfl⟩ := hp
    rw [get_set_of_ne (by decide)]
    simp [JsonTree.get, RotationSdk.key, S.ofTree_str, S.publicKey_toBase58, found]

end Checked

/-! ## What the chain makes of a message -/

section Chain

variable [DecidableEq Key] {c c' : MintChain Key} {isSigner : Key → Bool} {mint a : Key}

/-- Who may mint, and who may freeze. -/
def authorities (mint : Key) (c : MintChain Key) : Option Key × Option Key :=
  (c.mintAuthority mint, c.freezeAuthority mint)

theorem change_eq_some (mint : Key) {ch : AuthorityChange Key} (h : c.change isSigner ch = some c') :
    c'.multisigs = c.multisigs ∧ (authorities mint c' = authorities mint c ∨
      ch.account = mint ∧ (c.mintAuthority mint = some ch.authority ∨
        c.freezeAuthority mint = some ch.authority) ∧ c.approves ch.authority (fun k =>
          isSigner k && (ch.signers.contains k || k = ch.authority)) = true) := by
  by_cases hmint : ch.account = mint
  · subst hmint
    simp only [MintChain.change] at h
    split_ifs at h with hkind hguard hkind' hguard
    · obtain rfl := Option.some.inj h
      exact ⟨rfl, .inr ⟨rfl, .inl hguard.1, hguard.2⟩⟩
    · obtain rfl := Option.some.inj h
      exact ⟨rfl, .inr ⟨rfl, .inr hguard.1, hguard.2⟩⟩
    · obtain rfl := Option.some.inj h
      exact ⟨rfl, .inl rfl⟩
  · simp only [MintChain.change] at h
    split_ifs at h with hkind hguard hkind' hguard
    · obtain rfl := Option.some.inj h
      exact ⟨rfl, .inl (by simp [authorities, Function.update_of_ne (Ne.symm hmint)])⟩
    · obtain rfl := Option.some.inj h
      exact ⟨rfl, .inl (by simp [authorities, Function.update_of_ne (Ne.symm hmint)])⟩
    · obtain rfl := Option.some.inj h
      exact ⟨rfl, .inl rfl⟩

theorem exec_cons {i : Key × List Key × List UInt8} {is : List (Key × List Key × List UInt8)}
    (h : MintChain.exec S isSigner (i :: is) c = some c') :
    authorityChange S i = none ∧ MintChain.exec S isSigner is c = some c' ∨
      ∃ ch c₁, authorityChange S i = some ch ∧ c.change isSigner ch = some c₁ ∧
        MintChain.exec S isSigner is c₁ = some c' := by
  rw [MintChain.exec] at h
  cases hch : authorityChange S i with
  | none =>
    rw [hch] at h
    exact .inl ⟨rfl, h⟩
  | some ch =>
    rw [hch] at h
    obtain ⟨c₁, hc₁, hrest⟩ := Option.bind_eq_some_iff.1 h
    exact .inr ⟨ch, c₁, rfl, hc₁, hrest⟩

theorem multisigs_exec {is : List (Key × List Key × List UInt8)}
    (h : MintChain.exec S isSigner is c = some c') : c'.multisigs = c.multisigs := by
  induction is generalizing c with
  | nil =>
    obtain rfl := Option.some.inj h
    rfl
  | cons i is ih =>
    rcases exec_cons h with ⟨-, hrest⟩ | ⟨ch, c₁, -, hc₁, hrest⟩
    · exact ih hrest
    · rw [ih hrest]
      exact (change_eq_some ch.account hc₁).1

/-- Without enough members of the multisig, its authorities stay. -/
theorem exec_kept {ms : SplMultisig Key} {is : List (Key × List Key × List UInt8)}
    (hauth : authorities mint c = (some a, some a)) (hms : c.multisigs a = some ms)
    (hfew : ms.members.countP isSigner < ms.threshold)
    (h : MintChain.exec S isSigner is c = some c') : authorities mint c' = (some a, some a) := by
  induction is generalizing c with
  | nil =>
    obtain rfl := Option.some.inj h
    exact hauth
  | cons i is ih =>
    rcases exec_cons h with ⟨-, hrest⟩ | ⟨ch, c₁, -, hc₁, hrest⟩
    · exact ih hauth hms hrest
    · obtain ⟨hsame, hkept | ⟨-, hheld, happroved⟩⟩ := change_eq_some mint hc₁
      · exact ih (hkept.trans hauth) (by rw [hsame, hms]) hrest
      · -- the change was made under the multisig, so enough of its members are signers
        exfalso
        obtain rfl : ch.authority = a := by
          obtain ⟨hmint, hfreeze⟩ := Prod.mk.inj hauth
          rcases hheld with hheld | hheld
          · exact Option.some.inj (hheld.symm.trans hmint)
          · exact Option.some.inj (hheld.symm.trans hfreeze)
        rw [MintChain.approves, hms, decide_eq_true_eq] at happroved
        have hle : ms.members.countP (fun k =>
            isSigner k && (ch.signers.contains k || decide (k = ch.authority))) ≤
              ms.members.countP isSigner :=
          List.countP_mono_left fun k _ hk => (Bool.and_eq_true_iff.1 hk).1
        omega

theorem exec_of_none {is : List (Key × List Key × List UInt8)}
    (h : ∀ i ∈ is, authorityChange S i = none) : MintChain.exec S isSigner is c = some c := by
  induction is with
  | nil => rfl
  | cons i is ih =>
    rw [MintChain.exec, h i List.mem_cons_self]
    exact ih fun j hj => h j (List.mem_cons_of_mem _ hj)

theorem authorityChange_of_ne {i : TransactionInstruction Key}
    (h : i.programId ≠ S.token2022Program) : authorityChange S i.compiled = none := by
  exact if_neg h

/-- A mint changes no authority. -/
theorem exec_mintMessage {tx : SolanaMintTx} {message : String} {k : Key} {b : Option Json}
    {is : List (TransactionInstruction Key)} (h : S.mintMessage tx = some message)
    (hsame : S.compile k b is = some message) :
    MintChain.exec S isSigner (is.map (·.compiled)) c = some c := by
  simp only [SolanaSdk.mintMessage, bind, Option.bind_eq_some_iff] at h
  obtain ⟨submitter, -, nonce, -, mint, -, recipient, -, ata, -, signers, -, multisig, -, mintTo,
    hmintTo, memo, hmemo, hcompile⟩ := h
  rw [S.compile_inj hsame hcompile]
  refine exec_of_none fun _ hmem => ?_
  obtain ⟨i, hi, rfl⟩ := List.mem_map.1 hmem
  rcases List.mem_append.1 hi with hi | hi
  · simp only [List.mem_cons, List.not_mem_nil, or_false] at hi
    rcases hi with rfl | rfl | rfl
    · exact authorityChange_of_ne S.system_ne_token
    · exact authorityChange_of_ne S.associated_ne_token
    · obtain ⟨units, -, rfl⟩ := Option.map_eq_some_iff.1 hmintTo
      simp [authorityChange, TransactionInstruction.compiled]
  · cases hid : tx.memo with
    | none =>
      rw [hid] at hmemo
      obtain rfl := Option.some.inj hmemo
      cases hi
    | some actionId =>
      rw [hid] at hmemo
      obtain ⟨data, -, rfl⟩ := Option.map_eq_some_iff.1 hmemo
      rw [List.mem_singleton.1 hi]
      exact authorityChange_of_ne S.memo_ne_token

theorem authorityChange_setAuthority (account authority new : Key) (kind : AuthorityType)
    (signers : List Key) :
    authorityChange S (S.setAuthority account authority kind new signers).compiled =
      some ⟨account, authority, kind.byte, some new, signers⟩ := by
  simp [authorityChange, TransactionInstruction.compiled, RotationSdk.setAuthority,
    S.ofBytes_toBytes, Function.comp_def]

theorem change_mintTokens {account authority : Key} {new : Option Key} {signers : List Key}
    (h : c.change isSigner ⟨account, authority, AuthorityType.mintTokens.byte, new, signers⟩ =
      some c') : c' = { c with mintAuthority := Function.update c.mintAuthority account new } := by
  simp only [MintChain.change, if_true] at h
  split_ifs at h
  exact (Option.some.inj h).symm

theorem change_freezeAccount {account authority : Key} {new : Option Key} {signers : List Key}
    (h : c.change isSigner ⟨account, authority, AuthorityType.freezeAccount.byte, new, signers⟩ =
      some c') : c' = { c with freezeAuthority := Function.update c.freezeAuthority account new } := by
  have hne : AuthorityType.freezeAccount.byte ≠ AuthorityType.mintTokens.byte := by decide
  simp only [MintChain.change, if_neg hne, if_true] at h
  split_ifs at h
  exact (Option.some.inj h).symm

/-- A handoff moves both authorities to the new multisig, or none. -/
theorem exec_handoff (mint : Key) {p : JsonTree} {message : String} {k newMs : Key} {b : Option Json}
    {is : List (TransactionInstruction Key)} (h : S.handoffMessageB64 p = .ok message)
    (hnew : S.key (p.get "newMultisig") = .ok newMs) (hsame : S.compile k b is = some message)
    (hexec : MintChain.exec S isSigner (is.map (·.compiled)) c = some c') :
    authorities mint c' = authorities mint c ∨ authorities mint c' = (some newMs, some newMs) := by
  simp only [RotationSdk.handoffMessageB64, RotationSdk.buildHandoffTx, bind_eq_ok, pure_eq_ok,
    found_eq_ok] at h
  obtain ⟨_, ⟨_, -, submitter, -, _, -, oldMs, -, newMultisig, hnewMultisig, newMs', hnewMs', _, -,
    mint', -, _, -, signers, -, _, -, _, -, nonce, -, rfl⟩, hcompile⟩ := h
  obtain rfl := property_of_ok hnewMultisig
  obtain rfl : newMs' = newMs := Except.ok.inj (hnewMs'.symm.trans hnew)
  rw [S.compile_inj hsame hcompile] at hexec
  have hnonce : authorityChange S (S.nonceAdvance nonce submitter).compiled = none :=
    authorityChange_of_ne S.system_ne_token
  rcases exec_cons hexec with ⟨-, hexec⟩ | ⟨_, _, hch, -⟩
  · rcases exec_cons hexec with ⟨hch, -⟩ | ⟨ch₁, c₁, hch₁, hc₁, hexec⟩
    · rw [authorityChange_setAuthority] at hch
      cases hch
    rcases exec_cons hexec with ⟨hch, -⟩ | ⟨ch₂, c₂, hch₂, hc₂, hexec⟩
    · rw [authorityChange_setAuthority] at hch
      cases hch
    obtain rfl : c₂ = c' := Option.some.inj hexec
    rw [authorityChange_setAuthority, Option.some.injEq] at hch₁ hch₂
    subst hch₁ hch₂
    rw [change_freezeAccount hc₂, change_mintTokens hc₁]
    by_cases hmint : mint' = mint
    · subst hmint
      exact .inr (by simp [authorities])
    · exact .inl (by simp [authorities, Function.update_of_ne (Ne.symm hmint)])
  · rw [hnonce] at hch
    cases hch

end Chain

/-! ## The ceremony -/

section Ceremony

section

variable (S honest) (a₀ : Key)

/-- Both authorities lie with one multisig, the first or one an accepted master asks for. -/
def Accepted (w : HandoffWorld Key) (held : Option Key × Option Key) : Prop :=
  ∃ a ms, held = (some a, some a) ∧ w.chain.multisigs a = some ms ∧ FewFaulty honest ms ∧
    (a = a₀ ∨ ∃ master ∈ w.accepted, Matches S master ms)

/-- What an honest operator signs: a mint, or the handoff to a multisig an accepted master asks
for. -/
def Sanctioned (w : HandoffWorld Key) (message : String) : Prop :=
  (∃ tx, S.mintMessage tx = some message) ∨
    ∃ p newMs ms master, S.handoffMessageB64 p = .ok message ∧
      S.key (p.get "newMultisig") = .ok newMs ∧ w.chain.multisigs newMs = some ms ∧
      FewFaulty honest ms ∧ master ∈ w.accepted ∧ Matches S master ms

open Classical in
/-- Those who take part are enough members of the multisig that holds both. -/
def Enough (w : HandoffWorld Key) (held : Option Key × Option Key) (P : Key → Prop) : Prop :=
  ∃ a ms, held = (some a, some a) ∧ w.chain.multisigs a = some ms ∧
    ms.threshold ≤ ms.members.countP fun k => decide (P k)

/-- An operator runs the commands only with a master whose new operators it trusts. -/
def Reviewed (_ : HandoffWorld Key) : HandoffEvent Key → Prop
  | .propose _ master .. | .coSign _ _ master _ => Trusted S honest master
  | _ => True

/-- A later world: accounts that were there are, and no accepted master is forgotten. -/
structure Later (w w' : HandoffWorld Key) : Prop where
  multisigs : ∀ {k ms}, w.chain.multisigs k = some ms → w'.chain.multisigs k = some ms
  accepted : w.accepted ⊆ w'.accepted

theorem Later.refl (w : HandoffWorld Key) : Later w w := ⟨fun h => h, fun _ h => h⟩

variable {S honest} {a₀ : Key} {w w' w'' : HandoffWorld Key}

theorem Later.trans (h : Later w w') (h' : Later w' w'') :
    Later w w'' :=
  ⟨fun hk => h'.multisigs (h.multisigs hk), fun _ hm => h'.accepted (h.accepted hm)⟩

theorem Accepted.later {held : Option Key × Option Key}
    (h : Accepted S honest a₀ w held) (hw : Later w w') : Accepted S honest a₀ w' held := by
  obtain ⟨a, ms, hheld, hms, hfew, hor⟩ := h
  refine ⟨a, ms, hheld, hw.multisigs hms, hfew, hor.imp_right ?_⟩
  rintro ⟨master, hmaster, hmatches⟩
  exact ⟨master, hw.accepted hmaster, hmatches⟩

theorem Sanctioned.later {message : String}
    (h : Sanctioned S honest w message) (hw : Later w w') : Sanctioned S honest w' message := by
  refine h.imp_right ?_
  rintro ⟨p, newMs, ms, master, hmessage, hnew, hms, hfew, hmaster, hmatches⟩
  exact ⟨p, newMs, ms, master, hmessage, hnew, hw.multisigs hms, hfew, hw.accepted hmaster, hmatches⟩

end

variable [DecidableEq Key] (S honest) (R : Runtime) (mint a₀ : Key)

/-- The ceremony as a handing over. -/
def system : Handover.System (HandoffWorld Key) (HandoffEvent Key) Key String
    (Option Key × Option Key) where
  step w e := w.step S R honest e
  allowed := Reviewed S honest
  authority w := authorities mint w.chain
  signed w k message := (k, message) ∈ w.signed
  honest k := honest k = true
  enough := Enough
  accepted := Accepted S honest a₀
  sanctioned := Sanctioned S honest

variable {S honest R mint a₀} {w : HandoffWorld Key} {e : HandoffEvent Key}

theorem multisigs_create {c : MintChain Key} {address k : Key} {ms ms' : SplMultisig Key}
    (h : c.multisigs k = some ms) : (c.create address ms').multisigs k = some ms := by
  unfold MintChain.create
  split_ifs with hthere
  · exact h
  · have hne : k ≠ address := by
      rintro rfl
      simp [h] at hthere
    exact (Function.update_of_ne hne _ _).trans h

theorem authorities_create {c : MintChain Key} {address : Key} {ms : SplMultisig Key} :
    authorities mint (c.create address ms) = authorities mint c := by
  unfold MintChain.create
  split_ifs <;> rfl

omit [DecidableEq Key] in
theorem later_addSigned (w : HandoffWorld Key) (master : JsonTree) (s : Option (Key × String)) :
    Later w (w.addSigned master s) := by
  cases s with
  | none => exact Later.refl w
  | some s => exact ⟨fun h => h, List.subset_cons_self _ _⟩

theorem later_step (w : HandoffWorld Key) (e : HandoffEvent Key) :
    Later w (w.step S R honest e) := by
  cases e with
  | create address ms => exact ⟨multisigs_create, fun _ h => h⟩
  | propose cfg master nowMs newMultisig nonce =>
    simp only [HandoffWorld.step]
    split
    · exact Later.refl w
    · next ms _ =>
      split_ifs
      · exact Later.refl w
      · have hcreated : Later w { w with chain := w.chain.create newMultisig ms } :=
          ⟨multisigs_create, fun _ h => h⟩
        split
        · exact hcreated
        · exact hcreated.trans (later_addSigned _ master _)
  | coSign cfg proposal master nowMs =>
    simp only [HandoffWorld.step]
    split
    · exact Later.refl w
    · exact later_addSigned w master _
  | signMint member tx =>
    simp only [HandoffWorld.step]
    split <;> exact ⟨fun h => h, fun _ h => h⟩
  | sign key message =>
    simp only [HandoffWorld.step]
    split_ifs <;> exact ⟨fun h => h, fun _ h => h⟩
  | land feePayer recentBlockhash instructions =>
    simp only [HandoffWorld.step]
    split
    · exact Later.refl w
    · split_ifs
      · split
        · next chain hexec =>
          exact ⟨fun h => by rw [multisigs_exec hexec]; exact h, fun _ h => h⟩
        · exact Later.refl w
      · exact Later.refl w

/-- A new signature of an honest key is under what it answers for. -/
theorem signed_step (he : Reviewed S honest w e) {k : Key} {message : String}
    (hk : honest k = true) (h : (k, message) ∈ (w.step S R honest e).signed) :
    (k, message) ∈ w.signed ∨ Sanctioned S honest (w.step S R honest e) message := by
  cases e with
  | create address ms => exact .inl h
  | propose cfg master nowMs newMultisig nonce =>
    have htrusted : Trusted S honest master := he
    simp only [HandoffWorld.step] at h ⊢
    split at h
    · exact .inl h
    · next ms hms =>
      split_ifs at h ⊢ with hthere
      · exact .inl h
      split at h
      · exact .inl h
      · next signature hsigned =>
        cases signature with
        | none => exact .inl h
        | some s =>
          rcases List.mem_cons.1 h with rfl | h
          · have hmatches := matches_of_newMultisigOf hms
            obtain ⟨p, hmessage, hnew⟩ := proposer_eq_ok hsigned
            have hcreated : (w.chain.create newMultisig ms).multisigs newMultisig = some ms := by
              unfold MintChain.create
              rw [if_neg fun h => hthere (.inr h)]
              exact Function.update_self ..
            exact .inr (.inr ⟨p, newMultisig, ms, master, hmessage, hnew, hcreated,
              fewFaulty_of_matches hmatches htrusted, List.mem_cons_self, hmatches⟩)
          · exact .inl h
  | coSign cfg proposal master nowMs =>
    have htrusted : Trusted S honest master := he
    simp only [HandoffWorld.step] at h ⊢
    split at h
    · exact .inl h
    · next signature hsigned =>
      cases signature with
      | none => exact .inl h
      | some s =>
        rcases List.mem_cons.1 h with rfl | h
        · obtain ⟨address, ms, hnew, hms, hmatches, hmessage⟩ := coSignSolana_eq_ok hsigned
          exact .inr (.inr ⟨proposal, address, ms, master, hmessage, hnew, hms,
            fewFaulty_of_matches hmatches htrusted, List.mem_cons_self, hmatches⟩)
        · exact .inl h
  | signMint member tx =>
    simp only [HandoffWorld.step] at h ⊢
    split at h
    · next message' hmessage =>
      rcases List.mem_cons.1 h with heq | h
      · obtain ⟨-, rfl⟩ := Prod.mk.inj heq
        exact .inr (.inl ⟨tx, hmessage⟩)
      · exact .inl h
    · exact .inl h
  | sign key message' =>
    simp only [HandoffWorld.step] at h
    split_ifs at h with hhonest
    · exact .inl h
    · rcases List.mem_cons.1 h with heq | h
      · obtain ⟨rfl, -⟩ := Prod.mk.inj heq
        exact absurd hk hhonest
      · exact .inl h
  | land feePayer recentBlockhash instructions =>
    left
    simp only [HandoffWorld.step] at h
    split at h
    · exact h
    · split_ifs at h
      · split at h <;> exact h
      · exact h

/-- The authorities only change by a message that enough members of their multisig have signed. -/
theorem authority_step (hheld : Accepted S honest a₀ w (authorities mint w.chain)) :
    authorities mint (w.step S R honest e).chain = authorities mint w.chain ∨
      ∃ message, Enough w (authorities mint w.chain) (fun k => (k, message) ∈ w.signed) ∧
        (Sanctioned S honest w message →
          Accepted S honest a₀ (w.step S R honest e)
            (authorities mint (w.step S R honest e).chain)) := by
  cases e with
  | create address ms => exact .inl authorities_create
  | propose cfg master nowMs newMultisig nonce =>
    left
    simp only [HandoffWorld.step]
    split
    · rfl
    · split_ifs
      · rfl
      · split
        · exact authorities_create
        · next signature _ => cases signature <;> exact authorities_create
  | coSign cfg proposal master nowMs =>
    left
    simp only [HandoffWorld.step]
    split
    · rfl
    · next signature _ => cases signature <;> rfl
  | signMint member tx =>
    left
    simp only [HandoffWorld.step]
    split <;> rfl
  | sign key message =>
    left
    simp only [HandoffWorld.step]
    split_ifs <;> rfl
  | land feePayer recentBlockhash instructions =>
    have hlater : Later w (w.step S R honest (.land feePayer recentBlockhash instructions)) :=
      later_step w _
    simp only [HandoffWorld.step] at hlater ⊢
    cases hcompile : S.compile feePayer recentBlockhash instructions with
    | none => exact .inl rfl
    | some message =>
      simp only [hcompile] at hlater ⊢
      split_ifs at hlater ⊢ with hsigned
      · generalize hexec : MintChain.exec S _ _ w.chain = result at hlater ⊢
        cases result with
        | none => exact .inl rfl
        | some chain =>
          obtain ⟨a, ms, hboth, hms, hfew, hor⟩ := id hheld
          by_cases henough : ms.threshold ≤ ms.members.countP fun k =>
              (HandoffWorld.signerKeys feePayer instructions).contains k
          · refine .inr ⟨message, ⟨a, ms, hboth, hms, henough.trans ?_⟩, fun hsanctioned => ?_⟩
            · refine List.countP_mono_left fun k _ hk => ?_
              have hmem : (k, message) ∈ w.signed := hsigned k (by simpa using hk)
              simpa using hmem
            · rcases hsanctioned with ⟨tx, hmint⟩ | ⟨p, newMs, ms', master, hmessage, hnew, hms',
                hfew', hmaster, hmatches⟩
              · rw [exec_mintMessage hmint hcompile] at hexec
                obtain rfl := Option.some.inj hexec
                exact hheld
              · rcases exec_handoff mint hmessage hnew hcompile hexec with hsame | hmoved
                · rw [hsame]
                  exact hheld.later hlater
                · exact ⟨newMs, ms', hmoved, hlater.multisigs hms', hfew', .inr ⟨master,
                    hlater.accepted hmaster, hmatches⟩⟩
          · left
            rw [exec_kept hboth hms (not_le.1 henough) hexec, hboth]
      · exact .inl rfl

theorem rules : Handover.Rules (system S honest R mint a₀) where
  honest := by
    rintro w held P ⟨a, ms, rfl, hms, hfew, -⟩ ⟨a', ms', hheld, hms', hmany⟩
    obtain rfl : a = a' := Option.some.inj (Prod.mk.inj hheld).1
    obtain rfl : ms = ms' := Option.some.inj (hms.symm.trans hms')
    obtain ⟨k, -, hk, hp⟩ := Handover.exists_honest hfew hmany
    exact ⟨k, hk, by simpa using hp⟩
  accepted w e _ _ h := h.later (later_step w e)
  sanctioned w e _ _ h := h.later (later_step w e)
  signed _ _ _ _ he hk h := signed_step he hk h
  authority _ _ _ hheld := authority_step hheld

end Ceremony

end SolanaHandoff

open SolanaHandoff

/-- The keys it is about. -/
inductive HandoffKey
  | submitter
  | nonce
  | mint
  | oldMultisig
  | newMultisig
  | first
  | second
  | third
  | newFirst
  | newSecond
  | system
  | recentBlockhashes
  | associatedToken
  | token2022
  | memo
  deriving DecidableEq, Repr

namespace HandoffKey

def all : List HandoffKey :=
  [submitter, nonce, mint, oldMultisig, newMultisig, first, second, third, newFirst, newSecond,
    system, recentBlockhashes, associatedToken, token2022, memo]

def base58 : HandoffKey → String
  | submitter => "3F1nNPDu3BDoArFYVLxMjxQooxhKHJVCLCJBSf4rzeGv"
  | nonce => "ZSx1e5zpVu3SY2cwo1vqUrSe34UaGkRdinnbv99nmSc"
  | mint => "APTCgk1UGYgrCiy6B1yVBxkCuzm2K9Rtk2ZSgEiWMdDD"
  | oldMultisig => "2wHUa5mm6vKSYHbGRNZiHUcMZmD9pAG1zMqJb9SQAJbj"
  | newMultisig => "Gv4eqmR6RFiK6RozVd2aRBbmChK6cT6nqAPjxr2miy6i"
  | first => "HKhys27XsZDfXRnuxfbjrERgFeQjMoeXDM2LukqF8hwM"
  | second => "7xRCkYFseSkd3VvaP4i9N8LYVrGthb6YX5X7tHiU2Htq"
  | third => "8nUoKGipBmtVwJAuEAv7UyRDdoSeHSKUeG7tQKgVCUdd"
  | newFirst => "FHfki964mH6Sqgb6A2LYBF2jwHaLtSqdgej8KhSqRBAg"
  | newSecond => "CiLdeJVbS4XXZuV6BgUcGmFAGj6b38LfaHxPfyjDJgkq"
  | system => "11111111111111111111111111111111"
  | recentBlockhashes => "SysvarRecentB1ockHashes11111111111111111111"
  | associatedToken => "ATokenGPvbdGVxr1b2hvZbsiqW5xWH25efTNsLJA8knL"
  | token2022 => "TokenzQdBNbLqP5VEhdkAS6EPFLC1PHnBqCXEpPxuEb"
  | memo => "Memo1UhkJRfHyvLMcVucJwxXeuD728EqVDDwQDxFMNo"

/-- The number the text stands for. -/
def number : HandoffKey → ℕ
  | submitter => 0x214e63bf41490e67d34476778f6707aa6c8d2c8dccdf78ae11e40ee9f91e89a7
  | nonce => 0x84fed08b978af4d7d196a7446a86b58009e636b611db16211b65a9aadff29c5
  | mint => 0x8b799613504fbd3b29cafde58a1d9b2b3f6efada91babee86ff879acee220824
  | oldMultisig => 0x1cc3adea40ebfd94433ac004777d68150cce9db4c771bc7de1b297a7b795bbba
  | newMultisig => 0xec77377261ffbebc3e5431f4be2732d3448ba6f58cc7b82e3d154104007df3b3
  | first => 0xf285c834c837dab8fe22ab8efcdc576b243808ec3981ee2f55683369144421a8
  | second => 0x67586e98fad27da0b9968bc039a1ef34c939b9b8e523a8bef89d478608c5ecf6
  | third => 0x73a86075b9a14e6e83849c32c329fbc9986ee35ea048d51c4b3519d6077fc8f0
  | newFirst => 0xd448ba8ff501e49136b5bfaeb726e869a6d4f281af498cc3f7f22c9dc627d6f9
  | newSecond => 0xae07912c6ed6809a6681dec996dcf8c3782d3b82bac93ede6534dc4eda73b112
  | system => 0x0
  | recentBlockhashes => 0x6a7d517192c568ee08a845f73d29788cf035c3145b21ab344d8062ea9400000
  | associatedToken => 0x8c97258f4e2489f1bb3d1029148e0d830b5a1399daff1084048e7bd8dbe9f859
  | token2022 => 0x6ddf6e1ee758fde18425dbce46ccddab61afc4d83b90d27febdf928d8a18bfc
  | memo => 0x54a5350f85dc882d614a55672788a296ddf1eababd0a60678884932f4eef6a0

def bytes (k : HandoffKey) : List UInt8 :=
  (List.range 32).reverse.map fun i => UInt8.ofNat (k.number / 256 ^ i)

theorem find_base58 (k : HandoffKey) : all.find? (fun j => j.base58 = k.base58) = some k := by
  cases k <;> decide +kernel

theorem find_bytes (k : HandoffKey) : all.find? (fun j => j.bytes = k.bytes) = some k := by
  cases k <;> decide +kernel

end HandoffKey

open HandoffKey in
/-- The message's instructions. -/
def handoffInstructions : List (HandoffKey × List HandoffKey × List UInt8) :=
  [(system, [nonce, recentBlockhashes, submitter], [4, 0, 0, 0]),
    (token2022, [mint, oldMultisig, first, second], 6 :: 0 :: 1 :: newMultisig.bytes),
    (token2022, [mint, oldMultisig, first, second], 6 :: 1 :: 1 :: newMultisig.bytes)]

/-- The message as the compiler writes it. -/
def handoffText : String :=
  "AwIECSFOY79BSQ5n00R2d49nB6psjSyNzN94rhHkDun5HomnZ1humPrSfaC5lovAOaHvNMk5ubjlI6i++J1HhgjF"
    ++ "7Pbyhcg0yDfauP4iq4783FdrJDgI7DmB7i9VaDNpFEQhqIt5lhNQT707Kcr95Yodmys/bvrakbq+6G/4eazuIggk"
    ++ "CE/tCLl4r019GWp0RqhrWACeY2thHbFiEbZamq3/KcUAAAAAAAAAAAAAAAAAAAAAAAAAAAAAAAAAAAAAAAAAABzD"
    ++ "repA6/2UQzrABHd9aBUMzp20x3G8feGyl6e3lbu6BqfVFxksVo7gioRfc9KXiM8DXDFFshqzRNgGLqlAAAAG3fbh"
    ++ "7nWP3hhCXbzkbM3athr8TYO5DSf+vfko2KGL/CqINXBlTI83YKSmfXzbgm+HnSHd/MJXZtdXCOuhIWkoAwUDBAcA"
    ++ "BAQAAAAIBAMGAgEjBgAB7Hc3cmH/vrw+VDH0vicy00SLpvWMx7guPRVBBAB987MIBAMGAgEjBgEB7Hc3cmH/vrw+"
    ++ "VDH0vicy00SLpvWMx7guPRVBBAB987M="

def handoffNonce : String := "3s2b3i2DAsNkH2ghyPw4kZiW7YgUiv6MYvkbpg39tcUf"

def handoffBuffer : Json → Option (List UInt8)
  | .str s => some (utf8Bytes s)
  | _ => none

theorem handoffBuffer_str (s : String) : handoffBuffer (.str s) = some (utf8Bytes s) := rfl

def handoffSdk : RotationSdk HandoffKey where
  publicKey v := match v with
    | some (.str s) => HandoffKey.all.find? (·.base58 = s)
    | _ => none
  associatedTokenAddress _ _ := none
  u64 n := if 0 ≤ n ∧ n < 2 ^ 64 then some (littleEndian 8 n.toNat) else none
  bufferFrom := handoffBuffer
  bufferFrom_str := handoffBuffer_str
  systemProgram := .system
  recentBlockhashes := .recentBlockhashes
  associatedTokenProgram := .associatedToken
  token2022Program := .token2022
  memoProgram := .memo
  compile k b is :=
    if k = .submitter ∧ b = some (.str handoffNonce) ∧ is.map (·.compiled) = handoffInstructions then
      some handoffText
    else none
  compile_inj := by
    intro k k' b b' is is' m h h'
    split_ifs at h h' with hk hk'
    rw [hk.2.2, hk'.2.2]
  ofTree v := match v with
    | .str s => .str s
    | _ => .null
  ofTree_str _ := rfl
  toBase58 := HandoffKey.base58
  publicKey_toBase58 := HandoffKey.find_base58
  toBytes := HandoffKey.bytes
  ofBytes b := HandoffKey.all.find? (·.bytes = b)
  ofBytes_toBytes := HandoffKey.find_bytes
  uint8 v := match v with
    | some (.num x) => if x.den = 1 ∧ 0 ≤ x.num ∧ x.num < 256 then some x.num.toNat else none
    | _ => none
  uint8_num n hn := by simp [hn]
  system_ne_token := by decide
  associated_ne_token := by decide
  memo_ne_token := by decide

def handoffRuntime : Runtime where
  numberText x := bigintText x.num
  number s := ((bigIntOfString s).map fun n => JsNumber.finite n).getD .nan
  dateParse := parseIsoDate

def handoffOperators : List OperatorRef :=
  [⟨"op-1", "VIZ81beKM3eDPMdQwNm1Nd65Pi9df5NY2MXbUypddhHg1TJM5gRBB", "aa",
      HandoffKey.newFirst.base58⟩,
    ⟨"op-2", "VIZ6bA3EYLcYUW4MqBnuStZr9mtifbsPu2sB8uEZmXFxzVdWZzyLa", "bb",
      HandoffKey.newSecond.base58⟩]

/-- The master proposal: two new operators, both needed. -/
def handoffMaster : JsonTree :=
  ((buildProposal handoffRuntime
    { chainId := "viz-gateway"
      account := "viz-gateway"
      newOperators := handoffOperators
      newThreshold := 2
      memoKey := "VIZ66354NrsbxJgp8371cZYZRnqFEUS6ddz2GmkrUJGo6fq8uoasS"
      jsonMetadata := "\x7b\x7d"
      currentActiveHash := "deadbeef"
      taPoS := ⟨1234, 5678901, "2099-01-01T00:00:00"⟩ }).toOption).getD .null

/-- The file of the handoff: two members of the old multisig are to sign. -/
def handoffFile : JsonTree :=
  .obj [("version", .num 1), ("chainId", .str "viz-gateway"),
    ("oldMultisig", .str HandoffKey.oldMultisig.base58),
    ("newMultisig", .str HandoffKey.newMultisig.base58), ("mint", .str HandoffKey.mint.base58),
    ("nonceAccount", .str HandoffKey.nonce.base58), ("nonceValue", .str handoffNonce),
    ("feePayer", .str HandoffKey.submitter.base58),
    ("signers", .arr [.str HandoffKey.first.base58, .str HandoffKey.second.base58]),
    ("messageB64", .str handoffText), ("signatures", .arr [])]

def handoffConfig (signer : HandoffKey) : SolanaRotationConfig HandoffKey where
  oldMultisig := HandoffKey.oldMultisig.base58
  mint := HandoffKey.mint.base58
  nonceAccount := HandoffKey.nonce.base58
  submitter := none
  signer := some signer
  chainId := "viz-gateway"
  apply := true

def handoffStart : MintChain HandoffKey where
  multisigs k := if k = .oldMultisig then some ⟨[.first, .second, .third], 2, by decide⟩ else none
  mintAuthority k := if k = .mint then some .oldMultisig else none
  freezeAuthority k := if k = .mint then some .oldMultisig else none

def handoffEvents : List (HandoffEvent HandoffKey) :=
  [.create .newMultisig ⟨[.newSecond, .newFirst], 2, by decide⟩,
    .coSign (handoffConfig .first) handoffFile handoffMaster 0,
    .coSign (handoffConfig .second) handoffFile handoffMaster 0,
    .sign .submitter handoffText,
    .land .submitter (some (.str handoffNonce))
      [handoffSdk.nonceAdvance .nonce .submitter,
        handoffSdk.setAuthority .mint .oldMultisig .mintTokens .newMultisig [.first, .second],
        handoffSdk.setAuthority .mint .oldMultisig .freezeAccount .newMultisig [.first, .second]]]

/-- One old and one new operator are not honest. -/
def handoffHonest (k : HandoffKey) : Bool := [.first, .second, .newFirst].contains k

theorem trusted_handoffMaster : Trusted handoffSdk handoffHonest handoffMaster := by
  intro operators t hoperators ht
  have hops : handoffMaster.get "newOperators" =
      some (.arr (handoffOperators.map OperatorRef.toTree)) := by decide +kernel
  have hthreshold : handoffSdk.uint8 (handoffMaster.get "newThreshold") = some 2 := by decide +kernel
  obtain rfl := JsonTree.arr.inj (Option.some.inj (hoperators.symm.trans hops))
  obtain rfl := Option.some.inj (ht.symm.trans hthreshold)
  decide +kernel

end VizGateway
