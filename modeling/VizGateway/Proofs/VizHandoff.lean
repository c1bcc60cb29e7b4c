import VizGateway.Proofs.SolanaHandoff
import VizGateway.VizRotation

/-!
# The gateway account's keys are the reviewed ones

Whatever files the operators are given, what an honest one signs is a release, a registration or the
handing over to the keys of a proposal it reviewed. Each change of the active authority takes an honest
key of the present one, so in every run the authority is the first one or that of a reviewed proposal.
-/

namespace VizGateway

open Checks JsonTree

/-- What the library and the chain agree on: an authority that is signed is well typed, an update and a
release are read back from their bytes, and no registration begins like the chain's id. -/
structure RotationSerializer.Lawful (V : RotationSerializer) (L : Libs) : Prop where
  chainId : ∃ b rest, V.chainId = b :: rest ∧ b ≠ 118
  typed : ∀ key, TypedAuthorities (V.signTransaction key)
  update : ∀ {tx account} {threshold : ℚ} {keys memoKey jsonMetadata bytes},
    tx.get "operations" = some (.arr [.arr [.str "account_update", .obj [("account", .str account),
      ("active", keyAuthority threshold keys), ("regular", keyAuthority threshold keys),
      ("memo_key", .str memoKey), ("json_metadata", .str jsonMetadata)]]]) →
    V.toBuffer tx = some bytes → ∃ t : ℕ, threshold = t ∧
      V.operations bytes = [.accountUpdate account false (some ⟨t, keys.map fun k => (k, 1)⟩)]
  release : ∀ {p bytes}, L.toBuffer (buildReleaseTx p) = some bytes → V.operations bytes = [.other]

namespace VizHandoff

variable {L : Libs} {V : RotationSerializer} {R : Runtime} {honest : String → Bool}
  {recovers : String → (String → Bool) → Bool}

/-- The proposal's operators, by their keys, and its threshold. -/
structure Proposes (p : JsonTree) (keys : List String) (threshold : ℕ) : Prop where
  operators : ∃ operators, p.get "newOperators" = some (.arr operators) ∧
    operators.map (·.get "vizPubkey") = keys.map fun k => some (.str k)
  threshold : p.get "newThreshold" = some (.num threshold)

/-- The authority is that of the proposal's operators, one weight each. -/
def Names (p : JsonTree) (a : VizAuthority) : Prop :=
  ∃ keys, Proposes p keys a.weight_threshold ∧ a.key_auths.Perm (keys.map fun k => (k, 1))

variable (honest) in
/-- The keys that are not honest are not enough. -/
def FewFaulty (a : VizAuthority) : Prop :=
  Handover.weight a.key_auths (fun k => !honest k) < a.weight_threshold

variable (honest) in
def Trusted (p : JsonTree) : Prop :=
  ∀ keys threshold, Proposes p keys threshold → keys.countP (fun k => !honest k) < threshold

theorem fewFaulty_of_names {p : JsonTree} {a : VizAuthority} (h : Names p a)
    (htrusted : Trusted honest p) : FewFaulty honest a := by
  obtain ⟨keys, hproposes, hperm⟩ := h
  unfold FewFaulty
  rw [Handover.weight_perm hperm, Handover.weight_ones]
  exact htrusted keys a.weight_threshold hproposes

/-! ## What an honest operator signs -/

theorem names_of_handsOver {p tx : JsonTree} {bytes : List UInt8} (hV : V.Lawful L)
    (h : HandsOver p tx) (hbytes : V.toBuffer tx = some bytes) :
    ∃ account a, V.operations bytes = [.accountUpdate account false (some a)] ∧ Names p a := by
  obtain ⟨operators, keys, sorted, threshold, account, memoKey, jsonMetadata, hoperators, hkeys, -,
    hthreshold, -, -, hperm, -, hops⟩ := h
  obtain ⟨t, rfl, hread⟩ := hV.update hops hbytes
  exact ⟨account, _, hread, keys, ⟨⟨operators, hoperators, hkeys⟩, hthreshold⟩, hperm.map _⟩

/-- The proposer's transaction is one it would co-sign. -/
theorem coSign_of_propose {a : BuildProposalArgs} {p tx : JsonTree} {signature : String}
    {signTransaction : JsonTree → Except String String}
    (h : proposeRotation R signTransaction a = .ok (p, tx, signature))
    (hexpiration : (R.dateParse s!"{a.taPoS.expiration}Z").isSome = true) :
    ∃ ctx, coSign R signTransaction true p ctx = .ok (some (tx, signature)) := by
  simp only [proposeRotation, bind_eq_ok, pure_eq_ok, Prod.mk.injEq] at h
  obtain ⟨_, -, p', hp, vizTx, hvizTx, _, hsigned, rfl, rfl, rfl⟩ := h
  obtain ⟨expMs, hexp⟩ := Option.isSome_iff_exists.1 hexpiration
  have hvalid := (rotation_proposal R).2 a p' ⟨a.chainId, expMs - 1, false⟩ expMs hp rfl hexp
    (Int.sub_one_lt_of_le le_rfl)
  refine ⟨⟨a.chainId, expMs - 1, false⟩, ?_⟩
  simp only [coSign, bind_eq_ok, if_true, pure_eq_ok]
  exact ⟨(), hvalid, vizTx, hvizTx, _, hsigned, rfl⟩

/-- A registration is no transaction's. -/
theorem challenge_ne (hV : V.Lawful L) (operatorId url nonce : String) (tx : List UInt8) :
    utf8Bytes (challengeMessage operatorId url nonce) ≠ V.chainId ++ tx := by
  obtain ⟨b, rest, hchain, hb⟩ := hV.chainId
  have hdomain : ("viz-gateway-register\n".toList.flatMap String.utf8EncodeChar).head?
      = some 118 := by decide +kernel
  have htext : ∃ text, (challengeMessage operatorId url nonce).toList =
      "viz-gateway-register\n".toList ++ text := by
    unfold challengeMessage
    simp only [toString, String.toList_append, List.append_assoc]
    exact ⟨_, rfl⟩
  obtain ⟨text, htext⟩ := htext
  have hhead : (utf8Bytes (challengeMessage operatorId url nonce)).head? = some 118 := by
    rw [utf8Bytes, htext, Utf8.encode, List.flatMap_append, List.head?_append, hdomain]
    simp
  intro h
  rw [h, hchain] at hhead
  exact hb (Option.some.inj hhead)

/-! ## What the chain carries out -/

section Chain

variable {account : String} {active : String → Option VizAuthority} {isSigner : String → Bool}
  {a : VizAuthority} {ops : List ChainOperation}

/-- Without enough keys of an account's authority, permitted operations leave it. -/
theorem foldl_kept (ha : active account = some a) (hfew : a.approves isSigner = false)
    (hquiet : recovers account isSigner = false)
    (hops : ops.all (·.permitted recovers active isSigner) = true) (c : String → Option VizAuthority) :
    (ops.foldl ChainOperation.apply c) account = c account := by
  induction ops generalizing c with
  | nil => rfl
  | cons o ops ih =>
    rw [List.all_cons, Bool.and_eq_true] at hops
    rw [List.foldl_cons, ih hops.2]
    cases o with
    | other => rfl
    | accountUpdate account' master new =>
      have hne : account ≠ account' := by
        rintro rfl
        simp [ChainOperation.permitted, hquiet, ha, hfew] at hops
      cases new with
      | none => rfl
      | some new => exact Function.update_of_ne hne _ _

end Chain

/-! ## The ceremony -/

section Ceremony

section

variable (L V R honest recovers) (account : String) (a₀ : VizAuthority)

/-- An authority that is the first one or a reviewed proposal's. -/
def Accepted (w : VizHandoffWorld) (held : Option VizAuthority) : Prop :=
  ∃ a, held = some a ∧ FewFaulty honest a ∧ (a = a₀ ∨ ∃ p ∈ w.reviewed, Names p a)

/-- What an honest operator signs leaves the authorities alone or hands one to a reviewed proposal's
operators. -/
def Sanctioned (w : VizHandoffWorld) (tx : List UInt8) : Prop :=
  V.operations tx = [.other] ∨ ∃ account' a p, V.operations tx = [.accountUpdate account' false (some a)]
    ∧ p ∈ w.reviewed ∧ Names p a ∧ FewFaulty honest a

open Classical in
/-- The keys that take part are enough for the authority. -/
def Enough (held : Option VizAuthority) (P : String → Prop) : Prop :=
  ∃ a, held = some a ∧ a.approves (fun k => decide (P k)) = true

/-- The operators review what they sign, and the account's guardians leave it alone. -/
def Reviewed (w : VizHandoffWorld) : VizHandoffEvent → Prop
  | .propose _ a =>
    (∀ p, buildProposal R a = .ok p → Trusted honest p) ∧
      (R.dateParse s!"{a.taPoS.expiration}Z").isSome = true
  | .coSign _ confirmed p _ => confirmed = true → Trusted honest p
  | .land tx => recovers account (w.signers V tx) = false
  | _ => True

/-- The ceremony as a handing over. -/
def system : Handover.System VizHandoffWorld VizHandoffEvent String (List UInt8)
    (Option VizAuthority) where
  step := VizHandoffWorld.step recovers L V R honest
  allowed := Reviewed V R honest recovers account
  authority w := w.active account
  signed w k tx := w.signers V tx k = true
  honest k := honest k = true
  enough _ := Enough
  accepted := Accepted honest a₀
  sanctioned := Sanctioned V honest

end

variable {account : String} {a₀ : VizAuthority} {w w' : VizHandoffWorld} {e : VizHandoffEvent}

theorem Accepted.later {held : Option VizAuthority} (h : Accepted honest a₀ w held)
    (hw : w.reviewed ⊆ w'.reviewed) : Accepted honest a₀ w' held := by
  obtain ⟨a, hheld, hfew, hor⟩ := h
  refine ⟨a, hheld, hfew, hor.imp_right ?_⟩
  rintro ⟨p, hp, hnames⟩
  exact ⟨p, hw hp, hnames⟩

theorem Sanctioned.later {tx : List UInt8} (h : Sanctioned V honest w tx)
    (hw : w.reviewed ⊆ w'.reviewed) : Sanctioned V honest w' tx := by
  refine h.imp_right ?_
  rintro ⟨account', a, p, hops, hp, hnames, hfew⟩
  exact ⟨account', a, p, hops, hw hp, hnames, hfew⟩

theorem reviewed_addSigned (w : VizHandoffWorld) (key : String) (p tx : JsonTree) :
    w.reviewed ⊆ (w.addSigned V key p tx).reviewed := by
  unfold VizHandoffWorld.addSigned
  split
  · exact List.subset_cons_self _ _
  · exact fun _ h => h

theorem reviewed_step (w : VizHandoffWorld) (e : VizHandoffEvent) :
    w.reviewed ⊆ (w.step recovers L V R honest e).reviewed := by
  cases e with
  | propose key a =>
    simp only [VizHandoffWorld.step]
    split
    · exact reviewed_addSigned ..
    · exact fun _ h => h
  | coSign key confirmed p ctx =>
    simp only [VizHandoffWorld.step]
    split
    · exact reviewed_addSigned ..
    · exact fun _ h => h
  | release key p =>
    simp only [VizHandoffWorld.step]
    split <;> exact fun _ h => h
  | register key operatorId url nonce => exact fun _ h => h
  | sign key buffer =>
    simp only [VizHandoffWorld.step]
    split_ifs <;> exact fun _ h => h
  | land tx =>
    simp only [VizHandoffWorld.step]
    split_ifs <;> exact fun _ h => h

/-- A handing over that an honest operator has reviewed is answered for once it is signed. -/
theorem sanctioned_addSigned {key : String} {p tx : JsonTree} (hV : V.Lawful L)
    (hover : HandsOver p tx) (htrusted : Trusted honest p) {k : String} {m : List UInt8}
    (h : (w.addSigned V key p tx).signers V m k = true) :
    w.signers V m k = true ∨ Sanctioned V honest (w.addSigned V key p tx) m := by
  unfold VizHandoffWorld.addSigned at h ⊢
  cases hbytes : V.toBuffer tx with
  | none =>
    rw [hbytes] at h
    exact .inl h
  | some bytes =>
    rw [hbytes] at h
    simp only [VizHandoffWorld.signers, List.contains_cons, Bool.or_eq_true, beq_iff_eq,
      Prod.mk.injEq, List.append_cancel_left_eq] at h
    rcases h with ⟨-, rfl⟩ | h
    · obtain ⟨account', a, hread, hnames⟩ := names_of_handsOver hV hover hbytes
      exact .inr (.inr ⟨account', a, p, hread, List.mem_cons_self, hnames,
        fewFaulty_of_names hnames htrusted⟩)
    · exact .inl h

/-- A new signature of an honest key is under what it answers for. -/
theorem signed_step (hV : V.Lawful L) (he : Reviewed V R honest recovers account w e) {k : String}
    {m : List UInt8} (hk : honest k = true)
    (h : (w.step recovers L V R honest e).signers V m k = true) :
    w.signers V m k = true ∨ Sanctioned V honest (w.step recovers L V R honest e) m := by
  cases e with
  | propose key a =>
    simp only [VizHandoffWorld.step] at h ⊢
    split at h
    · next p tx signature hproposed =>
      obtain ⟨ctx, hcosign⟩ := coSign_of_propose hproposed he.2
      have hbuilt : buildProposal R a = .ok p := by
        simp only [proposeRotation, bind_eq_ok, pure_eq_ok, Prod.mk.injEq] at hproposed
        obtain ⟨_, -, p', hp, _, -, _, -, rfl, -, -⟩ := hproposed
        exact hp
      exact sanctioned_addSigned hV (handsOver_of_coSign (hV.typed key) hcosign) (he.1 p hbuilt) h
    · exact .inl h
  | coSign key confirmed p ctx =>
    simp only [VizHandoffWorld.step] at h ⊢
    split at h
    · next tx signature hcosign =>
      have hconfirmed : confirmed = true := by
        by_contra hnot
        simp only [coSign, bind_eq_ok] at hcosign
        obtain ⟨_, -, hcosign⟩ := hcosign
        rw [if_neg hnot, pure_eq_ok] at hcosign
        cases hcosign
      exact sanctioned_addSigned hV (handsOver_of_coSign (hV.typed key) hcosign) (he hconfirmed) h
    · exact .inl h
  | release key p =>
    simp only [VizHandoffWorld.step] at h ⊢
    split at h
    · next bytes hbytes =>
      simp only [VizHandoffWorld.signers, List.contains_cons, Bool.or_eq_true, beq_iff_eq,
        Prod.mk.injEq, List.append_cancel_left_eq] at h
      rcases h with ⟨-, rfl⟩ | h
      · exact .inr (.inl (hV.release hbytes))
      · exact .inl h
    · exact .inl h
  | register key operatorId url nonce =>
    simp only [VizHandoffWorld.step, VizHandoffWorld.signers, List.contains_cons, Bool.or_eq_true,
      beq_iff_eq, Prod.mk.injEq] at h
    rcases h with ⟨-, h⟩ | h
    · exact absurd h.symm (challenge_ne hV operatorId url nonce m)
    · exact .inl h
  | sign key buffer =>
    simp only [VizHandoffWorld.step] at h
    split_ifs at h with hhonest
    · exact .inl h
    · simp only [VizHandoffWorld.signers, List.contains_cons, Bool.or_eq_true, beq_iff_eq,
        Prod.mk.injEq] at h
      rcases h with ⟨rfl, -⟩ | h
      · exact absurd hk hhonest
      · exact .inl h
  | land tx =>
    left
    simp only [VizHandoffWorld.step] at h
    split_ifs at h <;> exact h

/-- The authority only changes by a transaction that enough of its keys have signed. -/
theorem authority_step (he : Reviewed V R honest recovers account w e)
    (hheld : Accepted honest a₀ w (w.active account)) :
    (w.step recovers L V R honest e).active account = w.active account ∨
      ∃ tx, Enough (w.active account) (fun k => w.signers V tx k = true) ∧
        (Sanctioned V honest w tx →
          Accepted honest a₀ (w.step recovers L V R honest e)
            ((w.step recovers L V R honest e).active account)) := by
  cases e with
  | propose key a =>
    left
    simp only [VizHandoffWorld.step, VizHandoffWorld.addSigned]
    split
    · split <;> rfl
    · rfl
  | coSign key confirmed p ctx =>
    left
    simp only [VizHandoffWorld.step, VizHandoffWorld.addSigned]
    split
    · split <;> rfl
    · rfl
  | release key p =>
    left
    simp only [VizHandoffWorld.step]
    split <;> rfl
  | register key operatorId url nonce => exact .inl rfl
  | sign key buffer =>
    left
    simp only [VizHandoffWorld.step]
    split_ifs <;> rfl
  | land tx =>
    have hquiet : recovers account (w.signers V tx) = false := he
    simp only [VizHandoffWorld.step]
    split_ifs with hops
    · obtain ⟨a, ha, hfew, hor⟩ := id hheld
      cases happroved : a.approves (w.signers V tx) with
      | false => exact .inl (foldl_kept ha happroved hquiet hops w.active)
      | true =>
        refine .inr ⟨tx, ⟨a, ha, ?_⟩, fun hsanctioned => ?_⟩
        · simpa using happroved
        · rcases hsanctioned with hread | ⟨account', a', p, hread, hp, hnames, hfew'⟩
          · rw [hread]
            exact hheld.later fun _ h => h
          · rw [hread]
            by_cases hsame : account = account'
            · subst hsame
              exact ⟨a', Function.update_self .., hfew', .inr ⟨p, hp, hnames⟩⟩
            · have hother : ([ChainOperation.accountUpdate account' false (some a')].foldl
                  ChainOperation.apply w.active) account = w.active account :=
                Function.update_of_ne hsame _ _
              have hkept : Accepted honest a₀ w (([ChainOperation.accountUpdate account' false
                  (some a')].foldl ChainOperation.apply w.active) account) := by
                rw [hother]
                exact hheld
              exact hkept.later fun _ h => h
    · exact .inl rfl

theorem rules (hV : V.Lawful L) :
    Handover.Rules (system L V R honest recovers account a₀) where
  honest := by
    rintro w held P ⟨a, rfl, hfew, -⟩ ⟨a', hheld, hmany⟩
    obtain rfl := Option.some.inj hheld
    obtain ⟨k, hk, hp⟩ := Handover.exists_honest_of_weight hfew (of_decide_eq_true hmany)
    exact ⟨k, hk, by simpa using hp⟩
  accepted w e _ _ h := h.later (reviewed_step w e)
  sanctioned w e _ _ h := h.later (reviewed_step w e)
  signed _ _ _ _ he hk h := signed_step hV he hk h
  authority _ _ he hheld := authority_step he hheld

end Ceremony

end VizHandoff

open VizHandoff

/-- In every run in which the operators review what they sign and the account's guardians leave it
alone, its active authority is the first one or that of a proposal which an operator reviewed and
signed. -/
theorem authority_follows_reviewed {L : Libs} {V : RotationSerializer} (hV : V.Lawful L) (R : Runtime)
    (honest : String → Bool) (recovers : String → (String → Bool) → Bool) {account : String}
    {a₀ : VizAuthority} {c₀ : String → Option VizAuthority} (ha₀ : c₀ account = some a₀)
    (hfew : FewFaulty honest a₀) {es : List VizHandoffEvent}
    (h : Runs.Meets (VizHandoffWorld.step recovers L V R honest)
      (Reviewed V R honest recovers account) { active := c₀ } es) :
    let w := Runs.run (VizHandoffWorld.step recovers L V R honest) { active := c₀ } es
    ∃ a, w.active account = some a ∧ (a = a₀ ∨ ∃ p ∈ w.reviewed, Names p a) := by
  intro w
  have hinit : Handover.Inv (system L V R honest recovers account a₀) { active := c₀ } := by
    refine ⟨⟨a₀, ha₀, hfew, .inl rfl⟩, fun k m _ hsigned => ?_⟩
    cases hsigned
  have hinv : Handover.Inv (system L V R honest recovers account a₀) w :=
    Runs.run_inv (fun _ _ hs he => Handover.inv_step (rules hV) hs he) hinit h
  obtain ⟨a, ha, -, hor⟩ := hinv.accepted
  exact ⟨a, ha, hor⟩

/-! The master proposal's transaction, signed by two of three keys. -/

def handoffKeys : List String :=
  ["VIZ6bA3EYLcYUW4MqBnuStZr9mtifbsPu2sB8uEZmXFxzVdWZzyLa",
    "VIZ81beKM3eDPMdQwNm1Nd65Pi9df5NY2MXbUypddhHg1TJM5gRBB"]

def handoffUpdate : JsonTree :=
  .obj [("account", .str "viz-gateway"), ("active", keyAuthority 2 handoffKeys),
    ("regular", keyAuthority 2 handoffKeys),
    ("memo_key", .str "VIZ66354NrsbxJgp8371cZYZRnqFEUS6ddz2GmkrUJGo6fq8uoasS"),
    ("json_metadata", .str "\x7b\x7d")]

def handoffTx : JsonTree :=
  .obj [("ref_block_num", .num 1234), ("ref_block_prefix", .num 5678901),
    ("expiration", .str "2099-01-01T00:00:00"),
    ("operations", .arr [.arr [.str "account_update", handoffUpdate]]), ("extensions", .arr []),
    ("signatures", .arr [])]

def handoffAuthority : VizAuthority := ⟨2, handoffKeys.map fun k => (k, 1)⟩

def handoffSerializer : RotationSerializer where
  chainId := [32, 64, 239, 253]
  toBuffer tx := if tx = handoffTx then some [210, 4] else none
  sign _ _ := "1f5a"
  operations bytes :=
    if bytes = [210, 4] then [.accountUpdate "viz-gateway" false (some handoffAuthority)] else [.other]

theorem lawful_handoffSerializer : handoffSerializer.Lawful sampleLibs where
  chainId := ⟨32, [64, 239, 253], rfl, by decide⟩
  typed key tx signature h body hops role hrole := by
    simp only [RotationSerializer.signTransaction, handoffSerializer, bind_eq_ok, found_eq_ok] at h
    obtain ⟨bytes, hbytes, -⟩ := h
    split_ifs at hbytes with htx
    subst htx
    obtain rfl : handoffUpdate = body := by simpa [handoffTx, JsonTree.get] using hops
    simp only [List.mem_cons, List.not_mem_nil, or_false] at hrole
    intro auth hauth
    obtain rfl : keyAuthority 2 handoffKeys = auth := by
      rcases hrole with rfl | rfl <;> simpa [handoffUpdate, JsonTree.get] using hauth
    refine ⟨⟨2, rfl⟩, fun keys hkeys k hk => ?_⟩
    obtain rfl := JsonTree.arr.inj (Option.some.inj hkeys)
    obtain ⟨s, -, rfl⟩ := List.mem_map.1 hk
    exact ⟨s, .num 1, rfl⟩
  update := by
    intro tx account threshold keys memoKey jsonMetadata bytes hops hbytes
    simp only [handoffSerializer] at hbytes ⊢
    split_ifs at hbytes with htx
    obtain rfl := Option.some.inj hbytes
    subst htx
    have hread : handoffTx.get "operations" =
        some (.arr [.arr [.str "account_update", handoffUpdate]]) := rfl
    rw [hread] at hops
    simp only [handoffUpdate, keyAuthority, Option.some.injEq, JsonTree.arr.injEq,
      JsonTree.obj.injEq, List.cons.injEq, Prod.mk.injEq, JsonTree.str.injEq, JsonTree.num.injEq,
      true_and, and_true] at hops
    obtain ⟨rfl, ⟨rfl, hkeys⟩, -⟩ := hops
    have hinj : Function.Injective fun k : String => JsonTree.arr [.str k, .num 1] :=
      fun k k' h => by simpa using h
    obtain rfl := List.map_injective_iff.2 hinj hkeys
    exact ⟨2, rfl, rfl⟩
  release := by
    intro p bytes hbytes
    simp only [handoffSerializer]
    rw [if_neg]
    rintro rfl
    obtain ⟨h, hh, hrest⟩ := Option.bind_eq_some_iff.1 hbytes
    obtain ⟨rest, -, hbytes⟩ := Option.map_eq_some_iff.1 hrest
    have hlen := congrArg List.length hbytes
    rw [List.length_append, headerBytes_length hh] at hlen
    simp only [List.length_cons, List.length_nil] at hlen
    omega

def handoffAccount (name : String) : Option VizAuthority :=
  if name = "viz-gateway" then some ⟨2, [("old-1", 1), ("old-2", 1), ("old-3", 1)]⟩ else none

/-- One of the three keys and one of the new two are not honest. -/
def handoffHonestKey (k : String) : Bool :=
  ["old-1", "old-2", "VIZ6bA3EYLcYUW4MqBnuStZr9mtifbsPu2sB8uEZmXFxzVdWZzyLa"].contains k

def vizHandoffEvents : List VizHandoffEvent :=
  [.register "old-1" "op-1" "https://op-1.example" "n-1",
    .coSign "old-1" true handoffMaster ⟨"viz-gateway", 0, false⟩,
    .sign "old-3" [32, 64, 239, 253, 210, 4],
    .land [210, 4]]

/-- The account has gone over to the two new keys. -/
theorem authority_follows_reviewed_sample :
    let w := Runs.run (VizHandoffWorld.step (fun _ _ => false) sampleLibs handoffSerializer
      handoffRuntime handoffHonestKey) { active := handoffAccount } vizHandoffEvents
    w.active "viz-gateway" = some handoffAuthority ∧
      ∃ a, w.active "viz-gateway" = some a ∧
        (a = ⟨2, [("old-1", 1), ("old-2", 1), ("old-3", 1)]⟩ ∨ ∃ p ∈ w.reviewed, Names p a) := by
  refine ⟨by decide +kernel, authority_follows_reviewed lawful_handoffSerializer handoffRuntime
    handoffHonestKey (fun _ _ => false) rfl (by unfold FewFaulty; decide)
    (Runs.meets_of_forall fun e he w => ?_)⟩
  simp only [vizHandoffEvents, List.mem_cons, List.not_mem_nil, or_false] at he
  rcases he with rfl | rfl | rfl | rfl
  · trivial
  · rintro - keys threshold ⟨⟨operators, hoperators, hkeys⟩, hthreshold⟩
    have hops : handoffMaster.get "newOperators" =
        some (.arr (handoffOperators.map OperatorRef.toTree)) := by decide +kernel
    have hnum : handoffMaster.get "newThreshold" = some (.num 2) := by decide +kernel
    obtain rfl := JsonTree.arr.inj (Option.some.inj (hoperators.symm.trans hops))
    have htwo : (threshold : ℚ) = 2 := JsonTree.num.inj (Option.some.inj (hthreshold.symm.trans hnum))
    have hinj : Function.Injective fun k : String => some (JsonTree.str k) :=
      fun k k' h => by simpa using h
    obtain rfl : handoffKeys.reverse = keys := List.map_injective_iff.2 hinj hkeys
    have htwo : threshold = 2 := by exact_mod_cast htwo
    rw [htwo]
    decide
  · trivial
  · rfl

end VizGateway
