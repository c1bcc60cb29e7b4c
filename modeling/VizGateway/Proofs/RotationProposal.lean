import VizGateway.Rotation
import VizGateway.Sample

/-!
# What a rotation proposal signs

The check rebuilds the operation from the operators and the threshold of the file and compares the
two, so the file's operation is the rebuilt one and its values are the file's own. What the file may
still put for a key or a threshold, the library's serializer turns away.
-/

namespace VizGateway

open Checks JsonTree

/-- The library signs an authority only with a number for its threshold and texts for its keys. -/
def TypedAuthorities (signTransaction : JsonTree → Except String String) : Prop :=
  ∀ tx signature, signTransaction tx = .ok signature →
    ∀ body, tx.get "operations" = some (.arr [.arr [.str "account_update", body]]) →
      ∀ role ∈ ["active", "regular"], ∀ auth, body.get role = some auth →
        (∃ x, auth.get "weight_threshold" = some (.num x)) ∧
          ∀ keys, auth.get "key_auths" = some (.arr keys) → ∀ k ∈ keys, ∃ s w, k = .arr [.str s, w]

/-- One weight for each key. -/
def keyAuthority (threshold : ℚ) (keys : List String) : JsonTree :=
  .obj [("weight_threshold", .num threshold), ("account_auths", .arr []),
    ("key_auths", .arr (keys.map fun k => .arr [.str k, .num 1]))]

/-- The transaction hands an account to the keys and the threshold of the proposal, and does nothing
else. -/
def HandsOver (p tx : JsonTree) : Prop :=
  ∃ operators keys sorted threshold account memoKey jsonMetadata,
    p.get "newOperators" = some (.arr operators) ∧
    operators.map (·.get "vizPubkey") = keys.map (fun k => some (.str k)) ∧ keys.Nodup ∧
    p.get "newThreshold" = some (.num threshold) ∧ 1 ≤ threshold ∧ threshold ≤ keys.length ∧
    sorted.Perm keys ∧ tx.get "extensions" = some (.arr []) ∧
    tx.get "operations" = some (.arr [.arr [.str "account_update", .obj [("account", .str account),
      ("active", keyAuthority threshold sorted), ("regular", keyAuthority threshold sorted),
      ("memo_key", .str memoKey), ("json_metadata", .str jsonMetadata)]]])

variable {R : Runtime}

theorem property_eq_ok {v w : Option JsonTree} {key : String} (h : property v key = .ok w) :
    ∃ x, v = some x ∧ x.get key = w := by
  unfold property at h
  split at h
  · cases h
  · cases h
  · exact ⟨_, rfl, Except.ok.inj h⟩

theorem mapM_property {items : List JsonTree} {keys : List (Option JsonTree)}
    (h : (items.mapM fun o => property (some o) "vizPubkey") = .ok keys) :
    items.map (·.get "vizPubkey") = keys := by
  induction items generalizing keys with
  | nil =>
    rw [List.mapM_nil, pure_eq_ok] at h
    exact h
  | cons o items ih =>
    simp only [List.mapM_cons, bind_eq_ok, pure_eq_ok] at h
    obtain ⟨key, hkey, rest, hrest, rfl⟩ := h
    obtain ⟨_, ho, rfl⟩ := property_eq_ok hkey
    cases ho
    rw [List.map_cons, ih hrest]

theorem sortKeys_perm {keys sorted : List (Option JsonTree)} (h : sortKeys R keys = .ok sorted) :
    sorted.Perm keys := by
  simp only [sortKeys, bind_eq_ok, require_eq_ok, pure_eq_ok] at h
  obtain ⟨-, -, rfl⟩ := h
  have hnone : keys.filter (·.isNone) = keys.filter (fun k => !k.isSome) :=
    List.filter_congr fun k _ => by cases k <;> rfl
  rw [hnone]
  exact ((List.perm_insertionSort _ _).append_right _).trans (List.filter_append_perm _ _)

/-- What an authority is built from. -/
theorem buildActiveAuthority_eq_ok {ops threshold : Option JsonTree} {auth : JsonTree}
    (h : buildActiveAuthority R ops threshold = .ok auth) :
    ∃ t operators sorted, R.toNumber threshold = some t ∧ t.lt (.finite 1) = false ∧
      ops = some (.arr operators) ∧ JsNumber.lt (.finite operators.length) t = false ∧
      allDistinct (operators.map (·.get "vizPubkey")) ∧
      sorted.Perm (operators.map (·.get "vizPubkey")) ∧ auth = authorityTree threshold sorted := by
  simp only [buildActiveAuthority, bind_eq_ok, found_eq_ok, require_eq_ok] at h
  obtain ⟨t, ht, -, hlow, h⟩ := h
  split at h
  · next operators =>
    simp only [bind_eq_ok, require_eq_ok, pure_eq_ok] at h
    obtain ⟨-, hhigh, keys, hkeys, -, hdistinct, sorted, hsorted, rfl⟩ := h
    obtain rfl := mapM_property hkeys
    exact ⟨t, operators, sorted, ht, hlow, rfl, hhigh, hdistinct, sortKeys_perm hsorted, rfl⟩
  · cases h

/-- Texts under `Option` and `str` again. -/
theorem exists_texts (keys : List (Option JsonTree)) (h : ∀ k ∈ keys, ∃ s, k = some (.str s)) :
    ∃ names : List String, keys = names.map fun s => some (.str s) := by
  induction keys with
  | nil => exact ⟨[], rfl⟩
  | cons k keys ih =>
    obtain ⟨s, rfl⟩ := h k List.mem_cons_self
    obtain ⟨names, rfl⟩ := ih fun k hk => h k (List.mem_cons_of_mem _ hk)
    exact ⟨s :: names, rfl⟩

theorem nodup_of_allDistinct {names : List String}
    (h : allDistinct (names.map fun s => some (.str s))) : names.Nodup := by
  unfold allDistinct at h
  rw [List.pairwise_map] at h
  refine h.imp fun hab hne => ?_
  simpa [JsonTree.isPrimitive] using hab (by rw [hne])

/-- With a number and texts in it, the rebuilt authority is one weight for each key. -/
theorem authorityTree_eq {threshold : Option JsonTree} {sorted : List (Option JsonTree)}
    (ht : ∃ x, (authorityTree threshold sorted).get "weight_threshold" = some (.num x))
    (hkeys : ∀ keys, (authorityTree threshold sorted).get "key_auths" = some (.arr keys) →
      ∀ k ∈ keys, ∃ s w, k = .arr [.str s, w]) :
    ∃ x names, threshold = some (.num x) ∧ sorted = names.map (fun s => some (.str s)) ∧
      authorityTree threshold sorted = keyAuthority x names := by
  obtain ⟨x, hx⟩ := ht
  obtain rfl : threshold = some (.num x) := by
    cases threshold with
    | none => simp [authorityTree, JsonTree.get] at hx
    | some v => simpa [authorityTree, JsonTree.get] using hx
  obtain ⟨names, rfl⟩ := exists_texts _ fun k hk => by
    obtain ⟨s, w, hs⟩ := hkeys (sorted.map keyAuth) (by simp [authorityTree, JsonTree.get])
      (keyAuth k) (List.mem_map_of_mem hk)
    cases k with
    | none => simp [keyAuth] at hs
    | some v =>
      simp only [keyAuth, Option.getD_some, JsonTree.arr.injEq, List.cons.injEq] at hs
      exact ⟨s, congrArg some hs.1⟩
  refine ⟨x, names, rfl, rfl, ?_⟩
  simp [authorityTree, keyAuthority, keyAuth, Function.comp_def]

/-- The one operation of an accepted file is the one rebuilt from its operators and threshold. -/
theorem rebuilt_of_validateProposal {p : JsonTree} {ctx : ValidateContext} {u : Unit}
    (h : validateProposal R p ctx = .ok u) :
    ∃ vizTx account memoKey jsonMetadata op, p.get "vizTx" = some vizTx ∧
      vizTx.get "operations" = some (.arr [op]) ∧ vizTx.get "extensions" = some (.arr []) ∧
      buildRotationOp R account (p.get "newOperators") (p.get "newThreshold") memoKey jsonMetadata =
        .ok op := by
  simp only [validateProposal, bind_eq_ok, found_eq_ok, require_eq_ok] at h
  obtain ⟨_, -, _, -, _, -, _, -, _, hvizTx, _, hops, fileOp, hfile, _, hexts, _, rfl, _, -, _, -, _,
    -, _, -, account, -, _, hoperators, _, hthreshold, _, -, memoKey, -, _, -, jsonMetadata, -, _,
    hrebuilt, _, rfl, -⟩ := h
  obtain ⟨_, hp, rfl⟩ := property_eq_ok hvizTx
  cases hp
  obtain ⟨_, hp, rfl⟩ := property_eq_ok hoperators
  cases hp
  obtain ⟨_, hp, rfl⟩ := property_eq_ok hthreshold
  cases hp
  obtain ⟨vizTx, htx, hops⟩ := property_eq_ok hops
  obtain ⟨_, htx', hexts⟩ := property_eq_ok hexts
  obtain rfl := Option.some.inj (htx.symm.trans htx')
  refine ⟨vizTx, account, memoKey, jsonMetadata, _, htx, ?_, hexts, hrebuilt⟩
  rw [hops]
  unfold onlyItem at hfile
  split at hfile
  · rw [Option.some.inj hfile]
  · cases hfile

theorem handsOver_of_coSign {signTransaction : JsonTree → Except String String}
    (htyped : TypedAuthorities signTransaction) {confirmed : Bool} {p tx : JsonTree}
    {ctx : ValidateContext} {signature : String}
    (h : coSign R signTransaction confirmed p ctx = .ok (some (tx, signature))) :
    HandsOver p tx := by
  simp only [coSign, bind_eq_ok] at h
  obtain ⟨_, hvalid, h⟩ := h
  split_ifs at h
  · simp only [bind_eq_ok, pure_eq_ok, Option.some.injEq, Prod.mk.injEq] at h
    obtain ⟨vizTx', hvizTx', signature, hsigned, rfl, rfl⟩ := h
    obtain ⟨vizTx, account, memoKey, jsonMetadata, op, hvizTx, hops, hexts, hrebuilt⟩ :=
      rebuilt_of_validateProposal hvalid
    obtain ⟨_, hp, rfl⟩ := property_eq_ok hvizTx'
    cases hp
    rw [hvizTx, Option.getD_some] at hsigned ⊢
    simp only [buildRotationOp, bind_eq_ok, pure_eq_ok] at hrebuilt
    obtain ⟨auth, hauth, rfl⟩ := hrebuilt
    obtain ⟨t, operators, sorted, ht, hlow, hoperators, hhigh, hdistinct, hperm, rfl⟩ :=
      buildActiveAuthority_eq_ok hauth
    rw [← get_set_of_ne (show "operations" ≠ "signatures" by decide) vizTx (.arr [])] at hops
    rw [← get_set_of_ne (show "extensions" ≠ "signatures" by decide) vizTx (.arr [])] at hexts
    obtain ⟨hthreshold, hkeys⟩ := htyped _ _ hsigned _ hops "active" (by simp) _ (by rfl)
    obtain ⟨x, names, hx, rfl, hauthority⟩ := authorityTree_eq hthreshold hkeys
    rw [hauthority] at hops
    rw [hx] at ht
    cases ht
    obtain ⟨keys, hkeys⟩ := exists_texts (operators.map (·.get "vizPubkey")) fun k hk => by
      obtain ⟨s, -, rfl⟩ := List.mem_map.1 (hperm.mem_iff.2 hk)
      exact ⟨s, rfl⟩
    rw [hkeys] at hperm hdistinct
    have hlen : operators.length = keys.length := by
      rw [← List.length_map (·.get "vizPubkey"), hkeys, List.length_map]
    refine ⟨operators, keys, names, x, account, memoKey, jsonMetadata, hoperators, hkeys,
      nodup_of_allDistinct hdistinct, hx, ?_, ?_, ?_, hexts, hops⟩
    · simpa [JsNumber.lt] using hlow
    · simpa [JsNumber.lt, hlen] using hhigh
    · exact (List.map_perm_map_iff fun a b h => by simpa using h).1 hperm
  · simp at h

/-! ## An honest proposal -/

/-- What the operation is rebuilt with is what it was built with. -/
theorem validateProposal_of_buildProposal {a : BuildProposalArgs} {p : JsonTree}
    {ctx : ValidateContext} {expMs : ℤ} (h : buildProposal R a = .ok p) (hchain : ctx.chainId = a.chainId)
    (hexp : R.dateParse s!"{a.taPoS.expiration}Z" = some expMs) (hnow : ctx.nowMs < expMs) :
    validateProposal R p ctx = .ok () := by
  simp only [buildProposal, bind_eq_ok, pure_eq_ok] at h
  obtain ⟨op, hop, rfl⟩ := h
  have hrebuilt := hop
  simp only [buildRotationOp, bind_eq_ok, pure_eq_ok] at hop
  obtain ⟨auth, -, rfl⟩ := hop
  simp only [validateProposal, bind_eq_ok, found_eq_ok, require_eq_ok]
  refine ⟨_, rfl, ⟨⟩, rfl, _, rfl, ⟨⟩, by rw [hchain]; rfl, _, rfl, _, rfl, _, rfl, _, rfl, ⟨⟩, rfl,
    ⟨⟩, ⟨rfl, rfl⟩, _, rfl, ⟨⟩, rfl, _, rfl, a.account, rfl, _, rfl, _, rfl, _, rfl, a.memoKey, rfl,
    _, rfl, a.jsonMetadata, rfl, _, hrebuilt, ⟨⟩, rfl, _, rfl, _, rfl, expMs, hexp, ?_⟩
  exact Or.inr (by omega)

/-- Whatever the file, what an operator signs after the check hands the account over as the file
says and does nothing else; and the check lets every proposal through that was built for the chain
and has not expired. -/
theorem rotation_proposal (R : Runtime) :
    (∀ signTransaction, TypedAuthorities signTransaction → ∀ confirmed p ctx tx signature,
      coSign R signTransaction confirmed p ctx = .ok (some (tx, signature)) → HandsOver p tx) ∧
    (∀ a p ctx expMs, buildProposal R a = .ok p → ctx.chainId = a.chainId →
      R.dateParse s!"{a.taPoS.expiration}Z" = some expMs → ctx.nowMs < expMs →
        validateProposal R p ctx = .ok ()) :=
  ⟨fun _ htyped _ _ _ _ _ h => handsOver_of_coSign htyped h,
    fun _ _ _ _ h hchain hexp hnow => validateProposal_of_buildProposal h hchain hexp hnow⟩

/-! Two operators of three keys. -/

private def sampleRuntime : Runtime where
  numberText x := bigintText x.num
  number s := ((bigIntOfString s).map fun n => JsNumber.finite n).getD .nan
  dateParse := parseIsoDate

private def sampleRotation : BuildProposalArgs where
  chainId := "viz-gateway"
  account := "viz-gateway"
  newOperators := [
    ⟨"op-1", "VIZ81beKM3eDPMdQwNm1Nd65Pi9df5NY2MXbUypddhHg1TJM5gRBB", "aa", ""⟩,
    ⟨"op-2", "VIZ6bA3EYLcYUW4MqBnuStZr9mtifbsPu2sB8uEZmXFxzVdWZzyLa", "bb", ""⟩]
  newThreshold := 2
  memoKey := "VIZ66354NrsbxJgp8371cZYZRnqFEUS6ddz2GmkrUJGo6fq8uoasS"
  jsonMetadata := "\x7b\x7d"
  currentActiveHash := "deadbeef"
  taPoS := ⟨1234, 5678901, "2099-01-01T00:00:00"⟩

private def sampleKeys : List String :=
  ["VIZ6bA3EYLcYUW4MqBnuStZr9mtifbsPu2sB8uEZmXFxzVdWZzyLa",
    "VIZ81beKM3eDPMdQwNm1Nd65Pi9df5NY2MXbUypddhHg1TJM5gRBB"]

private def sampleUpdate : JsonTree :=
  .obj [("account", .str "viz-gateway"), ("active", keyAuthority 2 sampleKeys),
    ("regular", keyAuthority 2 sampleKeys),
    ("memo_key", .str "VIZ66354NrsbxJgp8371cZYZRnqFEUS6ddz2GmkrUJGo6fq8uoasS"),
    ("json_metadata", .str "\x7b\x7d")]

private def sampleRotationTx : JsonTree :=
  .obj [("ref_block_num", .num 1234), ("ref_block_prefix", .num 5678901),
    ("expiration", .str "2099-01-01T00:00:00"),
    ("operations", .arr [.arr [.str "account_update", sampleUpdate]]), ("extensions", .arr []),
    ("signatures", .arr [])]

private def sampleSign (tx : JsonTree) : Except String String :=
  if tx = sampleRotationTx then .ok "1f5a" else .error "Illegal value"

private def sampleRotationProposal : JsonTree :=
  .obj [("version", .num 1), ("chainId", .str "viz-gateway"),
    ("newOperators", .arr (sampleRotation.newOperators.map OperatorRef.toTree)),
    ("newThreshold", .num 2), ("currentActiveHash", .str "deadbeef"), ("vizTx", sampleRotationTx)]

theorem rotation_proposal_sample :
    HandsOver sampleRotationProposal sampleRotationTx ∧
      validateProposal sampleRuntime sampleRotationProposal ⟨"viz-gateway", 0, false⟩ = .ok () := by
  have hbuilt : buildProposal sampleRuntime sampleRotation = .ok sampleRotationProposal := by
    decide +kernel
  refine ⟨(rotation_proposal sampleRuntime).1 sampleSign (fun tx signature h body hops role hrole => ?_)
      true sampleRotationProposal ⟨"viz-gateway", 0, false⟩ sampleRotationTx "1f5a" (by decide +kernel),
    (rotation_proposal sampleRuntime).2 sampleRotation _ _ 4070908800000 hbuilt rfl
      (by decide +kernel) (by decide)⟩
  unfold sampleSign at h
  split_ifs at h with htx
  subst htx
  obtain rfl : sampleUpdate = body := by simpa [sampleRotationTx, JsonTree.get] using hops
  simp only [List.mem_cons, List.not_mem_nil, or_false] at hrole
  intro auth hauth
  obtain rfl : keyAuthority 2 sampleKeys = auth := by
    rcases hrole with rfl | rfl <;> simpa [sampleUpdate, JsonTree.get] using hauth
  refine ⟨⟨2, rfl⟩, fun keys hkeys k hk => ?_⟩
  obtain rfl := JsonTree.arr.inj (Option.some.inj hkeys)
  obtain ⟨s, -, rfl⟩ := List.mem_map.1 hk
  exact ⟨s, .num 1, rfl⟩

end VizGateway
