import VizGateway.Manifest
import VizGateway.Proofs.RotationProposal

/-!
# What a rotation leaves of the manifest

The file is written anew from the proposal: the chain id, the operators, their number and the
threshold. The sections that pin fees, contracts, accounts and endpoints are not carried over, and
a manifest without them parses. So the rest of the configuration survives exactly where there was
none.
-/

namespace VizGateway

open Checks JsonTree

/-- Everything but the operators and their numbers is the same. -/
def FederationManifest.KeepsRest (old new : FederationManifest) : Prop :=
  new.fees = old.fees ∧ new.gram = old.gram ∧ new.accounts = old.accounts ∧ new.rpc = old.rpc

/-- The file pins nothing beyond its operators. -/
def Sectionless (raw : JsonTree) : Prop :=
  ∀ key ∈ ["fees", "gram", "accounts", "rpc"], raw.get key = none

instance (raw : JsonTree) : Decidable (Sectionless raw) := by
  unfold Sectionless
  infer_instance

variable {R : Runtime}

/-- The operator has a name, and its keys have texts. -/
def Named (R : Runtime) (o : JsonTree) : Prop :=
  (∃ id, stringOrEmpty R (o.get "id") = .ok id ∧ id ≠ "") ∧
    ∀ key ∈ ["vizPubkey", "tonPubkey", "solanaPubkey"], ∃ s, stringOrEmpty R (o.get key) = .ok s

/-- The proposal's operators are named and its threshold is an integer. -/
def ReadableProposal (R : Runtime) (p : JsonTree) : Prop :=
  (∀ operators, p.get "newOperators" = some (.arr operators) → ∀ o ∈ operators, Named R o) ∧
    ∃ t : ℤ, R.toNumber (p.get "newThreshold") = some (.finite t)

theorem property_of_ne_null {v : JsonTree} (h : v ≠ .null) (key : String) :
    property (some v) key = .ok (v.get key) := by
  unfold property
  split
  · next hv => cases hv
  · next hv => exact absurd (Option.some.inj hv) h
  · next hv => rw [Option.some.inj hv]

theorem ne_null_of_property {v : JsonTree} {key : String} {w : Option JsonTree}
    (h : property (some v) key = .ok w) : v ≠ .null := by
  rintro rfl
  simp [property] at h

theorem asInteger_eq_some {x : JsNumber} {t : ℤ} : asInteger x = some t ↔ x = .finite t := by
  cases x with
  | finite x =>
    simp only [asInteger, Option.ite_none_right_eq_some, Option.some.injEq, JsNumber.finite.injEq]
    constructor
    · rintro ⟨hden, rfl⟩
      exact (Rat.den_eq_one_iff x).1 hden |>.symm
    · rintro rfl
      exact ⟨Rat.den_intCast t, Rat.num_intCast t⟩
  | _ => simp [asInteger]

/-! ## What is read -/

theorem exists_manifestOperator_iff {o : JsonTree} (h : o ≠ .null) (i : ℕ) :
    (∃ op, manifestOperator R (o, i) = .ok op) ↔ Named R o := by
  simp only [manifestOperator, property_of_ne_null h, ok_bind, bind_eq_ok, require_eq_ok,
    pure_eq_ok, Named, List.forall_mem_cons, List.not_mem_nil, false_implies, implies_true, and_true]
  constructor
  · rintro ⟨_, id, hid, viz, hviz, ton, hton, solana, hsolana, -, hne, -⟩
    exact ⟨⟨id, hid, hne⟩, ⟨viz, hviz⟩, ⟨ton, hton⟩, ⟨solana, hsolana⟩⟩
  · rintro ⟨⟨id, hid, hne⟩, ⟨viz, hviz⟩, ⟨ton, hton⟩, ⟨solana, hsolana⟩⟩
    exact ⟨_, id, hid, viz, hviz, ton, hton, solana, hsolana, ⟨⟩, hne, rfl⟩

theorem exists_operators_iff {items : List JsonTree} (h : ∀ o ∈ items, o ≠ .null) :
    (∃ ops, items.zipIdx.mapM (manifestOperator R) = .ok ops) ↔ ∀ o ∈ items, Named R o := by
  rw [exists_mapM_eq_ok]
  constructor
  · intro hall o ho
    obtain ⟨i, hi⟩ := List.mem_iff_getElem?.1 ho
    exact (exists_manifestOperator_iff (h o ho) i).1
      (hall (o, i) (List.mk_mem_zipIdx_iff_getElem?.2 hi))
  · rintro hall ⟨o, i⟩ hx
    have ho : o ∈ items := List.fst_mem_of_mem_zipIdx hx
    exact (exists_manifestOperator_iff (h o ho) i).2 (hall o ho)

/-- A section parses to nothing exactly if it is absent. -/
theorem optSection_eq_none {α : Type} {parse : JsonTree → Except String α} {v : Option JsonTree}
    {x : Option α} (h : optSection parse v = .ok x) : x = none ↔ v = none := by
  cases v with
  | none =>
    obtain rfl := Except.ok.inj h
    simp
  | some v =>
    simp only [optSection, Functor.map, Except.map] at h
    split at h
    · cases h
    · obtain rfl := Except.ok.inj h
      simp

/-- What was pinned before, by the sections of the file. -/
theorem sectionless_iff {raw : JsonTree} {m : FederationManifest}
    (h : parseManifest R raw = .ok m) :
    Sectionless raw ↔ m.fees = none ∧ m.gram = none ∧ m.accounts = none ∧ m.rpc = none := by
  simp only [parseManifest, bind_eq_ok] at h
  obtain ⟨_, -, _, -, _, -, h⟩ := h
  split at h
  · simp only [bind_eq_ok, pure_eq_ok] at h
    obtain ⟨_, -, _, -, _, -, _, -, _, -, fees, hfees, gram, hgram, accounts, haccounts, rpc, hrpc,
      rfl⟩ := h
    simp only [Sectionless, List.forall_mem_cons, List.not_mem_nil, false_implies, implies_true,
      and_true, optSection_eq_none hfees, optSection_eq_none hgram, optSection_eq_none haccounts,
      optSection_eq_none hrpc]
  · cases h

/-! ## What is written -/

/-- The manifest after a rotation. -/
theorem manifest_of_broadcastViz {env : RotateEnv} {p : JsonTree} {files : RotationFiles}
    (h : broadcastViz R env p = .ok (some files)) :
    ∃ items t, p.get "newOperators" = some (.arr items) ∧ (∀ o ∈ items, o ≠ .null) ∧
      R.toNumber (p.get "newThreshold") = some t ∧ t.lt (.finite 1) = false ∧
      JsNumber.lt (.finite items.length) t = false ∧
      files.manifest = .obj (given "chainId" (p.get "chainId") ++ [("n", .num items.length)] ++
        given "threshold" (p.get "newThreshold") ++ [("operators", .arr items)]) := by
  simp only [broadcastViz, bind_eq_ok] at h
  obtain ⟨_, hvalid, _, -, _, -, _, -, _, -, _, -, live, -, _, -, _, hdiff, n, hn, h⟩ := h
  obtain ⟨_, _, _, _, _, -, -, -, hrebuilt⟩ := rebuilt_of_validateProposal hvalid
  simp only [buildRotationOp, bind_eq_ok] at hrebuilt
  obtain ⟨auth, hauth, -⟩ := hrebuilt
  obtain ⟨t, items, _, ht, hlow, hitems, hhigh, -⟩ := buildActiveAuthority_eq_ok hauth
  obtain rfl : some (.num items.length) = n := by simpa [hitems, lengthOf] using hn
  simp only [hitems, diffOperators, bind_eq_ok] at hdiff
  obtain ⟨keys, hkeys, -⟩ := hdiff
  split_ifs at h
  · simp at h
  · simp only [bind_eq_ok, pure_eq_ok, Option.some.injEq] at h
    obtain ⟨_, -, rfl⟩ := h
    refine ⟨items, t, hitems, fun o ho => ?_, ht, hlow, hhigh, ?_⟩
    · obtain ⟨key, hkey⟩ := exists_mapM_eq_ok.1 ⟨keys, hkeys⟩ o ho
      exact ne_null_of_property hkey
    · simp [hitems, given]

section Rewritten

variable {p : JsonTree} {items : List JsonTree} {raw : JsonTree}
  (hraw : raw = .obj (given "chainId" (p.get "chainId") ++ [("n", .num items.length)] ++
    given "threshold" (p.get "newThreshold") ++ [("operators", .arr items)]))

include hraw

theorem rewritten_ne_null : raw ≠ .null := by
  rw [hraw]
  simp

theorem rewritten_get_n : raw.get "n" = some (.num items.length) := by
  rw [hraw]
  rcases p.get "chainId" <;> simp [given, JsonTree.get]

theorem rewritten_get_threshold : raw.get "threshold" = p.get "newThreshold" := by
  rw [hraw]
  rcases p.get "chainId" <;> rcases p.get "newThreshold" <;>
    simp [given, JsonTree.get]

theorem rewritten_get_operators : raw.get "operators" = some (.arr items) := by
  rw [hraw]
  rcases p.get "chainId" <;> rcases p.get "newThreshold" <;>
    simp [given, JsonTree.get]

theorem rewritten_sectionless : Sectionless raw := by
  rw [hraw]
  rcases p.get "chainId" <;> rcases p.get "newThreshold" <;>
    simp [Sectionless, given, JsonTree.get]

/-- The file parses again exactly if the proposal is readable. -/
theorem exists_parse_rewritten_iff {t : JsNumber} (hitems : p.get "newOperators" = some (.arr items))
    (hne : ∀ o ∈ items, o ≠ .null) (ht : R.toNumber (p.get "newThreshold") = some t)
    (hlow : t.lt (.finite 1) = false) (hhigh : JsNumber.lt (.finite items.length) t = false) :
    (∃ new, parseManifest R raw = .ok new) ↔ ReadableProposal R p := by
  have hn : number R (some (.num items.length)) = .ok (.finite (items.length : ℤ)) := rfl
  have ht' : number R (p.get "newThreshold") = .ok t := found_eq_ok.2 ht
  have hreadable : ReadableProposal R p ↔ (∀ o ∈ items, Named R o) ∧ ∃ z : ℤ, t = .finite z := by
    simp [ReadableProposal, hitems, ht]
  rw [hreadable, ← exists_operators_iff hne]
  simp only [parseManifest, property_of_ne_null (rewritten_ne_null hraw), rewritten_get_n hraw,
    rewritten_get_threshold hraw, rewritten_get_operators hraw, hn, ht', bind_eq_ok, found_eq_ok,
    require_eq_ok, Except.ok.injEq, pure_eq_ok, asInteger_eq_some, exists_eq_left']
  constructor
  · rintro ⟨new, ops, hops, n, -, z, hz, -⟩
    exact ⟨⟨ops, hops⟩, z, hz⟩
  · rintro ⟨⟨ops, hops⟩, z, rfl⟩
    have hlen : ops.length = items.length := by
      rw [← (mapM_eq_ok.1 hops).length_eq, List.length_zipIdx]
    simp only [JsNumber.lt, decide_eq_false_iff_not, not_lt] at hlow hhigh
    have hlow' : 1 ≤ z := by exact_mod_cast hlow
    have hhigh' : z ≤ items.length := by exact_mod_cast hhigh
    have hsec := rewritten_sectionless hraw
    simp only [Sectionless, List.forall_mem_cons, List.not_mem_nil, false_implies, implies_true,
      and_true] at hsec
    obtain ⟨hfees, hgram, haccounts, hrpc⟩ := hsec
    refine ⟨_, ops, hops, items.length, rfl, z, rfl, ⟨⟩, by rw [hlen], ⟨⟩, by omega, none, ?_, none, ?_,
      none, ?_, none, ?_, rfl⟩
    · rw [hfees, optSection]
    · rw [hgram, optSection]
    · rw [haccounts, optSection]
    · rw [hrpc, optSection]

end Rewritten

/-- After a rotation the manifest parses and the fees, the contracts, the accounts and the endpoints
are what they were exactly if the old file pinned none of them and the new operators can be read. -/
theorem manifest_rewrite (R : Runtime) (env : RotateEnv) (oldTree proposal : JsonTree)
    (old : FederationManifest) (files : RotationFiles) (hold : parseManifest R oldTree = .ok old)
    (h : broadcastViz R env proposal = .ok (some files)) :
    (∃ new, parseManifest R files.manifest = .ok new ∧ old.KeepsRest new) ↔
      Sectionless oldTree ∧ ReadableProposal R proposal := by
  obtain ⟨items, t, hitems, hne, ht, hlow, hhigh, hraw⟩ := manifest_of_broadcastViz h
  rw [← exists_parse_rewritten_iff hraw hitems hne ht hlow hhigh]
  have hkeeps : ∀ new, parseManifest R files.manifest = .ok new →
      (old.KeepsRest new ↔ Sectionless oldTree) := by
    intro new hnew
    obtain ⟨hfees, hgram, haccounts, hrpc⟩ := (sectionless_iff hnew).1 (rewritten_sectionless hraw)
    rw [sectionless_iff hold, FederationManifest.KeepsRest, hfees, hgram, haccounts, hrpc]
    simp only [eq_comm]
  constructor
  · rintro ⟨new, hnew, hrest⟩
    exact ⟨(hkeeps new hnew).1 hrest, new, hnew⟩
  · rintro ⟨hsec, new, hnew⟩
    exact ⟨new, hnew, (hkeeps new hnew).2 hsec⟩

/-! ## Two operators change one key -/

private def rotateRuntime : Runtime where
  numberText x := bigintText x.num
  number s := ((bigIntOfString s).map fun n => JsNumber.finite n).getD .nan
  dateParse := parseIsoDate

private def rotatedOperators : List OperatorRef := [
  ⟨"op-1", "VIZ81beKM3eDPMdQwNm1Nd65Pi9df5NY2MXbUypddhHg1TJM5gRBB", "aa", ""⟩,
  ⟨"op-2", "VIZ6bA3EYLcYUW4MqBnuStZr9mtifbsPu2sB8uEZmXFxzVdWZzyLa", "bb", ""⟩]

private def previousOperators : List OperatorRef := [
  ⟨"op-1", "VIZ81beKM3eDPMdQwNm1Nd65Pi9df5NY2MXbUypddhHg1TJM5gRBB", "aa", ""⟩,
  ⟨"op-2", "VIZ7broTJHJjGtrtP4S2n5cmAV8sgAxm17P87o2yKhD2rBThHKfPV", "bb", ""⟩]

private def operatorTrees (operators : List OperatorRef) : JsonTree :=
  .arr (operators.map OperatorRef.toTree)

private def rotatedAuthority : JsonTree :=
  keyAuthority 2 ["VIZ6bA3EYLcYUW4MqBnuStZr9mtifbsPu2sB8uEZmXFxzVdWZzyLa",
    "VIZ81beKM3eDPMdQwNm1Nd65Pi9df5NY2MXbUypddhHg1TJM5gRBB"]

private def signedProposal : JsonTree :=
  .obj [("version", .num 1), ("chainId", .str "viz-gateway"),
    ("newOperators", operatorTrees rotatedOperators), ("newThreshold", .num 2),
    ("currentActiveHash", .str "deadbeef"),
    ("vizTx", .obj [("ref_block_num", .num 1234), ("ref_block_prefix", .num 5678901),
      ("expiration", .str "2099-01-01T00:00:00"),
      ("operations", .arr [.arr [.str "account_update", .obj [("account", .str "viz-gateway"),
        ("active", rotatedAuthority), ("regular", rotatedAuthority),
        ("memo_key", .str "VIZ66354NrsbxJgp8371cZYZRnqFEUS6ddz2GmkrUJGo6fq8uoasS"),
        ("json_metadata", .str "\x7b\x7d")]]]),
      ("extensions", .arr []), ("signatures", .arr [.str "1f5a", .str "1f5b"])])]

private def rotateEnv : RotateEnv where
  chainId := "viz-gateway"
  nowMs := 0
  live := .ok ⟨"deadbeef", previousOperators.map (·.vizPubkey)⟩
  apply := true
  proposalFile := "rotation-proposal.json"
  broadcast _ := .ok ()

private def rotatedFiles : RotationFiles where
  state := .obj [("proposalFile", .str "rotation-proposal.json"), ("vizDone", .bool true),
    ("tonOrderAddress", .str ""), ("tonDone", .bool false), ("solanaNewMultisig", .str ""),
    ("solanaDone", .bool false)]
  manifest := .obj [("chainId", .str "viz-gateway"), ("n", .num 2), ("threshold", .num 2),
    ("operators", operatorTrees rotatedOperators)]

/-- The operators of a manifest, and nothing pinned. -/
private def bareTree : JsonTree :=
  .obj [("chainId", .str "viz-gateway"), ("n", .num 2), ("threshold", .num 2),
    ("operators", operatorTrees previousOperators)]

private def bareManifest : FederationManifest :=
  ⟨2, 2, previousOperators, none, none, none, none⟩

private def perChainTree (solana gram : ℚ) : JsonTree :=
  .obj [("SOLANA", .num solana), ("GRAM", .num gram)]

/-- The sections of the committed file. -/
private def pinnedTree : JsonTree :=
  .obj [("chainId", .str "viz-gateway"), ("n", .num 2), ("threshold", .num 2),
    ("operators", operatorTrees previousOperators),
    ("accounts", .obj [("gram", .str "gram.gate"), ("solana", .str "solana.gate"),
      ("fees", .str "fees.gate")]),
    ("gram", .obj [
      ("jettonMinterAddress", .str "EQAHujyCaWPjfNaAKHSPDlJZJd2mhWl203eLWShz8PM3_VIZ"),
      ("multisigAddress", .str "EQCfGcOZtfv7RgUuT0vddjFEinDIiAdZagyj70CvmqqLZ9m0"),
      ("gatewayJettonWallet", .str "EQCjDw0JMwpzK-cQInWKABBspYWi-jP9PQgkQsqZ21UgsPhy"),
      ("frozenMilliViz", .num 1213000)]),
    ("rpc", .obj [
      ("vizNodeUrls", .arr [.str "https://node.viz.cx", .str "https://api.viz.world"]),
      ("gramEndpoints", .arr [.str "https://toncenter.com/api/v2/jsonRPC"]),
      ("gramOrbsFallback", .bool true)]),
    ("fees", .obj [("floorMilliViz", .num 10000), ("bps", .num 20),
      ("activationSurchargeMilliViz", perChainTree 40000 10000),
      ("mintGasFloorMilliViz", perChainTree 1000 1000), ("mintGasTon", .num (6 / 100)),
      ("walletDeployGasTon", .num (5 / 100)), ("margin", .num (3 / 2)),
      ("gramVizPerTon", .num 500)])]

private def pinnedManifest : FederationManifest where
  n := 2
  threshold := 2
  operators := previousOperators
  fees := some {
    floorMilliViz := 10000
    bps := .finite 20
    activationSurchargeMilliViz := ⟨10000, 40000⟩
    mintGasFloorMilliViz := ⟨1000, 1000⟩
    mintGasTon := .finite (6 / 100)
    walletDeployGasTon := .finite (5 / 100)
    margin := .finite (3 / 2)
    gramVizPerTon := .finite 500
    refundFeeMilliViz := 5000 }
  gram := some {
    jettonMinterAddress := some "EQAHujyCaWPjfNaAKHSPDlJZJd2mhWl203eLWShz8PM3_VIZ"
    multisigAddress := some "EQCfGcOZtfv7RgUuT0vddjFEinDIiAdZagyj70CvmqqLZ9m0"
    gatewayJettonWallet := some "EQCjDw0JMwpzK-cQInWKABBspYWi-jP9PQgkQsqZ21UgsPhy"
    frozenMilliViz := some 1213000 }
  accounts := some ⟨some "gram.gate", some "solana.gate", some "fees.gate"⟩
  rpc := some {
    vizNodeUrls := some "https://node.viz.cx,https://api.viz.world"
    gramEndpoints := some "https://toncenter.com/api/v2/jsonRPC"
    gramOrbsFallback := some true }

theorem manifest_rewrite_sample :
    ∃ new, parseManifest rotateRuntime rotatedFiles.manifest = .ok new ∧
      bareManifest.KeepsRest new := by
  refine (manifest_rewrite rotateRuntime rotateEnv bareTree signedProposal bareManifest rotatedFiles
    (by decide +kernel) (by decide +kernel)).2 ⟨by decide +kernel, fun operators h => ?_, 2, rfl⟩
  obtain rfl : rotatedOperators.map OperatorRef.toTree = operators := by
    simpa [signedProposal, JsonTree.get, operatorTrees] using h
  simp [rotatedOperators, OperatorRef.toTree, Named, JsonTree.get, stringOrEmpty, Runtime.text, found]

/-- The committed sections are gone after a rotation, and what is left still parses. -/
theorem rotation_drops_pins :
    parseManifest rotateRuntime pinnedTree = .ok pinnedManifest ∧
      broadcastViz rotateRuntime rotateEnv signedProposal = .ok (some rotatedFiles) ∧
      parseManifest rotateRuntime rotatedFiles.manifest =
        .ok ⟨2, 2, rotatedOperators, none, none, none, none⟩ ∧
      ¬ pinnedManifest.KeepsRest ⟨2, 2, rotatedOperators, none, none, none, none⟩ :=
  ⟨by decide +kernel, by decide +kernel, by decide +kernel, fun h => by simp [pinnedManifest,
    FederationManifest.KeepsRest] at h⟩

end VizGateway
