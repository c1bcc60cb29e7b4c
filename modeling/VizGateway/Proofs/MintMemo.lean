import VizGateway.Sample
import VizGateway.SolanaMint

/-!
# A signed Solana mint and its action

Pins, recipient and net tie every instruction of a signed mint to the action but the memo: its text
is the proposal's `actionId`, which nothing compares with the action's. A mint whose proposal names
another action is signed as it stands, so two deposits alike get one message.
-/

namespace VizGateway

open Checks Text

theorem utf8Bytes_injective : Function.Injective utf8Bytes := by
  intro s t h
  have h' := congrArg Utf8.decode h
  unfold utf8Bytes Utf8.encode at h'
  rw [Utf8.decode_flatMap_utf8EncodeChar, Utf8.decode_flatMap_utf8EncodeChar] at h'
  exact String.toList_inj.1 h'

section

variable {L : Libs} {cfg : SignerConfig} {view : RequestView} {action : CanonicalAction}
  {p : JsonObject} {hint : Option ℕ} {effect : Effect} {pins : SolanaPins} {feePayer : String}
  {Key : Type}

theorem assertPins_eq_ok (hpins : cfg.solanaPins = some pins) (hfee : pins.feePayer = some feePayer)
    (h : assertPins cfg.solanaPins action p = .ok ()) :
    p.get "mint" = some (.str pins.mint) ∧ p.get "multisig" = some (.str pins.multisig) ∧
      p.get "nonceAccount" = some (.str pins.nonceAccount) ∧
      p.get "feePayer" = some (.str feePayer) := by
  rw [hpins] at h
  simp only [assertPins, hfee, Option.all_some, decide_eq_true_eq, bind_eq_ok, require_eq_ok] at h
  obtain ⟨-, hmint, -, hmultisig, -, hnonce, hpayer⟩ := h
  exact ⟨hmint, hmultisig, hnonce, hpayer⟩

/-- What the checks leave of the signed message. -/
theorem approveSolanaMint_message (S : MintSdk L Key) (hpins : cfg.solanaPins = some pins)
    (hfee : pins.feePayer = some feePayer)
    (h : approveSolanaMint L cfg view action p hint = .ok effect) :
    ∃ message submitter nonce mint recipient ata multisig signers mintTo memo,
      effect = .solanaMint message ∧
      S.publicKey (some (.str feePayer)) = some submitter ∧
      S.publicKey (some (.str pins.nonceAccount)) = some nonce ∧
      S.publicKey (some (.str pins.mint)) = some mint ∧
      S.publicKey (some (.str action.recipient)) = some recipient ∧
      S.associatedTokenAddress mint recipient = some ata ∧
      S.publicKey (some (.str pins.multisig)) = some multisig ∧
      S.mintTo mint ata multisig (derivedNet cfg.deps.fees .solana action.amountMilliViz
        (jsTruthy (p.get "destProvisioned"))) signers = some mintTo ∧
      S.memoInstructions (if jsTruthy (p.get "actionId") then p.get "actionId" else none) =
        some memo ∧
      S.compile submitter (p.get "nonceValue")
        ([S.nonceAdvance nonce submitter, S.createAtaIdempotent submitter ata recipient mint,
          mintTo] ++ memo) = some message := by
  unfold approveSolanaMint at h
  simp only [bind_eq_ok, require_eq_ok, found_eq_ok, pure_eq_ok] at h
  obtain ⟨-, -, _, -, _, hpinned, -, hrecipient, _, hnet, _, -, message, hmessage, -, -, -, -,
    rfl⟩ := h
  obtain ⟨hmint, hmultisig, hnonce, hpayer⟩ := assertPins_eq_ok hpins hfee hpinned
  obtain ⟨hpos, hamount⟩ := assertNet_eq_ok hnet
  have hbig : bigIntOf (p.get "amountMilliViz") = some (derivedNet cfg.deps.fees .solana
      action.amountMilliViz (jsTruthy (p.get "destProvisioned"))) := by
    rw [hamount]
    exact bigIntOf_bigintText hpos.le
  unfold mintMessageB64 at hmessage
  rw [hbig, Option.bind_eq_bind, Option.bind_some, S.serializeMessage_eq] at hmessage
  simp only [SolanaSdk.mintMessage, buildMintTx, Option.bind_eq_bind, Option.bind_eq_some_iff]
    at hmessage
  obtain ⟨submitter, hsubmitter, nonce, hn, mint, hm, recipient, hr, ata, hata, signers, -,
    multisig, hms, mintTo, hmt, memo, hmemo, hcompile⟩ := hmessage
  rw [hpayer] at hsubmitter
  rw [hnonce] at hn
  rw [hmint] at hm
  rw [hrecipient] at hr
  rw [hmultisig] at hms
  exact ⟨message, submitter, nonce, mint, recipient, ata, multisig, signers, mintTo, memo, rfl,
    hsubmitter, hn, hm, hr, hata, hms, hmt, hmemo, hcompile⟩

/-! ## The memo -/

variable (S : MintSdk L Key)

theorem memoInstructions_named (h : NamesAction S.toSolanaSdk action p) :
    S.memoInstructions (if jsTruthy (p.get "actionId") then p.get "actionId" else none) =
      some [S.memo (utf8Bytes action.id)] := by
  obtain ⟨htruthy, hbytes⟩ := h
  obtain ⟨actionId, hget, hid⟩ := Option.bind_eq_some_iff.1 hbytes
  rw [if_pos htruthy, hget]
  simp [SolanaSdk.memoInstructions, hid]

/-- One memo instruction is left of a proposal only by its action id. -/
theorem named_of_memoInstructions {memo : List (TransactionInstruction Key)}
    (h : S.memoInstructions (if jsTruthy (p.get "actionId") then p.get "actionId" else none) =
      some memo)
    (hmemo : memo.map (·.compiled) = [(S.memo (utf8Bytes action.id)).compiled]) :
    NamesAction S.toSolanaSdk action p := by
  unfold SolanaSdk.memoInstructions at h
  split at h
  · obtain rfl := Option.some.inj h
    simp at hmemo
  · next actionId hget =>
    split_ifs at hget with htruthy
    obtain ⟨data, hdata, rfl⟩ := Option.map_eq_some_iff.1 h
    have hbytes : data = utf8Bytes action.id := by
      simpa [SolanaSdk.memo, TransactionInstruction.compiled] using hmemo
    refine ⟨htruthy, ?_⟩
    rw [hget, Option.bind_some, hdata, hbytes]

/-- The message of a signed mint is the action's exactly if the proposal names the action. -/
theorem approveSolanaMint_binds_iff (hpins : cfg.solanaPins = some pins)
    (hfee : pins.feePayer = some feePayer)
    (h : approveSolanaMint L cfg view action p hint = .ok effect) :
    ∃ message, effect = .solanaMint message ∧
      (BindsMint S.toSolanaSdk cfg.deps.fees pins feePayer action
        (jsTruthy (p.get "destProvisioned")) message ↔ NamesAction S.toSolanaSdk action p) := by
  obtain ⟨message, submitter, nonce, mint, recipient, ata, multisig, signers, mintTo, memo, rfl,
    hsubmitter, hn, hm, hr, hata, hms, hmt, hmemo, hcompile⟩ :=
    approveSolanaMint_message S hpins hfee h
  refine ⟨message, rfl, fun hbinds => ?_, fun hnamed => ?_⟩
  · obtain ⟨submitter', nonce', mint', recipient', ata', multisig', signers', mintTo', blockhash,
      -, -, -, -, -, -, -, hcompile'⟩ := hbinds
    have hsame := S.compile_inj hcompile hcompile'
    simp only [List.map_cons, List.map_nil, List.cons_append, List.nil_append,
      List.cons.injEq] at hsame
    exact named_of_memoInstructions S hmemo hsame.2.2.2
  · rw [memoInstructions_named S hnamed, Option.some.injEq] at hmemo
    subst hmemo
    exact ⟨submitter, nonce, mint, recipient, ata, multisig, signers, mintTo, p.get "nonceValue",
      hsubmitter, hn, hm, hr, hata, hms, hmt, hcompile⟩

theorem BindsMint.id_eq {S : SolanaSdk Key} {fees : GatewayFeeConfig} {action' : CanonicalAction}
    {flag flag' : Bool} {message : String}
    (h : BindsMint S fees pins feePayer action flag message)
    (h' : BindsMint S fees pins feePayer action' flag' message) : action.id = action'.id := by
  obtain ⟨_, _, _, _, _, _, _, _, _, -, -, -, -, -, -, -, hcompile⟩ := h
  obtain ⟨_, _, _, _, _, _, _, _, _, -, -, -, -, -, -, -, hcompile'⟩ := h'
  have hsame := S.compile_inj hcompile hcompile'
  simp only [List.map_cons, List.map_nil, List.cons.injEq, SolanaSdk.memo,
    TransactionInstruction.compiled, Prod.mk.injEq] at hsame
  exact utf8Bytes_injective hsame.2.2.2.1.2.2

/-- What a signer with all its pins signs for a mint is the action's, memo included, exactly if the
proposal's `actionId` is the action's id; actions so named never share a message. -/
theorem signedMint_named_iff (hpins : cfg.solanaPins = some pins)
    (hfee : pins.feePayer = some feePayer) :
    (∀ view action p hint effect, approveSolanaMint L cfg view action p hint = .ok effect →
      ∃ message, effect = .solanaMint message ∧
        (BindsMint S.toSolanaSdk cfg.deps.fees pins feePayer action
          (jsTruthy (p.get "destProvisioned")) message ↔ NamesAction S.toSolanaSdk action p)) ∧
    ∀ view action p hint effect view' action' p' hint' effect',
      approveSolanaMint L cfg view action p hint = .ok effect →
      approveSolanaMint L cfg view' action' p' hint' = .ok effect' →
      NamesAction S.toSolanaSdk action p → NamesAction S.toSolanaSdk action' p' →
      action.id ≠ action'.id → effect ≠ effect' := by
  refine ⟨fun view action p hint effect h => approveSolanaMint_binds_iff S hpins hfee h, ?_⟩
  intro view action p hint effect view' action' p' hint' effect' h h' hnamed hnamed' hne heq
  obtain ⟨message, rfl, hbinds⟩ := approveSolanaMint_binds_iff S hpins hfee h
  obtain ⟨message', rfl, hbinds'⟩ := approveSolanaMint_binds_iff S hpins hfee h'
  obtain rfl := Effect.solanaMint.inj heq
  exact hne ((hbinds.2 hnamed).id_eq (hbinds'.2 hnamed'))

end

/-! ## Two like deposits -/

def sampleWallet : String := "67WKXSxm4oc149PvQjdXLacKFZpK5DyYdqBwpiVydJbb"

def samplePins : SolanaPins where
  mint := "APTCgk1UGYgrCiy6B1yVBxkCuzm2K9Rtk2ZSgEiWMdDD"
  multisig := "2wHUa5mm6vKSYHbGRNZiHUcMZmD9pAG1zMqJb9SQAJbj"
  nonceAccount := "ZSx1e5zpVu3SY2cwo1vqUrSe34UaGkRdinnbv99nmSc"
  feePayer := some "3F1nNPDu3BDoArFYVLxMjxQooxhKHJVCLCJBSf4rzeGv"

def sampleMembers : List String :=
  ["HKhys27XsZDfXRnuxfbjrERgFeQjMoeXDM2LukqF8hwM", "7xRCkYFseSkd3VvaP4i9N8LYVrGthb6YX5X7tHiU2Htq"]

/-- Another transfer after the first in one transaction, the same in all. -/
def likeDeposit (opIndex : ℕ) : VizDeposit :=
  { sampleDeposit with
    opIndex, receiver := "sol.gate", remoteChain := .solana, remoteDestination := sampleWallet }

/-- The proposal of the first one's mint. -/
def likeProposal : SolanaMintProposal where
  recipient := sampleWallet
  amountMilliViz := 240000
  destProvisioned := true
  mint := samplePins.mint
  multisig := samplePins.multisig
  signers := sampleMembers
  feePayer := "3F1nNPDu3BDoArFYVLxMjxQooxhKHJVCLCJBSf4rzeGv"
  nonceAccount := samplePins.nonceAccount
  nonceValue := "3s2b3i2DAsNkH2ghyPw4kZiW7YgUiv6MYvkbpg39tcUf"
  decimals := 3
  messageB64 := "AwIHDSFOY79BSQ5n00R2d49nB6psjSyNzN94rhHkDun5HomnZ1humPrSfaC5lovAOaHvNMk5ubjlI6i++J1HhgjF"
    ++ "7Pbyhcg0yDfauP4iq4783FdrJDgI7DmB7i9VaDNpFEQhqIt5lhNQT707Kcr95Yodmys/bvrakbq+6G/4eazuIggk"
    ++ "B0p6hr4wqZ0d6u1zql13vXCE4vsMU19ehbuFwN8XyTgIT+0IuXivTX0ZanRGqGtYAJ5ja2EdsWIRtlqarf8pxQAA"
    ++ "AAAAAAAAAAAAAAAAAAAAAAAAAAAAAAAAAAAAAAAAHMOt6kDr/ZRDOsAEd31oFQzOnbTHcbx94bKXp7eVu7pL9RIv"
    ++ "NEVUxTveLruM0rfj0WAK1jHDhaXXzOI8d4VFmoyXJY9OJInxuz0QKRSODYMLWhOZ2v8QhASOe9jb6fhZBUpTUPhd"
    ++ "yILWFKVWcniKKW3fHqur0KYGeIhJMvTu9qAGp9UXGSxWjuCKhF9z0peIzwNcMUWyGrNE2AYuqUAAAAbd9uHudY/e"
    ++ "GEJdvORszdq2GvxNg7kNJ/69+SjYoYv8Kog1cGVMjzdgpKZ9fNuCb4edId38wldm11cI66EhaSgEBgMFCwAEBAAA"
    ++ "AAkGAAQIAwYMAQEMBQMEBwIBCQeAqQMAAAAAAAoAKjVkMWU3YTkwYzNiMjRmNmU4YTFiMGM5ZDdlNmY1YTRiM2My"
    ++ "ZDFlMGY6MA=="
  actionId := (likeDeposit 0).id

private def sampleAtaKey : String := "VTiwget2AxWpursAARRpw62ZQoXPH1p2VMYHzhgeDmR"

private def systemKey : String := "11111111111111111111111111111111"

private def sysvarKey : String := "SysvarRecentB1ockHashes11111111111111111111"

private def ataProgramKey : String := "ATokenGPvbdGVxr1b2hvZbsiqW5xWH25efTNsLJA8knL"

private def tokenKey : String := "TokenzQdBNbLqP5VEhdkAS6EPFLC1PHnBqCXEpPxuEb"

private def memoKey : String := "Memo1UhkJRfHyvLMcVucJwxXeuD728EqVDDwQDxFMNo"

/-- What the message of the proposal is compiled from. -/
private def likeInstructions : List (String × List String × String) :=
  [(systemKey, [samplePins.nonceAccount, sysvarKey, likeProposal.feePayer], byteText [4, 0, 0, 0]),
    (ataProgramKey, [likeProposal.feePayer, sampleAtaKey, sampleWallet, samplePins.mint, systemKey,
      tokenKey], byteText [1]),
    (tokenKey, [samplePins.mint, sampleAtaKey, samplePins.multisig] ++ sampleMembers,
      byteText (7 :: littleEndian 8 240000)),
    (memoKey, [], byteText (utf8Bytes (likeDeposit 0).id))]

/-- An instruction with its data as text. -/
private def instructionText (i : String × List String × List UInt8) :
    String × List String × String :=
  (i.1, i.2.1, byteText i.2.2)

private theorem instructionText_injective : Function.Injective instructionText := by
  rintro ⟨a, b, c⟩ ⟨a', b', c'⟩ h
  simp only [instructionText, Prod.mk.injEq] at h
  obtain ⟨rfl, rfl, hdata⟩ := h
  rw [byteText_injective hdata]

private structure CompileInput where
  feePayer : String
  blockhash : Option Json
  instructions : List (String × List String × String)
  deriving DecidableEq, Encodable

/-- A message for each input, the proposal's own as the compiler writes it. -/
private def compileText : CompileInput → String :=
  tableText
    [(⟨likeProposal.feePayer, some (.str likeProposal.nonceValue), likeInstructions⟩,
      likeProposal.messageB64)]
    fun t => (Encodable.encode t).repr

private theorem messageB64_unmarked : startsWith likeProposal.messageB64 "unlisted:" = false := by
  simp only [startsWith, likeProposal, String.toList_append]
  rfl

private theorem compileText_injective : Function.Injective compileText :=
  tableText_injective (by simp) (by simpa using messageB64_unmarked)
    fun _ _ h => Encodable.encode_injective (repr_injective h)

def sampleSdk : SolanaSdk String where
  publicKey := fun v => match v with
    | some (.str s) => if matchesSolanaAddr s then some s else none
    | _ => none
  associatedTokenAddress := fun mint owner =>
    if mint = samplePins.mint ∧ owner = sampleWallet then some sampleAtaKey else none
  u64 := fun n => if 0 ≤ n ∧ n < 2 ^ 64 then some (littleEndian 8 n.toNat) else none
  bufferFrom := fun v => match v with
    | .str s => some (utf8Bytes s)
    | _ => none
  bufferFrom_str := fun _ => rfl
  systemProgram := systemKey
  recentBlockhashes := sysvarKey
  associatedTokenProgram := ataProgramKey
  token2022Program := tokenKey
  memoProgram := memoKey
  compile := fun k b is => some (compileText ⟨k, b, (is.map (·.compiled)).map instructionText⟩)
  compile_inj := by
    intro k k' b b' is is' m h h'
    have hsame := compileText_injective ((Option.some.inj h).trans (Option.some.inj h').symm)
    exact List.map_injective_iff.2 instructionText_injective (CompileInput.mk.inj hsame).2.2

def mintLibs : Libs :=
  { sampleLibs with
    digestOf := tableHash
      [(pegInBody (likeDeposit 0),
          "b8d9bbe134fdc44303529344523d024abdedc2e29c50448b75947402fb105497"),
        (pegInBody (likeDeposit 1),
          "d3eb081949f622dcf840982eda81066f183c7d59987747211b8610cc653c47e5")]
    serializeMessage := sampleSdk.mintMessage }

def sampleMintSdk : MintSdk mintLibs String where
  toSolanaSdk := sampleSdk
  serializeMessage_eq := fun _ => rfl

/-- A signer with every pin set. -/
def mintSigner : SignerConfig :=
  { sampleConfig with solanaPins := some samplePins, solanaMember := sampleMembers.head? }

/-- A transaction with two like transfers. -/
def likeTransfer : VizOp where
  name := "transfer"
  payload := [("from", .str "alice"), ("to", .str "sol.gate"), ("amount", .str "250.000 VIZ"),
    ("memo", .str sampleWallet)]

def likeView : RequestView :=
  let view := sampleRequestView []
  { view with nodes := { view.nodes with viz := { view.nodes.viz with
      getTransaction := fun id =>
        if id = sampleTrxId then
          .ok (some ⟨some sampleTrxId, 900, some [likeTransfer, likeTransfer]⟩)
        else .error "unknown transaction" } } }

private theorem likeProposal_signed :
    approveSolanaMint mintLibs mintSigner likeView
      (canonicalPegIn mintLibs.digestOf (likeDeposit 0)) likeProposal.toJson none =
        .ok (.solanaMint likeProposal.messageB64) := by
  decide +kernel

/-- The mint of the first is signed for the second as well. -/
theorem one_mint_two_deposits : ∃ action action' p effect,
    approveSolanaMint mintLibs mintSigner likeView action p none = .ok effect ∧
      approveSolanaMint mintLibs mintSigner likeView action' p none = .ok effect ∧
      action.id ≠ action'.id :=
  ⟨canonicalPegIn mintLibs.digestOf (likeDeposit 0),
    canonicalPegIn mintLibs.digestOf (likeDeposit 1), likeProposal.toJson,
    .solanaMint likeProposal.messageB64, likeProposal_signed, by decide +kernel, by decide⟩

/-- For the first it is the mint it stands for. -/
theorem signedMint_named_iff_sample :
    BindsMint sampleSdk mintSigner.deps.fees samplePins likeProposal.feePayer
      (canonicalPegIn mintLibs.digestOf (likeDeposit 0)) true likeProposal.messageB64 := by
  have hpins : mintSigner.solanaPins = some samplePins := rfl
  have hfee : samplePins.feePayer = some likeProposal.feePayer := rfl
  obtain ⟨message, heq, hiff⟩ := (signedMint_named_iff sampleMintSdk hpins hfee).1 likeView
    (canonicalPegIn mintLibs.digestOf (likeDeposit 0)) likeProposal.toJson none
    (.solanaMint likeProposal.messageB64) likeProposal_signed
  obtain rfl := Effect.solanaMint.inj heq
  exact hiff.2 ⟨by decide, by decide +kernel⟩

end VizGateway
