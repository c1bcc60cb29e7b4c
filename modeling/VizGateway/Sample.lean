import Mathlib
import VizGateway.Lib.LittleEndian
import VizGateway.Gateway
import VizGateway.SignerWorld
import VizGateway.TonCells

/-!
# A concrete set of libraries

An instance of `Libs` that does what the libraries do on the inputs it is used with: ISO dates,
the graphene bytes of a transfer, ASCII text, and hashes read off a table. Outside the table a
hash is its argument behind a mark, so no two arguments collide.
-/

namespace VizGateway

open Text

/-! ## Hashes off a table -/

/-- The text of a listed value, and any other value's own text behind a mark. -/
def tableText {α : Type} [DecidableEq α] (table : List (α × String)) (text : α → String) (a : α) :
    String :=
  match table.find? (·.1 = a) with
  | some e => e.2
  | none => "unlisted:" ++ text a

/-- A table of distinct unmarked texts keeps values apart. -/
theorem tableText_injective {α : Type} [DecidableEq α] {table : List (α × String)}
    {text : α → String} (hnd : (table.map (·.2)).Nodup)
    (hmark : ∀ e ∈ table, startsWith e.2 "unlisted:" = false) (htext : Function.Injective text) :
    Function.Injective (tableText table text) := by
  intro s t h
  unfold tableText at h
  split at h
  · next e he =>
    have hes : e.1 = s := by simpa using List.find?_some he
    have hem := List.mem_of_find?_eq_some he
    split at h
    · next e' he' =>
      have het : e'.1 = t := by simpa using List.find?_some he'
      rw [← hes, ← het, List.inj_on_of_nodup_map hnd hem (List.mem_of_find?_eq_some he') h]
    · have := hmark e hem
      rw [h, startsWith_append] at this
      simp at this
  · split at h
    · next e' he' =>
      have := hmark e' (List.mem_of_find?_eq_some he')
      rw [← h, startsWith_append] at this
      simp at this
    · exact htext (append_left_cancel h)

/-- The hash of a listed string, and of any other string the string itself behind a mark. -/
def tableHash (table : List (String × String)) (s : String) : String :=
  match table.find? (·.1 = s) with
  | some e => e.2
  | none => "unlisted:" ++ s

/-- A table of distinct unmarked hashes gives a collision-free function. -/
theorem tableHash_injective {table : List (String × String)}
    (hnd : (table.map (·.2)).Nodup) (hmark : ∀ e ∈ table, startsWith e.2 "unlisted:" = false) :
    Function.Injective (tableHash table) := by
  have h : tableHash table = tableText table id := by
    funext s
    simp only [tableHash, tableText]
    cases table.find? fun e => decide (e.1 = s) <;> rfl
  rw [h]
  exact tableText_injective hnd hmark Function.injective_id

/-! ## Dates -/

/-- Days from 1970-01-01 to a date of the proleptic Gregorian calendar. -/
def daysFromCivil (year month day : ℕ) : ℤ :=
  let y : ℤ := if month ≤ 2 then (year : ℤ) - 1 else year
  let era := y / 400
  let yoe := y - era * 400
  let doy : ℤ := (153 * (if 2 < month then (month : ℤ) - 3 else (month : ℤ) + 9) + 2) / 5 + day - 1
  let doe := yoe * 365 + yoe / 4 - yoe / 100 + doy
  era * 146097 + doe - 719468

/-- The number at positions `[i, i + n)`, if those are digits. -/
def digitsAt (s : String) (i n : ℕ) : Option ℕ :=
  let t := String.ofList ((s.toList.drop i).take n)
  if isDigits t && t.toList.length == n then some (parseNat t) else none

/-- `Date.parse` of `YYYY-MM-DDThh:mm:ssZ`. -/
def parseIsoDate (s : String) : Option ℤ := do
  let year ← digitsAt s 0 4
  let month ← digitsAt s 5 2
  let day ← digitsAt s 8 2
  let hour ← digitsAt s 11 2
  let minute ← digitsAt s 14 2
  let second ← digitsAt s 17 2
  if s.toList.length = 20 ∧ s.toList[4]? = some '-' ∧ s.toList[7]? = some '-'
      ∧ s.toList[10]? = some 'T' ∧ s.toList[13]? = some ':' ∧ s.toList[16]? = some ':'
      ∧ s.toList[19]? = some 'Z' then
    some ((((daysFromCivil year month day * 24 + hour) * 60 + minute) * 60 + second) * 1000)
  else none

/-! ## Graphene bytes -/

/-- A short ASCII string behind its length. -/
def stringBytes (s : String) : Option (List UInt8) :=
  if s.toList.length < 128 ∧ s.toList.all (fun c => c.toNat < 128) then
    some (UInt8.ofNat s.toList.length :: s.toList.map fun c => UInt8.ofNat c.toNat)
  else none

/-- An asset: its units, its three decimals and its symbol in seven bytes. -/
def assetBytes (amount : String) : Option (List UInt8) := do
  let units ← vizToMilli amount
  if 0 ≤ units ∧ units < 2 ^ 63 ∧ milliToViz units = amount then
    some (littleEndian 8 units.toNat ++ [3, 86, 73, 90, 0, 0, 0, 0])
  else none

/-- The TaPoS fields and the expiration in seconds. -/
def headerBytes (num pre expiration : Option Json) : Option (List UInt8) :=
  match num, pre, expiration with
  | some (.num num), some (.num pre), some (.str expiration) => do
    let ms ← parseIsoDate (expiration ++ "Z")
    if 0 ≤ ms then
      some (littleEndian 2 num.toNat ++ (littleEndian 4 pre.toNat
        ++ littleEndian 4 (ms / 1000).toNat))
    else none
  | _, _, _ => none

/-- The operations: one transfer, and no extensions. -/
def transferBytes (operations : List (String × List (String × Option Json))) (_ : List Json) :
    Option (List UInt8) :=
  match operations with
  | [("transfer", [("from", some (.str sender)), ("to", some (.str receiver)),
        ("amount", some (.str amount)), ("memo", some (.str memo))])] => do
    let sender ← stringBytes sender
    let receiver ← stringBytes receiver
    let asset ← assetBytes amount
    let memo ← stringBytes memo
    return [1, 2] ++ (sender ++ (receiver ++ (asset ++ (memo ++ [0]))))
  | _ => none

def transactionBytes (tx : VizTransaction) : Option (List UInt8) :=
  (headerBytes tx.ref_block_num tx.ref_block_prefix tx.expiration).bind fun h =>
    (transferBytes tx.operations tx.extensions).map (h ++ ·)

theorem ofNat_toNat_inj {c d : Char} (hc : c.toNat < 128) (hd : d.toNat < 128)
    (h : UInt8.ofNat c.toNat = UInt8.ofNat d.toNat) : c = d := by
  have h' := congrArg UInt8.toNat h
  rw [UInt8.toNat_ofNat', UInt8.toNat_ofNat'] at h'
  exact Char.toNat_inj.1 (by omega)

theorem ascii_inj {l m : List Char} (hl : ∀ c ∈ l, c.toNat < 128) (hm : ∀ c ∈ m, c.toNat < 128)
    (h : l.map (fun c => UInt8.ofNat c.toNat) = m.map fun c => UInt8.ofNat c.toNat) : l = m := by
  induction l generalizing m with
  | nil =>
    symm
    simpa using h
  | cons c l ih =>
    cases m with
    | nil => simp at h
    | cons d m =>
      rw [List.map_cons, List.map_cons, List.cons.injEq] at h
      rw [ofNat_toNat_inj (hl c List.mem_cons_self) (hm d List.mem_cons_self) h.1,
        ih (fun x hx => hl x (List.mem_cons_of_mem _ hx))
          (fun x hx => hm x (List.mem_cons_of_mem _ hx)) h.2]

/-- A string's bytes end where its length says. -/
theorem stringBytes_append_inj {s t : String} {a b r q : List UInt8} (hs : stringBytes s = some a)
    (ht : stringBytes t = some b) (h : a ++ r = b ++ q) : s = t ∧ r = q := by
  unfold stringBytes at hs ht
  split_ifs at hs ht with hs' ht'
  rw [Option.some.injEq] at hs ht
  subst hs ht
  rw [List.cons_append, List.cons_append, List.cons.injEq] at h
  have hlen := congrArg UInt8.toNat h.1
  rw [UInt8.toNat_ofNat', UInt8.toNat_ofNat'] at hlen
  obtain ⟨hmap, hrest⟩ := List.append_inj h.2 (by simp only [List.length_map]; omega)
  refine ⟨String.toList_inj.1 ?_, hrest⟩
  rw [List.all_eq_true] at hs' ht'
  exact ascii_inj (fun c hc => of_decide_eq_true (hs'.2 c hc))
    (fun c hc => of_decide_eq_true (ht'.2 c hc)) hmap

theorem assetBytes_eq_some {t : String} {a : List UInt8} (h : assetBytes t = some a) :
    ∃ u : ℤ, 0 ≤ u ∧ u < 2 ^ 63 ∧ t = milliToViz u
      ∧ a = littleEndian 8 u.toNat ++ [3, 86, 73, 90, 0, 0, 0, 0] := by
  unfold assetBytes at h
  simp only [Option.bind_eq_bind, Option.bind_eq_some_iff] at h
  obtain ⟨u, -, h⟩ := h
  split_ifs at h with hu
  exact ⟨u, hu.1, hu.2.1, hu.2.2.symm, (Option.some.inj h).symm⟩

theorem assetBytes_append_inj {s t : String} {a b r q : List UInt8} (hs : assetBytes s = some a)
    (ht : assetBytes t = some b) (h : a ++ r = b ++ q) : s = t ∧ r = q := by
  obtain ⟨u, hu, hu', rfl, rfl⟩ := assetBytes_eq_some hs
  obtain ⟨v, hv, hv', rfl, rfl⟩ := assetBytes_eq_some ht
  obtain ⟨hbytes, hrest⟩ := List.append_inj h (by simp)
  obtain ⟨hunits, -⟩ := List.append_inj hbytes (by simp)
  have := littleEndian_inj (by omega) (by omega) hunits
  refine ⟨?_, hrest⟩
  rw [show u = v by omega]

theorem headerBytes_eq_some {n p e : Option Json} {h : List UInt8}
    (hh : headerBytes n p e = some h) : ∃ (num pre ms : ℤ) (s : String), e = some (.str s)
      ∧ parseIsoDate (s ++ "Z") = some ms ∧ 0 ≤ ms
      ∧ h = littleEndian 2 num.toNat ++ (littleEndian 4 pre.toNat
          ++ littleEndian 4 (ms / 1000).toNat) := by
  unfold headerBytes at hh
  split at hh
  · next num pre s =>
    simp only [Option.bind_eq_bind, Option.bind_eq_some_iff] at hh
    obtain ⟨ms, hms, hh⟩ := hh
    split_ifs at hh with hpos
    exact ⟨num, pre, ms, s, rfl, hms, hpos, (Option.some.inj hh).symm⟩
  · simp at hh

theorem headerBytes_length {n p e : Option Json} {h : List UInt8}
    (hh : headerBytes n p e = some h) : h.length = 10 := by
  obtain ⟨num, pre, ms, s, -, -, -, rfl⟩ := headerBytes_eq_some hh
  simp

/-- Bytes as a string of characters, one a byte. -/
def byteText (bytes : List UInt8) : String :=
  String.ofList (bytes.map fun b => Char.ofNat b.toNat)

theorem toNat_ofNat_toNat (x : UInt8) : (Char.ofNat x.toNat).toNat = x.toNat := by
  have hx : x.toNat.isValidChar := .inl (by have := x.toNat_lt; omega)
  rw [Char.ofNat, dif_pos hx]
  rfl

theorem byteText_injective : Function.Injective byteText := by
  intro a b h
  unfold byteText at h
  rw [String.ofList_inj] at h
  refine List.map_injective_iff.2 (fun x y hxy => ?_) h
  have h' := congrArg Char.toNat hxy
  rw [toNat_ofNat_toNat, toNat_ofNat_toNat] at h'
  exact UInt8.toNat_inj.1 h'

/-! ## Addresses -/

/-- The hash part of the sample sender's address. -/
def sampleSenderHash : List Bool :=
  natBits 256 0x2f0df5851b4a185f5f63c0d0cd0412f5aca353f577da18ff47c936f99dbd849a

/-- The hash part of the sample recipient's address. -/
def sampleRecipientHash : List Bool :=
  natBits 256 0x83dfd552e63729b472fcbcc8c45ebcc6691702558b68ec7527e1ba403a0f31a8

/-- The hash part of the sample order's address. -/
def sampleOrderHash : List Bool := natBits 256 0x1111

def sampleOrder : String := "EQAAAAAAAAAAAAAAAAAAAAAAAAAAAAAAAAAAAAAAAAAREf0O"

def bitText (bits : List Bool) : String :=
  String.ofList (bits.map fun b => if b then '1' else '0')

def sampleSender : String := "EQAvDfWFG0oYX19jwNDNBBL1rKNT9XfaGP9HyTb5nb2Eml6y"

def sampleRecipient : String := "EQCD39VS5jcptHL8vMjEXrzGaRcCVYto7HUn4bpAOg8xqB2N"

/-! ## A deposit and a burn -/

def sampleAccounts : GatewayAccounts where
  gram := "gram.gate"
  solana := "sol.gate"
  gram_ne := by decide
  solana_ne := by decide
  distinct := by decide

def sampleTrxId : String := "5d1e7a90c3b24f6e8a1b0c9d7e6f5a4b3c2d1e0f"

def sampleDeposit : VizDeposit where
  trxId := sampleTrxId
  opIndex := 0
  blockNum := 900
  sender := "alice"
  receiver := "gram.gate"
  amountMilliViz := 250000
  remoteChain := .gram
  remoteDestination := sampleRecipient
  destinationValid := true

def sampleBurnHash : String := "9f2c9f2c9f2c9f2c9f2c9f2c9f2c9f2c9f2c9f2c9f2c9f2c9f2c9f2c9f2c9f2c"

def sampleBurn : RemoteBurn where
  chain := .gram
  sourceId := sampleBurnHash
  height := 70
  sender := sampleSender
  amountMilliViz := 120000
  homeDestination := "carol"

def sampleLibs : Libs where
  digestOf := tableHash
    [(pegInBody sampleDeposit, "8ed8ca8bb0f02913c56d1c7dcf1ab041ab1c3c30880b98b3b22683ae84119cd4"),
      (pegOutBody sampleBurn, "5efc15801359e21fafccbd815984fce9fd018da379e0b5a446bb087ece14a521")]
  toBuffer := transactionBytes
  trxHash := fun bytes => tableHash [] (byteText bytes)
  dateParse := parseIsoDate
  memoDecode := fun _ _ => none
  depositAta := fun _ account _ => if account = "" then none else some ("ata-" ++ account)
  addressToString := fun a => if a = ⟨0, sampleSenderHash⟩ then sampleSender else ""
  addressParse := fun s =>
    if s = sampleSender then some ⟨0, sampleSenderHash⟩
    else if s = sampleRecipient then some ⟨0, sampleRecipientHash⟩
    else if s = sampleOrder then some ⟨0, sampleOrderHash⟩
    else none
  orderHash := fun body => match body with
    | .mint toAddr n => if 0 ≤ n then some ("mint " ++ bitText toAddr.hash ++ bigintText n) else none
    | .giveBack toAddr n =>
      if 0 ≤ n then some ("return " ++ bitText toAddr.hash ++ bigintText n) else none
  serializeMessage := fun _ => none
  utf8 := fun bytes => String.ofList (bytes.map fun b => Char.ofNat (bitsToNat b))

/-- The sample serializer has the layout of a transaction. -/
def sampleLayout : TransactionLayout sampleLibs where
  header := headerBytes
  body := transferBytes
  toBuffer_eq := fun _ => rfl
  header_length := headerBytes_length
  body_inj := by
    intro s t m s' t' m' n n' b h h'
    simp only [transferBytes, Option.bind_eq_bind, Option.bind_eq_some_iff, Option.pure_def,
      Option.some.injEq] at h h'
    obtain ⟨bs, hs, bt, ht, bn, hn, bm, hm, rfl⟩ := h
    obtain ⟨bs', hs', bt', ht', bn', hn', bm', hm', heq⟩ := h'
    have hrest := (List.append_inj heq rfl).2
    obtain ⟨hss, hrest⟩ := stringBytes_append_inj hs' hs hrest
    obtain ⟨htt, hrest⟩ := stringBytes_append_inj ht' ht hrest
    obtain ⟨hnn, hrest⟩ := assetBytes_append_inj hn' hn hrest
    obtain ⟨hmm, -⟩ := stringBytes_append_inj hm' hm hrest
    exact ⟨hss.symm, htt.symm, hnn.symm, hmm.symm⟩

theorem sampleLibs_trxHash : Function.Injective sampleLibs.trxHash := by
  have htable : Function.Injective (tableHash []) :=
    tableHash_injective List.nodup_nil fun _ he => absurd he List.not_mem_nil
  exact htable.comp byteText_injective

theorem sampleLibs_digestOf : Function.Injective sampleLibs.digestOf :=
  tableHash_injective (by decide) (by decide)

/-- The transfer behind the deposit. -/
def sampleTransfer : VizOp where
  name := "transfer"
  payload := [("from", .str "alice"), ("to", .str "gram.gate"), ("amount", .str "250.000 VIZ"),
    ("memo", .str sampleRecipient)]

/-- The message behind the burn: an internal transfer with a text comment. -/
def sampleMessage : Cell :=
  .mk (natBits 32 opInternalTransfer ++ natBits 64 0 ++ natBits 4 3 ++ natBits 24 120000
    ++ [true, false, false] ++ natBits 8 0 ++ sampleSenderHash ++ [false, false] ++ natBits 4 0
    ++ [false] ++ natBits 32 0 ++ "carol".toList.flatMap fun c => natBits 8 c.toNat) []

def sampleGramTx : GramTx where
  hash := sampleBurnHash
  lt := 5
  now := 1767225000
  description := .genericVm true
  inMessageBody := some sampleMessage

/-- The operator's nodes: the deposit and the burn are final, and `accounts` exist on VIZ. -/
def sampleView (accounts : List String) : NodeView where
  viz := {
    getTransaction := fun id =>
      if id = sampleTrxId then .ok (some ⟨some sampleTrxId, 900, some [sampleTransfer]⟩)
      else .error "unknown transaction"
    lastIrreversibleBlock := .ok 1000
    ring := []
    getAccount := fun name => .ok (accounts.contains name)
    time := .ok "2026-01-01T00:00:00" }
  solana := {
    finalitySlots := 32
    getParsedTransaction := fun _ => .ok none
    finalizedHeight := .ok 0 }
  gram := {
    gatewayWallet := true
    finalityBufferSec := 30
    nowMs := 1767225600000
    getTransactions := .ok [sampleGramTx]
    latestSeqno := .ok 70 }

def sampleDeps : SourceValidatorDeps where
  reader := { accounts := sampleAccounts, memoWifs := fun _ => none }
  depositProgramId := ""
  wvizMint := ""
  fees := {
    floorMilliViz := 10000
    gramFloorMilliViz := none
    bps := 20
    activationSurchargeMilliViz := ⟨30000, 5000⟩
    mintGasFloorMilliViz := ⟨1000, 1000⟩
    refundFeeMilliViz := 5000 }
  feesGateAccount := "fees.gate"

/-- The nodes do show the deposit. -/
example : getDeposit sampleLibs sampleDeps.reader (sampleView []).viz sampleTrxId 0 none
    = .ok (some sampleDeposit) := by decide +kernel

/-- And the burn. -/
example : getBurn sampleLibs (sampleView []).gram sampleBurnHash = .ok (some sampleBurn) := by
  decide +kernel

/-! ## A signer -/

def sampleConfig : SignerConfig where
  operatorId := "op1"
  deps := sampleDeps
  vizWif := "5Kwif"
  solanaPins := none
  solanaMember := none
  hasGramApprover := true

/-- A multisig whose next order is the sample order. -/
def sampleOrders : OrderView where
  myIdx := .ok (some 0)
  inited := fun _ => .ok false
  liveNext := .ok ⟨0, sampleOrderHash⟩
  sendNewOrder := .ok ()
  waitForOrderInited := fun _ => .ok ()
  orderData := fun _ => .error "order not found"
  sendApprove := .ok ()
  waitForApproval := fun _ => .ok ()

def sampleRequestView (accounts : List String) : RequestView where
  nodes := sampleView accounts
  orders := sampleOrders
  pausedReason := none

/-- An action as a request carries it. -/
def CanonicalAction.toWire (a : CanonicalAction) : WireAction :=
  [("direction", .str (a.direction.toString Direction.toString)), ("id", .str a.id),
    ("remoteChain", .str ((a.remoteChain.map (·.toString RemoteChainId.toString)).getD "")),
    ("recipient", .str a.recipient), ("amountMilliViz", .str (bigintText a.amountMilliViz)),
    ("digest", .str a.digest)]

/-! ## Requests -/

/-- The expiration read back from its place in the bytes. -/
theorem sampleChain_expiryOf_le {p : JsonObject} {s : String} {bytes : List UInt8} {ms : ℤ}
    (hs : p.get "expiration" = some (.str s)) (_ : isGrapheneTime s = true)
    (hb : sampleLibs.toBuffer (buildReleaseTx p) = some bytes)
    (hms : sampleLibs.dateParse (s ++ "Z") = some ms) :
    (ofLittleEndian ((bytes.drop 6).take 4) * 1000 : ℤ) ≤ ms := by
  obtain ⟨h, hh, hrest⟩ := Option.bind_eq_some_iff.1 hb
  obtain ⟨b, -, rfl⟩ := Option.map_eq_some_iff.1 hrest
  obtain ⟨num, pre, t, s', hs', ht, hpos, rfl⟩ := headerBytes_eq_some hh
  change p.get "expiration" = some (.str s') at hs'
  rw [hs, Option.some.injEq, Json.str.injEq] at hs'
  subst hs'
  change parseIsoDate (s ++ "Z") = some ms at hms
  rw [hms, Option.some.injEq] at ht
  subst ht
  have htake : ((littleEndian 2 num.toNat ++ (littleEndian 4 pre.toNat
      ++ littleEndian 4 (ms / 1000).toNat) ++ b).drop 6).take 4
        = littleEndian 4 (ms / 1000).toNat := by
    simp [littleEndian]
  rw [htake, ofLittleEndian_littleEndian]
  have := Nat.mod_le (ms / 1000).toNat (256 ^ 4)
  omega

def sampleChain : ReleaseChain sampleLibs where
  expiryOf := fun bytes => ofLittleEndian ((bytes.drop 6).take 4) * 1000
  expiryOf_le := @sampleChain_expiryOf_le

/-- The release of the sample burn on a reference block. -/
def sampleRelease (refBlockNum : ℕ) : JsonObject :=
  VizReleaseProposal.toJson
    { refBlockNum, refBlockPrefix := 77, expiration := "2026-01-01T00:01:00"
      sender := "gram.gate", receiver := "carol", amount := "120.000 VIZ", memo := sampleBurnHash }

def sampleReleaseRequest (refBlockNum : ℕ) : ApproveRequest where
  action := (canonicalPegOut sampleLibs.digestOf sampleBurn).toWire
  proposal := sampleRelease refBlockNum
  sourceBlockNum := none

def sampleReleaseBytes (refBlockNum : ℕ) : List UInt8 :=
  (sampleLibs.toBuffer (buildReleaseTx (sampleRelease refBlockNum))).getD []

/-- The same nodes five minutes later, every lookup of an unknown transaction an error. -/
def sampleLaterView : RequestView :=
  let view := sampleRequestView ["carol"]
  { view with nodes := { view.nodes with viz := { view.nodes.viz with
      time := .ok "2026-01-01T00:05:00" } } }

/-- The mint of the sample deposit, its destination provisioned. -/
def sampleMintRequest : ApproveRequest where
  action := (canonicalPegIn sampleLibs.digestOf sampleDeposit).toWire
  proposal :=
    [("toAddress", .str sampleRecipient), ("amountMilliViz", .str "240000"),
      ("destProvisioned", .bool true), ("orderAddr", .str sampleOrder),
      ("orderHashHex", .str ("mint " ++ bitText sampleRecipientHash ++ "240000"))]
  sourceBlockNum := none

/-- The refund of the sample deposit. -/
def sampleRefundAction : CanonicalAction where
  direction := .known .pegOut
  id := sampleDeposit.id ++ refundSuffix
  remoteChain := some (.known .gram)
  recipient := "alice"
  amountMilliViz := 245000
  digest := (canonicalPegIn sampleLibs.digestOf sampleDeposit).digest ++ refundSuffix

def sampleRefundRequest : ApproveRequest where
  action := sampleRefundAction.toWire
  proposal := VizReleaseProposal.toJson
    { refBlockNum := 3, refBlockPrefix := 77, expiration := "2026-01-01T00:01:00"
      sender := "gram.gate", receiver := "alice", amount := "245.000 VIZ"
      memo := sampleRefundAction.id }
  sourceBlockNum := none

/-! ## A dispatcher -/

def sampleOpts : DispatcherOpts where
  retryIntervalMs := 10000
  windowMs := 180000
  signingTimeoutPegInMs := 300000
  signingTimeoutPegOutMs := 300000
  feesGateAccount := "fees.gate"
  fees := sampleDeps.fees

/-- The watcher's claim of the sample deposit. -/
def sampleClaim : EnqueueInput where
  id := sampleDeposit.id
  direction := .pegIn
  remoteChain := sampleDeposit.remoteChain
  recipient := sampleDeposit.remoteDestination
  sender := some sampleDeposit.sender
  amountMilliViz := sampleDeposit.amountMilliViz
  digest := sampleLibs.digestOf (pegInBody sampleDeposit)

/-! ## A gateway -/

instance encodableChar : Encodable Char :=
  Encodable.ofLeftInjection Char.toNat (fun n => some (Char.ofNat n))
    fun c => congrArg some (Char.ofNat_toNat c)

instance encodableString : Encodable String :=
  Encodable.ofLeftInjection String.toList (fun l => some (String.ofList l))
    fun _ => congrArg some String.ofList_toList

deriving instance Encodable for Json

deriving instance Encodable for SolanaMintTx

deriving instance Encodable for SolanaMessage

def sampleWriter : SolanaWriter where
  mint := "wviz"
  multisig := "gateway multisig"
  nonceAccount := "nonce account"
  feePayer := "submitter"
  signers := ["key one", "key two"]

/-- The sample deposit, had it come for Solana. -/
def sampleSolanaClaim : EnqueueInput :=
  { sampleClaim with remoteChain := some .solana, recipient := "wallet" }

/-- Its row once the watcher is done with it. -/
def sampleSolanaRow : OutboxRecord := (sampleSolanaClaim.toRecord 0).withStatus 0 .queued {}

/-- Its mint at a nonce, the wallet's account there already. -/
def sampleSolanaMint (nonceValue : String) : SolanaMintProposal :=
  { SolanaMintBroadcaster.mintProposal sampleWriter (recordToAction sampleSolanaRow) 240000 true
      nonceValue with messageB64 := "message at " ++ nonceValue }

/-- The sample libraries with a serializer of Solana messages, by their nonce. -/
def gatewayLibs : Libs :=
  { sampleLibs with
    serializeMessage := fun tx => match tx.recentBlockhash with
      | some (.str nonceValue) => some ("message at " ++ nonceValue)
      | _ => none }

/-- Someone's transfer with the sample deposit's id for a memo. -/
def sampleTransferMessage : SolanaMessage := .other "transfer" (some sampleSolanaClaim.id)

/-- Signatures by the number of a message, but for two short ones. -/
def sampleNets : RemoteNets where
  orderAddress n := "order " ++ n.repr
  orderAddress_inj := fun _ _ h => repr_injective (append_left_cancel h)
  orderAddress_ne := fun n h => by
    have := congrArg (fun s => s.toList.length) h
    simp at this
  signature := tableText
    [(.mint (sampleSolanaMint "nonce 1").tx, "signature 1"), (sampleTransferMessage, "signature 2")]
    fun m => (Encodable.encode m).repr
  signature_inj := tableText_injective (by decide) (by decide)
    fun _ _ h => Encodable.encode_injective (repr_injective h)

def sampleCoordinator : CoordinatorConfig where
  threshold := 2
  operators := ["op1", "op2"]
  accounts := sampleAccounts
  fees := sampleDeps.fees
  hasGram := true
  solana := some sampleWriter
  sourceHints := fun _ => none
  mintDirectives := []
  executePolls := 2

def sampleGateway : GatewayConfig where
  dispatcher := sampleOpts
  coordinator := sampleCoordinator

/-- A watcher claims a deposit and lets it pass. -/
def claimed (claim : EnqueueInput) : List GatewayEvent :=
  [.act (.write 0 (.detect claim)), .act (.write 0 (.classify claim.id .queued none))]

/-- A turn that delivers one row, up to the answer it awaits. -/
def turnTo (n : ℕ) (clock : ℤ) : List GatewayEvent :=
  .start .turn :: List.replicate 8 (.step n { clock })

/-- The row of the sample Solana deposit after a round that missed the threshold. -/
def retriedRow : OutboxRecord :=
  { sampleSolanaRow with
    feeMilliViz := 10000, attempts := 1, lastError := some "delivery failed"
    updatedAt := 2000, nextAttemptAt := 12000 }

/-- A round from its quote on: one operator approves, the other is not reached. -/
def missed (n : ℕ) (nonceValue : String) : List GatewayEvent :=
  [.step n { flag := true }, .step n { text := nonceValue }, .step n {},
    .step n { reply := ⟨sampleSolanaClaim.id, "op1", "approval"⟩ },
    .step n { fails := some "fetch failed" }, .step n {}]

/-- A handler up to its reads of the chain, the row's own read among them. -/
def handlerTo (n : ℕ) (rec : OutboxRecord) : List GatewayEvent :=
  [.start (.submit rec), .step n {}, .step n {}, .step n {}, .step n { signers := ["op1", "op2"] },
    .step n {}]

/-- The sample Solana deposit misses a round and is delivered again. -/
def twiceDelivered (nonceValue : String) : List GatewayEvent :=
  claimed sampleSolanaClaim ++ turnTo 0 1000 ++ handlerTo 1 sampleSolanaRow ++ missed 1 nonceValue
    ++ List.replicate 3 (.step 0 { clock := 2000 }) ++ turnTo 2 20000

end VizGateway
