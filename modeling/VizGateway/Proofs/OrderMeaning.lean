import VizGateway.OrderCells
import VizGateway.Proofs.CellLayout
import VizGateway.Sample

/-!
# What the hash of an order fixes

Packing loses nothing: an order's cell is read back to its kind and to the recipient and amount, or
to the signers in order and the threshold. An operator that has compared hashes therefore knows the
effect of the deployed order, unless two cells share a hash.
-/

namespace VizGateway

open Checks PrefixCode Builder

/-! ## Messages -/

theorem prefixCode_messageInfo : PrefixCode fun p : TonAddress × ℤ => messageInfo p.1 p.2 := by
  refine of_same fun a b x y h => ?_
  obtain ⟨hdest, h⟩ := Same.cons prefixCode_storeAddress h.const.const.const.const.const
  obtain ⟨hvalue, h⟩ := Same.cons prefixCode_storeCoins h
  exact ⟨Prod.ext hdest hvalue, h.const.const.const.const.const.const.nil⟩

theorem asBuilder_inj {c d : Cell} (h : c.asBuilder = d.asBuilder) : c = d := by
  cases c
  cases d
  exact congrArg₂ Cell.mk (congrArg bits h) (congrArg refs h)

theorem storeBody_inj {info u : Builder} {body body' : Cell} (h : storeBody info body = some u)
    (h' : storeBody info body' = some u) : body = body' := by
  unfold storeBody at h h'
  split_ifs at h h'
  · obtain ⟨v, hv, hv'⟩ := (Same.of_eq h h').const.single
    exact asBuilder_inj (Option.some.inj (hv.trans hv'.symm))
  · obtain ⟨hbit, -⟩ := Same.cons prefixCode_storeBit (Same.of_eq h h')
    cases hbit
  · obtain ⟨hbit, -⟩ := Same.cons prefixCode_storeBit (Same.of_eq h h')
    cases hbit
  · exact (Same.cons prefixCode_storeRef (Same.of_eq h h').const).1

theorem storeMessageRelaxed_inj {m m' : InternalMessage} {u : Builder}
    (h : storeMessageRelaxed m = some u) (h' : storeMessageRelaxed m' = some u) :
    m.dest = m'.dest ∧ m.value = m'.value ∧ m.body = m'.body := by
  obtain ⟨info, hinfo, h⟩ := Option.bind_eq_some_iff.1 h
  obtain ⟨info', hinfo', h'⟩ := Option.bind_eq_some_iff.1 h'
  have hsame := Same.of_eq h h'
  rw [← hinfo, ← hinfo'] at hsame
  obtain ⟨hhead, hbody⟩ := Same.cons (a := (m.dest, m.value)) (b := (m'.dest, m'.value))
    prefixCode_messageInfo hsame
  obtain ⟨hdest, hvalue⟩ := Prod.mk.inj hhead
  rw [hdest, hvalue] at hinfo
  obtain rfl := Option.some.inj (hinfo.symm.trans hinfo')
  obtain ⟨v, hv, hv'⟩ := hbody.single
  exact ⟨hdest, hvalue, storeBody_inj hv hv'⟩

/-! ## Actions -/

theorem packTransferRequest_inj {t t' : TransferRequest} {c : Cell}
    (h : packTransferRequest t = some c) (h' : packTransferRequest t' = some c) :
    t.message.dest = t'.message.dest ∧ t.message.value = t'.message.value ∧
      t.message.body = t'.message.body := by
  obtain ⟨message, hm, h⟩ := Option.bind_eq_some_iff.1 h
  obtain ⟨message', hm', h'⟩ := Option.bind_eq_some_iff.1 h'
  obtain ⟨-, hsame⟩ := Same.cons (prefixCode_storeUint 8) (same_of_cellOf h h').const
  obtain ⟨rfl, -⟩ := Same.cons prefixCode_storeRef hsame
  obtain ⟨u, hu, hu'⟩ := (same_of_cellOf hm hm').single
  exact storeMessageRelaxed_inj hu hu'

theorem packUpdateRequest_inj {u u' : UpdateRequest} {c : Cell}
    (h : packUpdateRequest u = some c) (h' : packUpdateRequest u' = some c) :
    u.threshold = u'.threshold ∧ u.signers = u'.signers := by
  obtain ⟨signers, hs, h⟩ := Option.bind_eq_some_iff.1 h
  obtain ⟨signers', hs', h'⟩ := Option.bind_eq_some_iff.1 h'
  obtain ⟨hthreshold, hsame⟩ := Same.cons (prefixCode_storeUint 8) (same_of_cellOf h h').const
  obtain ⟨rfl, -⟩ := Same.cons prefixCode_storeRef hsame
  obtain ⟨b, hb, hb'⟩ := (same_of_cellOf hs hs').single
  exact ⟨hthreshold, storeDictDirect_inj prefixCode_storeAddress hb hb'⟩

/-- The two kinds of action begin with different operations. -/
theorem packTransferRequest_ne_packUpdateRequest {t : TransferRequest} {u : UpdateRequest}
    {c : Cell} (h : packTransferRequest t = some c) : packUpdateRequest u ≠ some c := by
  intro h'
  obtain ⟨message, -, h⟩ := Option.bind_eq_some_iff.1 h
  obtain ⟨signers, -, h'⟩ := Option.bind_eq_some_iff.1 h'
  obtain ⟨hop, -⟩ := Same.cons (prefixCode_storeUint 32) (same_of_cellOf h h')
  revert hop
  decide

theorem packOrder_single {a : OrderAction} {c : Cell} (h : packOrder [a] = some c) :
    ∃ d, packAction a = some d ∧ cellOf [storeDictDirect storeRef [d]] = some c := by
  unfold packOrder at h
  split_ifs at h
  obtain ⟨cells, hcells, hc⟩ := Option.bind_eq_some_iff.1 h
  simp only [List.mapM_cons, List.mapM_nil, Option.pure_def, Option.bind_eq_bind,
    Option.bind_some, Option.bind_eq_some_iff, Option.some.injEq] at hcells
  obtain ⟨d, hd, rfl⟩ := hcells
  exact ⟨d, hd, hc⟩

/-- An order's cell determines the cell of its one action. -/
theorem packAction_of_packOrder {a a' : OrderAction} {c : Cell} (h : packOrder [a] = some c)
    (h' : packOrder [a'] = some c) : ∃ d, packAction a = some d ∧ packAction a' = some d := by
  obtain ⟨d, hd, hc⟩ := packOrder_single h
  obtain ⟨d', hd', hc'⟩ := packOrder_single h'
  obtain ⟨u, hu, hu'⟩ := (same_of_cellOf hc hc').single
  obtain rfl := List.head_eq_of_cons_eq (storeDictDirect_inj prefixCode_storeRef hu hu')
  exact ⟨d, hd, hd'⟩

/-! ## Bodies -/

theorem mintBody_inj {minter toAddr toAddr' : TonAddress} {n n' : ℤ} {master master' body : Cell}
    (hm : mintMasterMsg minter toAddr n = some master)
    (hm' : mintMasterMsg minter toAddr' n' = some master')
    (h : mintBody toAddr master = some body) (h' : mintBody toAddr' master' = some body) :
    toAddr = toAddr' ∧ n = n' := by
  obtain ⟨hto, hsame⟩ := Same.cons prefixCode_storeAddress (same_of_cellOf h h').const.const
  obtain ⟨rfl, -⟩ := Same.cons prefixCode_storeRef hsame.const
  exact ⟨hto, (Same.cons prefixCode_storeCoins (same_of_cellOf hm hm').const.const).1⟩

theorem transferBody_inj {toAddr toAddr' : TonAddress} {n n' : ℤ} {body : Cell}
    (h : transferBody toAddr n = some body) (h' : transferBody toAddr' n' = some body) :
    toAddr = toAddr' ∧ n = n' := by
  obtain ⟨hn, hsame⟩ := Same.cons prefixCode_storeCoins (same_of_cellOf h h').const.const
  exact ⟨(Same.cons prefixCode_storeAddress hsame).1, hn⟩

/-! ## Orders -/

/-- What an order does once it is executed. -/
inductive OrderMeaning
  | mint (toAddr : TonAddress) (amountBaseUnits : ℤ)
  | giveBack (toAddr : TonAddress) (amountBaseUnits : ℤ)
  | rotation (signers : List TonAddress) (threshold : ℤ)

section

variable {walletV4 : List ℕ → TonAddress} {addressToString : TonAddress → String}
  {minter gatewayJettonWallet : TonAddress} {m m' : OrderMeaning} {c : Cell}

/-- The cell is the packed order of that meaning. -/
inductive Packed (walletV4 : List ℕ → TonAddress) (addressToString : TonAddress → String)
    (minter gatewayJettonWallet : TonAddress) : OrderMeaning → Cell → Prop
  | mint {toAddr : TonAddress} {n : ℤ} {c : Cell} (h : mintOrderCell minter toAddr n = some c) :
    Packed walletV4 addressToString minter gatewayJettonWallet (.mint toAddr n) c
  | giveBack {toAddr : TonAddress} {n : ℤ} {c : Cell}
    (h : returnOrderCell gatewayJettonWallet toAddr n = some c) :
    Packed walletV4 addressToString minter gatewayJettonWallet (.giveBack toAddr n) c
  | rotation {operators : List OperatorRef} {threshold : ℤ} {signers : List TonAddress} {c : Cell}
    (hsigners : operators.mapM (fun o => tonSignerAddress walletV4 o.tonPubkey) = .ok signers)
    (h : packRotationOrder walletV4 addressToString operators threshold = .ok c) :
    Packed walletV4 addressToString minter gatewayJettonWallet (.rotation signers threshold) c

/-- The action that carries a meaning. -/
inductive Carries (minter gatewayJettonWallet : TonAddress) : OrderMeaning → OrderAction → Prop
  | mint {toAddr : TonAddress} {n : ℤ} {master body : Cell} {t : TransferRequest}
    (hmaster : mintMasterMsg minter toAddr n = some master)
    (hbody : mintBody toAddr master = some body) (ht : t.message = ⟨minter, 60000000, body⟩) :
    Carries minter gatewayJettonWallet (.mint toAddr n) (.transfer t)
  | giveBack {toAddr : TonAddress} {n : ℤ} {body : Cell} {t : TransferRequest}
    (hbody : transferBody toAddr n = some body)
    (ht : t.message = ⟨gatewayJettonWallet, 100000000, body⟩) :
    Carries minter gatewayJettonWallet (.giveBack toAddr n) (.transfer t)
  | rotation {u : UpdateRequest} :
    Carries minter gatewayJettonWallet (.rotation u.signers u.threshold) (.update u)

theorem buildUpdateAction_eq_ok {operators : List OperatorRef} {threshold : ℤ} {u : UpdateRequest}
    (h : buildUpdateAction walletV4 addressToString operators threshold = .ok u) :
    operators.mapM (fun o => tonSignerAddress walletV4 o.tonPubkey) = .ok u.signers ∧
      u.threshold = threshold := by
  simp only [buildUpdateAction, bind_eq_ok, require_eq_ok, pure_eq_ok] at h
  obtain ⟨-, -, signers, hsigners, -, -, rfl⟩ := h
  exact ⟨hsigners, rfl⟩

theorem packRotationOrder_eq_ok {operators : List OperatorRef} {threshold : ℤ}
    (h : packRotationOrder walletV4 addressToString operators threshold = .ok c) :
    ∃ u, operators.mapM (fun o => tonSignerAddress walletV4 o.tonPubkey) = .ok u.signers ∧
      u.threshold = threshold ∧ packOrder [.update u] = some c := by
  simp only [packRotationOrder, bind_eq_ok, found_eq_ok] at h
  obtain ⟨u, hu, hc⟩ := h
  obtain ⟨hsigners, hthreshold⟩ := buildUpdateAction_eq_ok hu
  exact ⟨u, hsigners, hthreshold, hc⟩

theorem Packed.action (h : Packed walletV4 addressToString minter gatewayJettonWallet m c) :
    ∃ a, Carries minter gatewayJettonWallet m a ∧ packOrder [a] = some c := by
  cases h with
  | mint h =>
    obtain ⟨t, ht, hc⟩ := Option.bind_eq_some_iff.1 h
    obtain ⟨master, hmaster, ht⟩ := Option.bind_eq_some_iff.1 ht
    obtain ⟨body, hbody, rfl⟩ := Option.map_eq_some_iff.1 ht
    exact ⟨_, .mint hmaster hbody rfl, hc⟩
  | giveBack h =>
    obtain ⟨t, ht, hc⟩ := Option.bind_eq_some_iff.1 h
    obtain ⟨body, hbody, rfl⟩ := Option.map_eq_some_iff.1 ht
    exact ⟨_, .giveBack hbody rfl, hc⟩
  | rotation hsigners h =>
    obtain ⟨u, hu, rfl, hc⟩ := packRotationOrder_eq_ok h
    obtain rfl := Except.ok.inj (hsigners.symm.trans hu)
    exact ⟨_, .rotation, hc⟩

/-- Two transfers of one cell have one meaning: the values tell a mint from a return. -/
theorem Carries.transfer_inj {t t' : TransferRequest} {d : Cell}
    (h : Carries minter gatewayJettonWallet m (.transfer t))
    (h' : Carries minter gatewayJettonWallet m' (.transfer t'))
    (hd : packTransferRequest t = some d) (hd' : packTransferRequest t' = some d) : m = m' := by
  obtain ⟨-, hvalue, hbodies⟩ := packTransferRequest_inj hd hd'
  cases h with
  | mint hmaster hbody ht =>
    cases h' with
    | mint hmaster' hbody' ht' =>
      rw [ht, ht'] at hbodies
      obtain rfl : _ = _ := hbodies
      obtain ⟨rfl, rfl⟩ := mintBody_inj hmaster hmaster' hbody hbody'
      rfl
    | giveBack hbody' ht' => simp [ht, ht'] at hvalue
  | giveBack hbody ht =>
    cases h' with
    | mint hmaster' hbody' ht' => simp [ht, ht'] at hvalue
    | giveBack hbody' ht' =>
      rw [ht, ht'] at hbodies
      obtain rfl : _ = _ := hbodies
      obtain ⟨rfl, rfl⟩ := transferBody_inj hbody hbody'
      rfl

/-- A packed order has one meaning. -/
theorem Packed.unique (h : Packed walletV4 addressToString minter gatewayJettonWallet m c)
    (h' : Packed walletV4 addressToString minter gatewayJettonWallet m' c) : m = m' := by
  obtain ⟨a, ha, hc⟩ := h.action
  obtain ⟨a', ha', hc'⟩ := h'.action
  obtain ⟨d, hd, hd'⟩ := packAction_of_packOrder hc hc'
  cases a with
  | transfer t =>
    cases a' with
    | transfer t' => exact ha.transfer_inj ha' hd hd'
    | update u' => exact absurd hd' (packTransferRequest_ne_packUpdateRequest hd)
  | update u =>
    cases a' with
    | transfer t' => exact absurd hd (packTransferRequest_ne_packUpdateRequest hd')
    | update u' =>
      obtain ⟨hthreshold, hsigners⟩ := packUpdateRequest_inj hd hd'
      cases ha
      cases ha'
      rw [hthreshold, hsigners]

/-- Two cells with one hash. -/
def Collide (cellHash : Cell → String) (c d : Cell) : Prop := c ≠ d ∧ cellHash c = cellHash d

theorem eq_or_collide {cellHash : Cell → String} {c d : Cell} (h : cellHash c = cellHash d) :
    c = d ∨ Collide cellHash c d := by
  by_cases hcd : c = d
  · exact .inl hcd
  · exact .inr ⟨hcd, h⟩

/-- Packed orders are equal only if they mean the same. A deployed order that passes an operator's
comparison is the one it rebuilt, or collides with it. -/
theorem packed_order_binds :
    (∀ m m' c, Packed walletV4 addressToString minter gatewayJettonWallet m c →
      Packed walletV4 addressToString minter gatewayJettonWallet m' c → m = m') ∧
    (∀ cellHash m c deployed orderAddr actionId,
      Packed walletV4 addressToString minter gatewayJettonWallet m c →
      assertDeployedOrderHash cellHash deployed (cellHash c) orderAddr actionId = .ok () →
        ∃ d, deployed = some d ∧ (d = c ∨ Collide cellHash d c)) ∧
    (∀ cellHash toAddr n expectedHex,
      assertReturnOrderHash cellHash gatewayJettonWallet toAddr n expectedHex = .ok () →
        ∃ c, Packed walletV4 addressToString minter gatewayJettonWallet (.giveBack toAddr n) c ∧
          cellHash c = expectedHex) ∧
    ∀ cellHash onchainOrder operators threshold,
      validateTonOrder cellHash walletV4 addressToString onchainOrder operators threshold =
        .ok () →
        ∃ signers c,
          Packed walletV4 addressToString minter gatewayJettonWallet (.rotation signers threshold)
            c ∧
          (onchainOrder = c ∨ Collide cellHash onchainOrder c) := by
  refine ⟨fun m m' c h h' => h.unique h', ?_, ?_, ?_⟩
  · intro cellHash m c deployed orderAddr actionId _ h
    obtain ⟨d, rfl, hd⟩ := Option.map_eq_some_iff.1 (require_eq_ok.1 h)
    exact ⟨d, rfl, eq_or_collide hd⟩
  · intro cellHash toAddr n expectedHex h
    simp only [assertReturnOrderHash, bind_eq_ok, found_eq_ok, require_eq_ok] at h
    obtain ⟨c, hc, hhash⟩ := h
    exact ⟨c, .giveBack hc, hhash⟩
  · intro cellHash onchainOrder operators threshold h
    simp only [validateTonOrder, bind_eq_ok, require_eq_ok] at h
    obtain ⟨c, hc, hhash⟩ := h
    obtain ⟨u, hsigners, -, -⟩ := packRotationOrder_eq_ok hc
    exact ⟨u.signers, c, .rotation hsigners hc, eq_or_collide hhash⟩

end

/-! ## Sample orders -/

def sampleMinter : TonAddress := ⟨0, sampleOrderHash⟩

def sampleJettonWallet : TonAddress := ⟨0, sampleSenderHash⟩

def sampleToAddr : TonAddress := ⟨0, sampleRecipientHash⟩

private def walletOne : TonAddress :=
  ⟨0, natBits 256 0x80c0eae40a5e9c3e2feb88224053706adc9cc2b1d1a0dd203cfdbfadefa6aa06⟩

private def walletTwo : TonAddress :=
  ⟨0, natBits 256 0x324bb9bbda44712cdff607b02da5c2925238ccc18c65aa9f151422fc29b91515⟩

/-- The wallets of two keys. -/
def sampleWalletV4 (publicKey : List ℕ) : TonAddress :=
  if publicKey = List.replicate 32 0x11 then walletOne else walletTwo

def sampleAddressText (a : TonAddress) : String :=
  if a = walletOne then "EQCAwOrkCl6cPi_riCJAU3Bq3JzCsdGg3SA8_b-t76aqBo2q"
  else "EQAyS7m72kRxLN_2B7AtpcKSUjjMwYxlqp8VFCL8KbkVFaw8"

def sampleSigners : List OperatorRef :=
  [⟨"op1", "", "1111111111111111111111111111111111111111111111111111111111111111", ""⟩,
    ⟨"op2", "", "2222222222222222222222222222222222222222222222222222222222222222", ""⟩]

/-- The rotation to both of them. -/
def sampleRotationCell : Cell :=
  (packRotationOrder sampleWalletV4 sampleAddressText sampleSigners 2).toOption.getD (.mk [] [])

/-- The hash of that rotation, and the root's bits for any other cell. -/
def sampleCellHash (c : Cell) : String :=
  if c.refs.map (·.bits) = [natBits 32 0x1d0cfbd3 ++ natBits 8 2 ++ [false]] then
    "2d4c3eb866c1ee1639a5955a384d326317c7b20d0c6ae447c8455c94838cc501"
  else bitText c.bits

theorem packed_order_binds_sample :
    mintOrderCell sampleMinter sampleToAddr 240000 ≠
        returnOrderCell sampleJettonWallet sampleToAddr 240000 ∧
      (∃ c, mintOrderCell sampleMinter sampleToAddr 240000 = some c ∧
        ∃ d, some c = some d ∧ (d = c ∨ Collide sampleCellHash d c)) ∧
      (∃ c, Packed sampleWalletV4 sampleAddressText sampleMinter sampleJettonWallet
          (.giveBack sampleToAddr 240000) c ∧ sampleCellHash c = "1101000") ∧
      ∃ signers c, Packed sampleWalletV4 sampleAddressText sampleMinter sampleJettonWallet
          (.rotation signers 2) c ∧
        (sampleRotationCell = c ∨ Collide sampleCellHash sampleRotationCell c) := by
  obtain ⟨hone, hdeployed, hreturn, hrotation⟩ :=
    @packed_order_binds sampleWalletV4 sampleAddressText sampleMinter sampleJettonWallet
  obtain ⟨c, hc⟩ := Option.isSome_iff_exists.1
    (show (mintOrderCell sampleMinter sampleToAddr 240000).isSome by decide +kernel)
  refine ⟨fun h => ?_, ⟨c, hc, ?_⟩, ?_, ?_⟩
  · cases hone _ _ c (.mint hc) (.giveBack (h.symm.trans hc))
  · exact hdeployed sampleCellHash _ c (some c) "order" "action" (.mint hc) (require_eq_ok.2 rfl)
  · exact hreturn sampleCellHash _ _ _ (by decide +kernel)
  · exact hrotation sampleCellHash sampleRotationCell sampleSigners 2 (by decide +kernel)

end VizGateway
