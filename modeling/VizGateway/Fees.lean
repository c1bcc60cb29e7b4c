import VizGateway.Action

/-!
# Peg-in fees

The base fee is a function of the gross amount alone; the activation surcharge depends on the
pinned `destProvisioned` flag. `bigint` division truncates towards zero, hence `Int.tdiv`.
-/

namespace VizGateway

/-- One amount a remote chain. -/
structure PerChain where
  gram : ℤ
  solana : ℤ
  deriving DecidableEq, Repr

def PerChain.get (p : PerChain) : RemoteChainId → ℤ
  | .gram => p.gram
  | .solana => p.solana

/-- The fee constants every operator shares. -/
structure GatewayFeeConfig where
  floorMilliViz : ℤ
  gramFloorMilliViz : Option ℤ
  bps : ℤ
  activationSurchargeMilliViz : PerChain
  mintGasFloorMilliViz : PerChain
  refundFeeMilliViz : ℤ
  deriving DecidableEq, Repr

structure PegInFeePolicy where
  floorMilliViz : ℤ
  bps : ℤ
  activationSurchargeMilliViz : ℤ
  mintGasFloorMilliViz : ℤ
  deriving DecidableEq, Repr

structure PegInBreakdown where
  gross : ℤ
  base : ℤ
  activation : ℤ
  fee : ℤ
  net : ℤ
  deriving DecidableEq, Repr

/-- A peg-in quote: a breakdown, or the least amount that would have been accepted. -/
inductive PegInQuote
  | ok (b : PegInBreakdown)
  | belowMin (minMilliViz : ℤ)
  deriving DecidableEq, Repr

/-- The policy of one chain. -/
def pegInFeePolicyFor (fees : GatewayFeeConfig) (chain : RemoteChainId) : PegInFeePolicy where
  floorMilliViz := match chain with
    | .gram => fees.gramFloorMilliViz.getD fees.floorMilliViz
    | .solana => fees.floorMilliViz
  bps := fees.bps
  activationSurchargeMilliViz := fees.activationSurchargeMilliViz.get chain
  mintGasFloorMilliViz := fees.mintGasFloorMilliViz.get chain

/-- The base fee of a gross amount. -/
def baseFee (grossMilliViz : ℤ) (p : PegInFeePolicy) : ℤ :=
  let pct := (grossMilliViz * p.bps).tdiv 10000
  if pct > p.floorMilliViz then pct else p.floorMilliViz

/-- The activation surcharge under a pinned flag. -/
def activationFee (destProvisioned : Bool) (p : PegInFeePolicy) : ℤ :=
  if destProvisioned then 0 else p.activationSurchargeMilliViz

/-- The full quote. -/
def quotePegIn (grossMilliViz : ℤ) (destProvisioned : Bool) (p : PegInFeePolicy) : PegInQuote :=
  let base := baseFee grossMilliViz p
  let activation := activationFee destProvisioned p
  let fee := base + activation
  let net := grossMilliViz - fee
  if net ≤ 0 ∨ net < p.mintGasFloorMilliViz then
    .belowMin (fee + p.mintGasFloorMilliViz)
  else
    .ok { gross := grossMilliViz, base, activation, fee, net }

/-- An accepted quote splits the gross amount. -/
theorem quotePegIn_ok {gross : ℤ} {flag : Bool} {p : PegInFeePolicy} {b : PegInBreakdown}
    (h : quotePegIn gross flag p = .ok b) :
    b.gross = gross ∧ b.base = baseFee gross p ∧ b.activation = activationFee flag p
      ∧ b.fee = b.base + b.activation ∧ b.net = gross - b.fee ∧ 0 < b.net
      ∧ p.mintGasFloorMilliViz ≤ b.net := by
  unfold quotePegIn at h
  simp only at h
  split_ifs at h with hmin
  rw [PegInQuote.ok.injEq] at h
  subst h
  rw [not_or, Int.not_le, Int.not_lt] at hmin
  exact ⟨rfl, rfl, rfl, rfl, rfl, hmin.1, hmin.2⟩

/-- The flag counts for its surcharge only. -/
theorem quotePegIn_congr {gross : ℤ} {flag flag' : Bool} {p : PegInFeePolicy}
    (h : activationFee flag p = activationFee flag' p) :
    quotePegIn gross flag p = quotePegIn gross flag' p := by
  unfold quotePegIn
  rw [h]

theorem floor_le_baseFee (gross : ℤ) (p : PegInFeePolicy) : p.floorMilliViz ≤ baseFee gross p := by
  unfold baseFee
  simp only
  split_ifs with h <;> omega

end VizGateway
