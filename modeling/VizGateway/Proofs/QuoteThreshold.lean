import Mathlib
import VizGateway.Fees

/-!
# The threshold of a peg-in quote

Between two gross amounts the base fee grows by their difference at most, so what is left of a
larger deposit is never less. Hence the accepted amounts are closed upwards, and the amount a
rejection reports is the least of them exactly when its own base fee is the one it was reckoned
with and the gas floor is not zero.
-/

namespace VizGateway

variable {p : PegInFeePolicy} {flag : Bool} {gross g g' m : ℤ}

/-- At most the whole amount is a percentage, and no constant is negative. -/
structure PegInFeePolicy.WellFormed (p : PegInFeePolicy) : Prop where
  floor : 0 ≤ p.floorMilliViz
  bps : 0 ≤ p.bps
  bps_le : p.bps ≤ 10000
  activation : 0 ≤ p.activationSurchargeMilliViz
  gas : 0 ≤ p.mintGasFloorMilliViz

/-- The gross amounts a policy mints for. -/
def accepted (p : PegInFeePolicy) (flag : Bool) : Set ℤ :=
  {g | 0 ≤ g ∧ ∃ b, quotePegIn g flag p = .ok b}

theorem activationFee_nonneg (hp : p.WellFormed) (flag : Bool) : 0 ≤ activationFee flag p := by
  unfold activationFee
  split_ifs
  · rfl
  · exact hp.activation

/-- The base fee grows, and by no more than the amount does. -/
theorem baseFee_step (hp : p.WellFormed) (hg : 0 ≤ g) (hle : g ≤ g') :
    baseFee g p ≤ baseFee g' p ∧ baseFee g' p ≤ baseFee g p + (g' - g) := by
  have hlow : g * p.bps ≤ g' * p.bps := mul_le_mul_of_nonneg_right hle hp.bps
  have hhigh : g' * p.bps ≤ g * p.bps + (g' - g) * 10000 := by
    have := mul_le_mul_of_nonneg_left hp.bps_le (sub_nonneg.2 hle)
    linarith
  have hpos : 0 ≤ g * p.bps := mul_nonneg hg hp.bps
  unfold baseFee
  rw [Int.tdiv_eq_ediv_of_nonneg hpos, Int.tdiv_eq_ediv_of_nonneg (hpos.trans hlow)]
  generalize g * p.bps = x at *
  generalize g' * p.bps = y at *
  simp only
  split_ifs <;> omega

theorem mem_accepted :
    g ∈ accepted p flag ↔ 0 ≤ g ∧ 0 < g - (baseFee g p + activationFee flag p)
      ∧ p.mintGasFloorMilliViz ≤ g - (baseFee g p + activationFee flag p) := by
  unfold accepted quotePegIn
  simp only [Set.mem_ofPred_eq]
  split_ifs with h
  · simp only [exists_false, and_false, false_iff]
    omega
  · simp only [PegInQuote.ok.injEq, exists_eq', and_true]
    omega

/-- What is left after the fees grows with the amount. -/
theorem accepted_upward (hp : p.WellFormed) (h : g ∈ accepted p flag) (hle : g ≤ g') :
    g' ∈ accepted p flag := by
  rw [mem_accepted] at h ⊢
  have := (baseFee_step hp h.1 hle).2
  omega

/-- A rejection reports the fees of the rejected amount and the gas floor. -/
theorem quotePegIn_belowMin (h : quotePegIn gross flag p = .belowMin m) :
    m = baseFee gross p + activationFee flag p + p.mintGasFloorMilliViz := by
  unfold quotePegIn at h
  simp only at h
  split_ifs at h
  exact (PegInQuote.belowMin.inj h).symm

theorem not_accepted_of_belowMin (h : quotePegIn gross flag p = .belowMin m) :
    gross ∉ accepted p flag := by
  rintro ⟨-, b, hb⟩
  rw [h] at hb
  cases hb

/-- The reported amount is accepted if and only if the fees it was reckoned with are its own. -/
theorem reported_accepted_iff (hp : p.WellFormed) (hgross : 0 ≤ gross)
    (h : quotePegIn gross flag p = .belowMin m) :
    m ∈ accepted p flag ↔ 0 < p.mintGasFloorMilliViz ∧ baseFee m p = baseFee gross p := by
  have hm := quotePegIn_belowMin h
  have hact := activationFee_nonneg hp flag
  have hfloor := floor_le_baseFee gross p
  have hnonneg := hp.floor
  have hgas := hp.gas
  constructor
  · intro hacc
    have hlt : gross ≤ m := by
      by_contra hlt
      exact not_accepted_of_belowMin h (accepted_upward hp hacc (by omega))
    have hstep := (baseFee_step hp hgross hlt).1
    rw [mem_accepted] at hacc
    omega
  · rintro ⟨hpos, hbase⟩
    rw [mem_accepted, hbase]
    omega

/-- Nothing below the reported amount is accepted. -/
theorem reported_le (hp : p.WellFormed) (h : quotePegIn gross flag p = .belowMin m)
    (hgross : 0 ≤ gross) (hg : g ∈ accepted p flag) : m ≤ g := by
  have hle : gross ≤ g := by
    by_contra hlt
    exact not_accepted_of_belowMin h (accepted_upward hp hg (by omega))
  have hm := quotePegIn_belowMin h
  have hstep := (baseFee_step hp hgross hle).1
  rw [mem_accepted] at hg
  omega

/-- The accepted amounts are closed upwards, an accepted quote splits its amount, and a rejection
reports the least accepted amount exactly when the gas floor is positive and the base fee does
not change up to the amount reported. -/
theorem quote_threshold (hp : p.WellFormed) (flag : Bool) :
    (∀ g ∈ accepted p flag, ∀ g', g ≤ g' → g' ∈ accepted p flag) ∧
      (∀ gross b, 0 ≤ gross → quotePegIn gross flag p = .ok b →
        b.gross = gross ∧ b.base = baseFee gross p ∧ b.activation = activationFee flag p ∧
          gross = b.net + b.base + b.activation ∧ 0 < b.net ∧ p.mintGasFloorMilliViz ≤ b.net) ∧
      ∀ gross m, 0 ≤ gross → quotePegIn gross flag p = .belowMin m → (accepted p flag).Nonempty →
        (IsLeast (accepted p flag) m ↔ 0 < p.mintGasFloorMilliViz ∧
          baseFee (baseFee gross p + activationFee flag p + p.mintGasFloorMilliViz) p =
            baseFee gross p) := by
  refine ⟨fun g hg g' hle => accepted_upward hp hg hle, fun gross b _ hb => ?_,
    fun gross m hgross hm _ => ?_⟩
  · obtain ⟨h1, h2, h3, h4, h5, h6, h7⟩ := quotePegIn_ok hb
    exact ⟨h1, h2, h3, by omega, h6, h7⟩
  · rw [← quotePegIn_belowMin hm, ← reported_accepted_iff hp hgross hm]
    exact ⟨fun h => h.1, fun h => ⟨h, fun g hg => reported_le hp hm hgross hg⟩⟩

/-- Ten percent above a floor of one. -/
def tenPercent : PegInFeePolicy where
  floorMilliViz := 1
  bps := 1000
  activationSurchargeMilliViz := 0
  mintGasFloorMilliViz := 90

theorem tenPercent_wellFormed : tenPercent.WellFormed := by
  constructor <;> decide

/-- Zero is told to come back with 91, whose own fee is nine; and so would be rejected. -/
theorem reported_not_accepted :
    quotePegIn 0 true tenPercent = .belowMin 91 ∧ (accepted tenPercent true).Nonempty ∧
      ¬ IsLeast (accepted tenPercent true) 91 := by
  refine ⟨by decide, ⟨200, by decide, ⟨_, rfl⟩⟩, fun h => ?_⟩
  have := (mem_accepted.1 h.1).2.2
  revert this
  decide

theorem quote_threshold_tenPercent :
    IsLeast (accepted tenPercent true) (99 : ℤ) ↔ 0 < tenPercent.mintGasFloorMilliViz ∧
      baseFee (baseFee 98 tenPercent + activationFee true tenPercent
        + tenPercent.mintGasFloorMilliViz) tenPercent = baseFee 98 tenPercent :=
  (quote_threshold tenPercent_wellFormed true).2.2 98 99 (by decide) (by decide)
    ⟨200, by decide, ⟨_, rfl⟩⟩

end VizGateway
