import Mathlib

/-!
# Doubles

The runtime's numbers: the rationals of the binary64 grid, the infinities and NaN. The two zeros,
which the runtime compares as equal, are one. A rational is rounded to the nearest double, half to
even, and past the largest one to an infinity.
-/

/-- A multiple of a power of two by an integer of 53 bits, within the format's exponents. -/
def Binary64.Representable (x : ℚ) : Prop :=
  ∃ m e : ℤ, |m| < 2 ^ 53 ∧ -1074 ≤ e ∧ e ≤ 971 ∧ x = m * 2 ^ e

inductive Binary64
  | nan
  | infinite (negative : Bool)
  | finite (x : ℚ) (representable : Binary64.Representable x)
  deriving DecidableEq

namespace Binary64

/-- `Number.isFinite(x)`. -/
def isFinite : Binary64 → Bool
  | finite _ _ => true
  | _ => false

/-! ## Integers next to a rational -/

def roundHalfEven (x : ℚ) : ℤ :=
  if Int.fract x < 1 / 2 then ⌊x⌋
  else if 1 / 2 < Int.fract x then ⌊x⌋ + 1
  else if Even ⌊x⌋ then ⌊x⌋
  else ⌊x⌋ + 1

@[simp] theorem roundHalfEven_intCast (n : ℤ) : roundHalfEven n = n := by
  simp [roundHalfEven]

theorem roundHalfEven_le {x : ℚ} {n : ℤ} (h : x ≤ n) : roundHalfEven x ≤ n := by
  by_cases hx : x = n
  · rw [hx, roundHalfEven_intCast]
  · have hfloor : ⌊x⌋ < n := Int.floor_lt.2 (lt_of_le_of_ne h hx)
    unfold roundHalfEven
    split_ifs <;> omega

theorem le_roundHalfEven {x : ℚ} {n : ℤ} (h : n ≤ x) : n ≤ roundHalfEven x := by
  have hfloor : n ≤ ⌊x⌋ := Int.le_floor.2 h
  unfold roundHalfEven
  split_ifs <;> omega

theorem abs_roundHalfEven_le {x : ℚ} {n : ℤ} (h : |x| ≤ n) : |roundHalfEven x| ≤ n := by
  obtain ⟨hl, hr⟩ := abs_le.1 h
  exact abs_le.2 ⟨le_roundHalfEven (by push_cast; exact hl), roundHalfEven_le hr⟩

theorem le_abs_roundHalfEven {x : ℚ} {n : ℤ} (h : n ≤ |x|) : n ≤ |roundHalfEven x| := by
  rcases le_abs.1 h with hpos | hneg
  · exact (le_roundHalfEven hpos).trans (le_abs_self _)
  · have : roundHalfEven x ≤ -n := roundHalfEven_le (by push_cast; linarith)
    exact le_trans (by omega) (neg_le_abs _)

/-! ## Rounding -/

/-- The exponent of the last bit that a double of the magnitude of `x` has. -/
def lastBit (x : ℚ) : ℤ := max (Int.log 2 |x| - 52) (-1074)

def significand (x : ℚ) : ℤ := roundHalfEven (x / 2 ^ lastBit x)

theorem two_zpow_pos (e : ℤ) : (0 : ℚ) < 2 ^ e := zpow_pos (by norm_num) e

theorem abs_div_zpow (x : ℚ) (e : ℤ) : |x / 2 ^ e| = |x| / 2 ^ e := by
  rw [abs_div, abs_of_pos (two_zpow_pos e)]

theorem abs_significand_le (x : ℚ) : |significand x| ≤ 2 ^ 53 := by
  refine abs_roundHalfEven_le ?_
  rw [abs_div_zpow, div_le_iff₀ (two_zpow_pos _)]
  have hlog : |x| < (2 : ℚ) ^ (Int.log 2 |x| + 1) := Int.lt_zpow_succ_log_self (by norm_num) _
  have hle : Int.log 2 |x| + 1 ≤ 53 + lastBit x := by unfold lastBit; omega
  calc |x| ≤ (2 : ℚ) ^ (Int.log 2 |x| + 1) := hlog.le
    _ ≤ 2 ^ (53 + lastBit x) := zpow_le_zpow_right₀ (by norm_num) hle
    _ = ((2 ^ 53 : ℤ) : ℚ) * 2 ^ lastBit x := by
      rw [zpow_add₀ (by norm_num)]
      norm_num

/-- Above the smallest exponent all bits are used. -/
theorem le_abs_significand {x : ℚ} (h : -1074 < lastBit x) (hx : x ≠ 0) :
    2 ^ 52 ≤ |significand x| := by
  refine le_abs_roundHalfEven ?_
  rw [abs_div_zpow, le_div_iff₀ (two_zpow_pos _)]
  have hlast : lastBit x = Int.log 2 |x| - 52 := by unfold lastBit at h ⊢; omega
  calc ((2 ^ 52 : ℤ) : ℚ) * 2 ^ lastBit x = 2 ^ (52 + lastBit x) := by
        rw [zpow_add₀ (by norm_num)]
        norm_num
    _ = 2 ^ Int.log 2 |x| := by rw [hlast]; congr 1; omega
    _ ≤ |x| := Int.zpow_log_le_self (by norm_num) (abs_pos.2 hx)

theorem representable_significand {x : ℚ} (h : |significand x * (2 : ℚ) ^ lastBit x| < 2 ^ 1024) :
    Representable (significand x * 2 ^ lastBit x) := by
  have hmin : -1074 ≤ lastBit x := le_max_right _ _
  have hbelow : ∀ k : ℕ, 2 ^ k ≤ |significand x| → (k : ℤ) + lastBit x < 1024 := by
    intro k hk
    rw [abs_mul, abs_of_pos (two_zpow_pos _)] at h
    have hk' : (2 : ℚ) ^ (k : ℤ) ≤ |(significand x : ℚ)| := by
      rw [zpow_natCast]
      exact_mod_cast hk
    have hlt : (2 : ℚ) ^ ((k : ℤ) + lastBit x) < 2 ^ (1024 : ℤ) := by
      rw [zpow_add₀ (by norm_num)]
      calc (2 : ℚ) ^ (k : ℤ) * 2 ^ lastBit x ≤ |(significand x : ℚ)| * 2 ^ lastBit x :=
            mul_le_mul_of_nonneg_right hk' (two_zpow_pos _).le
        _ < 2 ^ (1024 : ℤ) := by rw [zpow_ofNat]; exact h
    exact (zpow_lt_zpow_iff_right₀ (by norm_num)).1 hlt
  rcases lt_or_eq_of_le (abs_significand_le x) with hlt | heq
  · by_cases hx : x = 0
    · exact ⟨0, 0, by norm_num, by norm_num, by norm_num, by simp [significand, hx, roundHalfEven]⟩
    · refine ⟨significand x, lastBit x, hlt, hmin, ?_, rfl⟩
      by_contra hbig
      have := hbelow 52 (le_abs_significand (by omega) hx)
      omega
  · -- the carry into a 54th bit
    have hlast := hbelow 53 heq.ge
    have hcarry : ∀ s : ℤ, |s| = 1 → Representable ((s * 2 ^ 53 : ℤ) * 2 ^ lastBit x) := by
      intro s hs
      refine ⟨s * 2 ^ 52, lastBit x + 1, ?_, by omega, by omega, ?_⟩
      · rw [abs_mul, hs]
        norm_num
      · rw [zpow_add₀ (by norm_num)]
        push_cast
        ring
    rcases (abs_eq (by norm_num)).1 heq with h | h
    · simpa [h] using hcarry 1 (by norm_num)
    · simpa [h] using hcarry (-1) (by norm_num)

theorem representable_neg {x : ℚ} (h : Representable x) : Representable (-x) := by
  obtain ⟨m, e, hm, hmin, hmax, rfl⟩ := h
  exact ⟨-m, e, by rwa [abs_neg], hmin, hmax, by push_cast; ring⟩

def neg : Binary64 → Binary64
  | nan => nan
  | infinite negative => infinite !negative
  | finite x h => finite (-x) (representable_neg h)

/-- The double of a rational. -/
def ofRat (x : ℚ) : Binary64 :=
  if h : |significand x * (2 : ℚ) ^ lastBit x| < 2 ^ 1024 then
    finite (significand x * 2 ^ lastBit x) (representable_significand h)
  else infinite (x < 0)

theorem significand_of_representable {x : ℚ} (h : Representable x) :
    (significand x * 2 ^ lastBit x : ℚ) = x := by
  obtain ⟨m, e, hm, hmin, -, rfl⟩ := h
  set x : ℚ := m * 2 ^ e with hx
  by_cases hzero : x = 0
  · simp [significand, hzero, roundHalfEven]
  · have hlog : Int.log 2 |x| < 53 + e := by
      refine (Int.lt_zpow_iff_log_lt (by norm_num) (abs_pos.2 hzero)).1 ?_
      rw [hx, abs_mul, abs_of_pos (two_zpow_pos e)]
      push_cast
      rw [zpow_add₀ (by norm_num)]
      refine mul_lt_mul_of_pos_right ?_ (two_zpow_pos e)
      rw [zpow_ofNat]
      exact_mod_cast hm
    obtain ⟨k, hk⟩ : ∃ k : ℕ, e = lastBit x + k := by
      refine ⟨(e - lastBit x).toNat, ?_⟩
      unfold lastBit
      omega
    have hdiv : x / 2 ^ lastBit x = ((m * 2 ^ k : ℤ) : ℚ) := by
      rw [hx, div_eq_iff (two_zpow_pos _).ne']
      nth_rewrite 1 [hk]
      rw [zpow_add₀ (by norm_num), zpow_natCast]
      push_cast
      ring
    rw [significand, hdiv, roundHalfEven_intCast, ← hdiv, div_mul_cancel₀ _ (two_zpow_pos _).ne']

theorem abs_lt_of_representable {x : ℚ} (h : Representable x) : |x| < 2 ^ 1024 := by
  obtain ⟨m, e, hm, -, hmax, rfl⟩ := h
  rw [abs_mul, abs_of_pos (two_zpow_pos e)]
  calc |(m : ℚ)| * 2 ^ e < 2 ^ 53 * 2 ^ e :=
        mul_lt_mul_of_pos_right (by exact_mod_cast hm) (two_zpow_pos e)
    _ ≤ 2 ^ 53 * 2 ^ (971 : ℤ) :=
        mul_le_mul_of_nonneg_left (zpow_le_zpow_right₀ (by norm_num) hmax) (by norm_num)
    _ = 2 ^ 1024 := by rw [zpow_ofNat, ← pow_add]

/-- A double's value rounds to the double. -/
theorem ofRat_of_representable {x : ℚ} (h : Representable x) : ofRat x = finite x h := by
  have hx := significand_of_representable h
  have hlt := abs_lt_of_representable h
  unfold ofRat
  simp only [hx, hlt, dif_pos]

/-! ## Shortest decimals -/

/-- A number as a significand and a power of ten. -/
structure Decimal where
  significand : ℕ
  exponent : ℤ
  deriving DecidableEq, Repr

def Decimal.value (d : Decimal) : ℚ := d.significand * 10 ^ d.exponent

/-- The decimal reads as the number. -/
def Decimal.Reads (d : Decimal) (x : Binary64) : Prop := 0 < d.significand ∧ ofRat d.value = x

instance (d : Decimal) (x : Binary64) : Decidable (d.Reads x) :=
  inferInstanceAs (Decidable (_ ∧ _))

/-- The decimals of `k` digits next to `x`, the nearest first. -/
def candidates (x : ℚ) (k : ℕ) : List Decimal :=
  let q := Int.log 10 x + 1 - k
  let y := x / 10 ^ q
  [roundHalfEven y, ⌊y⌋, ⌈y⌉].map fun s =>
    -- one digit more, all zeros but the first
    if s = 10 ^ k then ⟨1, q + k⟩ else ⟨s.toNat, q⟩

/-- All the digits of a number of the grid. -/
def allDigits (x : ℚ) : Decimal :=
  ⟨x.num.natAbs * 5 ^ Nat.log 2 x.den, -(Nat.log 2 x.den : ℤ)⟩

/-- The decimal of the fewest digits that reads as the double; seventeen digits always do. -/
def shortest (x : ℚ) (h : Representable x) : Decimal :=
  (((List.range' 1 17).flatMap (candidates x)).find? (·.Reads (finite x h))).getD (allDigits x)

theorem den_of_representable {x : ℚ} (h : Representable x) : x.den = 2 ^ Nat.log 2 x.den := by
  obtain ⟨m, e, -, -, -, hx⟩ := h
  have hdvd : x.den ∣ 2 ^ e.natAbs := by
    rcases Int.natAbs_eq e with he | he
    · rw [he, zpow_natCast] at hx
      have : x = ((m * 2 ^ e.natAbs : ℤ) : ℚ) := by push_cast; exact hx
      rw [this, Rat.den_intCast]
      exact one_dvd _
    · rw [he, zpow_neg, zpow_natCast, ← div_eq_mul_inv] at hx
      have : x = Rat.divInt m (2 ^ e.natAbs : ℕ) := by
        rw [Rat.divInt_eq_div, hx]
        push_cast
        rfl
      rw [this]
      exact_mod_cast Rat.den_dvd m (2 ^ e.natAbs : ℕ)
  obtain ⟨j, -, hj⟩ := (Nat.dvd_prime_pow Nat.prime_two).1 hdvd
  rw [hj, Nat.log_pow (by norm_num)]

theorem allDigits_value {x : ℚ} (h : Representable x) (hx : 0 < x) : (allDigits x).value = x := by
  have hden := den_of_representable h
  set j := Nat.log 2 x.den
  have hnum : (x.num.natAbs : ℚ) = x * 2 ^ j := by
    have hcast : ((x.num.natAbs : ℤ) : ℚ) = x.num := by
      rw [Int.natAbs_of_nonneg (Rat.num_pos.2 hx).le]
    have hden' : (x.den : ℚ) = 2 ^ j := by exact_mod_cast hden
    rw [← Int.cast_natCast, hcast, ← Rat.mul_den_eq_num, hden']
  show ((x.num.natAbs * 5 ^ j : ℕ) : ℚ) * 10 ^ (-(j : ℤ)) = x
  rw [zpow_neg, zpow_natCast]
  push_cast
  rw [hnum, show (10 : ℚ) = 2 * 5 by norm_num, mul_pow]
  field_simp

theorem allDigits_reads {x : ℚ} (h : Representable x) (hx : 0 < x) :
    (allDigits x).Reads (finite x h) := by
  refine ⟨Nat.mul_pos (Int.natAbs_pos.2 (Rat.num_pos.2 hx).ne') (by positivity), ?_⟩
  rw [allDigits_value h hx, ofRat_of_representable h]

theorem shortest_reads {x : ℚ} (h : Representable x) (hx : 0 < x) :
    (shortest x h).Reads (finite x h) := by
  unfold shortest
  cases hfind : ((List.range' 1 17).flatMap (candidates x)).find? (·.Reads (finite x h)) with
  | none => exact allDigits_reads h hx
  | some d => simpa using List.find?_some hfind

end Binary64
