import VizGateway.Lib.Text

/-!
# Decimal numerals

A digit string without leading zeros is the numeral of its value, and a digit string of a given
length is that numeral padded with zeros.
-/

namespace Numeral

/-- `ds.padStart(n, "0")`. -/
def padZeros (n : ℕ) (ds : List Char) : List Char := List.replicate (n - ds.length) '0' ++ ds

/-- The number some digits spell. -/
def value (ds : List Char) : ℕ := Nat.ofDigitChars 10 ds 0

/-- No leading zero, but for the number zero. -/
def Canonical (ds : List Char) : Prop :=
  ds ≠ [] ∧ (∀ c ∈ ds, c.isDigit = true) ∧ (ds.head? = some '0' → ds = ['0'])

instance (ds : List Char) : Decidable (Canonical ds) :=
  decidable_of_iff
    (ds ≠ [] ∧ ds.all Char.isDigit = true ∧ (ds.head? = some '0' → ds = ['0']))
    (by rw [Canonical, List.all_eq_true])

variable {ds : List Char} {c : Char} {n k : ℕ}

theorem exists_digitChar (h : c.isDigit = true) : ∃ d < 10, c = Nat.digitChar d := by
  simp only [Char.isDigit, Bool.and_eq_true, decide_eq_true_eq, UInt32.le_iff_toNat_le] at h
  have h1 : 48 ≤ c.toNat := h.1
  have h2 : c.toNat ≤ 57 := h.2
  refine ⟨c.toNat - 48, by omega, ?_⟩
  rw [← Char.toNat_inj, Nat.toNat_digitChar_of_lt_ten (by omega)]
  omega

theorem value_append_digit {d : ℕ} (hd : d < 10) :
    value (ds ++ [Nat.digitChar d]) = 10 * value ds + d := by
  simp [value, Nat.ofDigitChars_append, Nat.ofDigitChars_cons_digitChar_of_lt_ten hd]

theorem value_lt (h : ∀ c ∈ ds, c.isDigit = true) : value ds < 10 ^ ds.length := by
  induction ds using List.reverseRecOn with
  | nil => simp [value]
  | append_singleton ds c ih =>
    obtain ⟨d, hd, rfl⟩ := exists_digitChar (h c (by simp))
    have := ih fun x hx => h x (by simp [hx])
    rw [value_append_digit hd, List.length_append, List.length_singleton, Nat.pow_succ]
    omega

@[simp] theorem value_toDigits : value (Nat.toDigits 10 n) = n := Nat.ofDigitChars_ten_toDigits

theorem value_cons_zero : value ('0' :: ds) = value ds := by
  simp [value, Nat.ofDigitChars_cons]

@[simp] theorem value_padZeros : value (padZeros k ds) = value ds := by
  simp [padZeros, value, Nat.ofDigitChars_append]

theorem canonical_toDigits (n : ℕ) : Canonical (Nat.toDigits 10 n) := by
  refine ⟨Nat.toDigits_ne_nil, fun c hc =>
    Nat.isDigit_of_mem_toDigits (by omega) (by omega) hc, fun hhead => ?_⟩
  induction n using Nat.strongRecOn with
  | _ n ih =>
    by_cases hn : n < 10
    · rw [Nat.toDigits_of_lt_base hn] at hhead ⊢
      simpa using hhead
    · rw [Nat.toDigits_of_base_le (by omega) (by omega)] at hhead
      rw [List.head?_append, Option.or_of_isSome (by simp)] at hhead
      have := ih (n / 10) (by omega) hhead
      have hval := congrArg value this
      rw [value_toDigits] at hval
      simp [value, Nat.ofDigitChars_cons] at hval
      omega

/-- A canonical numeral is the one its value is written with. -/
theorem toDigits_value (h : Canonical ds) : Nat.toDigits 10 (value ds) = ds := by
  obtain ⟨hne, hdigit, hzero⟩ := h
  induction ds using List.reverseRecOn with
  | nil => exact absurd rfl hne
  | append_singleton ds c ih =>
    obtain ⟨d, hd, rfl⟩ := exists_digitChar (hdigit c (by simp))
    rw [value_append_digit hd]
    by_cases hds : ds = []
    · subst hds
      simp [value, Nat.toDigits_of_lt_base hd]
    · have hhead : ∀ x, ds.head? = some x → x ≠ '0' := by
        rintro x hx rfl
        have := congrArg List.length (hzero (by simp [List.head?_append, hx]))
        rw [List.length_append, List.length_singleton, List.length_singleton] at this
        exact hds (List.eq_nil_of_length_eq_zero (by omega))
      have hrec := ih hds (fun x hx => hdigit x (by simp [hx])) fun hx => absurd rfl (hhead _ hx)
      have hpos : 0 < value ds := by
        rcases Nat.eq_zero_or_pos (value ds) with h0 | h0
        · rw [h0, Nat.toDigits_zero] at hrec
          exact absurd rfl (hhead '0' (by simp [← hrec]))
        · exact h0
      rw [← Nat.toDigits_append_toDigits (by omega) hpos hd, hrec, Nat.toDigits_of_lt_base hd]

theorem padZeros_toDigits_value (h : ∀ c ∈ ds, c.isDigit = true) (hne : ds ≠ []) :
    padZeros ds.length (Nat.toDigits 10 (value ds)) = ds := by
  induction ds with
  | nil => exact absurd rfl hne
  | cons c ds ih =>
    by_cases hzero : c = '0' ∧ ds ≠ []
    · obtain ⟨rfl, hds⟩ := hzero
      have hrec := ih (fun x hx => h x (List.mem_cons_of_mem _ hx)) hds
      have hlen : (Nat.toDigits 10 (value ds)).length ≤ ds.length := by
        rw [Nat.length_toDigits_le_iff (by omega) (List.length_pos_iff.2 hds)]
        exact value_lt fun x hx => h x (List.mem_cons_of_mem _ hx)
      rw [value_cons_zero, padZeros, List.length_cons, Nat.succ_sub hlen, List.replicate_succ]
      exact congrArg ('0' :: ·) hrec
    · have hcan : Canonical (c :: ds) := by
        refine ⟨hne, h, fun hc => ?_⟩
        simp only [List.head?_cons, Option.some.injEq] at hc
        by_contra hds
        exact hzero ⟨hc, fun hnil => hds (by rw [hc, hnil])⟩
      simp [padZeros, toDigits_value hcan]

theorem length_padZeros (hk : 0 < k) (hn : n < 10 ^ k) :
    (padZeros k (Nat.toDigits 10 n)).length = k := by
  have := (Nat.length_toDigits_le_iff (b := 10) (by omega) hk).2 hn
  simp only [padZeros, List.length_append, List.length_replicate]
  omega

theorem isDigit_of_mem_padZeros (h : ∀ c ∈ ds, c.isDigit = true) :
    ∀ c ∈ padZeros k ds, c.isDigit = true := by
  intro c hc
  rcases List.mem_append.1 hc with hc | hc
  · rw [(List.mem_replicate.1 hc).2]
    rfl
  · exact h c hc

end Numeral
