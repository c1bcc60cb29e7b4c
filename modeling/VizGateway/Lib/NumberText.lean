import VizGateway.Lib.Binary64
import VizGateway.Lib.Numeral

/-!
# The texts of numbers

How the runtime writes a double, in the shortest decimal that reads as it, and the numbers of a JSON
text. What is written is read back.
-/

namespace NumberText

open Binary64 Numeral

/-! ## Writing -/

/-- The digits with a point behind the first `i`, unless these are all. -/
def pointAfter (i : ℕ) (ds : List Char) : List Char :=
  if ds.length ≤ i then ds else ds.take i ++ '.' :: ds.drop i

/-- `±` and the digits of an exponent. -/
def exponentText (e : ℤ) : List Char :=
  (if e < 0 then '-' else '+') :: Nat.toDigits 10 e.natAbs

def decimalText (d : Decimal) : List Char :=
  let ds := Nat.toDigits 10 d.significand
  let n := d.exponent + ds.length
  if ds.length ≤ n ∧ n ≤ 21 then ds ++ List.replicate d.exponent.toNat '0'
  else if 0 < n ∧ n ≤ 21 then pointAfter n.toNat ds
  else if -6 < n ∧ n ≤ 0 then '0' :: '.' :: (List.replicate (-n).toNat '0' ++ ds)
  else pointAfter 1 ds ++ 'e' :: exponentText (n - 1)

/-- `String(x)`. -/
def numberText : Binary64 → List Char
  | nan => "NaN".toList
  | infinite negative => if negative then "-Infinity".toList else "Infinity".toList
  | finite x h =>
    if x = 0 then ['0']
    else if x < 0 then '-' :: decimalText (shortest (-x) (representable_neg h))
    else decimalText (shortest x h)

/-! ## Reading -/

/-- The digits behind a point, if there is one, and what follows. -/
def fraction : List Char → Option (List Char × List Char)
  | '.' :: cs => if (cs.takeWhile Char.isDigit) = [] then none
    else some (cs.takeWhile Char.isDigit, cs.dropWhile Char.isDigit)
  | cs => some ([], cs)

def digits (cs : List Char) : Option ℕ :=
  if cs ≠ [] ∧ cs.all Char.isDigit = true then some (value cs) else none

/-- An exponent, if there is one, and nothing else. -/
def exponent : List Char → Option ℤ
  | [] => some 0
  | c :: cs =>
    if c = 'e' ∨ c = 'E' then
      match cs with
      | '+' :: cs => (digits cs).map Int.ofNat
      | '-' :: cs => (digits cs).map fun n : ℕ => -(n : ℤ)
      | cs => (digits cs).map Int.ofNat
    else none

def readUnsigned (cs : List Char) : Option ℚ :=
  let whole := cs.takeWhile Char.isDigit
  if Canonical whole then do
    let (fractional, rest) ← fraction (cs.dropWhile Char.isDigit)
    let e ← exponent rest
    return value (whole ++ fractional) * 10 ^ (e - fractional.length)
  else none

/-- A JSON number; a sign is taken off first. -/
def readNumber : List Char → Option Binary64
  | '-' :: cs => (readUnsigned cs).map (neg <| ofRat ·)
  | cs => (readUnsigned cs).map ofRat

/-! ## What is written is read -/

/-- The text does not go on with a digit. -/
def NoDigit (rest : List Char) : Prop := ∀ c, rest.head? = some c → c.isDigit = false

variable {ds rest : List Char}

theorem span_digits (hds : ∀ c ∈ ds, c.isDigit = true) (hrest : NoDigit rest) :
    (ds ++ rest).takeWhile Char.isDigit = ds ∧ (ds ++ rest).dropWhile Char.isDigit = rest := by
  have hnil : rest.takeWhile Char.isDigit = [] ∧ rest.dropWhile Char.isDigit = rest := by
    rcases rest with _ | ⟨c, rest⟩
    · simp
    · simp [hrest c rfl]
  rw [List.takeWhile_append_of_pos hds, List.dropWhile_append_of_pos hds, hnil.1, hnil.2]
  simp

theorem readUnsigned_append (hds : Canonical ds) (hrest : NoDigit rest) :
    readUnsigned (ds ++ rest) = (fraction rest).bind fun x => (exponent x.2).map fun e : ℤ =>
      (value (ds ++ x.1) * 10 ^ (e - x.1.length) : ℚ) := by
  obtain ⟨htake, hdrop⟩ := span_digits hds.2.1 hrest
  unfold readUnsigned
  rw [htake, hdrop, if_pos hds]
  rcases fraction rest with _ | ⟨f, r⟩
  · rfl
  · rw [Option.bind_some, Option.map_eq_bind]
    rfl

theorem fraction_point (hne : ds ≠ []) (hds : ∀ c ∈ ds, c.isDigit = true) (hrest : NoDigit rest) :
    fraction ('.' :: (ds ++ rest)) = some (ds, rest) := by
  obtain ⟨htake, hdrop⟩ := span_digits hds hrest
  rw [fraction, htake, hdrop, if_neg hne]

theorem fraction_of_ne (h : rest.head? ≠ some '.') : fraction rest = some ([], rest) := by
  unfold fraction
  split
  · exact absurd rfl h
  · rfl

theorem digits_toDigits (n : ℕ) : digits (Nat.toDigits 10 n) = some n := by
  obtain ⟨hne, hdigit, -⟩ := canonical_toDigits n
  rw [digits, if_pos ⟨hne, List.all_eq_true.2 hdigit⟩, value_toDigits]

theorem exponent_exponentText (e : ℤ) : exponent ('e' :: exponentText e) = some e := by
  unfold exponentText
  split_ifs with h
  · simp only [exponent, true_or, if_true, digits_toDigits, Option.map_some, Option.some.injEq]
    omega
  · simp only [exponent, true_or, if_true, digits_toDigits, Option.map_some, Option.some.injEq,
      Int.ofNat_eq_natCast]
    omega

theorem canonical_take {i : ℕ} (hds : Canonical ds) (hi : 1 ≤ i) : Canonical (ds.take i) := by
  obtain ⟨hne, hdigit, hzero⟩ := hds
  obtain ⟨j, rfl⟩ : ∃ j, i = j + 1 := ⟨i - 1, by omega⟩
  rcases ds with _ | ⟨c, ds⟩
  · exact absurd rfl hne
  · refine ⟨by simp, fun x hx => hdigit x (List.mem_of_mem_take hx), fun hc => ?_⟩
    have := hzero (by simpa using hc)
    simp [this]

theorem readUnsigned_pointAfter {i : ℕ} (hds : Canonical ds) (hi : 1 ≤ i) (hrest : NoDigit rest)
    (hpoint : rest.head? ≠ some '.') :
    readUnsigned (pointAfter i ds ++ rest) = (exponent rest).map fun e : ℤ =>
      (value ds * 10 ^ (e - (ds.length - i : ℕ)) : ℚ) := by
  unfold pointAfter
  split_ifs with hlen
  · rw [readUnsigned_append hds hrest, fraction_of_ne hpoint, Nat.sub_eq_zero_of_le hlen]
    simp
  · have hdrop : ds.drop i ≠ [] := by
      rw [Ne, List.drop_eq_nil_iff]
      exact hlen
    rw [List.append_assoc, List.cons_append,
      readUnsigned_append (canonical_take hds hi) fun c hc => by
        obtain rfl : '.' = c := by simpa using hc
        rfl,
      fraction_point hdrop (fun c hc => hds.2.1 c (List.mem_of_mem_drop hc)) hrest]
    simp

theorem value_append_zeros (ds : List Char) (k : ℕ) :
    value (ds ++ List.replicate k '0') = value ds * 10 ^ k := by
  induction k with
  | zero => simp
  | succ k ih =>
    rw [List.replicate_succ', ← List.append_assoc, show '0' = Nat.digitChar 0 from rfl,
      value_append_digit (by norm_num), ← show '0' = Nat.digitChar 0 from rfl, ih]
    ring

theorem value_zeros_append (k : ℕ) (ds : List Char) :
    value (List.replicate k '0' ++ ds) = value ds := by
  induction k with
  | zero => simp
  | succ k ih => rw [List.replicate_succ, List.cons_append, value_cons_zero, ih]

theorem canonical_append_zeros {n k : ℕ} (hn : 0 < n) :
    Canonical (Nat.toDigits 10 n ++ List.replicate k '0') := by
  obtain ⟨hne, hdigit, hzero⟩ := canonical_toDigits n
  refine ⟨by simp [hne], fun c hc => ?_, fun hc => ?_⟩
  · rcases List.mem_append.1 hc with hc | hc
    · exact hdigit c hc
    · rw [(List.mem_replicate.1 hc).2]
      rfl
  · rw [List.head?_append_of_ne_nil _ hne] at hc
    have := congrArg value (hzero hc)
    rw [value_toDigits] at this
    simp [value, Nat.ofDigitChars_cons] at this
    omega

/-- Every way of writing a decimal is read as its value. -/
theorem readUnsigned_decimalText (d : Decimal) (h : 0 < d.significand) :
    readUnsigned (decimalText d) = some d.value := by
  have hds := canonical_toDigits d.significand
  have hvalue : value (Nat.toDigits 10 d.significand) = d.significand := value_toDigits
  unfold decimalText Decimal.value
  simp only []
  set ds := Nat.toDigits 10 d.significand with hdef
  have hlen : 1 ≤ ds.length := List.length_pos_iff.2 hds.1
  split_ifs with h1 h2 h3
  · -- an integer
    rw [← List.append_nil (ds ++ _), readUnsigned_append (canonical_append_zeros h) (by simp [NoDigit]),
      fraction_of_ne (by simp)]
    obtain ⟨q, hq⟩ : ∃ q : ℕ, d.exponent = q := ⟨d.exponent.toNat, by omega⟩
    simp [exponent, value_append_zeros, hq]
  · -- a point among the digits
    rw [← List.append_nil (pointAfter _ _),
      readUnsigned_pointAfter hds (by omega) (by simp [NoDigit]) (by simp)]
    have he : (0 : ℤ) - (ds.length - (d.exponent + ds.length).toNat : ℕ) = d.exponent := by omega
    simp only [exponent, Option.map_some, hvalue, he]
  · -- a point before the digits
    have hzeros : ∀ c ∈ List.replicate (-(d.exponent + ds.length)).toNat '0' ++ ds,
        c.isDigit = true := by
      intro c hc
      rcases List.mem_append.1 hc with hc | hc
      · rw [(List.mem_replicate.1 hc).2]
        rfl
      · exact hds.2.1 c hc
    rw [← List.append_nil (List.replicate _ _ ++ ds), ← List.singleton_append,
      readUnsigned_append (by decide) (by simp [NoDigit]),
      fraction_point (by simp [hds.1]) hzeros (by simp [NoDigit]), Option.bind_some,
      List.singleton_append, value_cons_zero, value_zeros_append, hvalue, List.length_append,
      List.length_replicate]
    have he : (0 : ℤ) - ((-(d.exponent + ds.length)).toNat + ds.length : ℕ) = d.exponent := by omega
    simp only [exponent, Option.map_some, he]
  · -- a power of ten
    rw [readUnsigned_pointAfter hds le_rfl (by simp [NoDigit]) (by simp), exponent_exponentText]
    have he : d.exponent + ds.length - 1 - (ds.length - 1 : ℕ) = d.exponent := by omega
    simp only [Option.map_some, hvalue, he]

/-- A decimal's text starts with a digit. -/
theorem decimalText_head (d : Decimal) : ∃ c cs, decimalText d = c :: cs ∧ c.isDigit = true := by
  obtain ⟨hne, hdigit, -⟩ := canonical_toDigits d.significand
  obtain ⟨c, cs, hds⟩ := List.exists_cons_of_ne_nil hne
  have hc : c.isDigit = true := hdigit c (by simp [hds])
  have hpoint : ∀ i, 1 ≤ i → ∃ cs', pointAfter i (c :: cs) = c :: cs' := by
    intro i hi
    obtain ⟨j, rfl⟩ : ∃ j, i = j + 1 := ⟨i - 1, by omega⟩
    unfold pointAfter
    split_ifs
    · exact ⟨cs, rfl⟩
    · exact ⟨cs.take j ++ '.' :: cs.drop j, rfl⟩
  unfold decimalText
  simp only [hds]
  split_ifs with h1 h2 h3
  · exact ⟨c, _, rfl, hc⟩
  · obtain ⟨cs', h⟩ := hpoint (d.exponent + (c :: cs).length).toNat (by omega)
    exact ⟨c, cs', h, hc⟩
  · exact ⟨'0', _, rfl, rfl⟩
  · obtain ⟨cs', h⟩ := hpoint 1 le_rfl
    rw [h]
    exact ⟨c, _, rfl, hc⟩

/-- A finite number is read back. -/
theorem readNumber_numberText (x : ℚ) (h : Representable x) :
    readNumber (numberText (finite x h)) = some (finite x h) := by
  have hread : ∀ (y : ℚ) (hy : Representable y), 0 < y →
      (readUnsigned (decimalText (shortest y hy))).map ofRat = some (finite y hy) := by
    intro y hy hpos
    obtain ⟨hsig, hround⟩ := shortest_reads hy hpos
    rw [readUnsigned_decimalText _ hsig, Option.map_some, hround]
  unfold numberText
  simp only []
  split_ifs with hzero hneg
  · subst hzero
    rw [show readNumber ['0'] = (some ((0 : ℕ) * 10 ^ (0 - (0 : ℕ) : ℤ) : ℚ)).map ofRat from rfl]
    simp [ofRat_of_representable h]
  · have := hread (-x) (representable_neg h) (by linarith)
    rw [readNumber, show (fun q => neg (ofRat q)) = neg ∘ ofRat from rfl, ← Option.map_map, this,
      Option.map_some]
    simp [neg]
  · obtain ⟨c, cs, hcs, hc⟩ := decimalText_head (shortest x h)
    have hpos : 0 < x := lt_of_le_of_ne (not_lt.1 hneg) (Ne.symm hzero)
    rw [← hread x h hpos, hcs]
    unfold readNumber
    split
    · next heq =>
      rw [List.cons.injEq] at heq
      rw [heq.1] at hc
      exact absurd hc (by decide)
    · rfl

example : numberText (ofRat (1 / 10)) = "0.1".toList := by decide +kernel

/-! ## The characters of a number -/

/-- What a number may go on with. -/
def isNumberChar (c : Char) : Bool :=
  c.isDigit || c == '.' || c == 'e' || c == 'E' || c == '+' || c == '-'

theorem toNat_of_isNumberChar {c : Char} (h : isNumberChar c = true) : c.toNat < 128 := by
  simp only [isNumberChar, Bool.or_eq_true, beq_iff_eq] at h
  rcases h with ((((h | rfl) | rfl) | rfl) | rfl) | rfl
  · obtain ⟨d, hd, rfl⟩ := exists_digitChar h
    rw [Nat.toNat_digitChar_of_lt_ten hd]
    omega
  all_goals decide

theorem isNumberChar_of_isDigit {c : Char} (h : c.isDigit = true) : isNumberChar c = true := by
  simp [isNumberChar, h]

theorem pointAfter_chars {i : ℕ} (hds : ∀ c ∈ ds, c.isDigit = true) :
    ∀ c ∈ pointAfter i ds, isNumberChar c = true := by
  intro c hc
  unfold pointAfter at hc
  split_ifs at hc
  · exact isNumberChar_of_isDigit (hds c hc)
  · simp only [List.mem_append, List.mem_cons] at hc
    rcases hc with hc | rfl | hc
    · exact isNumberChar_of_isDigit (hds c (List.mem_of_mem_take hc))
    · rfl
    · exact isNumberChar_of_isDigit (hds c (List.mem_of_mem_drop hc))

theorem decimalText_chars (d : Decimal) : ∀ c ∈ decimalText d, isNumberChar c = true := by
  have hds := (canonical_toDigits d.significand).2.1
  have hzeros : ∀ k, ∀ c ∈ List.replicate k '0', isNumberChar c = true := by
    intro k c hc
    rw [(List.mem_replicate.1 hc).2]
    rfl
  intro c hc
  unfold decimalText at hc
  simp only [] at hc
  split_ifs at hc with h1 h2 h3
  · rcases List.mem_append.1 hc with hc | hc
    · exact isNumberChar_of_isDigit (hds c hc)
    · exact hzeros _ c hc
  · exact pointAfter_chars hds c hc
  · simp only [List.mem_append, List.mem_cons] at hc
    rcases hc with rfl | rfl | hc | hc
    · rfl
    · rfl
    · exact hzeros _ c hc
    · exact isNumberChar_of_isDigit (hds c hc)
  · simp only [List.mem_append, List.mem_cons, exponentText] at hc
    rcases hc with hc | rfl | rfl | hc
    · exact pointAfter_chars hds c hc
    · rfl
    · split_ifs <;> rfl
    · exact isNumberChar_of_isDigit ((canonical_toDigits _).2.1 c hc)

/-- A finite number's text: a digit or a sign, then what a number goes on with. -/
theorem numberText_cons (x : ℚ) (h : Representable x) :
    ∃ c cs, numberText (finite x h) = c :: cs ∧ (c.isDigit = true ∨ c = '-') ∧
      ∀ d ∈ cs, isNumberChar d = true := by
  unfold numberText
  simp only []
  split_ifs
  · exact ⟨'0', [], rfl, Or.inl rfl, by simp⟩
  · exact ⟨'-', _, rfl, Or.inr rfl, decimalText_chars _⟩
  · obtain ⟨c, cs, hcs, hc⟩ := decimalText_head (shortest x h)
    have hchars := decimalText_chars (shortest x h)
    rw [hcs] at hchars ⊢
    exact ⟨c, cs, rfl, Or.inl hc, fun d hd => hchars d (List.mem_cons_of_mem _ hd)⟩

end NumberText
