import VizGateway.Json
import VizGateway.Lib.Numeral
import VizGateway.Lib.Separated

/-!
# Asset texts and amounts

An amount has one text and a canonical text one amount, so the signer's comparison of texts is a
comparison of amounts (`amount_codec`).
-/

namespace VizGateway

open Text Numeral

namespace AmountText

/-- Digits without leading zeros, a point, exactly three digits, `" VIZ"`. -/
def CanonicalAmount (s : String) : Prop :=
  ∃ int frac : String, Canonical int.toList ∧ (∀ c ∈ frac.toList, c.isDigit = true) ∧
    frac.toList.length = 3 ∧ s = int ++ "." ++ frac ++ " VIZ"

theorem beforeChar_append {a b : String} {c : Char} (ha : c ∉ a.toList) :
    beforeChar (a ++ c.toString ++ b) c = a := by
  have hcons : (a ++ c.toString ++ b).toList = a.toList ++ c :: b.toList := by
    simp [Char.toString_eq_singleton]
  rw [beforeChar, hcons, List.takeWhile_append_of_pos fun x hx => by
    simp only [decide_eq_true_eq]
    rintro rfl
    exact ha hx]
  simp

theorem beforeChar_of_notMem {a : String} {c : Char} (ha : c ∉ a.toList) : beforeChar a c = a := by
  rw [beforeChar, List.takeWhile_eq_self_iff.2 fun x hx => by
    simp only [decide_eq_true_eq]
    rintro rfl
    exact ha hx, String.ofList_toList]

theorem afterChar_append {a b : String} {c : Char} (ha : c ∉ a.toList) (hb : c ∉ b.toList) :
    afterChar (a ++ c.toString ++ b) c = b := by
  have hlen : a.toList.length + 1 = (a ++ c.toString).toList.length := by
    simp [Char.toString_eq_singleton]
  rw [afterChar, beforeChar_append ha, hlen, dropStr_append, beforeChar_of_notMem hb]

section

variable {int frac : String}

theorem notMem_of_isDigit {s : String} {c : Char} (h : ∀ c ∈ s.toList, c.isDigit = true)
    (hc : c.isDigit = false) : c ∉ s.toList := by
  intro hmem
  rw [h c hmem] at hc
  cases hc

/-- Any two digit strings around a point, three behind it, are read as the number they spell. -/
theorem vizToMilli_digits (hint : ∀ c ∈ int.toList, c.isDigit = true) (hne : int.toList ≠ [])
    (hfrac : ∀ c ∈ frac.toList, c.isDigit = true) (hlen : frac.toList.length = 3) :
    vizToMilli (int ++ "." ++ frac ++ " VIZ") =
      some ((value int.toList : ℤ) * 1000 + (value frac.toList : ℤ)) := by
  have htrim : trim (int ++ "." ++ frac ++ " VIZ") = int ++ "." ++ frac ++ " VIZ" := by
    refine trim_of_trimmed ⟨fun c hc => ?_, fun c hc => ?_⟩
    · obtain ⟨d, ds, hds⟩ := List.exists_cons_of_ne_nil hne
      simp only [String.toList_append, hds, List.cons_append, List.head?_cons,
        Option.mem_some_iff] at hc
      exact hc ▸ not_isSpace_of_isDigit (hint d (by simp [hds]))
    · rw [String.toList_append, List.getLast?_append] at hc
      have hz : " VIZ".toList.getLast? = some 'Z' := rfl
      rw [hz, Option.some_or, Option.mem_some_iff] at hc
      rw [← hc]
      decide
  have hspace : ' ' ∉ (int ++ "." ++ frac).toList := by
    rw [String.toList_append, String.toList_append, List.mem_append, List.mem_append]
    rintro ((h | h) | h)
    · exact notMem_of_isDigit hint rfl h
    · exact absurd h (by decide)
    · exact notMem_of_isDigit hfrac rfl h
  have hnumeric : beforeChar (int ++ "." ++ frac ++ " VIZ") ' ' = int ++ "." ++ frac := by
    have h := beforeChar_append (b := "VIZ") hspace
    rwa [String.append_assoc, show ' '.toString ++ "VIZ" = " VIZ" by decide] at h
  have hbefore : beforeChar (int ++ "." ++ frac) '.' = int :=
    beforeChar_append (notMem_of_isDigit hint rfl)
  have hafter : afterChar (int ++ "." ++ frac) '.' = frac :=
    afterChar_append (notMem_of_isDigit hint rfl) (notMem_of_isDigit hfrac rfl)
  have htake : takeStr (frac ++ "000") 3 = frac := hlen ▸ takeStr_append frac "000"
  have hfne : frac.toList ≠ [] := by
    rw [← List.length_pos_iff]
    omega
  have hempty : ∀ {s : String}, s.toList ≠ [] → s ≠ "" := by
    rintro s hs rfl
    exact hs rfl
  unfold vizToMilli
  simp only [htrim, hnumeric, hbefore, hafter, htake]
  rw [if_neg (hempty hne), if_neg (hempty hfne), bigIntOfString_digits hne hint,
    bigIntOfString_digits hfne hfrac]
  rfl

/-- The text of an amount: its thousands, and the rest in three digits. -/
theorem milliToViz_natCast (n : ℕ) :
    milliToViz n = (n / 1000).repr ++ "." ++
      String.ofList (padZeros 3 (Nat.toDigits 10 (n % 1000))) ++ " VIZ" := by
  unfold milliToViz
  rw [if_neg (by omega), Int.natAbs_natCast]
  rw [← String.toList_inj]
  simp [padZeros]

end

theorem vizToMilli_milliToViz (n : ℕ) : vizToMilli (milliToViz n) = some (n : ℤ) := by
  have hpad := isDigit_of_mem_padZeros (k := 3) (canonical_toDigits (n % 1000)).2.1
  have hlen := length_padZeros (k := 3) (n := n % 1000) (by omega) (by omega)
  rw [milliToViz_natCast, vizToMilli_digits (fun c hc => isDigit_of_mem_repr hc)
    (by simp [Nat.toDigits_ne_nil]) (by simpa using hpad) (by simpa using hlen)]
  rw [Nat.toList_repr, String.toList_ofList, value_padZeros, value_toDigits, value_toDigits]
  exact congrArg some (by omega)

theorem canonicalAmount_milliToViz (n : ℕ) : CanonicalAmount (milliToViz n) := by
  refine ⟨_, _, ?_, ?_, ?_, milliToViz_natCast n⟩
  · rw [Nat.toList_repr]
    exact canonical_toDigits _
  · rw [String.toList_ofList]
    exact isDigit_of_mem_padZeros (canonical_toDigits _).2.1
  · rw [String.toList_ofList]
    exact length_padZeros (by omega) (by omega)

/-- A canonical text is that of the amount it is read as. -/
theorem milliToViz_vizToMilli {s : String} (h : CanonicalAmount s) :
    ∃ n : ℕ, vizToMilli s = some (n : ℤ) ∧ milliToViz n = s := by
  obtain ⟨int, frac, hint, hfrac, hlen, rfl⟩ := h
  have hlt := value_lt hfrac
  have hfne : frac.toList ≠ [] := by
    rw [← List.length_pos_iff]
    omega
  rw [hlen] at hlt
  refine ⟨value int.toList * 1000 + value frac.toList, ?_, ?_⟩
  · rw [vizToMilli_digits hint.2.1 hint.1 hfrac hlen]
    push_cast
    rfl
  · have hint' : (value int.toList).repr = int := by
      rw [← String.toList_inj, Nat.toList_repr, toDigits_value hint]
    have hfrac' : padZeros 3 (Nat.toDigits 10 (value frac.toList)) = frac.toList :=
      hlen ▸ padZeros_toDigits_value hfrac hfne
    rw [milliToViz_natCast, show (value int.toList * 1000 + value frac.toList) / 1000 =
      value int.toList by omega, show (value int.toList * 1000 + value frac.toList) % 1000 =
      value frac.toList by omega, hint', hfrac', String.ofList_toList]

end AmountText

open AmountText

/-- Every amount is read back from its text, which is canonical, and every canonical text written
back from its amount, so the texts of two amounts are equal exactly if the amounts are. -/
theorem amount_codec :
    (∀ m : ℤ, 0 ≤ m → CanonicalAmount (milliToViz m) ∧ vizToMilli (milliToViz m) = some m) ∧
    (∀ s, CanonicalAmount s → (vizToMilli s).map milliToViz = some s) ∧
    ∀ a b : ℤ, 0 ≤ a → 0 ≤ b → (milliToViz a = milliToViz b ↔ a = b) := by
  have hread : ∀ m : ℤ, 0 ≤ m → vizToMilli (milliToViz m) = some m := by
    intro m hm
    obtain ⟨n, rfl⟩ := Int.eq_ofNat_of_zero_le hm
    exact vizToMilli_milliToViz n
  refine ⟨fun m hm => ⟨?_, hread m hm⟩, fun s hs => ?_,
    fun a b ha hb => ⟨fun h => ?_, congrArg milliToViz⟩⟩
  · obtain ⟨n, rfl⟩ := Int.eq_ofNat_of_zero_le hm
    exact canonicalAmount_milliToViz n
  · obtain ⟨n, hn, rfl⟩ := milliToViz_vizToMilli hs
    rw [hn, Option.map_some]
  · have := congrArg vizToMilli h
    rwa [hread a ha, hread b hb, Option.some.injEq] at this

theorem amount_codec_sample :
    vizToMilli (milliToViz 189027) = some 189027 ∧
      (vizToMilli "0.050 VIZ").map milliToViz = some "0.050 VIZ" ∧
      (milliToViz 50 = milliToViz 5 ↔ (50 : ℤ) = 5) :=
  ⟨(amount_codec.1 189027 (by omega)).2,
    amount_codec.2.1 "0.050 VIZ" ⟨"0", "050", by decide, List.all_eq_true.1 rfl, rfl, rfl⟩,
    amount_codec.2.2 50 5 (by omega) (by omega)⟩

end VizGateway
