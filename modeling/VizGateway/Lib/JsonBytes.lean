import VizGateway.Lib.JsonText
import VizGateway.Lib.Utf8

/-!
# JSON texts as bytes

What is written of a value is well-formed UTF-16 whatever its strings hold, so nothing of it is lost
in its UTF-8 bytes (`units_decode_textBytes`).
-/

namespace Utf16

/-- A unit outside a pair; half of one becomes U+FFFD. -/
def loneChar (u : UInt16) : Char :=
  if isHigh u ∨ isLow u then Utf8.replacement else .ofNat u.toNat

def pairChar (u v : UInt16) : Char :=
  .ofNat (0x10000 + (u.toNat - 0xd800) * 0x400 + (v.toNat - 0xdc00))

/-- The characters a string is turned into for its bytes. -/
def chars : List UInt16 → List Char
  | [] => []
  | [u] => [loneChar u]
  | u :: v :: us =>
    if isHigh u ∧ isLow v then pairChar u v :: chars us else loneChar u :: chars (v :: us)

/-- No half of a pair stands alone. -/
def WellFormed (s : List UInt16) : Prop := ∃ l, s = units l

variable {u v : UInt16} {s t : List UInt16}

theorem isHigh_eq (u : UInt16) : isHigh u = true ↔ 0xd800 ≤ u.toNat ∧ u.toNat < 0xdc00 := by
  simp [isHigh]

theorem isLow_eq (u : UInt16) : isLow u = true ↔ 0xdc00 ≤ u.toNat ∧ u.toNat < 0xe000 := by
  simp [isLow]

theorem chars_cons (h : ¬ isHigh u = true) (us : List UInt16) :
    chars (u :: us) = loneChar u :: chars us := by
  cases us <;> simp [chars, h]

theorem chars_charUnits_append (c : Char) (us : List UInt16) :
    chars (charUnits c ++ us) = c :: chars us := by
  have hc := char_range c
  by_cases hs : c.toNat < 0x10000
  · have hu := toNat_ofNat_of_lt hs
    have hhigh : ¬ isHigh (.ofNat c.toNat) = true := by
      rw [isHigh_eq, hu]
      omega
    have hlow : ¬ isLow (.ofNat c.toNat) = true := by
      rw [isLow_eq, hu]
      omega
    rw [charUnits_of_lt hs, List.singleton_append, chars_cons hhigh, loneChar,
      if_neg (not_or.2 ⟨hhigh, hlow⟩), hu, Char.ofNat_toNat]
  · have h1 : (UInt16.ofNat (0xd800 + (c.toNat - 0x10000) / 0x400)).toNat =
        0xd800 + (c.toNat - 0x10000) / 0x400 := toNat_ofNat_of_lt (by omega)
    have h2 : (UInt16.ofNat (0xdc00 + (c.toNat - 0x10000) % 0x400)).toNat =
        0xdc00 + (c.toNat - 0x10000) % 0x400 := toNat_ofNat_of_lt (by omega)
    have hpair : isHigh (.ofNat (0xd800 + (c.toNat - 0x10000) / 0x400)) = true ∧
        isLow (.ofNat (0xdc00 + (c.toNat - 0x10000) % 0x400)) = true := by
      rw [isHigh_eq, isLow_eq, h1, h2]
      omega
    rw [charUnits_of_le (by omega), List.cons_append, List.cons_append, List.nil_append, chars,
      if_pos hpair, pairChar, h1, h2,
      show 0x10000 + (0xd800 + (c.toNat - 0x10000) / 0x400 - 0xd800) * 0x400 +
        (0xdc00 + (c.toNat - 0x10000) % 0x400 - 0xdc00) = c.toNat by omega, Char.ofNat_toNat]

@[simp] theorem chars_units (l : List Char) : chars (units l) = l := by
  induction l with
  | nil => rfl
  | cons c l ih => rw [units_cons, chars_charUnits_append, ih]

theorem wellFormed_iff : WellFormed s ↔ units (chars s) = s := by
  constructor
  · rintro ⟨l, rfl⟩
    rw [chars_units]
  · exact fun h => ⟨_, h.symm⟩

theorem wellFormed_nil : WellFormed [] := ⟨[], rfl⟩

theorem WellFormed.append (hs : WellFormed s) (ht : WellFormed t) : WellFormed (s ++ t) := by
  obtain ⟨l, rfl⟩ := hs
  obtain ⟨m, rfl⟩ := ht
  exact ⟨l ++ m, (units_append l m).symm⟩

theorem wellFormed_singleton (hhigh : ¬ isHigh u = true) (hlow : ¬ isLow u = true) :
    WellFormed [u] := by
  rw [isHigh_eq] at hhigh
  rw [isLow_eq] at hlow
  have hu : u.toNat < 65536 := u.toNat_lt
  have hvalid : u.toNat.isValidChar := by
    unfold Nat.isValidChar
    omega
  have hc : (Char.ofNat u.toNat).toNat = u.toNat := by
    rw [Char.ofNat, dif_pos hvalid]
    rfl
  refine ⟨[.ofNat u.toNat], ?_⟩
  rw [units, List.flatMap_singleton, charUnits_of_lt (by omega), hc, UInt16.ofNat_toNat]

theorem WellFormed.cons (hu : u.toNat < 0xd800) (hs : WellFormed s) : WellFormed (u :: s) :=
  (wellFormed_singleton (by rw [isHigh_eq]; omega) (by rw [isLow_eq]; omega)).append hs

theorem wellFormed_of_forall (h : ∀ u ∈ s, u.toNat < 0xd800) : WellFormed s := by
  induction s with
  | nil => exact wellFormed_nil
  | cons u s ih =>
    obtain ⟨hu, hs⟩ := List.forall_mem_cons.1 h
    exact (ih hs).cons hu

theorem wellFormed_pair (hu : isHigh u = true) (hv : isLow v = true) : WellFormed [u, v] := by
  rw [isHigh_eq] at hu
  rw [isLow_eq] at hv
  have hvalid : (0x10000 + (u.toNat - 0xd800) * 0x400 + (v.toNat - 0xdc00)).isValidChar := by
    unfold Nat.isValidChar
    omega
  have hc : (pairChar u v).toNat = 0x10000 + (u.toNat - 0xd800) * 0x400 + (v.toNat - 0xdc00) := by
    rw [pairChar, Char.ofNat, dif_pos hvalid]
    rfl
  refine ⟨[pairChar u v], ?_⟩
  rw [units, List.flatMap_singleton, charUnits_of_le (by omega), hc,
    show 0xd800 + (0x10000 + (u.toNat - 0xd800) * 0x400 + (v.toNat - 0xdc00) - 0x10000) / 0x400 =
      u.toNat by omega,
    show 0xdc00 + (0x10000 + (u.toNat - 0xd800) * 0x400 + (v.toNat - 0xdc00) - 0x10000) % 0x400 =
      v.toNat by omega, UInt16.ofNat_toNat, UInt16.ofNat_toNat]

/-- The UTF-8 bytes of a string. -/
def textBytes (s : List UInt16) : List UInt8 := Utf8.encode (chars s)

/-- Well-formed text is what its bytes are read as. -/
theorem units_decode_textBytes (h : WellFormed s) : units (Utf8.decode (textBytes s)) = s := by
  have hdecode : Utf8.decode (textBytes s) = chars s := Utf8.decode_flatMap_utf8EncodeChar _
  rw [hdecode, wellFormed_iff.1 h]

end Utf16

namespace JsonText

open NumberText Utf16

variable {us : List UInt16}

theorem toNat_unit {c : Char} (h : c.toNat < 128) : (unit c).toNat < 0xd800 := by
  rw [unit, toNat_ofNat_of_lt (by omega)]
  omega

theorem wellFormed_unit_cons {c : Char} (h : c.toNat < 128) (hus : WellFormed us) :
    WellFormed (unit c :: us) := hus.cons (toNat_unit h)

theorem wellFormed_ascii {s : String} (h : ∀ c ∈ s.toList, c.toNat < 128) :
    WellFormed (ascii s) := by
  refine wellFormed_of_forall fun u hu => ?_
  obtain ⟨c, hc, rfl⟩ := List.mem_map.1 hu
  exact toNat_unit (h c hc)

theorem toNat_hexUnit : ∀ d < 16, (hexUnit d).toNat < 0xd800 := by decide

theorem wellFormed_unicodeEscape (u : UInt16) : WellFormed (unicodeEscape u) := by
  have hu : u.toNat < 65536 := u.toNat_lt
  refine wellFormed_unit_cons (by decide) (wellFormed_unit_cons (by decide) ?_)
  refine wellFormed_of_forall fun v hv => ?_
  obtain ⟨d, hd, rfl⟩ := List.mem_map.1 hv
  refine toNat_hexUnit d ?_
  simp only [List.mem_cons, List.not_mem_nil, or_false] at hd
  omega

/-- A lone half of a pair is written as an escape. -/
theorem wellFormed_escapeUnit (u : UInt16) : WellFormed (escapeUnit u) := by
  have hshort : ∀ p ∈ shortEscapes, p.2.toNat < 128 := by decide
  unfold escapeUnit
  split
  · next c hlookup =>
    obtain ⟨l₁, l₂, hl, -⟩ := List.lookup_eq_some_iff.1 hlookup
    have hc : c.toNat < 128 := hshort (u, c) (by simp [hl])
    exact wellFormed_unit_cons (by decide) (wellFormed_unit_cons hc wellFormed_nil)
  · split_ifs with h
    · exact wellFormed_unicodeEscape u
    · simp only [not_or] at h
      exact wellFormed_singleton h.2.1 h.2.2

theorem wellFormed_escapeUnits (s : List UInt16) : WellFormed (escapeUnits s) := by
  induction s using escapeUnits.induct with
  | case1 => exact wellFormed_nil
  | case2 u => exact wellFormed_escapeUnit u
  | case3 u v us h ih =>
    rw [escapeUnits, if_pos h]
    exact (wellFormed_pair h.1 h.2).append ih
  | case4 u v us h ih =>
    rw [escapeUnits, if_neg h]
    exact (wellFormed_escapeUnit u).append ih

theorem wellFormed_quote (s : List UInt16) : WellFormed (quote s) :=
  wellFormed_unit_cons (by decide)
    ((wellFormed_escapeUnits s).append (wellFormed_unit_cons (by decide) wellFormed_nil))

theorem wellFormed_numberUnits (x : Binary64) : WellFormed (numberUnits x) := by
  unfold numberUnits
  split_ifs with hfinite
  · cases x with
    | finite x h =>
      obtain ⟨c, cs, htext, hc, hcs⟩ := numberText_cons x h
      refine wellFormed_of_forall fun u hu => ?_
      rw [htext] at hu
      obtain ⟨d, hd, rfl⟩ := List.mem_map.1 hu
      refine toNat_unit (toNat_of_isNumberChar ?_)
      rcases List.mem_cons.1 hd with rfl | hd
      · rcases hc with hc | rfl
        · exact isNumberChar_of_isDigit hc
        · rfl
      · exact hcs d hd
    | nan => cases hfinite
    | infinite negative => cases hfinite
  · exact wellFormed_ascii (by simp)

mutual

/-- `JSON.stringify` writes well-formed text. -/
theorem wellFormed_stringify : ∀ v, WellFormed (stringify v)
  | .null => by
    rw [stringify]
    exact wellFormed_ascii (by simp)
  | .bool b => by
    rw [stringify]
    cases b <;> exact wellFormed_ascii (by simp)
  | .num x => by
    rw [stringify]
    exact wellFormed_numberUnits x
  | .str s => by
    rw [stringify]
    exact wellFormed_quote s
  | .arr [] => by
    rw [stringify]
    exact wellFormed_unit_cons (by decide) (wellFormed_unit_cons (by decide) wellFormed_nil)
  | .arr (v :: items) => by
    rw [stringify]
    exact wellFormed_unit_cons (by decide)
      ((wellFormed_stringify v).append (wellFormed_moreItems items))
  | .obj [] => by
    rw [stringify]
    exact wellFormed_unit_cons (by decide) (wellFormed_unit_cons (by decide) wellFormed_nil)
  | .obj ((key, v) :: props) => by
    rw [stringify]
    exact wellFormed_unit_cons (by decide) ((wellFormed_quote key).append
      (wellFormed_unit_cons (by decide)
        ((wellFormed_stringify v).append (wellFormed_moreProps props))))

theorem wellFormed_moreItems : ∀ items, WellFormed (moreItems items)
  | [] => by
    rw [moreItems]
    exact wellFormed_unit_cons (by decide) wellFormed_nil
  | v :: items => by
    rw [moreItems]
    exact wellFormed_unit_cons (by decide)
      ((wellFormed_stringify v).append (wellFormed_moreItems items))

theorem wellFormed_moreProps : ∀ props, WellFormed (moreProps props)
  | [] => by
    rw [moreProps]
    exact wellFormed_unit_cons (by decide) wellFormed_nil
  | (key, v) :: props => by
    rw [moreProps]
    exact wellFormed_unit_cons (by decide) ((wellFormed_quote key).append
      (wellFormed_unit_cons (by decide)
        ((wellFormed_stringify v).append (wellFormed_moreProps props))))

end

/-- A value is read back from the bytes of its text. -/
theorem parse_decode_textBytes {v : JsonValue} (h : Proper v) :
    parse (units (Utf8.decode (textBytes (stringify v)))) = some v := by
  rw [units_decode_textBytes (wellFormed_stringify v), parse_stringify h]

end JsonText

namespace Utf8

/-- Bytes below 128 are characters of their own, wherever a text is cut. -/
theorem wholeCharacters_of_ascii {chunks : List (List UInt8)}
    (h : ∀ b ∈ chunks.flatten, b.toNat < 0x80) : WholeCharacters chunks := by
  have hafter : ∀ bs : List UInt8, (∀ b ∈ bs, b.toNat < 0x80) → after none bs = none := by
    intro bs
    induction bs with
    | nil => exact fun _ => rfl
    | cons b bs ih =>
      intro hbs
      obtain ⟨hb, hbs⟩ := List.forall_mem_cons.1 hbs
      have hlead : (lead b).2 = none := by
        simp [lead, hb]
      show after (lead b).2 bs = none
      rw [hlead, ih hbs]
  rintro pre post rfl
  unfold Straddles
  rw [hafter pre.flatten fun b hb => h b (by simp [List.flatten_append, hb])]
  exact not_continues_none

end Utf8
