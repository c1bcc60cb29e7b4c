import Mathlib
import VizGateway.Lib.Text

/-!
# Length-prefixed fields

A text behind its length and a separator that no numeral contains is read back from any longer
text that starts with it, so a list of key and value pairs, each tagged so, is determined by its
encoding (`LengthCode.encode_injective`). The alphabet and the measure of length are arbitrary:
what the argument needs is that a longer text is larger.

UTF-16 code units with the byte length of their UTF-8 form are such an alphabet, whatever
surrogates stand alone in the text.
-/

/-- Numerals, separators and a measure of texts that grows with every letter. -/
structure LengthCode (α : Type*) where
  size : List α → ℕ
  num : ℕ → List α
  colon : α
  equals : α
  bar : α
  size_lt : ∀ l a, size l < size (l ++ [a])
  num_injective : Function.Injective num
  colon_notMem : ∀ n, colon ∉ num n

namespace LengthCode

variable {α : Type*} (C : LengthCode α)

/-- A text behind its length. -/
def tag (l : List α) : List α := C.num (C.size l) ++ C.colon :: l

/-- A key and its value, both tagged. -/
def field (f : List α × List α) : List α := C.tag f.1 ++ C.equals :: C.tag f.2

/-- The fields in order, joined by bars. -/
def encode (fields : List (List α × List α)) : List α :=
  [C.bar].intercalate (fields.map C.field)

@[simp] theorem encode_nil : C.encode [] = [] := rfl

@[simp] theorem encode_singleton (f : List α × List α) : C.encode [f] = C.field f := by
  simp [encode, List.intercalate]

@[simp] theorem encode_cons_cons (f g : List α × List α) (fs : List (List α × List α)) :
    C.encode (f :: g :: fs) = C.field f ++ C.bar :: C.encode (g :: fs) := by
  simp [encode, List.intercalate]

theorem size_le_append (l t : List α) : C.size l ≤ C.size (l ++ t) := by
  induction t using List.reverseRecOn with
  | nil => simp
  | append_singleton t a ih =>
    have := C.size_lt (l ++ t) a
    rw [← List.append_assoc]
    omega

theorem size_lt_append (l : List α) {t : List α} (ht : t ≠ []) : C.size l < C.size (l ++ t) := by
  obtain ⟨a, t, rfl⟩ := List.exists_cons_of_ne_nil ht
  have h1 := C.size_lt l a
  have h2 := C.size_le_append (l ++ [a]) t
  simp only [List.append_assoc, List.singleton_append] at h2
  omega

/-- Two texts of one size that start a common text are the same. -/
theorem eq_of_append_eq {l m r s : List α} (h : l ++ r = m ++ s) (hs : C.size l = C.size m) :
    l = m ∧ r = s := by
  have hlm : l = m := by
    rcases List.append_eq_append_iff.1 h with ⟨t, rfl, -⟩ | ⟨t, rfl, -⟩
    · by_contra hne
      have := C.size_lt_append l (t := t) (by rintro rfl; simp at hne)
      omega
    · by_contra hne
      have := C.size_lt_append m (t := t) (by rintro rfl; simp at hne)
      omega
  subst hlm
  exact ⟨rfl, List.append_cancel_left h⟩

/-- The text before the first separator and the text after it are determined. -/
theorem cons_append_inj {l m r s : List α} {c : α} (hl : c ∉ l) (hm : c ∉ m)
    (h : l ++ c :: r = m ++ c :: s) : l = m ∧ r = s := by
  rcases List.append_eq_append_iff.1 h with ⟨t, rfl, ht⟩ | ⟨t, rfl, ht⟩
  · rcases t with _ | ⟨a, t⟩
    · simpa using ht
    · simp only [List.cons_append, List.cons.injEq] at ht
      simp [← ht.1] at hm
  · rcases t with _ | ⟨a, t⟩
    · simpa [eq_comm] using ht
    · simp only [List.cons_append, List.cons.injEq] at ht
      simp [← ht.1] at hl

theorem tag_append_inj {l m r s : List α} (h : C.tag l ++ r = C.tag m ++ s) :
    l = m ∧ r = s := by
  simp only [tag, List.append_assoc, List.cons_append] at h
  obtain ⟨hn, h⟩ := cons_append_inj (C.colon_notMem _) (C.colon_notMem _) h
  exact C.eq_of_append_eq h (C.num_injective hn)

theorem field_append_inj {f g : List α × List α} {r s : List α}
    (h : C.field f ++ r = C.field g ++ s) : f = g ∧ r = s := by
  simp only [field, List.append_assoc] at h
  obtain ⟨hk, h⟩ := C.tag_append_inj h
  simp only [List.cons_append, List.cons.injEq, true_and] at h
  obtain ⟨hv, hr⟩ := C.tag_append_inj h
  exact ⟨Prod.ext hk hv, hr⟩

theorem field_ne_nil (f : List α × List α) : C.field f ≠ [] := by
  simp [field]

theorem encode_cons_ne_nil (f : List α × List α) (fs : List (List α × List α)) :
    C.encode (f :: fs) ≠ [] := by
  cases fs <;> simp [C.field_ne_nil]

/-- Different fields have different encodings. -/
theorem encode_injective : Function.Injective C.encode := by
  intro fs
  induction fs with
  | nil =>
    rintro (_ | ⟨g, gs⟩) h
    · rfl
    · exact absurd h.symm (C.encode_cons_ne_nil g gs)
  | cons f fs ih =>
    rintro (_ | ⟨g, gs⟩) h
    · exact absurd h (C.encode_cons_ne_nil f fs)
    -- a single field ends the text, where a further one goes on with a bar
    rcases fs with _ | ⟨f', fs⟩ <;> rcases gs with _ | ⟨g', gs⟩
    · simp only [encode_singleton] at h
      rw [← List.append_nil (C.field f), ← List.append_nil (C.field g)] at h
      rw [(C.field_append_inj h).1]
    · rw [encode_singleton, encode_cons_cons, ← List.append_nil (C.field f)] at h
      exact absurd (C.field_append_inj h).2 (by simp)
    · rw [encode_singleton, encode_cons_cons, ← List.append_nil (C.field g)] at h
      exact absurd (C.field_append_inj h).2 (by simp)
    · simp only [encode_cons_cons] at h
      obtain ⟨rfl, hrest⟩ := C.field_append_inj h
      rw [ih (List.cons.inj hrest).2]

/-- A translation of texts that keeps sizes, numerals and separators keeps the encoding. -/
theorem map_encode {β : Type*} {D : LengthCode β} {φ : List α → List β}
    (happend : ∀ l m, φ (l ++ m) = φ l ++ φ m) (hsize : ∀ l, D.size (φ l) = C.size l)
    (hnum : ∀ n, φ (C.num n) = D.num n) (hcolon : φ [C.colon] = [D.colon])
    (hequals : φ [C.equals] = [D.equals]) (hbar : φ [C.bar] = [D.bar])
    (fields : List (List α × List α)) :
    φ (C.encode fields) = D.encode (fields.map fun f => (φ f.1, φ f.2)) := by
  have hcons : ∀ a l, φ (a :: l) = φ [a] ++ φ l := fun a l => by rw [← happend]; rfl
  have htag : ∀ l, φ (C.tag l) = D.tag (φ l) := fun l => by
    unfold tag
    rw [happend, hcons, hnum, hcolon, hsize]
    rfl
  have hfield : ∀ f : List α × List α, φ (C.field f) = D.field (φ f.1, φ f.2) := fun f => by
    unfold field
    rw [happend, hcons, htag, htag, hequals]
    rfl
  have hnil : φ [] = [] := by simpa using happend [] []
  induction fields with
  | nil => exact hnil
  | cons f fs ih =>
    rcases fs with _ | ⟨g, fs⟩
    · simpa using hfield f
    · rw [encode_cons_cons, happend, hcons, hfield, hbar, ih]
      simp

end LengthCode

/-! ## UTF-16 -/

namespace Utf16

def isHigh (u : UInt16) : Bool := 0xd800 ≤ u.toNat && u.toNat < 0xdc00

def isLow (u : UInt16) : Bool := 0xdc00 ≤ u.toNat && u.toNat < 0xe000

/-- The UTF-8 bytes of a unit outside a surrogate pair; a lone surrogate becomes U+FFFD. -/
def unitSize (u : UInt16) : ℕ := if u.toNat < 0x80 then 1 else if u.toNat < 0x800 then 2 else 3

/-- `Buffer.byteLength(s, "utf8")`. -/
def byteLength : List UInt16 → ℕ
  | [] => 0
  | [u] => unitSize u
  | u :: v :: rest =>
    if isHigh u && isLow v then 4 + byteLength rest else unitSize u + byteLength (v :: rest)

theorem unitSize_pos (u : UInt16) : 0 < unitSize u := by
  unfold unitSize
  split_ifs <;> omega

theorem unitSize_le (u : UInt16) : unitSize u ≤ 3 := by
  unfold unitSize
  split_ifs <;> omega

theorem byteLength_lt (l : List UInt16) (u : UInt16) : byteLength l < byteLength (l ++ [u]) := by
  fun_induction byteLength l with
  | case1 => simpa [byteLength] using unitSize_pos u
  | case2 v =>
    have h1 := unitSize_pos u
    have h2 := unitSize_le v
    simp only [List.singleton_append, byteLength]
    split_ifs <;> omega
  | case3 v w rest hp ih =>
    simp only [List.cons_append, byteLength, hp, if_true]
    omega
  | case4 v w rest hp ih =>
    simp only [List.cons_append, byteLength, hp, Bool.false_eq_true, if_false] at ih ⊢
    omega

/-- The code units of a character. -/
def charUnits (c : Char) : List UInt16 :=
  if c.toNat < 0x10000 then [.ofNat c.toNat]
  else [.ofNat (0xd800 + (c.toNat - 0x10000) / 0x400),
    .ofNat (0xdc00 + (c.toNat - 0x10000) % 0x400)]

/-- The code units of a string. -/
def units (l : List Char) : List UInt16 := l.flatMap charUnits

theorem toNat_ofNat_of_lt {n : ℕ} (hn : n < 0x10000) : (UInt16.ofNat n).toNat = n := by
  rw [UInt16.toNat_ofNat']
  omega

/-- A character is no surrogate and lies below the last plane's end. -/
theorem char_range (c : Char) :
    c.toNat < 0xd800 ∨ 0xe000 ≤ c.toNat ∧ c.toNat < 0x110000 := by
  have := c.valid
  simp only [UInt32.isValidChar, Nat.isValidChar] at this
  have hc : c.toNat = c.val.toNat := rfl
  omega

theorem charUnits_of_lt {c : Char} (hc : c.toNat < 0x10000) : charUnits c = [.ofNat c.toNat] :=
  if_pos hc

theorem charUnits_of_le {c : Char} (hc : 0x10000 ≤ c.toNat) :
    charUnits c = [.ofNat (0xd800 + (c.toNat - 0x10000) / 0x400),
      .ofNat (0xdc00 + (c.toNat - 0x10000) % 0x400)] :=
  if_neg (by omega)

theorem ofNat_inj {m n : ℕ} (hm : m < 0x10000) (hn : n < 0x10000)
    (h : UInt16.ofNat m = UInt16.ofNat n) : m = n := by
  rw [← toNat_ofNat_of_lt hm, h, toNat_ofNat_of_lt hn]

theorem char_eq_of_toNat {c d : Char} (h : c.toNat = d.toNat) : c = d := by
  rw [← Char.ofNat_toNat c, h, Char.ofNat_toNat]

/-- The units of a character are told apart from those of another at the start of any text. -/
theorem charUnits_append_inj {c d : Char} {r s : List UInt16}
    (h : charUnits c ++ r = charUnits d ++ s) : c = d ∧ r = s := by
  have hc := char_range c
  have hd := char_range d
  rcases lt_or_ge c.toNat 0x10000 with hcs | hcs <;>
    rcases lt_or_ge d.toNat 0x10000 with hds | hds
  · rw [charUnits_of_lt hcs, charUnits_of_lt hds] at h
    simp only [List.singleton_append, List.cons.injEq] at h
    exact ⟨char_eq_of_toNat (ofNat_inj hcs hds h.1), h.2⟩
  · rw [charUnits_of_lt hcs, charUnits_of_le hds] at h
    simp only [List.singleton_append, List.cons_append, List.cons.injEq] at h
    have := ofNat_inj hcs (by omega) h.1
    omega
  · rw [charUnits_of_le hcs, charUnits_of_lt hds] at h
    simp only [List.singleton_append, List.cons_append, List.cons.injEq] at h
    have := ofNat_inj (by omega) hds h.1
    omega
  · rw [charUnits_of_le hcs, charUnits_of_le hds] at h
    simp only [List.nil_append, List.cons_append, List.cons.injEq] at h
    have h1 := ofNat_inj (by omega) (by omega) h.1
    have h2 := ofNat_inj (by omega) (by omega) h.2.1
    exact ⟨char_eq_of_toNat (by omega), h.2.2⟩

theorem charUnits_ne_nil (c : Char) : charUnits c ≠ [] := by
  unfold charUnits
  split_ifs <;> simp

@[simp] theorem units_append (l m : List Char) : units (l ++ m) = units l ++ units m :=
  List.flatMap_append

theorem units_cons (c : Char) (l : List Char) : units (c :: l) = charUnits c ++ units l := rfl

theorem units_injective : Function.Injective units := by
  intro l
  induction l with
  | nil =>
    rintro (_ | ⟨d, m⟩) h
    · rfl
    · simp [units_cons, units, charUnits_ne_nil] at h
  | cons c l ih =>
    rintro (_ | ⟨d, m⟩) h
    · simp [units_cons, units, charUnits_ne_nil] at h
    · rw [units_cons, units_cons] at h
      obtain ⟨rfl, hrest⟩ := charUnits_append_inj h
      rw [ih hrest]

theorem utf8Size_eq (c : Char) :
    c.utf8Size = if c.toNat < 0x80 then 1 else if c.toNat < 0x800 then 2
      else if c.toNat < 0x10000 then 3 else 4 := by
  have hc : c.toNat = c.val.toNat := rfl
  simp only [Char.utf8Size, UInt32.le_iff_toNat_le, hc]
  simp only [UInt32.toNat_ofNatLT]
  split_ifs <;> omega

theorem byteLength_cons {u : UInt16} (hu : isHigh u = false) (rest : List UInt16) :
    byteLength (u :: rest) = unitSize u + byteLength rest := by
  rcases rest with _ | ⟨v, rest⟩ <;> simp [byteLength, hu]

theorem byteLength_charUnits (c : Char) (rest : List UInt16) :
    byteLength (charUnits c ++ rest) = c.utf8Size + byteLength rest := by
  have hc := char_range c
  rw [utf8Size_eq]
  by_cases hs : c.toNat < 0x10000
  · have hu := toNat_ofNat_of_lt hs
    have hhigh : isHigh (.ofNat c.toNat) = false := by
      unfold isHigh
      rw [hu, Bool.and_eq_false_iff, decide_eq_false_iff_not, decide_eq_false_iff_not]
      omega
    rw [charUnits_of_lt hs, List.singleton_append, byteLength_cons hhigh, unitSize, hu]
    simp [hs]
  · rw [charUnits_of_le (by omega)]
    have hhigh : isHigh (.ofNat (0xd800 + (c.toNat - 0x10000) / 0x400)) = true := by
      unfold isHigh
      rw [toNat_ofNat_of_lt (by omega), Bool.and_eq_true, decide_eq_true_eq, decide_eq_true_eq]
      omega
    have hlow : isLow (.ofNat (0xdc00 + (c.toNat - 0x10000) % 0x400)) = true := by
      unfold isLow
      rw [toNat_ofNat_of_lt (by omega), Bool.and_eq_true, decide_eq_true_eq, decide_eq_true_eq]
      omega
    simp only [List.cons_append, List.nil_append, byteLength, hhigh, hlow, Bool.and_self, if_true]
    split_ifs <;> omega

/-- The UTF-8 length of a text without lone surrogates. -/
theorem byteLength_units (l : List Char) : byteLength (units l) = (String.ofList l).utf8ByteSize := by
  induction l with
  | nil => rfl
  | cons c l ih =>
    rw [units_cons, byteLength_charUnits, ih, ← List.singleton_append, String.ofList_append,
      String.utf8ByteSize_append, ← String.singleton_eq_ofList, String.utf8ByteSize_singleton]

end Utf16

/-! ## Decimal lengths -/

namespace LengthCode

/-- Characters, measured by their UTF-8 form. -/
def text (equals bar : Char) : LengthCode Char where
  size l := (String.ofList l).utf8ByteSize
  num n := n.repr.toList
  colon := ':'
  equals := equals
  bar := bar
  size_lt l a := by
    rw [String.ofList_append, String.utf8ByteSize_append, ← String.singleton_eq_ofList,
      String.utf8ByteSize_singleton]
    have := a.utf8Size_pos
    omega
  num_injective _ _ h := Text.repr_injective (String.toList_inj.1 h)
  colon_notMem := Text.notMem_repr (by decide)

/-- UTF-16 code units, measured by their UTF-8 form. -/
def utf16 (equals bar : UInt16) : LengthCode UInt16 where
  size := Utf16.byteLength
  num n := Utf16.units n.repr.toList
  colon := 58
  equals := equals
  bar := bar
  size_lt := Utf16.byteLength_lt
  num_injective _ _ h := Text.repr_injective (String.toList_inj.1 (Utf16.units_injective h))
  colon_notMem n h := by
    obtain ⟨c, hc, hu⟩ := List.mem_flatMap.1 h
    have hd := Text.isDigit_of_mem_repr hc
    simp only [Char.isDigit, Bool.and_eq_true, decide_eq_true_eq, UInt32.le_iff_toNat_le] at hd
    have h2 : c.toNat ≤ 57 := hd.2
    rw [Utf16.charUnits_of_lt (by omega), List.mem_singleton] at hu
    have := Utf16.ofNat_inj (m := 58) (by omega) (by omega) hu
    omega

end LengthCode
