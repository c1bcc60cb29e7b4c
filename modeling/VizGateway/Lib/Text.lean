import Mathlib

/-!
# Strings as scripts read them

Slicing, searching and decimal numerals on `String`, by way of `String.toList`, so that closed
terms evaluate. Positions count characters; every position used below lies before or after an
ASCII separator, where counting characters and counting UTF-16 units agree.
-/

namespace Text

/-- `s.toLowerCase()` on ASCII and the Kelvin sign; no other character becomes a single one of
ASCII. -/
def toLowerCase (s : String) : String :=
  String.ofList (s.toList.map fun c => if c.val = 0x212a then 'k' else c.toLower)

/-- `s.slice(0, n)`. -/
def takeStr (s : String) (n : ℕ) : String := String.ofList (s.toList.take n)

/-- `s.slice(n)`. -/
def dropStr (s : String) (n : ℕ) : String := String.ofList (s.toList.drop n)

/-- `s.slice(0, -n)`. -/
def dropEnd (s : String) (n : ℕ) : String := takeStr s (s.toList.length - n)

/-- `s.endsWith(t)`. -/
def endsWith (s t : String) : Bool := t.toList.isSuffixOf s.toList

/-- `s.startsWith(t)`. -/
def startsWith (s t : String) : Bool := t.toList.isPrefixOf s.toList

/-- `s.indexOf(c)`, `none` for `-1`. -/
def indexOf (s : String) (c : Char) : Option ℕ := s.toList.findIdx? (· == c)

/-- `s.includes(c)`. -/
def hasChar (s : String) (c : Char) : Bool := s.toList.contains c

/-- `/^\d+$/.test(s)`. -/
def isDigits (s : String) : Bool := !s.toList.isEmpty && s.toList.all Char.isDigit

/-- `Number.parseInt(s, 10)` of a string of digits. -/
def parseNat (s : String) : ℕ := Nat.ofDigitChars 10 s.toList 0

/-- The characters `trim` removes. -/
def isSpace (c : Char) : Bool :=
  c.val ∈ [0x9, 0xa, 0xb, 0xc, 0xd, 0x20, 0xa0, 0x1680, 0x2028, 0x2029, 0x202f, 0x205f, 0x3000,
    0xfeff] || (0x2000 ≤ c.val && c.val ≤ 0x200a)

/-- `s.trim()`. -/
def trim (s : String) : String :=
  String.ofList ((s.toList.dropWhile isSpace).reverse.dropWhile isSpace).reverse

/-- A string that is neither null nor empty. -/
def truthy : Option String → Option String
  | some "" => none
  | s => s

theorem truthy_eq_some {s : Option String} {v : String} :
    truthy s = some v ↔ s = some v ∧ v ≠ "" := by
  unfold truthy
  split
  · simp only [reduceCtorEq, Option.some.injEq, ne_eq, false_iff, not_and, not_not]
    exact fun h => h.symm
  · next h =>
    refine ⟨fun hs => ⟨hs, ?_⟩, And.left⟩
    rintro rfl
    exact h hs

/-! ## Suffixes -/

theorem endsWith_iff {s t : String} : endsWith s t = true ↔ ∃ r, s = r ++ t := by
  unfold endsWith
  rw [List.isSuffixOf_iff_suffix]
  constructor
  · rintro ⟨r, hr⟩
    exact ⟨String.ofList r, String.toList_inj.1 (by simp [hr])⟩
  · rintro ⟨r, rfl⟩
    exact ⟨r.toList, by simp⟩

@[simp] theorem endsWith_append (r t : String) : endsWith (r ++ t) t = true :=
  endsWith_iff.2 ⟨r, rfl⟩

/-- Removing a suffix's length from the end leaves what stands before it. -/
theorem dropEnd_append (r t : String) (n : ℕ) (hn : t.toList.length = n) :
    dropEnd (r ++ t) n = r := by
  unfold dropEnd takeStr
  rw [String.toList_append, List.length_append, hn, Nat.add_sub_cancel, List.take_left,
    String.ofList_toList]

/-- A string with a given suffix is its front with that suffix put back. -/
theorem dropEnd_append_of_endsWith {s t : String} (h : endsWith s t = true) :
    dropEnd s t.toList.length ++ t = s := by
  obtain ⟨r, rfl⟩ := endsWith_iff.1 h
  rw [dropEnd_append r t _ rfl]

theorem append_right_cancel {a b t : String} (h : a ++ t = b ++ t) : a = b := by
  have h' := congrArg String.toList h
  rw [String.toList_append, String.toList_append] at h'
  exact String.toList_inj.1 (List.append_cancel_right h')

theorem append_left_cancel {s t u : String} (h : s ++ t = s ++ u) : t = u := by
  have h' := congrArg String.toList h
  rw [String.toList_append, String.toList_append, List.append_cancel_left_eq] at h'
  exact String.toList_inj.1 h'

theorem startsWith_iff {s t : String} : startsWith s t = true ↔ ∃ r, s = t ++ r := by
  unfold startsWith
  rw [List.isPrefixOf_iff_prefix]
  constructor
  · rintro ⟨r, hr⟩
    exact ⟨String.ofList r, String.toList_inj.1 (by simp [hr])⟩
  · rintro ⟨r, rfl⟩
    exact ⟨r.toList, by simp⟩

@[simp] theorem startsWith_append (s t : String) : startsWith (s ++ t) s = true :=
  startsWith_iff.2 ⟨t, rfl⟩

/-- Prefixes that differ in their first characters begin no common string. -/
theorem append_ne_append {s t : String} {c d : Char} (hs : s.toList.head? = some c)
    (ht : t.toList.head? = some d) (hcd : c ≠ d) (u v : String) : s ++ u ≠ t ++ v := by
  intro h
  have h' := congrArg (fun x => x.toList.head?) h
  simp only [String.toList_append, List.head?_append, hs, ht, Option.some_or,
    Option.some.injEq] at h'
  exact hcd h'

/-- A string whose last character is not the suffix's last character does not end with it. -/
theorem endsWith_eq_false_of_getLast {s t : String} {c d : Char}
    (hs : s.toList.getLast? = some c) (ht : t.toList.getLast? = some d) (hcd : c ≠ d) :
    endsWith s t = false := by
  rw [Bool.eq_false_iff]
  intro h
  obtain ⟨r, rfl⟩ := endsWith_iff.1 h
  rw [String.toList_append, List.getLast?_append, ht] at hs
  simp only [Option.some_or, Option.some.injEq] at hs
  exact hcd hs.symm

/-! ## Searching for a separator -/

/-- The first separator of `a ++ c ++ b` stands right after `a` when `a` has none. -/
theorem indexOf_append {a b : String} {c : Char} (ha : c ∉ a.toList) :
    indexOf (a ++ c.toString ++ b) c = some a.toList.length := by
  unfold indexOf
  rw [String.toList_append, String.toList_append, Char.toString_eq_singleton,
    String.toList_singleton, List.append_assoc, List.findIdx?_append]
  have hnone : a.toList.findIdx? (· == c) = none := by
    rw [List.findIdx?_eq_none_iff]
    intro x hx
    simp only [beq_eq_false_iff_ne, ne_eq]
    rintro rfl
    exact ha hx
  simp [hnone, List.findIdx?_cons]

theorem takeStr_append (a b : String) : takeStr (a ++ b) a.toList.length = a := by
  unfold takeStr
  rw [String.toList_append, List.take_left, String.ofList_toList]

theorem dropStr_append (a b : String) : dropStr (a ++ b) a.toList.length = b := by
  unfold dropStr
  rw [String.toList_append, List.drop_left, String.ofList_toList]

/-- Whatever the position, a slice before it and the slice from it make the string. -/
theorem takeStr_append_dropStr (s : String) (n : ℕ) : takeStr s n ++ dropStr s n = s := by
  rw [← String.toList_inj]
  simp [takeStr, dropStr]

/-- What stands before the first separator has no separator. -/
theorem notMem_takeStr_of_indexOf {s : String} {c : Char} {n : ℕ} (h : indexOf s c = some n) :
    c ∉ (takeStr s n).toList := by
  unfold indexOf at h
  obtain ⟨hn, -, hlt⟩ := List.findIdx?_eq_some_iff_getElem.1 h
  unfold takeStr
  rw [String.toList_ofList]
  intro hc
  obtain ⟨i, hi, hget⟩ := List.mem_iff_getElem.1 hc
  rw [List.length_take] at hi
  rw [List.getElem_take] at hget
  have := hlt i (by omega)
  simp [hget] at this

/-! ## Trimming -/

theorem not_isSpace_of_isDigit {c : Char} (h : c.isDigit = true) : isSpace c = false := by
  simp only [Char.isDigit, Bool.and_eq_true, decide_eq_true_eq, UInt32.le_iff_toNat_le] at h
  have h1 : 48 ≤ c.val.toNat := h.1
  have h2 : c.val.toNat ≤ 57 := h.2
  have hne : ∀ k : UInt32, k.toNat < 48 ∨ 57 < k.toNat → c.val ≠ k := by
    rintro k hk rfl
    omega
  unfold isSpace
  rw [Bool.or_eq_false_iff]
  constructor
  · rw [decide_eq_false_iff_not]
    simp only [List.mem_cons, List.not_mem_nil, or_false, not_or]
    refine ⟨?_, ?_, ?_, ?_, ?_, ?_, ?_, ?_, ?_, ?_, ?_, ?_, ?_, ?_⟩ <;> exact hne _ (by decide)
  · simp only [Bool.and_eq_false_iff, decide_eq_false_iff_not, UInt32.le_iff_toNat_le]
    left
    have : (0x2000 : UInt32).toNat = 8192 := rfl
    omega

theorem dropWhile_of_forall {l : List Char} (hd : ∀ c ∈ l, isSpace c = false) :
    l.dropWhile isSpace = l := by
  cases l with
  | nil => rfl
  | cons c l => rw [List.dropWhile_cons_of_neg (by simp [hd c List.mem_cons_self])]

theorem trim_of_forall {s : String} (hd : ∀ c ∈ s.toList, isSpace c = false) : trim s = s := by
  unfold trim
  rw [dropWhile_of_forall hd, dropWhile_of_forall fun c hc => hd c (List.mem_reverse.1 hc),
    List.reverse_reverse, String.ofList_toList]

/-! ## Numerals -/

@[simp] theorem isDigits_repr (n : ℕ) : isDigits n.repr = true := by
  unfold isDigits
  rw [Nat.toList_repr, Bool.and_eq_true]
  refine ⟨?_, List.all_eq_true.2 fun c hc => ?_⟩
  · simp [Nat.toDigits_ne_nil]
  · exact Nat.isDigit_of_mem_toDigits (by omega) (by omega) hc

@[simp] theorem parseNat_repr (n : ℕ) : parseNat n.repr = n := by
  unfold parseNat
  rw [Nat.toList_repr, Nat.ofDigitChars_ten_toDigits]

/-- Distinct numbers have distinct numerals. -/
theorem repr_injective : Function.Injective Nat.repr :=
  Function.LeftInverse.injective parseNat_repr

theorem isDigit_of_mem_repr {n : ℕ} {c : Char} (hc : c ∈ n.repr.toList) : c.isDigit = true := by
  rw [Nat.toList_repr] at hc
  exact Nat.isDigit_of_mem_toDigits (by omega) (by omega) hc

theorem notMem_repr {c : Char} (hc : c.isDigit = false) (n : ℕ) : c ∉ n.repr.toList := by
  intro h
  rw [isDigit_of_mem_repr h] at hc
  exact absurd hc (by decide)

/-- The last character of a numeral is a digit. -/
theorem getLast_repr (n : ℕ) : ∃ c, n.repr.toList.getLast? = some c ∧ c.isDigit = true := by
  have hne : n.repr.toList ≠ [] := by
    rw [Nat.toList_repr]
    exact Nat.toDigits_ne_nil
  exact ⟨_, List.getLast?_eq_some_getLast hne, isDigit_of_mem_repr (List.getLast_mem hne)⟩

end Text
