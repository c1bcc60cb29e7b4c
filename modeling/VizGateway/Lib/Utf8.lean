import Mathlib

/-!
# UTF-8 with replacement

A byte decoder that never fails: each maximal part of a character that is not completed, and each
byte that starts none, becomes one replacement character. Decoded in pieces a text comes out as
decoded whole exactly if no cut falls inside a character that the next piece continues
(`flatMap_decode_iff`).
-/

namespace Utf8

def replacement : Char := Char.ofNat 0xFFFD

/-- A character whose first bytes were read: what the next byte may be, and how many follow it. -/
structure Pending where
  following : ℕ
  lower : ℕ
  upper : ℕ
  acc : ℕ
  tail : 0x80 ≤ lower ∧ upper ≤ 0xBF

/-- The byte goes on with the character. -/
def Pending.Takes (q : Pending) (b : UInt8) : Prop := q.lower ≤ b.toNat ∧ b.toNat ≤ q.upper

instance (q : Pending) (b : UInt8) : Decidable (q.Takes b) := by
  unfold Pending.Takes
  infer_instance

/-- A byte between characters. -/
def lead (b : UInt8) : List Char × Option Pending :=
  let n := b.toNat
  if n < 0x80 then ([Char.ofNat n], none)
  else if 0xC2 ≤ n ∧ n ≤ 0xDF then ([], some ⟨0, 0x80, 0xBF, n - 0xC0, by decide⟩)
  else if 0xE0 ≤ n ∧ n ≤ 0xEF then
    ([], some ⟨1, if n = 0xE0 then 0xA0 else 0x80, if n = 0xED then 0x9F else 0xBF, n - 0xE0,
      by constructor <;> split_ifs <;> decide⟩)
  else if 0xF0 ≤ n ∧ n ≤ 0xF4 then
    ([], some ⟨2, if n = 0xF0 then 0x90 else 0x80, if n = 0xF4 then 0x8F else 0xBF, n - 0xF0,
      by constructor <;> split_ifs <;> decide⟩)
  else ([replacement], none)

/-- A byte after the first ones of a character, if there were any. -/
def next : Option Pending → UInt8 → List Char × Option Pending
  | none, b => lead b
  | some q, b =>
    if q.Takes b then
      let acc := q.acc * 64 + (b.toNat - 0x80)
      match q.following with
      | 0 => ([Char.ofNat acc], none)
      | n + 1 => ([], some ⟨n, 0x80, 0xBF, acc, by decide⟩)
    else (replacement :: (lead b).1, (lead b).2)

/-- What the end of the text leaves of a character. -/
def flush : Option Pending → List Char
  | none => []
  | some _ => [replacement]

def decodeFrom : Option Pending → List UInt8 → List Char
  | p, [] => flush p
  | p, b :: bs => (next p b).1 ++ decodeFrom (next p b).2 bs

def decode (bs : List UInt8) : List Char := decodeFrom none bs

def after (p : Option Pending) (bs : List UInt8) : Option Pending :=
  bs.foldl (fun p b => (next p b).2) p

/-- The text goes on with a character begun. -/
def Continues (p : Option Pending) (bs : List UInt8) : Prop :=
  ∃ q b rest, p = some q ∧ bs = b :: rest ∧ q.Takes b

/-- A character begun in one text and continued by the next. -/
def Straddles (xs ys : List UInt8) : Prop := Continues (after none xs) ys

variable {p : Option Pending} {q : Pending} {b : UInt8} {xs ys bs : List UInt8}

theorem not_continues_none : ¬ Continues none bs := by
  rintro ⟨q, b, rest, ⟨⟩, -⟩

theorem continues_cons : Continues (some q) (b :: bs) ↔ q.Takes b := by
  constructor
  · rintro ⟨q', b', rest, hq, hb, htakes⟩
    cases hq
    cases hb
    exact htakes
  · exact fun h => ⟨q, b, bs, rfl, rfl, h⟩

/-- A tail byte starts no character. -/
theorem lead_tail (h : 0x80 ≤ b.toNat ∧ b.toNat ≤ 0xBF) : lead b = ([replacement], none) := by
  unfold lead
  simp only
  rw [if_neg (by omega), if_neg (by omega), if_neg (by omega), if_neg (by omega)]

theorem next_of_not_takes (h : ¬ q.Takes b) :
    next (some q) b = (replacement :: (lead b).1, (lead b).2) := by
  simp [next, h]

theorem decodeFrom_append (p : Option Pending) (xs : List UInt8) :
    ∃ out, ∀ ys, decodeFrom p (xs ++ ys) = out ++ decodeFrom (after p xs) ys := by
  induction xs generalizing p with
  | nil => exact ⟨[], fun ys => rfl⟩
  | cons b xs ih =>
    obtain ⟨out, hout⟩ := ih (next p b).2
    refine ⟨(next p b).1 ++ out, fun ys => ?_⟩
    rw [List.cons_append, decodeFrom, hout, List.append_assoc]
    rfl

theorem decodeFrom_of_not_continues (h : ¬ Continues p bs) :
    decodeFrom p bs = flush p ++ decode bs := by
  rcases p with _ | q
  · rfl
  · cases bs with
    | nil => rfl
    | cons b bs =>
      rw [continues_cons] at h
      rw [decodeFrom, next_of_not_takes h]
      rfl

/-- A character begun is one at most, and saves the replacement of each byte that goes on
with it. -/
theorem length_decodeFrom (p : Option Pending) (bs : List UInt8) :
    (decodeFrom p bs).length ≤ (flush p).length + (decode bs).length ∧
      (Continues p bs → (decodeFrom p bs).length < (flush p).length + (decode bs).length) := by
  induction bs generalizing p with
  | nil => exact ⟨by simp [decodeFrom, decode], by rintro ⟨q, b, rest, -, ⟨⟩, -⟩⟩
  | cons b bs ih =>
    by_cases h : Continues p (b :: bs)
    · suffices hlt : (decodeFrom p (b :: bs)).length
          < (flush p).length + (decode (b :: bs)).length from ⟨hlt.le, fun _ => hlt⟩
      obtain ⟨q, b', rest, rfl, hb, htakes⟩ := h
      cases hb
      have htail : 0x80 ≤ b.toNat ∧ b.toNat ≤ 0xBF :=
        ⟨q.tail.1.trans htakes.1, htakes.2.trans q.tail.2⟩
      have hself : (decode (b :: bs)).length = 1 + (decode bs).length := by
        rw [decode, decodeFrom, next, lead_tail htail, List.length_append]
        rfl
      rw [hself, decodeFrom, next, if_pos htakes]
      simp only [flush, List.length_singleton]
      split
      · simp only [List.length_append, List.length_singleton]
        exact Nat.lt_add_of_pos_left Nat.one_pos
      · next n hn =>
        have hrest := (ih (some ⟨n, 0x80, 0xBF, q.acc * 64 + (b.toNat - 0x80), by decide⟩)).1
        simp only [flush, List.length_singleton] at hrest
        simp only [List.nil_append]
        exact Nat.lt_of_le_of_lt hrest (by omega)
    · rw [decodeFrom_of_not_continues h, List.length_append]
      exact ⟨le_rfl, fun hc => absurd hc h⟩

theorem decode_append (h : ¬ Straddles xs ys) : decode (xs ++ ys) = decode xs ++ decode ys := by
  obtain ⟨out, hout⟩ := decodeFrom_append none xs
  have hxs : decode xs = out ++ flush (after none xs) := by
    rw [decode, ← List.append_nil xs, hout, List.append_nil]
    rfl
  rw [decode, hout, decodeFrom_of_not_continues h, hxs, List.append_assoc]

theorem length_decode_append (xs ys : List UInt8) :
    (decode (xs ++ ys)).length ≤ (decode xs).length + (decode ys).length ∧
      (Straddles xs ys → (decode (xs ++ ys)).length < (decode xs).length + (decode ys).length) := by
  obtain ⟨out, hout⟩ := decodeFrom_append none xs
  have hxs : decode xs = out ++ flush (after none xs) := by
    rw [decode, ← List.append_nil xs, hout, List.append_nil]
    rfl
  obtain ⟨hle, hlt⟩ := length_decodeFrom (after none xs) ys
  rw [decode, hout, hxs, List.length_append, List.length_append]
  exact ⟨by omega, fun h => by have := hlt h; omega⟩

theorem length_decode_flatten (chunks : List (List UInt8)) :
    (decode chunks.flatten).length ≤ (chunks.flatMap decode).length := by
  induction chunks with
  | nil => exact le_rfl
  | cons c chunks ih =>
    have := (length_decode_append c chunks.flatten).1
    rw [List.flatten_cons, List.flatMap_cons, List.length_append]
    omega

/-- Past a cut between characters, the decoder is where it would be had it started there. -/
theorem straddles_append (h : ¬ Straddles xs (ys ++ bs)) :
    Straddles (xs ++ ys) bs ↔ Straddles ys bs := by
  unfold Straddles at *
  cases ys with
  | nil =>
    rw [List.append_nil]
    exact iff_of_false h not_continues_none
  | cons b ys =>
    have hsame : after none (xs ++ b :: ys) = after none (b :: ys) := by
      have hfold : after none (xs ++ b :: ys) = after (next (after none xs) b).2 ys := by
        simp [after]
      rcases hp : after none xs with _ | q
      · rw [hfold, hp]
        rfl
      · rw [hp, List.cons_append, continues_cons] at h
        rw [hfold, hp, next_of_not_takes h]
        rfl
    rw [hsame]

/-- No cut between two pieces falls inside a character. -/
def WholeCharacters (chunks : List (List UInt8)) : Prop :=
  ∀ pre post, chunks = pre ++ post → ¬ Straddles pre.flatten post.flatten

theorem flatMap_decode_iff (chunks : List (List UInt8)) :
    chunks.flatMap decode = decode chunks.flatten ↔ WholeCharacters chunks := by
  induction chunks with
  | nil =>
    refine iff_of_true rfl fun pre post h => ?_
    rw [List.nil_eq, List.append_eq_nil_iff] at h
    rw [h.1]
    exact not_continues_none
  | cons c chunks ih =>
    rw [List.flatMap_cons, List.flatten_cons]
    by_cases hc : Straddles c chunks.flatten
    · refine iff_of_false (fun h => ?_) fun h => h [c] chunks rfl (by simpa using hc)
      have hlen := congrArg List.length h
      rw [List.length_append] at hlen
      have := (length_decode_append c chunks.flatten).2 hc
      have := length_decode_flatten chunks
      omega
    · rw [decode_append hc, List.append_right_inj, ih]
      constructor
      · intro h pre post hsplit
        cases pre with
        | nil => exact not_continues_none
        | cons c' pre =>
          rw [List.cons_append, List.cons.injEq] at hsplit
          obtain ⟨rfl, rfl⟩ := hsplit
          rw [List.flatten_append] at hc
          rw [List.flatten_cons, straddles_append hc]
          exact h pre post rfl
      · intro h pre post hsplit
        subst hsplit
        rw [List.flatten_append] at hc
        rw [← straddles_append hc, ← List.flatten_cons]
        exact h (c :: pre) post rfl

/-! ## Well-formed text -/

theorem decodeFrom_last {acc lower upper : ℕ} (h : 0x80 ≤ lower ∧ upper ≤ 0xBF)
    (htakes : lower ≤ b.toNat ∧ b.toNat ≤ upper) :
    decodeFrom (some ⟨0, lower, upper, acc, h⟩) (b :: bs) =
      Char.ofNat (acc * 64 + (b.toNat - 0x80)) :: decode bs := by
  have hq : Pending.Takes ⟨0, lower, upper, acc, h⟩ b := htakes
  rw [decodeFrom, next, if_pos hq]
  rfl

theorem decodeFrom_more {acc n lower upper : ℕ} (h : 0x80 ≤ lower ∧ upper ≤ 0xBF)
    (htakes : lower ≤ b.toNat ∧ b.toNat ≤ upper) :
    decodeFrom (some ⟨n + 1, lower, upper, acc, h⟩) (b :: bs) =
      decodeFrom (some ⟨n, 0x80, 0xBF, acc * 64 + (b.toNat - 0x80), by decide⟩) bs := by
  have hq : Pending.Takes ⟨n + 1, lower, upper, acc, h⟩ b := htakes
  rw [decodeFrom, next, if_pos hq]
  rfl

/-- A character's own bytes give it back. -/
theorem decode_utf8EncodeChar_append (c : Char) (bs : List UInt8) :
    decode (String.utf8EncodeChar c ++ bs) = c :: decode bs := by
  have hvalid : c.val.toNat < 0xD800 ∨ 0xDFFF < c.val.toNat ∧ c.val.toNat < 0x110000 := c.valid
  have hself : Char.ofNat c.val.toNat = c := Char.ofNat_toNat c
  have hbyte : ∀ n < 256, (UInt8.ofNat n).toNat = n := fun n hn => by
    rw [UInt8.toNat_ofNat', Nat.mod_eq_of_lt hn]
  unfold String.utf8EncodeChar
  simp only
  generalize c.val.toNat = v at *
  split_ifs with h1 h2 h3
  · rw [List.singleton_append, decode, decodeFrom, next, lead]
    simp only [hbyte v (by omega)]
    rw [if_pos (by omega), hself]
    rfl
  · rw [List.cons_append, List.singleton_append, decode, decodeFrom, next, lead]
    simp only [hbyte (v / 64 % 0x20 + 0xc0) (by omega)]
    rw [if_neg (by omega), if_pos (by omega)]
    simp only [List.nil_append]
    rw [decodeFrom_last _ (by rw [hbyte _ (by omega)]; omega), hbyte _ (by omega), ← hself]
    rw [show (v / 64 % 0x20 + 0xc0 - 0xC0) * 64 + (v % 0x40 + 0x80 - 0x80) = v by omega]
  · rw [List.cons_append, List.cons_append, List.singleton_append, decode, decodeFrom, next, lead]
    simp only [hbyte (v / 4096 % 0x10 + 0xe0) (by omega)]
    rw [if_neg (by omega), if_neg (by omega), if_pos (by omega)]
    simp only [List.nil_append]
    rw [decodeFrom_more _ (by rw [hbyte _ (by omega)]; split_ifs <;> omega), hbyte _ (by omega),
      decodeFrom_last _ (by rw [hbyte _ (by omega)]; omega), hbyte _ (by omega), ← hself]
    rw [show ((v / 4096 % 0x10 + 0xe0 - 0xE0) * 64 + (v / 64 % 0x40 + 0x80 - 0x80)) * 64 +
        (v % 0x40 + 0x80 - 0x80) = v by omega]
  · rw [List.cons_append, List.cons_append, List.cons_append, List.singleton_append, decode,
      decodeFrom, next, lead]
    simp only [hbyte (v / 262144 % 0x08 + 0xf0) (by omega)]
    rw [if_neg (by omega), if_neg (by omega), if_neg (by omega), if_pos (by omega)]
    simp only [List.nil_append]
    rw [decodeFrom_more _ (by rw [hbyte _ (by omega)]; split_ifs <;> omega), hbyte _ (by omega),
      decodeFrom_more _ (by rw [hbyte _ (by omega)]; omega), hbyte _ (by omega),
      decodeFrom_last _ (by rw [hbyte _ (by omega)]; omega), hbyte _ (by omega), ← hself]
    rw [show (((v / 262144 % 0x08 + 0xf0 - 0xF0) * 64 + (v / 4096 % 0x40 + 0x80 - 0x80)) * 64 +
        (v / 64 % 0x40 + 0x80 - 0x80)) * 64 + (v % 0x40 + 0x80 - 0x80) = v by omega]

/-- Well-formed text is decoded to the characters it encodes. -/
theorem decode_flatMap_utf8EncodeChar (l : List Char) :
    decode (l.flatMap String.utf8EncodeChar) = l := by
  induction l with
  | nil => rfl
  | cons c l ih => rw [List.flatMap_cons, decode_utf8EncodeChar_append, ih]

def encode (l : List Char) : List UInt8 := l.flatMap String.utf8EncodeChar

/-- The bytes encode some characters. -/
def isValid (bs : List UInt8) : Bool := encode (decode bs) = bs

theorem isValid_iff : isValid bs = true ↔ ∃ l, bs = encode l := by
  unfold isValid
  rw [decide_eq_true_eq]
  constructor
  · exact fun h => ⟨_, h.symm⟩
  · rintro ⟨l, rfl⟩
    rw [show decode (encode l) = l from decode_flatMap_utf8EncodeChar l]

end Utf8
