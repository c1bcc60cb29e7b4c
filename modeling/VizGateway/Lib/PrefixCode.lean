import Mathlib

/-!
# Prefix codes in a monoid

A partial encoding is a prefix code if what it encodes and what follows are both read off the front
of a longer text. Fields written one after another are then compared one after another (`Same`), and
a record of prefix codes is a prefix code itself.
-/

variable {M α β : Type*} [Monoid M]

/-- An encoding that can be cut off the front of any text. -/
def PrefixCode (f : α → Option M) : Prop :=
  ∀ ⦃a b : α⦄ ⦃u v x y : M⦄, f a = some u → f b = some v → u * x = v * y → a = b ∧ x = y

namespace PrefixCode

/-- The fields of a record one after another, if each can be written. -/
def concat : List (Option M) → Option M
  | [] => some 1
  | p :: ps => p.bind fun u => (concat ps).map (u * ·)

/-- Two records, each with something behind it, have the same text. -/
def Same (ps : List (Option M)) (x : M) (qs : List (Option M)) (y : M) : Prop :=
  ∃ u v, concat ps = some u ∧ concat qs = some v ∧ u * x = v * y

theorem concat_cons_eq_some {p : Option M} {ps : List (Option M)} {m : M} :
    concat (p :: ps) = some m ↔ ∃ u v, p = some u ∧ concat ps = some v ∧ u * v = m := by
  simp only [concat, Option.bind_eq_some_iff, Option.map_eq_some_iff]
  grind

theorem inj {f : α → Option M} (hf : PrefixCode f) {a b : α} {u : M} (ha : f a = some u)
    (hb : f b = some u) : a = b :=
  (hf ha hb (rfl : u * 1 = u * 1)).1

namespace Same

variable {ps qs : List (Option M)} {x y : M}

theorem of_eq {u : M} (hp : concat ps = some u) (hq : concat qs = some u) : Same ps 1 qs 1 :=
  ⟨u, u, hp, hq, rfl⟩

theorem nil (h : Same [] x [] y) : x = y := by
  obtain ⟨u, v, hu, hv, h⟩ := h
  obtain rfl := Option.some.inj hu
  obtain rfl := Option.some.inj hv
  rwa [one_mul, one_mul] at h

theorem single {p q : Option M} (h : Same [p] 1 [q] 1) : ∃ u, p = some u ∧ q = some u := by
  obtain ⟨u, v, hu, hv, h⟩ := h
  obtain ⟨u, u', hp, hu', rfl⟩ := concat_cons_eq_some.1 hu
  obtain ⟨v, v', hq, hv', rfl⟩ := concat_cons_eq_some.1 hv
  obtain rfl := Option.some.inj hu'
  obtain rfl := Option.some.inj hv'
  simp only [mul_one] at h
  exact ⟨u, hp, h ▸ hq⟩

/-- Fields in front are alike, and so are the rests. -/
theorem cons {f : α → Option M} (hf : PrefixCode f) {a b : α}
    (h : Same (f a :: ps) x (f b :: qs) y) : a = b ∧ Same ps x qs y := by
  obtain ⟨u, v, hu, hv, h⟩ := h
  obtain ⟨u, u', ha, hps, rfl⟩ := concat_cons_eq_some.1 hu
  obtain ⟨v, v', hb, hqs, rfl⟩ := concat_cons_eq_some.1 hv
  rw [mul_assoc, mul_assoc] at h
  obtain ⟨hab, hrest⟩ := hf ha hb h
  exact ⟨hab, u', v', hps, hqs, hrest⟩

theorem const [IsLeftCancelMul M] {p : Option M} (h : Same (p :: ps) x (p :: qs) y) :
    Same ps x qs y := by
  obtain ⟨u, v, hu, hv, h⟩ := h
  obtain ⟨u, u', hp, hps, rfl⟩ := concat_cons_eq_some.1 hu
  obtain ⟨v, v', hp', hqs, rfl⟩ := concat_cons_eq_some.1 hv
  obtain rfl := Option.some.inj (hp.symm.trans hp')
  rw [mul_assoc, mul_assoc] at h
  exact ⟨u', v', hps, hqs, mul_left_cancel h⟩

end Same

/-- A record whose fields determine it is written by a prefix code. -/
theorem of_same {parts : α → List (Option M)}
    (h : ∀ a b x y, Same (parts a) x (parts b) y → a = b ∧ x = y) :
    PrefixCode fun a => concat (parts a) :=
  fun a b u v x y ha hb hxy => h a b x y ⟨u, v, ha, hb, hxy⟩

end PrefixCode
