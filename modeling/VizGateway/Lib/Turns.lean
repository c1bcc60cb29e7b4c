import Mathlib

/-!
# Serving in turn

A queue is served from the front. Some of its members have to wait for others, and whom they wait for
changes while it is served. The queue is in turn where nobody comes before one it waits for. The first
rows of a list sorted by when they were last served are in turn, for a waiting that a smaller time
decides.
-/

namespace Turns

variable {κ : Type} {W W' : κ → κ → Prop} {queue : List κ} {a b : κ}

/-- Whoever `b` waits for stands before it: `W a b` says that `a` comes first. -/
def InTurn (W : κ → κ → Prop) (queue : List κ) : Prop :=
  ∀ pre b post, queue = pre ++ b :: post → ∀ a, W a b → a ∈ pre

/-- The next one waits for nobody. -/
theorem InTurn.head (h : InTurn W (b :: queue)) : ¬ W a b := fun hab => by
  have hnil : a ∈ [] := h [] b queue rfl a hab
  cases hnil

theorem InTurn.mono (h : InTurn W queue) (hW : ∀ a, ∀ b ∈ queue, W' a b → W a b) :
    InTurn W' queue := by
  rintro pre b post rfl a hab
  exact h pre b post rfl a (hW a b (by simp) hab)

/-- The front served, nobody waits for it. -/
theorem InTurn.tail (h : InTurn W (b :: queue)) (hW : ∀ a, ∀ c ∈ queue, W' a c → W a c ∧ a ≠ b) :
    InTurn W' queue := by
  rintro pre c post rfl a hac
  obtain ⟨hac, hne⟩ := hW a c (by simp) hac
  have hmem : a ∈ b :: pre := h (b :: pre) c post rfl a hac
  rcases List.mem_cons.1 hmem with hab | hpre
  · exact absurd hab hne
  · exact hpre

variable {α τ : Type} [LinearOrder τ] {name : α → κ} {time : α → τ} {rows : List α}

/-- The first rows by time are in turn. -/
theorem inTurn_take (hsorted : rows.Pairwise fun a b => time a ≤ time b)
    (hnodup : (rows.map name).Nodup)
    (hW : ∀ a b, W a b → ∃ r ∈ rows, ∃ r' ∈ rows, name r = a ∧ name r' = b ∧ time r < time r')
    (n : ℕ) : InTurn W ((rows.take n).map name) := by
  intro pre b post hsplit a hab
  obtain ⟨first, later, htake, rfl, hlater⟩ := List.map_eq_append_iff.1 hsplit
  obtain ⟨row, rest, rfl, rfl, -⟩ := List.map_eq_cons_iff.1 hlater
  have hrows : rows = first ++ row :: (rest ++ rows.drop n) := by
    rw [← List.cons_append, ← List.append_assoc, ← htake, List.take_append_drop]
  obtain ⟨r, hr, r', hr', rfl, hname, hlt⟩ := hW a _ hab
  have hrow : row ∈ rows := by
    rw [hrows]
    simp
  obtain rfl : r' = row := List.inj_on_of_nodup_map hnodup hr' hrow hname
  rw [hrows] at hr hsorted
  rcases List.mem_append.1 hr with hr | hr
  · exact List.mem_map_of_mem hr
  · -- a row at or behind the one of `b` was served no earlier
    exfalso
    rcases List.mem_cons.1 hr with rfl | hr
    · exact lt_irrefl _ hlt
    · have hle := (List.pairwise_cons.1 (List.pairwise_append.1 hsorted).2.1).1 r hr
      exact absurd hlt hle.not_gt

end Turns
