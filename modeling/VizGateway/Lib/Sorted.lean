import Mathlib

/-!
# Rows in order, up to ties

Two sorted arrangements of the same rows differ only among rows with the same key. So the first
rows of one and of the other have the same keys, and differ only among those tied with the last.
-/

namespace Sorted

theorem foldl_max_le_iff {κ : Type} [LinearOrder κ] {l : List κ} {a b : κ} :
    l.foldl max a ≤ b ↔ a ≤ b ∧ ∀ x ∈ l, x ≤ b := by
  induction l generalizing a with
  | nil => simp
  | cons x l ih =>
    rw [List.foldl_cons, ih, List.forall_mem_cons, max_le_iff, and_assoc]

variable {α κ : Type} [LinearOrder κ] {key : α → κ} {l l' : List α} {n : ℕ}

theorem map_key_eq (hp : l.Perm l') (hl : l.Pairwise fun a b => key a ≤ key b)
    (hl' : l'.Pairwise fun a b => key a ≤ key b) : l.map key = l'.map key :=
  (hp.map key).eq_of_pairwise (fun _ _ _ _ => le_antisymm) (List.pairwise_map.2 hl)
    (List.pairwise_map.2 hl')

/-- Selections of at most `n` rows that agree but for rows tied with the last one. -/
structure SameTop (key : α → κ) (n : ℕ) (l l' : List α) : Prop where
  keys : l.map key = l'.map key
  rows : ∀ a ∈ l, a ∈ l' ∨ (l.map key).getLast? = some (key a)
  whole : l.length < n → l.Perm l'

/-- In a sorted list no row comes after the last. -/
theorem le_last (hl : l.Pairwise fun a b => key a ≤ key b) {a : α} (ha : a ∈ l) :
    ∃ b ∈ l, (l.map key).getLast? = some (key b) ∧ key a ≤ key b := by
  rcases List.eq_nil_or_concat l with rfl | ⟨init, b, rfl⟩
  · cases ha
  · refine ⟨b, by simp, by simp, ?_⟩
    rw [List.concat_eq_append] at hl ha
    rcases List.mem_append.1 ha with ha | ha
    · exact (List.pairwise_append.1 hl).2.2 a ha b (List.mem_singleton_self b)
    · rw [List.mem_singleton.1 ha]

theorem sameTop_take (hp : l.Perm l') (hl : l.Pairwise fun a b => key a ≤ key b)
    (hl' : l'.Pairwise fun a b => key a ≤ key b) : SameTop key n (l.take n) (l'.take n) where
  keys := by rw [List.map_take, List.map_take, map_key_eq hp hl hl']
  rows a ha := by
    obtain ⟨b, hb, hlast, hle⟩ := le_last (hl.sublist (List.take_sublist n l)) ha
    by_contra hnot
    obtain ⟨hout, htie⟩ := not_or.1 hnot
    have hlt : key a < key b := lt_of_le_of_ne hle fun h => htie (by rw [hlast, h])
    -- `a` stands in the rest of the other list, so nothing of its selection comes after `a`
    have hdrop : a ∈ l'.drop n := by
      have hmem : a ∈ l'.take n ++ l'.drop n := by
        rw [List.take_append_drop]
        exact hp.subset (List.mem_of_mem_take ha)
      exact (List.mem_append.1 hmem).resolve_left hout
    have hkeys : key b ∈ (l'.take n).map key := by
      rw [List.map_take, ← map_key_eq hp hl hl', ← List.map_take]
      exact List.mem_map_of_mem hb
    obtain ⟨c, hc, hkey⟩ := List.mem_map.1 hkeys
    have hsplit : (l'.take n ++ l'.drop n).Pairwise fun a b => key a ≤ key b := by
      rwa [List.take_append_drop]
    exact absurd ((List.pairwise_append.1 hsplit).2.2 c hc a hdrop) (by rw [hkey]; exact hlt.not_ge)
  whole h := by
    have hlen : l.length < n := by
      rw [List.length_take] at h
      omega
    rwa [List.take_of_length_le hlen.le, List.take_of_length_le (hp.length_eq ▸ hlen.le)]

/-- Sorting by a test that compares keys. -/
theorem pairwise_mergeSort {le : α → α → Bool} (hle : ∀ a b, le a b = true ↔ key a ≤ key b)
    (l : List α) : (l.mergeSort le).Pairwise fun a b => key a ≤ key b := by
  refine (List.pairwise_mergeSort (fun a b c hab hbc => ?_) (fun a b => ?_) l).imp fun h => (hle _ _).1 h
  · exact (hle a c).2 (((hle a b).1 hab).trans ((hle b c).1 hbc))
  · rw [Bool.or_eq_true, hle, hle]
    exact le_total _ _

end Sorted
