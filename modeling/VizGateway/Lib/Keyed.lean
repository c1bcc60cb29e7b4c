import Mathlib

/-!
# Rows under a key

A table under a primary key, and a map read in insertion order, are both a list of rows of which no
two have the same key. The operations below keep rows in place: a new key is appended, a change is
made where its row stands. A reading of the rows that keeps their keys carries each operation on
the rows over to the same operation on what is read.
-/

namespace Keyed

variable {α β κ : Type} [DecidableEq κ] (key : α → κ)

/-- The row of a key. -/
def get (k : κ) (rows : List α) : Option α := rows.find? fun a => key a = k

/-- Adding a row, unless its key is taken. -/
def insertNew (a : α) (rows : List α) : List α :=
  if (get key (key a) rows).isSome then rows else rows ++ [a]

/-- Changing the row of a key. -/
def update (k : κ) (f : α → α) (rows : List α) : List α :=
  rows.map fun a => if key a = k then f a else a

/-- Removing the row of a key. -/
def erase (k : κ) (rows : List α) : List α := rows.filter fun a => key a ≠ k

variable {key} {k k' : κ} {a : α} {f : α → α} {rows : List α}

theorem key_of_get (h : get key k rows = some a) : key a = k := by
  simpa using List.find?_some h

theorem mem_of_get (h : get key k rows = some a) : a ∈ rows := List.mem_of_find?_eq_some h

/-! ## Reading a row back -/

@[simp] theorem get_nil : get key k [] = none := rfl

theorem get_append_singleton :
    get key k (rows ++ [a]) = (get key k rows).or (if key a = k then some a else none) := by
  unfold get
  rw [List.find?_append]
  by_cases h : key a = k <;> simp [h]

theorem get_insertNew :
    get key k (insertNew key a rows) = if k = key a then some ((get key k rows).getD a)
      else get key k rows := by
  unfold insertNew
  by_cases hk : k = key a
  · subst hk
    rcases h : get key (key a) rows with _ | b <;> simp [get_append_singleton, h]
  · rcases h : get key (key a) rows with _ | b <;> simp [get_append_singleton, hk, Ne.symm hk]

theorem get_update (hf : ∀ a, key (f a) = key a) :
    get key k' (update key k f rows) = if k' = k then (get key k' rows).map f
      else get key k' rows := by
  have hkey : (fun a => decide (key (if key a = k then f a else a) = k')) = fun a => decide (key a = k') := by
    funext a
    split_ifs <;> simp [hf]
  unfold get update
  rw [List.find?_map, Function.comp_def, hkey]
  rcases h : rows.find? fun a => key a = k' with _ | b
  · simp
  · have hb : key b = k' := key_of_get h
    by_cases hk : k' = k <;> simp [hb, hk]

theorem get_erase :
    get key k' (erase key k rows) = if k' = k then none else get key k' rows := by
  unfold get erase
  rw [List.find?_filter]
  split_ifs with hk
  · simp [hk]
  · congr 1
    funext a
    by_cases ha : key a = k' <;> simp [ha, hk]

/-! ## Keys stay apart -/

theorem nodup_insertNew (h : (rows.map key).Nodup) : ((insertNew key a rows).map key).Nodup := by
  unfold insertNew
  rcases hget : get key (key a) rows with _ | b
  · have hnew : key a ∉ rows.map key := by
      intro hmem
      obtain ⟨c, hc, hkey⟩ := List.mem_map.1 hmem
      exact absurd hkey (by simpa using List.find?_eq_none.1 hget c hc)
    simpa [List.nodup_append] using ⟨h, fun b hb hkey => hnew (hkey ▸ List.mem_map_of_mem hb)⟩
  · simpa using h

theorem map_key_update (hf : ∀ a, key (f a) = key a) :
    (update key k f rows).map key = rows.map key := by
  unfold update
  rw [List.map_map]
  refine List.map_congr_left fun a _ => ?_
  simp only [Function.comp_apply]
  split_ifs
  · exact hf a
  · rfl

/-! ## Reading rows through a function that keeps keys -/

section Map

variable {key' : β → κ} {g : α → β} (hg : ∀ a, key' (g a) = key a)

include hg

theorem get_map : get key' k (rows.map g) = (get key k rows).map g := by
  unfold get
  rw [List.find?_map]
  congr 2
  funext a
  simp [hg]

theorem map_insertNew : (insertNew key a rows).map g = insertNew key' (g a) (rows.map g) := by
  unfold insertNew
  rw [get_map hg, hg, Option.isSome_map]
  split_ifs <;> simp

theorem map_update {f' : β → β} (hf : ∀ a, f' (g a) = g (f a)) :
    (update key k f rows).map g = update key' k f' (rows.map g) := by
  unfold update
  rw [List.map_map, List.map_map]
  refine List.map_congr_left fun a _ => ?_
  simp only [Function.comp_apply, hg, hf]
  split_ifs <;> rfl

theorem map_erase : (erase key k rows).map g = erase key' k (rows.map g) := by
  unfold erase
  rw [List.filter_map]
  congr 2
  funext a
  simp [hg]

end Map

end Keyed
