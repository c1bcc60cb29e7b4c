import VizGateway.Lib.Text

/-!
# Separated strings

Splitting at a separator and joining with it undo each other on pieces that are free of it, and
`trim` leaves a string alone exactly if it neither begins nor ends with a space.
-/

namespace Text

/-- `s.split(c)` at a single character. -/
def split (s : String) (c : Char) : List String := (s.toList.splitOn c).map String.ofList

variable {s t : String} {c d : Char}

theorem split_of_notMem (h : c ∉ s.toList) : split s c = [s] := by
  simp [split, List.splitOn_eq_singleton h]

theorem split_append (h : c ∉ s.toList) : split (s ++ c.toString ++ t) c = s :: split t c := by
  have hcons : (s ++ c.toString ++ t).toList = s.toList ++ c :: t.toList := by
    simp [Char.toString_eq_singleton]
  rw [split, hcons, List.splitOn_append_cons_self_of_not_mem h]
  simp [split]

theorem mem_splitOn {l : List Char} : ∀ p ∈ l.splitOn c, ∀ d ∈ p, d ∈ l ∧ d ≠ c := by
  induction l with
  | nil => simp
  | cons x l ih =>
    intro p hp d hd
    rw [List.splitOn_cons_eq_if_modifyHead] at hp
    split at hp
    · rcases List.mem_cons.1 hp with rfl | hp
      · simp at hd
      · exact ⟨List.mem_cons_of_mem _ (ih p hp d hd).1, (ih p hp d hd).2⟩
    · next hx =>
      rcases hl : l.splitOn c with _ | ⟨q, qs⟩
      · simp [hl] at hp
      · rw [hl, List.modifyHead_cons] at hp
        rcases List.mem_cons.1 hp with rfl | hp
        · rcases List.mem_cons.1 hd with rfl | hd
          · exact ⟨List.mem_cons_self, by simpa using hx⟩
          · have := ih q (by simp [hl]) d hd
            exact ⟨List.mem_cons_of_mem _ this.1, this.2⟩
        · have := ih p (by simp [hl, hp]) d hd
          exact ⟨List.mem_cons_of_mem _ this.1, this.2⟩

/-- The characters of a piece are the string's, the separator apart. -/
theorem mem_split (h : t ∈ split s c) (hd : d ∈ t.toList) : d ∈ s.toList ∧ d ≠ c := by
  obtain ⟨p, hp, rfl⟩ := List.mem_map.1 h
  exact mem_splitOn p hp d (by simpa using hd)

theorem intercalate_split (s : String) (c : Char) :
    String.intercalate c.toString (split s c) = s := by
  rw [← String.toList_inj, String.toList_intercalate]
  simp [split, Char.toString_eq_singleton, Function.comp_def, List.intercalate_splitOn]

theorem split_intercalate {ss : List String} (h : ∀ s ∈ ss, c ∉ s.toList) (hne : ss ≠ []) :
    split (String.intercalate c.toString ss) c = ss := by
  have hls : ∀ l ∈ ss.map String.toList, c ∉ l := by
    simpa using h
  rw [split, String.toList_intercalate, Char.toString_eq_singleton, String.toList_singleton,
    List.splitOn_intercalate c hls (by simpa using hne)]
  simp [Function.comp_def]

/-! ## Trimming -/

/-- Neither the first character nor the last is a space. -/
def Trimmed (s : String) : Prop :=
  (∀ c ∈ s.toList.head?, isSpace c = false) ∧ ∀ c ∈ s.toList.getLast?, isSpace c = false

theorem dropWhile_of_head {l : List Char} (h : ∀ c ∈ l.head?, isSpace c = false) :
    l.dropWhile isSpace = l := by
  rcases l with _ | ⟨c, l⟩
  · rfl
  · simp [h c rfl]

theorem head_dropWhile (l : List Char) :
    ∀ c ∈ (l.dropWhile isSpace).head?, isSpace c = false := by
  intro c hc
  have := List.head?_dropWhile_not isSpace l
  rw [Option.mem_def.1 hc] at this
  simpa using this

theorem trim_of_trimmed (h : Trimmed s) : trim s = s := by
  unfold trim
  rw [dropWhile_of_head h.1, dropWhile_of_head (by simpa using h.2), List.reverse_reverse,
    String.ofList_toList]

theorem trimmed_trim (s : String) : Trimmed (trim s) := by
  unfold trim Trimmed
  simp only [String.toList_ofList, List.head?_reverse, List.getLast?_reverse]
  refine ⟨fun c hc => ?_, head_dropWhile _⟩
  obtain ⟨pre, hpre⟩ := List.dropWhile_suffix isSpace (l := (s.toList.dropWhile isSpace).reverse)
  have hlast : (s.toList.dropWhile isSpace).reverse.getLast? = some c := by
    rw [← hpre, List.getLast?_append, Option.mem_def.1 hc, Option.some_or]
  rw [List.getLast?_reverse] at hlast
  exact head_dropWhile s.toList c hlast

theorem trim_eq_self_iff : trim s = s ↔ Trimmed s :=
  ⟨fun h => h ▸ trimmed_trim s, trim_of_trimmed⟩

/-- What begins and ends with trimmed parts is trimmed. -/
theorem Trimmed.append (hs : Trimmed s) (ht : Trimmed t) (hs0 : s ≠ "") (ht0 : t ≠ "")
    (m : String) : Trimmed (s ++ m ++ t) := by
  have hs1 : s.toList.head?.isSome := by simpa using hs0
  have ht1 : t.toList.getLast?.isSome := by simpa using ht0
  refine ⟨fun c hc => hs.1 c ?_, fun c hc => ht.2 c ?_⟩
  · rwa [String.toList_append, String.toList_append, List.append_assoc, List.head?_append,
      Option.or_of_isSome hs1] at hc
  · rwa [String.toList_append, List.getLast?_append, Option.or_of_isSome ht1] at hc

theorem mem_trim (h : c ∈ (trim s).toList) : c ∈ s.toList := by
  unfold trim at h
  rw [String.toList_ofList, List.mem_reverse] at h
  exact List.dropWhile_subset _ (List.mem_reverse.1 (List.dropWhile_subset _ h))

end Text
