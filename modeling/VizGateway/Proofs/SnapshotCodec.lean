import VizGateway.ReconSnapshot

/-!
# What is read of published figures

The amounts go out as decimal strings and come back exact; the rest of the text is the library's
round trip. Whatever the text, reading it never throws and gives a snapshot exactly if the object in
it carries every field.
-/

namespace VizGateway

open Checks JsonText Numeral

/-- The units are the decimal numeral of `n`, a sign and leading zeros allowed. -/
def Spells (t : List UInt16) (n : ℤ) : Prop :=
  ∃ ds : List Char, ds ≠ [] ∧ (∀ c ∈ ds, c.isDigit = true) ∧
    (t = ds.map unit ∧ n = value ds ∨ t = unit '-' :: ds.map unit ∧ n = -value ds)

/-- The value at a key. -/
def valueAt (props : List (List UInt16 × JsonValue)) (key : String) : Option JsonValue :=
  (props.find? (·.1 = ascii key)).map (·.2)

def AmountAt (props : List (List UInt16 × JsonValue)) (key : String) (n : ℤ) : Prop :=
  ∃ t, valueAt props key = some (.str t) ∧ Spells t n

/-- An object with all the fields of a snapshot, each of its type. -/
structure CarriesSnapshot (props : List (List UInt16 × JsonValue)) (s : ReconSnapshot) : Prop where
  chain : valueAt props "chain" = some (.str s.chain)
  chain_ne : s.chain ≠ []
  lockedMilliViz : AmountAt props "lockedMilliViz" s.lockedMilliViz
  circulatingMilliViz : AmountAt props "circulatingMilliViz" s.circulatingMilliViz
  unsweptFeesMilliViz : AmountAt props "unsweptFeesMilliViz" s.unsweptFeesMilliViz
  driftMilliViz : AmountAt props "driftMilliViz" s.driftMilliViz
  status : valueAt props "status" = some (.str s.status.text)
  checkedAt : valueAt props "checkedAt" = some (.num s.checkedAt)
  finite : s.checkedAt.isFinite = true

/-! ## Amounts -/

theorem unit_char {u : UInt16} (h : (char u).isDigit = true) : unit (char u) = u := by
  by_cases hvalid : u.toNat.isValidChar
  · rw [unit, char, Char.ofNat, dif_pos hvalid]
    exact UInt16.ofNat_toNat
  · rw [char, Char.ofNat, dif_neg hvalid] at h
    exact absurd h (by decide)

theorem char_unit_of_isDigit {c : Char} (h : c.isDigit = true) : char (unit c) = c :=
  char_unit (by
    have := NumberText.toNat_of_isNumberChar (NumberText.isNumberChar_of_isDigit h)
    omega)

theorem map_char_unit {ds : List Char} (h : ∀ c ∈ ds, c.isDigit = true) :
    (ds.map unit).map char = ds := by
  rw [List.map_map]
  exact (List.map_congr_left fun c hc => char_unit_of_isDigit (h c hc)).trans (List.map_id _)

theorem map_unit_char {us : List UInt16} (h : ∀ u ∈ us, (char u).isDigit = true) :
    (us.map char).map unit = us := by
  rw [List.map_map]
  exact (List.map_congr_left fun u hu => unit_char (h u hu)).trans (List.map_id _)

theorem digits_ne_minus {ds : List Char} (h : ∀ c ∈ ds, c.isDigit = true) :
    (ds.map unit).head? ≠ some (unit '-') := by
  intro hhead
  rw [List.head?_map, Option.map_eq_some_iff] at hhead
  obtain ⟨c, hc, hunit⟩ := hhead
  have hdigit := h c (List.mem_of_mem_head? hc)
  rw [← char_unit_of_isDigit hdigit, hunit] at hdigit
  exact absurd hdigit (by decide)

theorem bigIntOfUnits_of_spells {t : List UInt16} {n : ℤ} (h : Spells t n) :
    isDecimal t = true ∧ bigIntOfUnits t = .ok n := by
  obtain ⟨ds, hne, hdigit, ⟨rfl, rfl⟩ | ⟨rfl, rfl⟩⟩ := h
  · constructor
    · unfold isDecimal
      rw [if_neg (digits_ne_minus hdigit)]
      simpa [hne, char_unit_of_isDigit] using fun c hc => by
        rw [char_unit_of_isDigit (hdigit c hc)]
        exact hdigit c hc
    · rw [bigIntOfUnits, map_char_unit hdigit, bigIntOfString_digits (by simpa using hne)
        (by simpa using hdigit), String.toList_ofList]
      rfl
  · constructor
    · simpa [isDecimal, hne] using fun c hc => by
        rw [char_unit_of_isDigit (hdigit c hc)]
        exact hdigit c hc
    · rw [bigIntOfUnits, List.map_cons, map_char_unit hdigit, char_unit (by decide),
        bigIntOfString_neg hne hdigit]
      rfl

theorem exists_spells {t : List UInt16} (h : isDecimal t = true) : ∃ n, Spells t n := by
  have hdigits : ∀ us : List UInt16, us ≠ [] → (us.all fun u => (char u).isDigit) = true →
      us.map char ≠ [] ∧ (∀ c ∈ us.map char, c.isDigit = true) ∧ (us.map char).map unit = us := by
    intro us hne hall
    rw [List.all_eq_true] at hall
    exact ⟨by simpa using hne, by simpa using hall, map_unit_char hall⟩
  unfold isDecimal at h
  split_ifs at h with hminus
  · obtain ⟨us, rfl⟩ : ∃ us, t = unit '-' :: us := by
      rcases t with _ | ⟨u, us⟩
      · cases hminus
      · rw [List.head?_cons, Option.some.injEq] at hminus
        exact ⟨us, by rw [hminus]⟩
    simp only [List.tail_cons, Bool.and_eq_true] at h
    obtain ⟨hne, hdigit, hback⟩ := hdigits us (of_decide_eq_true h.1) h.2
    exact ⟨_, us.map char, hne, hdigit, Or.inr ⟨by rw [hback], rfl⟩⟩
  · simp only [Bool.and_eq_true] at h
    obtain ⟨hne, hdigit, hback⟩ := hdigits t (of_decide_eq_true h.1) h.2
    exact ⟨_, t.map char, hne, hdigit, Or.inl ⟨hback.symm, rfl⟩⟩

/-- An amount is read exactly from a string that is its decimal numeral. -/
theorem toBigInt_eq_some {v : Option JsonValue} {n : ℤ} :
    toBigInt v = some n ↔ ∃ t, v = some (.str t) ∧ Spells t n := by
  constructor
  · intro h
    unfold toBigInt at h
    split at h
    · next t =>
      split_ifs at h with hdec
      obtain ⟨k, hk⟩ := exists_spells hdec
      rw [(bigIntOfUnits_of_spells hk).2] at h
      obtain rfl : k = n := by simpa using h
      exact ⟨t, rfl, hk⟩
    · cases h
  · rintro ⟨t, rfl, h⟩
    obtain ⟨hdec, hval⟩ := bigIntOfUnits_of_spells h
    simp only [toBigInt, hdec, if_true, hval]

theorem spells_bigintUnits (n : ℤ) : Spells (bigintUnits n) n := by
  have hdigits : ∀ k : ℕ, k.repr.toList ≠ [] ∧ (∀ c ∈ k.repr.toList, c.isDigit = true) ∧
      value k.repr.toList = k := by
    intro k
    rw [Nat.toList_repr]
    obtain ⟨hne, hdigit, -⟩ := canonical_toDigits k
    exact ⟨hne, hdigit, value_toDigits⟩
  rcases n with k | k
  · obtain ⟨hne, hdigit, hval⟩ := hdigits k
    exact ⟨_, hne, hdigit, Or.inl ⟨rfl, by rw [hval]; rfl⟩⟩
  · obtain ⟨hne, hdigit, hval⟩ := hdigits (k + 1)
    refine ⟨_, hne, hdigit, Or.inr ⟨?_, by rw [hval]; rfl⟩⟩
    show ascii ("-" ++ (k + 1).repr) = _
    simp [ascii]

/-! ## The other fields -/

theorem toStatus_eq_some {v : Option JsonValue} {status : ReconStatus} :
    toStatus v = some status ↔ v = some (.str status.text) := by
  constructor
  · intro h
    unfold toStatus at h
    split at h
    · split_ifs at h with hok hunder
      · obtain rfl := Option.some.inj h
        rw [hok]
        rfl
      · obtain rfl := Option.some.inj h
        rw [hunder]
        rfl
    · cases h
  · rintro rfl
    cases status <;> rfl

theorem toCheckTime_eq_some {v : Option JsonValue} {x : Binary64} :
    toCheckTime v = some x ↔ v = some (.num x) ∧ x.isFinite = true := by
  constructor
  · intro h
    unfold toCheckTime at h
    split at h
    · split_ifs at h with hfinite
      obtain rfl := Option.some.inj h
      exact ⟨rfl, hfinite⟩
    · cases h
  · rintro ⟨rfl, h⟩
    exact if_pos h

theorem toChain_eq_some {v : Option JsonValue} {chain : List UInt16} :
    toChain v = some chain ↔ v = some (.str chain) ∧ chain ≠ [] := by
  constructor
  · intro h
    unfold toChain at h
    split at h
    · split_ifs at h with hne
      obtain rfl := Option.some.inj h
      exact ⟨rfl, hne⟩
    · cases h
  · rintro ⟨rfl, h⟩
    exact if_neg h

/-! ## Reading -/

/-- Reading answers, with the snapshot that the text's object carries or with none. -/
theorem parseReconSnapshot_spec (json : Option (List UInt16)) :
    ∃ r, parseReconSnapshot json = .ok r ∧ ∀ s, r = some s ↔
      ∃ text props, json = some text ∧ parse text = some (.obj props) ∧ CarriesSnapshot props s := by
  unfold parseReconSnapshot
  split
  · exact ⟨none, rfl, by simp⟩
  · have hempty : parse [] = none := rfl
    exact ⟨none, rfl, by simp [hempty]⟩
  · next text hne =>
    cases hparse : parse text with
    | none => exact ⟨none, rfl, by simp [hparse]⟩
    | some o =>
      rcases o with _ | _ | _ | _ | items | props
      · exact ⟨none, rfl, by simp [hparse]⟩
      · exact ⟨none, rfl, by simp [hparse]⟩
      · exact ⟨none, rfl, by simp [hparse]⟩
      · exact ⟨none, rfl, by simp [hparse]⟩
      · exact ⟨none, rfl, by simp [hparse]⟩
      · refine ⟨_, rfl, fun s => ?_⟩
        simp only [Option.bind_eq_bind, Option.bind_eq_some_iff, toBigInt_eq_some, toStatus_eq_some,
          toCheckTime_eq_some, toChain_eq_some, Option.pure_def, Option.some.injEq]
        constructor
        · rintro ⟨locked, hlocked, circulating, hcirculating, unswept, hunswept, drift, hdrift, status,
            hstatus, checkedAt, ⟨hcheckedAt, hfinite⟩, chain, ⟨hchain, hne⟩, rfl⟩
          exact ⟨text, props, rfl, hparse, hchain, hne, hlocked, hcirculating, hunswept, hdrift, hstatus,
            hcheckedAt, hfinite⟩
        · rintro ⟨_, props', rfl, hparse', h⟩
          obtain rfl : props = props' := by simpa [hparse] using hparse'
          exact ⟨_, h.lockedMilliViz, _, h.circulatingMilliViz, _, h.unsweptFeesMilliViz, _,
            h.driftMilliViz, _, h.status, _, ⟨h.checkedAt, h.finite⟩, _, ⟨h.chain, h.chain_ne⟩, rfl⟩

/-! ## The round trip -/

def snapshotProps (s : ReconSnapshot) : List (List UInt16 × JsonValue) := [
  (ascii "chain", .str s.chain),
  (ascii "lockedMilliViz", .str (bigintUnits s.lockedMilliViz)),
  (ascii "circulatingMilliViz", .str (bigintUnits s.circulatingMilliViz)),
  (ascii "unsweptFeesMilliViz", .str (bigintUnits s.unsweptFeesMilliViz)),
  (ascii "driftMilliViz", .str (bigintUnits s.driftMilliViz)),
  (ascii "status", .str s.status.text),
  (ascii "checkedAt", .num s.checkedAt)]

theorem proper_snapshotProps {s : ReconSnapshot} (h : s.checkedAt.isFinite = true) :
    Proper (.obj (snapshotProps s)) := by
  refine ⟨?_, ?_⟩
  · show [ascii "chain", ascii "lockedMilliViz", ascii "circulatingMilliViz",
      ascii "unsweptFeesMilliViz", ascii "driftMilliViz", ascii "status", ascii "checkedAt"].Nodup
    decide
  · simp [snapshotProps, ProperProps, Proper, h]

theorem carries_snapshotProps {s : ReconSnapshot} (hchain : s.chain ≠ [])
    (hfinite : s.checkedAt.isFinite = true) : CarriesSnapshot (snapshotProps s) s where
  chain := rfl
  chain_ne := hchain
  lockedMilliViz := ⟨_, rfl, spells_bigintUnits _⟩
  circulatingMilliViz := ⟨_, rfl, spells_bigintUnits _⟩
  unsweptFeesMilliViz := ⟨_, rfl, spells_bigintUnits _⟩
  driftMilliViz := ⟨_, rfl, spells_bigintUnits _⟩
  status := rfl
  checkedAt := rfl
  finite := hfinite

/-- A snapshot with a chain and a time is read back as it was, and no text whatsoever makes the
reader throw or give a snapshot that its object does not carry whole. -/
theorem snapshot_codec :
    (∀ s : ReconSnapshot, s.chain ≠ [] → s.checkedAt.isFinite = true →
      parseReconSnapshot (some (serializeReconSnapshot s)) = .ok (some s)) ∧
    (∀ json, ∃ r, parseReconSnapshot json = .ok r ∧ ∀ s, r = some s ↔
      ∃ text props, json = some text ∧ parse text = some (.obj props) ∧ CarriesSnapshot props s) := by
  refine ⟨fun s hchain hfinite => ?_, parseReconSnapshot_spec⟩
  obtain ⟨r, hr, hspec⟩ := parseReconSnapshot_spec (some (serializeReconSnapshot s))
  have hparse : parse (serializeReconSnapshot s) = some (.obj (snapshotProps s)) :=
    parse_stringify (proper_snapshotProps hfinite)
  rw [hr, (hspec s).2 ⟨_, _, rfl, hparse, carries_snapshotProps hchain hfinite⟩]

/-! An under-backed chain. -/

private theorem checkTime_representable : Binary64.Representable 1754300000000 :=
  ⟨1754300000000, 0, by norm_num, by norm_num, by norm_num, by norm_num⟩

private def sampleSnapshot : ReconSnapshot where
  chain := ascii "GRAM"
  lockedMilliViz := 40000000
  circulatingMilliViz := 43500000
  unsweptFeesMilliViz := 0
  driftMilliViz := -3500000
  status := .underBacked
  checkedAt := .finite 1754300000000 checkTime_representable

theorem snapshot_codec_sample :
    parseReconSnapshot (some (serializeReconSnapshot sampleSnapshot)) = .ok (some sampleSnapshot) :=
  snapshot_codec.1 sampleSnapshot (by decide) rfl

end VizGateway
