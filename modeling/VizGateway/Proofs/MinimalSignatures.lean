import Mathlib
import VizGateway.Sample
import VizGateway.VizSign

/-!
# The signatures taken reach the threshold

The loop takes the first signature of each key of the authority, in the order collected, up to the
one that reaches the threshold. None of them can be left out exactly when each key counted before
the last weighs more than what the last one brought too much.
-/

namespace VizGateway

/-! ## Distinct keys in order of arrival -/

/-- A signature counted for a key. -/
structure Attribution where
  sig : String
  key : String
  weight : ℕ
  deriving DecidableEq

def total (as : List Attribution) : ℕ := (as.map (·.weight)).sum

@[simp] theorem total_nil : total [] = 0 := rfl

@[simp] theorem total_cons (x : Attribution) (as : List Attribution) :
    total (x :: as) = x.weight + total as := by
  simp [total]

@[simp] theorem total_append (as bs : List Attribution) : total (as ++ bs) = total as + total bs := by
  simp [total]

/-- The shortest prefix that reaches a weight, or everything. -/
def reach : ℕ → List Attribution → List Attribution
  | _, [] => []
  | T, x :: as => if T = 0 then [] else x :: reach (T - x.weight) as

theorem reach_append_singleton (T : ℕ) (as : List Attribution) (x : Attribution) :
    reach T (as ++ [x]) = if T ≤ total as then reach T as else as ++ [x] := by
  induction as generalizing T with
  | nil =>
    by_cases h : T = 0
    · simp [reach, h]
    · simp [reach, h]
  | cons y as ih =>
    by_cases h : T = 0
    · simp [reach, h]
    · rw [List.cons_append, reach, if_neg h, reach, if_neg h, ih, total_cons]
      by_cases hle : T - y.weight ≤ total as
      · rw [if_pos hle, if_pos (by omega)]
      · rw [if_neg hle, if_neg (by omega)]

theorem reach_of_total_lt {T : ℕ} {as : List Attribution} (h : total as < T) : reach T as = as := by
  induction as generalizing T with
  | nil => rfl
  | cons y as ih =>
    rw [total_cons] at h
    rw [reach, if_neg (by omega), ih (by omega)]

theorem reach_prefix (T : ℕ) (as : List Attribution) : reach T as <+: as := by
  induction as generalizing T with
  | nil => exact List.prefix_rfl
  | cons y as ih =>
    rw [reach]
    split_ifs
    · exact List.nil_prefix
    · exact List.cons_prefix_cons.2 ⟨rfl, ih _⟩

theorem le_total_reach {T : ℕ} {as : List Attribution} (h : T ≤ total as) :
    T ≤ total (reach T as) := by
  induction as generalizing T with
  | nil => exact h
  | cons y as ih =>
    rw [total_cons] at h
    rw [reach]
    split_ifs with h0
    · omega
    · have := ih (T := T - y.weight) (by omega)
      rw [total_cons]
      omega

/-- What was taken ends with the attribution that reached the weight. -/
theorem reach_eq_append {T : ℕ} {as pre : List Attribution} {x : Attribution}
    (h : reach T as = pre ++ [x]) : total pre < T := by
  induction as generalizing T pre with
  | nil => simp [reach] at h
  | cons y as ih =>
    rw [reach] at h
    split_ifs at h with h0
    · simp at h
    · cases pre with
      | nil =>
        rw [total_nil]
        omega
      | cons z pre =>
        rw [List.cons_append, List.cons.injEq] at h
        have := ih h.2
        rw [h.1] at this
        rw [total_cons]
        omega

theorem reach_split {T : ℕ} {as pre post : List Attribution} {x : Attribution}
    (has : as = pre ++ x :: post) (hlt : total pre < T) (hle : T ≤ total pre + x.weight) :
    reach T as = pre ++ [x] := by
  induction pre generalizing T as with
  | nil =>
    rw [total_nil] at hlt hle
    rw [has, List.nil_append, List.nil_append, reach, if_neg (by omega),
      show T - x.weight = 0 by omega]
    cases post <;> simp [reach]
  | cons y pre ih =>
    rw [total_cons] at hlt hle
    rw [has, List.cons_append, reach, if_neg (by omega), ih rfl (by omega) (by omega)]
    rfl

section Signatures

variable (recover : String → Option String) (authority : VizAuthority)

/-- The key and the weight a signature counts for. -/
def attribution (sig : String) : Option Attribution :=
  (recover sig).bind fun key => (authority.weightOf key).map fun w => ⟨sig, key, w⟩

/-- A signature joins those of other keys. -/
def join (as : List Attribution) (sig : String) : List Attribution :=
  match attribution recover authority sig with
  | none => as
  | some x => if x.key ∈ as.map (·.key) then as else as ++ [x]

/-- The first signature of each key of the authority, in the order collected. -/
def arrivals (signatures : List String) : List Attribution :=
  signatures.foldl (join recover authority) []

/-- The weight of the distinct keys of the authority behind some signatures. -/
def carried (signatures : List String) : ℕ :=
  ∑ key ∈ (signatures.filterMap recover).toFinset, (authority.weightOf key).getD 0

variable {recover authority}

theorem attribution_eq_some {sig : String} {x : Attribution} :
    attribution recover authority sig = some x ↔
      x.sig = sig ∧ recover sig = some x.key ∧ authority.weightOf x.key = some x.weight := by
  unfold attribution
  simp only [Option.bind_eq_some_iff, Option.map_eq_some_iff]
  constructor
  · rintro ⟨key, hkey, w, hw, rfl⟩
    exact ⟨rfl, hkey, hw⟩
  · rintro ⟨rfl, hkey, hw⟩
    exact ⟨x.key, hkey, x.weight, hw, rfl⟩

@[simp] theorem arrivals_append (sigs : List String) (sig : String) :
    arrivals recover authority (sigs ++ [sig]) =
      join recover authority (arrivals recover authority sigs) sig := by
  simp [arrivals]

/-- Attributed signatures of distinct keys. -/
structure Distinct (recover : String → Option String) (authority : VizAuthority)
    (as : List Attribution) : Prop where
  counted : ∀ x ∈ as, attribution recover authority x.sig = some x
  nodup : (as.map (·.key)).Nodup

theorem Distinct.sublist {as bs : List Attribution} (h : Distinct recover authority bs)
    (hsub : as.Sublist bs) : Distinct recover authority as :=
  ⟨fun x hx => h.counted x (hsub.subset hx), h.nodup.sublist (hsub.map _)⟩

variable (recover authority) in
theorem distinct_arrivals (sigs : List String) :
    Distinct recover authority (arrivals recover authority sigs) ∧
      ((arrivals recover authority sigs).map (·.sig)).Sublist sigs := by
  induction sigs using List.reverseRecOn with
  | nil => exact ⟨⟨by simp [arrivals], by simp [arrivals]⟩, by simp [arrivals]⟩
  | append_singleton sigs sig ih =>
    obtain ⟨⟨hcounted, hnodup⟩, hsub⟩ := ih
    rw [arrivals_append]
    unfold join
    rcases hx : attribution recover authority sig with _ | x
    · exact ⟨⟨hcounted, hnodup⟩, hsub.trans (List.sublist_append_left ..)⟩
    · have hsig : x.sig = sig := (attribution_eq_some.1 hx).1
      simp only
      split_ifs with hmem
      · exact ⟨⟨hcounted, hnodup⟩, hsub.trans (List.sublist_append_left ..)⟩
      · refine ⟨⟨fun y hy => ?_, ?_⟩, ?_⟩
        · rcases List.mem_append.1 hy with hy | hy
          · exact hcounted y hy
          · rw [List.mem_singleton.1 hy, hsig, hx]
        · rw [List.map_append, List.nodup_append]
          refine ⟨hnodup, by simp, ?_⟩
          rintro k hk k' hk' rfl
          rw [List.map_singleton, List.mem_singleton] at hk'
          exact hmem (hk' ▸ hk)
        · rw [List.map_append, List.map_singleton, hsig]
          exact hsub.append (List.Sublist.refl _)

/-- Every key of the authority behind a signature has arrived. -/
theorem key_mem_arrivals {sigs : List String} {key : String} {w : ℕ} {sig : String}
    (hsig : sig ∈ sigs) (hkey : recover sig = some key) (hw : authority.weightOf key = some w) :
    key ∈ (arrivals recover authority sigs).map (·.key) := by
  induction sigs using List.reverseRecOn with
  | nil => simp at hsig
  | append_singleton sigs last ih =>
    rw [arrivals_append]
    unfold join
    rw [List.mem_append, List.mem_singleton] at hsig
    rcases hx : attribution recover authority last with _ | x
    · rcases hsig with hsig | rfl
      · exact ih hsig
      · simp [attribution, hkey, hw] at hx
    · simp only
      rcases hsig with hsig | rfl
      · split_ifs
        · exact ih hsig
        · rw [List.map_append]
          exact List.mem_append_left _ (ih hsig)
      · have hxkey : x.key = key := by
          have := (attribution_eq_some.1 hx).2.1
          rw [hkey] at this
          exact (Option.some.inj this).symm
        split_ifs with hmem
        · exact hxkey ▸ hmem
        · simp [hxkey]

/-- Signatures of distinct keys carry their total. -/
theorem Distinct.carried {as : List Attribution} (h : Distinct recover authority as) :
    carried recover authority (as.map (·.sig)) = total as := by
  have hkeys : (as.map (·.sig)).filterMap recover = as.map (·.key) := by
    rw [List.filterMap_map, ← List.filterMap_eq_map]
    exact List.filterMap_congr fun x hx => (attribution_eq_some.1 (h.counted x hx)).2.1
  have hweights : as.map (fun x => (authority.weightOf x.key).getD 0) = as.map (·.weight) :=
    List.map_congr_left fun x hx => by rw [(attribution_eq_some.1 (h.counted x hx)).2.2]; rfl
  unfold VizGateway.carried total
  rw [hkeys, List.sum_toFinset _ h.nodup, List.map_map, ← hweights]
  rfl

theorem carried_eq_arrivals (sigs : List String) :
    carried recover authority sigs = total (arrivals recover authority sigs) := by
  obtain ⟨hdistinct, hsub⟩ := distinct_arrivals recover authority sigs
  rw [← hdistinct.carried]
  unfold carried
  symm
  refine Finset.sum_subset (fun k hk => ?_) fun k hk hnot => ?_
  · rw [List.mem_toFinset] at hk ⊢
    exact (hsub.filterMap _).subset hk
  · rw [List.mem_toFinset] at hk hnot
    rcases hw : authority.weightOf k with _ | w
    · rfl
    · obtain ⟨sig, hsig, hkey⟩ := List.mem_filterMap.1 hk
      refine absurd ?_ hnot
      obtain ⟨x, hx, rfl⟩ := List.mem_map.1 (key_mem_arrivals hsig hkey hw)
      exact List.mem_filterMap.2 ⟨x.sig, List.mem_map_of_mem hx,
        (attribution_eq_some.1 (hdistinct.counted x hx)).2.1⟩

/-! ## What the loop takes -/

/-- The loop holds the shortest part of the arrivals that reaches the threshold. -/
theorem foldl_take (sigs : List String) :
    sigs.foldl (Selection.take recover authority) {} =
      let taken := reach authority.weight_threshold (arrivals recover authority sigs)
      { chosen := taken.map (·.sig), usedKeys := taken.map (·.key), weight := total taken } := by
  induction sigs using List.reverseRecOn with
  | nil => rfl
  | append_singleton sigs sig ih =>
    rw [List.foldl_append, ih, arrivals_append]
    simp only [List.foldl_cons, List.foldl_nil]
    unfold Selection.take join
    generalize arrivals recover authority sigs = as
    by_cases hle : authority.weight_threshold ≤ total as
    · have hstop : authority.weight_threshold ≤ total (reach authority.weight_threshold as) :=
        le_total_reach hle
      rw [if_pos hstop]
      rcases attribution recover authority sig with _ | x
      · rfl
      · simp only
        split_ifs
        · rfl
        · rw [reach_append_singleton, if_pos hle]
    · rw [reach_of_total_lt (not_le.1 hle), if_neg hle]
      unfold attribution
      rcases recover sig with _ | key
      · simp [reach_of_total_lt (not_le.1 hle)]
      · rcases hw : authority.weightOf key with _ | w
        · simp [hw, reach_of_total_lt (not_le.1 hle)]
        · simp only [hw, Option.bind_some, Option.map_some]
          by_cases hmem : key ∈ as.map (·.key)
          · rw [if_pos hmem, if_pos hmem, reach_of_total_lt (not_le.1 hle)]
          · rw [if_neg hmem, if_neg hmem, reach_append_singleton, if_neg hle]
            simp

/-- Signatures of distinct keys of the authority, in the order collected, that reach the
threshold. -/
structure AuthoritySubset (recover : String → Option String) (authority : VizAuthority)
    (sigs chosen : List String) : Prop where
  sublist : chosen.Sublist sigs
  inAuthority : ∀ sig ∈ chosen, ∃ key w, recover sig = some key ∧ authority.weightOf key = some w
  distinct : (chosen.map recover).Nodup
  reaches : authority.weight_threshold ≤ carried recover authority chosen

/-- Dropping any one falls below the threshold. -/
def Minimal (recover : String → Option String) (authority : VizAuthority)
    (chosen : List String) : Prop :=
  ∀ i < chosen.length, carried recover authority (chosen.eraseIdx i) < authority.weight_threshold

/-- Where the arrivals reach the threshold, each key before the last weighs more than the
surplus. -/
def NoSurplus (recover : String → Option String) (authority : VizAuthority)
    (sigs : List String) : Prop :=
  ∀ pre x post, arrivals recover authority sigs = pre ++ x :: post →
    total pre < authority.weight_threshold → authority.weight_threshold ≤ total pre + x.weight →
    ∀ y ∈ pre, total pre + x.weight < authority.weight_threshold + y.weight

theorem Distinct.authoritySubset {as : List Attribution} {sigs : List String}
    (h : Distinct recover authority as) (hsub : (as.map (·.sig)).Sublist sigs)
    (hreach : authority.weight_threshold ≤ total as) :
    AuthoritySubset recover authority sigs (as.map (·.sig)) where
  sublist := hsub
  inAuthority sig hsig := by
    obtain ⟨x, hx, rfl⟩ := List.mem_map.1 hsig
    obtain ⟨-, hkey, hw⟩ := attribution_eq_some.1 (h.counted x hx)
    exact ⟨x.key, x.weight, hkey, hw⟩
  distinct := by
    have hkeys : (as.map (·.sig)).map recover = (as.map (·.key)).map some := by
      rw [List.map_map, List.map_map]
      exact List.map_congr_left fun x hx => (attribution_eq_some.1 (h.counted x hx)).2.1
    rw [hkeys]
    exact h.nodup.map (Option.some_injective _)
  reaches := by rwa [h.carried]

theorem total_eraseIdx {as : List Attribution} {i : ℕ} (h : i < as.length) :
    total (as.eraseIdx i) + as[i].weight = total as := by
  rw [List.eraseIdx_eq_take_drop_succ, total_append, ← congrArg total (List.take_append_drop i as),
    total_append, List.drop_eq_getElem_cons h, total_cons]
  omega

theorem Distinct.carried_eraseIdx {as : List Attribution} (h : Distinct recover authority as)
    {i : ℕ} (hi : i < as.length) :
    VizGateway.carried recover authority ((as.map (·.sig)).eraseIdx i) + as[i].weight =
      total as := by
  rw [List.eraseIdx_map, (h.sublist (List.eraseIdx_sublist ..)).carried, total_eraseIdx hi]

/-- Of what the loop took, nothing can be left out exactly if there is no surplus. -/
theorem minimal_taken_iff {sigs : List String}
    (hreach : authority.weight_threshold ≤ total (arrivals recover authority sigs)) :
    Minimal recover authority
        ((reach authority.weight_threshold (arrivals recover authority sigs)).map (·.sig)) ↔
      NoSurplus recover authority sigs := by
  obtain ⟨hdistinct, -⟩ := distinct_arrivals recover authority sigs
  have hinit := reach_prefix authority.weight_threshold (arrivals recover authority sigs)
  have htaken := hdistinct.sublist hinit.sublist
  have hle := le_total_reach hreach
  constructor
  · intro hmin pre x post hsplit hlt hge y hy
    rw [reach_split hsplit hlt hge] at hmin htaken
    obtain ⟨i, hi, rfl⟩ := List.mem_iff_getElem.1 hy
    have hi' : i < (pre ++ [x]).length := by
      rw [List.length_append]
      omega
    have hdrop := hmin i (by simpa using hi')
    have hcarried := htaken.carried_eraseIdx hi'
    rw [List.getElem_append_left hi, total_append, total_cons, total_nil] at hcarried
    omega
  · intro hno i hi
    rw [List.length_map] at hi
    have hcarried := htaken.carried_eraseIdx hi
    rcases List.eq_nil_or_concat (reach authority.weight_threshold
      (arrivals recover authority sigs)) with hnil | ⟨pre, x, hlast⟩
    · simp [hnil] at hi
    · rw [List.concat_eq_append] at hlast
      have hlt := reach_eq_append hlast
      obtain ⟨post, hpost⟩ := hinit
      rw [hlast, List.append_assoc] at hpost
      simp only [hlast, total_append, total_cons, total_nil, List.length_append,
        List.length_singleton] at hi hle hcarried ⊢
      by_cases hlast : i < pre.length
      · rw [List.getElem_append_left hlast] at hcarried
        have := hno pre x post hpost.symm hlt (by omega) pre[i] (List.getElem_mem hlast)
        omega
      · obtain rfl : i = pre.length := by omega
        simp only [List.getElem_concat_length] at hcarried
        omega

end Signatures

/-- The loop returns signatures of distinct keys of the authority that reach the threshold, and
throws if and only if all of them together do not; what it returns is minimal exactly if no key
before the last weighs as little as the surplus. -/
theorem selectAuthoritySignatures_minimal_iff (L : Libs) (R : KeyRecovery)
    (p : VizReleaseProposal) (signatures : List String) (authority : VizAuthority) :
    let recover := recoverReleaseSigner L R p
    (∀ chosen, selectAuthoritySignatures L R p signatures authority = .ok chosen →
        AuthoritySubset recover authority signatures chosen ∧
          (Minimal recover authority chosen ↔ NoSurplus recover authority signatures)) ∧
      ((∃ e, selectAuthoritySignatures L R p signatures authority = .error e) ↔
        carried recover authority signatures < authority.weight_threshold) := by
  intro recover
  obtain ⟨hdistinct, hsub⟩ :=
    distinct_arrivals recover authority signatures
  have hinit := reach_prefix authority.weight_threshold (arrivals recover authority signatures)
  rw [carried_eq_arrivals]
  unfold selectAuthoritySignatures
  rw [foldl_take]
  simp only
  by_cases hlt : total (arrivals recover authority signatures) < authority.weight_threshold
  · have hall := reach_of_total_lt hlt
    change (∀ chosen, (if total (reach authority.weight_threshold
      (arrivals recover authority signatures)) < _ then _ else _) = _ → _) ∧ _
    rw [hall, if_pos hlt]
    exact ⟨by rintro chosen ⟨⟩, fun _ => hlt, fun _ => ⟨_, rfl⟩⟩
  · have hle := le_total_reach (not_lt.1 hlt)
    change (∀ chosen, (if total (reach authority.weight_threshold
      (arrivals recover authority signatures)) < _ then _ else _) = _ → _) ∧ _
    rw [if_neg (not_lt.2 hle)]
    refine ⟨?_, by rintro ⟨e, ⟨⟩⟩, fun h => absurd h hlt⟩
    rintro chosen ⟨⟩
    exact ⟨(hdistinct.sublist hinit.sublist).authoritySubset
      ((hinit.sublist.map _).trans hsub) hle, minimal_taken_iff (not_lt.1 hlt)⟩

/-! ## Unequal weights -/

/-- Two keys, the second as heavy as the threshold. -/
def unequalAuthority : VizAuthority where
  weight_threshold := 2
  key_auths := [("VIZ6light", 1), ("VIZ7heavy", 2)]

/-- The release of the sample burn. -/
def unequalRelease : VizReleaseProposal where
  refBlockNum := 3
  refBlockPrefix := 77
  expiration := "2026-01-01T00:01:00"
  sender := "gram.gate"
  receiver := "carol"
  amount := "120.000 VIZ"
  memo := sampleBurnHash

/-- Two signatures of that release, by their keys. -/
def sampleRecovery : KeyRecovery where
  chainId := []
  recoverPublicKeyFromBuffer sig buf :=
    if (sampleLibs.toBuffer (buildReleaseTx unequalRelease.toJson)) = some buf then
      [("1f22", "VIZ6light"), ("2033", "VIZ7heavy")].lookup sig
    else none

/-- The light signature came first and is kept, though the heavy one reaches the threshold alone. -/
theorem light_signature_kept :
    selectAuthoritySignatures sampleLibs sampleRecovery unequalRelease ["1f22", "2033"]
        unequalAuthority = .ok ["1f22", "2033"] ∧
      ¬ Minimal (recoverReleaseSigner sampleLibs sampleRecovery unequalRelease) unequalAuthority
        ["1f22", "2033"] := by
  refine ⟨by decide +kernel, fun h => ?_⟩
  have hdrop := h 0 (by decide)
  revert hdrop
  decide +kernel

end VizGateway
