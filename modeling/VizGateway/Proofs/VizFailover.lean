import VizGateway.VizRing
import VizGateway.Proofs.VizReaders

/-!
# A block scan over a ring of nodes

The head comes from one call and the blocks from others, and a node that lacks a block answers as
if it held no operations. So a scan that returns has every deposit of its range exactly when each
block with a deposit was answered for by a node that has it (`failover_scan_complete_iff`).
-/

namespace VizGateway

open Checks

namespace VizFailover

open VizReaders

variable {L : Libs} {R : VizReader} {ledger : VizLedger L} {ring : VizRing}
  {has : ℕ → ℕ → ℤ → Prop}

/-- Every block with a deposit is answered for, where it is answered for, by a node that has it. -/
def Served (R : VizReader) (ledger : VizLedger L) (ring : VizRing) (has : ℕ → ℕ → ℤ → Prop) :
    List ℤ → RingState → Prop
  | [], _ => True
  | b :: bs, s => ∀ answer s', ring.blockOps b s = .ok (answer, s') →
      (ledger.deposits R b ≠ [] → has (VizRing.server s').1 (VizRing.server s').2 b) ∧
        Served R ledger ring has bs s'

theorem mem_deposits {b : ℤ} {d : VizDeposit} :
    d ∈ ledger.deposits R b ↔ ∃ w ∈ ledger.ops b, scannedDeposit L R w = .ok (some d) := by
  unfold VizLedger.deposits
  rw [List.mem_filterMap]
  refine exists_congr fun w => and_congr_right fun _ => ?_
  rcases scannedDeposit L R w with e | d' <;> simp

/-- A deposit stands in one block. -/
theorem deposits_disjoint {b b' : ℤ} {d : VizDeposit} (h : d ∈ ledger.deposits R b)
    (h' : d ∈ ledger.deposits R b') : b = b' := by
  obtain ⟨w, hw, hd⟩ := mem_deposits.1 h
  obtain ⟨w', hw', hd'⟩ := mem_deposits.1 h'
  obtain ⟨t, ht, id, i, op, -, -, rfl⟩ := mem_ops.1 hw
  obtain ⟨t', ht', id', i', op', -, -, rfl⟩ := mem_ops.1 hw'
  have hblock := (scannedDeposit_place hd).2.2.symm.trans (scannedDeposit_place hd').2.2
  have hpos : ∀ {n : ℤ} {t : BlockTransaction}, t ∈ ledger.transactions n.toNat → 0 < n := by
    intro n t hn
    by_contra hle
    rw [Int.toNat_of_nonpos (by omega), ledger.genesis] at hn
    cases hn
  have h1 := hpos ht
  have h2 := hpos ht'
  simp only at hblock
  omega

/-! ## One call -/

theorem attempts_answer {α : Type} {query : ℕ → ℕ → Except RpcError α} {n : ℕ} {s s' : RingState}
    {a : α} (h : ring.attempts query n s = .ok (a, s')) :
    query (VizRing.server s').1 (VizRing.server s').2 = .ok a := by
  induction n generalizing s with
  | zero => cases h
  | succ n ih =>
    simp only [VizRing.attempts] at h
    split at h
    · next hq =>
      cases h
      exact hq
    · split_ifs at h
      exact ih h

/-- A block answered for gives its deposits, or nothing where the node lacks it. -/
theorem blockDeposits_blockOps (hring : ring.Honest ledger has) {b : ℤ} {s s' : RingState}
    {answer : Option (List OpWrapper)} {here : List VizDeposit}
    (h : ring.blockOps b s = .ok (answer, s'))
    (hhere : blockDeposits L R (answer.getD []) = .ok here) :
    (has (VizRing.server s').1 (VizRing.server s').2 b → ∀ d, d ∈ here ↔ d ∈ ledger.deposits R b) ∧
      (¬ has (VizRing.server s').1 (VizRing.server s').2 b → here = []) := by
  have hanswer := attempts_answer h
  refine ⟨fun hhas d => ?_, fun hlacks => ?_⟩
  · rw [mem_blockDeposits_answer (hring.full hanswer hhas) hhere, mem_deposits]
  · rw [hring.empty hanswer hlacks] at hhere
    cases hhere
    rfl

theorem scanBlocks_cons {b : ℤ} {bs : List ℤ} {s t : RingState} {ds : List VizDeposit}
    (h : scanBlocks L R ring.blockOps (b :: bs) s = .ok (ds, t)) :
    ∃ answer s' here rest, ring.blockOps b s = .ok (answer, s') ∧
      blockDeposits L R (answer.getD []) = .ok here ∧
      scanBlocks L R ring.blockOps bs s' = .ok (rest, t) ∧ ds = here ++ rest := by
  rw [scanBlocks] at h
  obtain ⟨⟨answer, s'⟩, hanswer, h⟩ := bind_eq_ok.1 h
  obtain ⟨⟨here, s''⟩, hhere, h⟩ := bind_eq_ok.1 h
  obtain ⟨⟨rest, t'⟩, hrest, h⟩ := bind_eq_ok.1 h
  cases h
  rcases hblock : blockDeposits L R (answer.getD []) with e | here'
  · rw [hblock] at hhere
    cases hhere
  · rw [hblock] at hhere
    cases hhere
    exact ⟨answer, s', here, rest, hanswer, hblock, hrest, rfl⟩

theorem scanBlocks_nil {s t : RingState} {ds : List VizDeposit}
    (h : scanBlocks L R ring.blockOps [] s = .ok (ds, t)) : ds = [] := by
  cases h
  rfl

/-! ## The scan -/

/-- A scan reports no deposit of a block outside its range. -/
theorem scanned_from (hring : ring.Honest ledger has) {bs : List ℤ} {s t : RingState}
    {ds : List VizDeposit} (h : scanBlocks L R ring.blockOps bs s = .ok (ds, t)) {d : VizDeposit}
    (hd : d ∈ ds) : ∃ b ∈ bs, d ∈ ledger.deposits R b := by
  induction bs generalizing s ds with
  | nil =>
    rw [scanBlocks_nil h] at hd
    cases hd
  | cons b bs ih =>
    obtain ⟨answer, s', here, rest, hanswer, hhere, hrest, rfl⟩ := scanBlocks_cons h
    obtain ⟨hfull, hempty⟩ := blockDeposits_blockOps hring hanswer hhere
    rcases List.mem_append.1 hd with hd | hd
    · by_cases hhas : has (VizRing.server s').1 (VizRing.server s').2 b
      · exact ⟨b, List.mem_cons_self, (hfull hhas d).1 hd⟩
      · rw [hempty hhas] at hd
        cases hd
    · obtain ⟨b', hb', hd⟩ := ih hrest hd
      exact ⟨b', List.mem_cons_of_mem _ hb', hd⟩

theorem scanBlocks_complete_iff (hring : ring.Honest ledger has) {bs : List ℤ} (hbs : bs.Nodup)
    {s t : RingState} {ds : List VizDeposit}
    (h : scanBlocks L R ring.blockOps bs s = .ok (ds, t)) :
    (∀ b ∈ bs, ∀ d ∈ ledger.deposits R b, d ∈ ds) ↔ Served R ledger ring has bs s := by
  induction bs generalizing s ds with
  | nil => simp [Served]
  | cons b bs ih =>
    obtain ⟨hb, hbs⟩ := List.nodup_cons.1 hbs
    obtain ⟨answer, s', here, rest, hanswer, hhere, hrest, rfl⟩ := scanBlocks_cons h
    obtain ⟨hfull, hempty⟩ := blockDeposits_blockOps hring hanswer hhere
    have hserved : Served R ledger ring has (b :: bs) s ↔
        (ledger.deposits R b ≠ [] → has (VizRing.server s').1 (VizRing.server s').2 b) ∧
          Served R ledger ring has bs s' := by
      constructor
      · intro hs
        exact hs answer s' hanswer
      · intro hs answer' t' ht'
        rw [hanswer] at ht'
        cases ht'
        exact hs
    rw [hserved, ← ih hbs hrest, List.forall_mem_cons]
    -- a deposit of this block is in no other block's part, and the other way round
    have hhead : (∀ d ∈ ledger.deposits R b, d ∈ here ++ rest) ↔
        (ledger.deposits R b ≠ [] → has (VizRing.server s').1 (VizRing.server s').2 b) := by
      constructor
      · intro hall hne
        by_contra hlacks
        obtain ⟨d, hd⟩ := List.exists_mem_of_ne_nil _ hne
        have hin := hall d hd
        rw [hempty hlacks, List.nil_append] at hin
        obtain ⟨b', hb', hd'⟩ := scanned_from hring hrest hin
        exact hb (deposits_disjoint hd hd' ▸ hb')
      · intro hhas d hd
        exact List.mem_append_left _ ((hfull (hhas (List.ne_nil_of_mem hd)) d).2 hd)
    have htail : (∀ b' ∈ bs, ∀ d ∈ ledger.deposits R b', d ∈ here ++ rest) ↔
        ∀ b' ∈ bs, ∀ d ∈ ledger.deposits R b', d ∈ rest := by
      refine forall₄_congr fun b' hb' d hd => ⟨fun hin => ?_, List.mem_append_right _⟩
      rcases List.mem_append.1 hin with hin | hin
      · by_cases hhas : has (VizRing.server s').1 (VizRing.server s').2 b
        · exact absurd (deposits_disjoint ((hfull hhas d).1 hin) hd ▸ hb') hb
        · rw [hempty hhas] at hin
          cases hin
      · exact hin
    rw [hhead, htail]

theorem nodup_blockRange (start stop : ℤ) : (blockRange start stop).Nodup := by
  unfold blockRange
  exact List.nodup_range.map fun m n h => by simpa using h

end VizFailover

open VizFailover

/-- Two nodes, of which the second lacks block 900; the first drops the attempt at `lost`. -/
def laggingRing (lost : ℕ) : VizRing where
  nodes := 2
  others _ idx := idx
  lastIrreversibleBlock _ idx := .ok (if idx = 0 then 900 else 899)
  getOpsInBlock time idx b :=
    if idx = 0 then
      if time = lost then .error ⟨"fetch failed", true⟩ else .ok (some (sampleVizLedger.ops b))
    else .ok (if b = 900 then none else some (sampleVizLedger.ops b))

theorem laggingRing_honest (lost : ℕ) :
    (laggingRing lost).Honest sampleVizLedger (fun _ idx b => idx = 0 ∨ b ≠ 900) where
  full := by
    intro time idx b answer h hhas
    simp only [laggingRing] at h
    split_ifs at h with h0 htime hb
    · cases h
      exact sampleVizLedger.answers_ops b
    · exact absurd hhas (by simp [h0, hb])
    · cases h
      exact sampleVizLedger.answers_ops b
  empty := by
    intro time idx b answer h hlacks
    obtain ⟨h0, hb⟩ := not_or.1 hlacks
    simp only [laggingRing, if_neg h0, if_pos (not_not.1 hb)] at h
    cases h
    rfl

end VizGateway
