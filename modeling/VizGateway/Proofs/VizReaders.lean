import Mathlib
import VizGateway.VizScan
import VizGateway.Sample

/-!
# Three readers of one deposit

The watcher's block scan, the signer's `operation_history` lookup and its block-log fallback all
rebuild the deposit `depositFromOps` finds at one place of the chain. A wrong block hint finds
nothing, since no other block holds a transaction of that id.
-/

namespace VizGateway

open Checks Text

/-- What an operator's node tells of the chain: transactions the chain holds, and in the block log
the block itself or, where it is pruned, none. -/
structure VizNode.Honest {L : Libs} (ledger : VizLedger L) (node : VizNode) : Prop where
  history : ∀ {id tx}, node.getTransaction id = .ok (some tx) → ∃ b, ∃ t ∈ ledger.transactions b,
    computeTrxId L t.tx = some id ∧ tx = ⟨some id, b, some t.operations⟩
  ring : ∀ n ∈ node.ring, ∀ {b block}, n.getBlock b = .ok (some block) →
    block = [] ∨ block = ledger.transactions b

/-- A node of the ring that can confirm what is in block `b`. -/
structure BlockLogNode.Serves {L : Libs} (ledger : VizLedger L) (n : BlockLogNode) (b : ℕ) :
    Prop where
  block : n.getBlock b = .ok (some (ledger.transactions b))
  final : ∃ lib, n.lastIrreversibleBlock = .ok lib ∧ b ≤ lib

namespace VizReaders

variable {L : Libs} {R : VizReader} {ledger : VizLedger L} {b i : ℕ} {t : BlockTransaction}
  {id : String} {op : VizOp}

/-! ## The scan -/

theorem scannedDeposit_virtual {w : OpWrapper} (h : w.virtual_op ≠ 0) :
    scannedDeposit L R w = .ok none := by
  unfold scannedDeposit
  rw [if_pos h]

/-- Virtual operations leave no deposit. -/
theorem blockDeposits_filter (ws : List OpWrapper) :
    blockDeposits L R ws = blockDeposits L R (ws.filter (·.virtual_op = 0)) := by
  induction ws with
  | nil => rfl
  | cons w ws ih =>
    by_cases hw : w.virtual_op = 0
    · rw [List.filter_cons_of_pos (by simpa using hw)]
      simp only [blockDeposits, ih]
    · rw [List.filter_cons_of_neg (by simpa using hw), ← ih, blockDeposits,
        scannedDeposit_virtual hw]
      cases blockDeposits L R ws <;> rfl

theorem mem_blockDeposits {ws : List OpWrapper} {ds : List VizDeposit} {d : VizDeposit}
    (h : blockDeposits L R ws = .ok ds) :
    d ∈ ds ↔ ∃ w ∈ ws, scannedDeposit L R w = .ok (some d) := by
  induction ws generalizing ds with
  | nil =>
    cases h
    simp
  | cons w ws ih =>
    rw [blockDeposits] at h
    obtain ⟨d', hd', h⟩ := bind_eq_ok.1 h
    obtain ⟨rest, hrest, h⟩ := bind_eq_ok.1 h
    cases h
    rw [List.mem_append, ih hrest, Option.mem_toList]
    simp [hd']

theorem succeeds_of_blockDeposits {ws : List OpWrapper} {ds : List VizDeposit}
    (h : blockDeposits L R ws = .ok ds) : ∀ w ∈ ws, ∃ d, scannedDeposit L R w = .ok d := by
  induction ws generalizing ds with
  | nil => simp
  | cons w ws ih =>
    rw [blockDeposits] at h
    obtain ⟨d', hd', h⟩ := bind_eq_ok.1 h
    obtain ⟨rest, hrest, -⟩ := bind_eq_ok.1 h
    rintro x (_ | ⟨_, hx⟩)
    · exact ⟨d', hd'⟩
    · exact ih hrest x hx

theorem mem_wrap {w : OpWrapper} (hid : computeTrxId L t.tx = some id) :
    w ∈ VizLedger.wrap L b t ↔ ∃ i op, t.operations[i]? = some op
      ∧ w = { trx_id := id, block := b, op_in_trx := i, virtual_op := 0, op } := by
  unfold VizLedger.wrap
  rw [hid]
  simp only [List.mem_mapIdx]
  constructor
  · rintro ⟨i, hi, rfl⟩
    exact ⟨i, t.operations[i], List.getElem?_eq_getElem hi, rfl⟩
  · rintro ⟨i, op, hop, rfl⟩
    obtain ⟨hi, rfl⟩ := List.getElem?_eq_some_iff.1 hop
    exact ⟨i, hi, rfl⟩

/-- The scan's own copy of the parse is the one the signer shares. -/
theorem scannedDeposit_wrap (hzero : id ≠ zeroTrx) (hop : t.operations[i]? = some op)
    (hback : R.Backs op) :
    scannedDeposit L R { trx_id := id, block := b, op_in_trx := i, virtual_op := 0, op }
      = some <$> depositFromOps L R id i b t.operations := by
  obtain ⟨hname, hchain⟩ := hback
  obtain ⟨chain, hchain⟩ := Option.isSome_iff_exists.1 hchain
  cases hamount : vizToMilli (jsStringOr "0.000 VIZ" (op.payload.get "amount")) with
  | none =>
    simp [scannedDeposit, depositFromOps, hzero, hname, hchain, hop, hamount, found, require, bind,
      Except.bind, Functor.map, Except.map]
  | some amount =>
    rw [depositFromOps_eq_ok.2 ⟨op, chain, amount, hop, hname, hchain, hamount, rfl⟩]
    simp [scannedDeposit, hzero, hname, hchain, hamount, found, bind, Except.bind, pure,
      Except.pure, Functor.map, Except.map, depositOf]

/-- What the scan makes of a real operation names its place. -/
theorem scannedDeposit_place {w : OpWrapper} {d : VizDeposit}
    (h : scannedDeposit L R w = .ok (some d)) :
    d.trxId = w.trx_id ∧ d.opIndex = w.op_in_trx ∧ d.blockNum = w.block := by
  unfold scannedDeposit at h
  split_ifs at h with hvirtual hzero hname
  · cases h
  · cases h
  · cases h
  · cases hchain : R.accounts.chainFor (jsStringOr "" (w.op.payload.get "to")) with
    | none =>
      simp only [hchain] at h
      cases h
    | some chain =>
      simp only [hchain] at h
      obtain ⟨amount, -, h⟩ := bind_eq_ok.1 h
      cases h
      exact ⟨rfl, rfl, rfl⟩

section Scan

variable {getOpsInBlock : ℤ → Except String (Option (List OpWrapper))}

theorem scanBlocks_eq_ok {bs : List ℤ} {ds : List VizDeposit}
    (h : scanBlocks L R getOpsInBlock bs = .ok ds) :
    (∀ b ∈ bs, ∃ answer here, getOpsInBlock b = .ok answer
        ∧ blockDeposits L R (answer.getD []) = .ok here ∧ here ⊆ ds)
      ∧ ∀ d ∈ ds, ∃ b ∈ bs, ∃ answer here, getOpsInBlock b = .ok answer
        ∧ blockDeposits L R (answer.getD []) = .ok here ∧ d ∈ here := by
  induction bs generalizing ds with
  | nil =>
    cases h
    simp
  | cons b bs ih =>
    rw [scanBlocks] at h
    obtain ⟨answer, hanswer, h⟩ := bind_eq_ok.1 h
    obtain ⟨here, hhere, h⟩ := bind_eq_ok.1 h
    obtain ⟨rest, hrest, h⟩ := bind_eq_ok.1 h
    cases h
    have hdeposits : blockDeposits L R (answer.getD []) = .ok here := by
      cases hd : blockDeposits L R (answer.getD []) with
      | ok x =>
        rw [hd] at hhere
        cases hhere
        rfl
      | error e =>
        rw [hd] at hhere
        cases hhere
    obtain ⟨hall, hfrom⟩ := ih hrest
    refine ⟨?_, ?_⟩
    · rintro x (_ | ⟨_, hx⟩)
      · exact ⟨answer, here, hanswer, hdeposits, List.subset_append_left ..⟩
      · obtain ⟨answer', here', ha, hh, hsub⟩ := hall x hx
        exact ⟨answer', here', ha, hh, List.subset_append_of_subset_right _ hsub⟩
    · intro d hd
      rcases List.mem_append.1 hd with hd | hd
      · exact ⟨b, List.mem_cons_self, answer, here, hanswer, hdeposits, hd⟩
      · obtain ⟨x, hx, hrest⟩ := hfrom d hd
        exact ⟨x, List.mem_cons_of_mem _ hx, hrest⟩

/-- The deposits of a block an honest node answered for. -/
theorem mem_blockDeposits_answer {answer : Option (List OpWrapper)} {here : List VizDeposit}
    {d : VizDeposit} {n : ℤ} (hanswer : ledger.Answers n answer)
    (h : blockDeposits L R (answer.getD []) = .ok here) :
    d ∈ here ↔ ∃ w ∈ ledger.ops n, scannedDeposit L R w = .ok (some d) := by
  rw [blockDeposits_filter, hanswer] at h
  exact mem_blockDeposits h

theorem mem_ops {n : ℤ} {w : OpWrapper} : w ∈ ledger.ops n ↔ ∃ t ∈ ledger.transactions n.toNat,
    ∃ id i op, computeTrxId L t.tx = some id ∧ t.operations[i]? = some op
      ∧ w = { trx_id := id, block := n.toNat, op_in_trx := i, virtual_op := 0, op } := by
  unfold VizLedger.ops
  rw [List.mem_flatMap]
  constructor
  · rintro ⟨t, ht, hw⟩
    obtain ⟨id, hid, -⟩ := ledger.named _ t ht
    obtain ⟨i, op, hop, rfl⟩ := (mem_wrap hid).1 hw
    exact ⟨t, ht, id, i, op, hid, hop, rfl⟩
  · rintro ⟨t, ht, id, i, op, hid, hop, rfl⟩
    exact ⟨t, ht, (mem_wrap hid).2 ⟨i, op, hop, rfl⟩⟩

theorem id_ne (ht : t ∈ ledger.transactions b) (hid : computeTrxId L t.tx = some id) :
    id ≠ zeroTrx ∧ id ≠ "" := by
  obtain ⟨id', hid', hne⟩ := ledger.named b t ht
  rw [hid] at hid'
  cases hid'
  exact hne

/-- A scan that covered the block reports the deposit of each backing transfer of it, once. -/
theorem scan_reports (ht : t ∈ ledger.transactions b) (hid : computeTrxId L t.tx = some id)
    (hop : t.operations[i]? = some op) (hback : R.Backs op) {fromBlock upToBlock : ℤ}
    {ds : List VizDeposit}
    (hanswers : ∀ n answer, getOpsInBlock n = .ok answer → ledger.Answers n answer)
    (h : irreversibleDepositsSince L R getOpsInBlock fromBlock upToBlock = .ok ds)
    (hfrom : fromBlock < b) (hup : (b : ℤ) ≤ upToBlock)
    (hcap : (b : ℤ) ≤ fromBlock + maxBlocksPerScan) :
    ∃ d ∈ ds, depositFromOps L R id i b t.operations = .ok d
      ∧ ∀ d' ∈ ds, d'.trxId = id → d'.opIndex = i → d' = d := by
  unfold irreversibleDepositsSince at h
  simp only at h
  rw [if_neg (by omega)] at h
  obtain ⟨hall, hsource⟩ := scanBlocks_eq_ok h
  obtain ⟨answer, here, hanswer, hhere, hsub⟩ := hall b (mem_blockRange.2 ⟨by omega, by omega⟩)
  have hw : { trx_id := id, block := b, op_in_trx := i, virtual_op := 0, op } ∈ ledger.ops b :=
    mem_ops.2 ⟨t, ht, id, i, op, hid, hop, rfl⟩
  have hparse := scannedDeposit_wrap (L := L) (b := b) (id_ne ht hid).1 hop hback
  have hread := hhere
  rw [blockDeposits_filter, hanswers b answer hanswer] at hread
  obtain ⟨d?, hd?⟩ := succeeds_of_blockDeposits hread _ hw
  obtain ⟨d, hd, hscanned⟩ : ∃ d, depositFromOps L R id i b t.operations = .ok d
      ∧ scannedDeposit L R { trx_id := id, block := b, op_in_trx := i, virtual_op := 0, op }
        = .ok (some d) := by
    rw [hparse] at hd? ⊢
    cases hD : depositFromOps L R id i b t.operations with
    | error e =>
      rw [hD] at hd?
      cases hd?
    | ok d => exact ⟨d, rfl, rfl⟩
  refine ⟨d, hsub ((mem_blockDeposits hread).2 ⟨_, hw, hscanned⟩), hd, ?_⟩
  intro d' hd' htrx hindex
  obtain ⟨n, -, answer', here', hanswer', hhere', hmem⟩ := hsource d' hd'
  rw [blockDeposits_filter, hanswers n answer' hanswer'] at hhere'
  obtain ⟨w, hw', hscanned'⟩ := (mem_blockDeposits hhere').1 hmem
  obtain ⟨t', ht', id', i', op', hid', hop', rfl⟩ := mem_ops.1 hw'
  obtain ⟨hplace, hplace', -⟩ := scannedDeposit_place hscanned'
  -- the same id and index name the same place of the chain
  have hsame : id' = id ∧ i' = i := ⟨hplace.symm.trans htrx, hplace'.symm.trans hindex⟩
  obtain ⟨rfl, rfl⟩ := hsame
  obtain ⟨hblock, rfl⟩ := ledger.unique ht' ht hid' hid
  rw [hop] at hop'
  cases hop'
  rw [hblock, hscanned] at hscanned'
  cases hscanned'
  rfl

end Scan

/-! ## The signer's two lookups -/

theorem history_reads {node : VizNode} (hnode : node.Honest ledger)
    (ht : t ∈ ledger.transactions b) (hid : computeTrxId L t.tx = some id)
    (hhistory : historyTx node id ≠ none) {lib : ℕ}
    (hlib : node.lastIrreversibleBlock = .ok lib) (hle : b ≤ lib) (hint : Option ℕ) :
    getDeposit L R node id i hint = some <$> depositFromOps L R id i b t.operations := by
  obtain ⟨tx, htx⟩ : ∃ tx, node.getTransaction id = .ok (some tx) := by
    unfold historyTx at hhistory
    split at hhistory
    · next tx htx => exact ⟨tx, htx⟩
    · exact absurd rfl hhistory
  obtain ⟨b', t', ht', hid', rfl⟩ := hnode.history htx
  obtain ⟨rfl, rfl⟩ := ledger.unique ht' ht hid' hid
  have hhist : historyTx node id = some (some id, b', t'.operations) := by
    unfold historyTx
    rw [htx]
    rfl
  have htruthy : truthy (some id) = some id := truthy_eq_some.2 ⟨rfl, (id_ne ht hid).2⟩
  unfold getDeposit
  simp only [hhist, htruthy, hlib, require, if_true, Nat.not_lt.2 hle, if_false, bind, Except.bind]

/-- The block a ring node hands out holds the transaction in block `b` only. -/
theorem find_in_block {hint : ℕ} {block : List BlockTransaction}
    (hring : block = [] ∨ block = ledger.transactions hint) (ht : t ∈ ledger.transactions b)
    (hid : computeTrxId L t.tx = some id) :
    (block.find? fun t' => computeTrxId L t'.tx = some id) = none
      ∨ hint = b ∧ (block.find? fun t' => computeTrxId L t'.tx = some id) = some t := by
  rcases hring with rfl | rfl
  · exact .inl rfl
  · cases hfind : (ledger.transactions hint).find? fun t' => computeTrxId L t'.tx = some id with
    | none => exact .inl rfl
    | some t' =>
      have hid' : computeTrxId L t'.tx = some id := by simpa using List.find?_some hfind
      obtain ⟨rfl, rfl⟩ := ledger.unique (List.mem_of_find?_eq_some hfind) ht hid' hid
      exact .inr ⟨rfl, rfl⟩

/-- A node that serves block `b` is not passed over. -/
theorem not_serves {n : BlockLogNode} (ht : t ∈ ledger.transactions b)
    (hid : computeTrxId L t.tx = some id)
    (h : n.Serves ledger b) : ((ledger.transactions b).find? fun t' =>
      computeTrxId L t'.tx = some id) ≠ none ∧ ∀ e, n.lastIrreversibleBlock ≠ .error e := by
  obtain ⟨lib, hlib, -⟩ := h.final
  refine ⟨fun hnone => ?_, fun e he => ?_⟩
  · have := List.find?_eq_none.1 hnone t ht
    simp [hid] at this
  · rw [hlib] at he
    cases he

/-- The fallback reads the deposit, or finds nothing: on a wrong hint, or where no node of the ring
serves the block. -/
theorem fallback_reads (ht : t ∈ ledger.transactions b) (hid : computeTrxId L t.tx = some id)
    (hint : ℕ) : ∀ {ring : List BlockLogNode},
      (∀ n ∈ ring, ∀ {b block}, n.getBlock b = .ok (some block) →
        block = [] ∨ block = ledger.transactions b) →
      (getDepositViaBlock L R id i hint ring = .ok none
          ∧ (hint = b → ∀ n ∈ ring, ¬ n.Serves ledger b))
        ∨ hint = b ∧ getDepositViaBlock L R id i hint ring
          = some <$> depositFromOps L R id i b t.operations
  | [], _ => .inl ⟨rfl, fun _ n hn => by cases hn⟩
  | n :: ring, hring => by
    have hrest := fallback_reads ht hid hint fun m hm => hring m (List.mem_cons_of_mem _ hm)
    -- where this node does not serve the block, the rest of the ring decides
    have hpass : (hint = b → ¬ n.Serves ledger b) →
        (getDepositViaBlock L R id i hint ring = .ok none
            ∧ (hint = b → ∀ m ∈ n :: ring, ¬ m.Serves ledger b))
          ∨ hint = b ∧ getDepositViaBlock L R id i hint ring
            = some <$> depositFromOps L R id i b t.operations := by
      intro hn
      rcases hrest with ⟨hnone, hserves⟩ | hsome
      · refine .inl ⟨hnone, fun hb m hm => ?_⟩
        rcases List.mem_cons.1 hm with rfl | hm
        · exact hn hb
        · exact hserves hb m hm
      · exact .inr hsome
    unfold getDepositViaBlock
    cases hblock : n.getBlock hint with
    | error e =>
      refine hpass fun hb hserves => ?_
      subst hb
      rw [hserves.block] at hblock
      cases hblock
    | ok block =>
      have hfind : ((block.getD []).find? fun t' => computeTrxId L t'.tx = some id) = none
          ∨ hint = b ∧ ((block.getD []).find? fun t' => computeTrxId L t'.tx = some id)
            = some t := by
        cases block with
        | none => exact .inl rfl
        | some txs => exact find_in_block (hring n List.mem_cons_self hblock) ht hid
      rcases hfind with hfind | ⟨hb, hfind⟩
      · simp only [hfind]
        refine hpass fun hb hserves => ?_
        subst hb
        rw [hserves.block] at hblock
        cases hblock
        exact (not_serves ht hid hserves).1 hfind
      · simp only [hfind]
        cases hlib : n.lastIrreversibleBlock with
        | error e => exact hpass fun _ hserves => (not_serves ht hid hserves).2 e hlib
        | ok lib =>
          simp only
          split_ifs with hle
          · refine hpass fun _ hserves => ?_
            obtain ⟨lib', hlib', hle'⟩ := hserves.final
            rw [hlib] at hlib'
            cases hlib'
            omega
          · exact .inr ⟨hb, by rw [hb]⟩

/-- `getDeposit` without the history index. -/
theorem pruned_reads {node : VizNode} (hnode : node.Honest ledger)
    (ht : t ∈ ledger.transactions b) (hid : computeTrxId L t.tx = some id)
    (hhistory : historyTx node id = none) (hint : Option ℕ) :
    (getDeposit L R node id i hint = .ok none
        ∧ (hint = some b → ∀ n ∈ node.ring, ¬ n.Serves ledger b))
      ∨ hint = some b ∧ getDeposit L R node id i hint
        = some <$> depositFromOps L R id i b t.operations := by
  have hpos : b ≠ 0 := by
    rintro rfl
    rw [ledger.genesis] at ht
    cases ht
  unfold getDeposit
  simp only [hhistory]
  rcases hint with _ | _ | n
  · exact .inl ⟨rfl, fun h => by cases h⟩
  · refine .inl ⟨rfl, fun h => ?_⟩
    cases h
    exact absurd rfl hpos
  · rcases fallback_reads (R := R) (i := i) ht hid (n + 1) hnode.ring with ⟨hnone, hserves⟩ | ⟨rfl, hsome⟩
    · exact .inl ⟨hnone, fun h => hserves (Option.some.inj h)⟩
    · exact .inr ⟨rfl, hsome⟩

end VizReaders

open VizReaders

/-- The scan, the history lookup and the block-log fallback under the right hint all read the
deposit `depositFromOps` makes at one place of the chain; under any other hint the fallback finds
none. -/
theorem viz_readers_agree (L : Libs) (R : VizReader) (ledger : VizLedger L) {b i : ℕ}
    {t : BlockTransaction} {id : String} {op : VizOp} (ht : t ∈ ledger.transactions b)
    (hid : computeTrxId L t.tx = some id) (hop : t.operations[i]? = some op)
    (hback : R.Backs op) :
    (∀ (getOpsInBlock : ℤ → Except String (Option (List OpWrapper))) (fromBlock upToBlock : ℤ)
        (ds : List VizDeposit),
      (∀ n answer, getOpsInBlock n = .ok answer → ledger.Answers n answer) →
      irreversibleDepositsSince L R getOpsInBlock fromBlock upToBlock = .ok ds →
      fromBlock < b → (b : ℤ) ≤ upToBlock → (b : ℤ) ≤ fromBlock + maxBlocksPerScan →
      ∃ d ∈ ds, depositFromOps L R id i b t.operations = .ok d
        ∧ ∀ d' ∈ ds, d'.trxId = id → d'.opIndex = i → d' = d)
    ∧ ∀ node : VizNode, node.Honest ledger →
      (historyTx node id ≠ none → ∀ lib, node.lastIrreversibleBlock = .ok lib → b ≤ lib → ∀ hint,
        getDeposit L R node id i hint = some <$> depositFromOps L R id i b t.operations)
      ∧ (historyTx node id = none →
        ((∃ n ∈ node.ring, n.Serves ledger b) → getDeposit L R node id i (some b)
            = some <$> depositFromOps L R id i b t.operations)
        ∧ ((∀ n ∈ node.ring, ¬ n.Serves ledger b) →
            getDeposit L R node id i (some b) = .ok none
              ∨ getDeposit L R node id i (some b)
                = some <$> depositFromOps L R id i b t.operations)
        ∧ ∀ hint, hint ≠ some b → getDeposit L R node id i hint = .ok none) := by
  refine ⟨fun getOps fromBlock upToBlock ds hanswers h hfrom hup hcap =>
    scan_reports ht hid hop hback hanswers h hfrom hup hcap, fun node hnode => ⟨?_, ?_⟩⟩
  · intro hhistory lib hlib hle hint
    exact history_reads hnode ht hid hhistory hlib hle hint
  · intro hhistory
    have hreads := pruned_reads (R := R) (i := i) hnode ht hid hhistory
    refine ⟨?_, fun _ => ?_, fun hint hne => ?_⟩
    · rintro ⟨n, hn, hserves⟩
      rcases hreads (some b) with ⟨-, hno⟩ | ⟨-, hsome⟩
      · exact absurd hserves (hno rfl n hn)
      · exact hsome
    · rcases hreads (some b) with ⟨hnone, -⟩ | ⟨-, hsome⟩
      · exact .inl hnone
      · exact .inr hsome
    · rcases hreads hint with ⟨hnone, -⟩ | ⟨heq, -⟩
      · exact hnone
      · exact absurd heq hne

/-! ## A chain of one deposit -/

/-- Alice's transfer as block 900 holds it. -/
def sampleChainTx : BlockTransaction where
  tx := {
    ref_block_num := some (.num 41)
    ref_block_prefix := some (.num 7001)
    expiration := some (.str "2026-01-01T00:00:30")
    operations := [("transfer", [("from", some (.str "alice")), ("to", some (.str "gram.gate")),
      ("amount", some (.str "250.000 VIZ")), ("memo", some (.str sampleRecipient))])]
    extensions := [] }
  operations := [sampleTransfer]

def sampleChainTrxId : String := (computeTrxId sampleLibs sampleChainTx.tx).getD ""

theorem sampleChainTrxId_eq : computeTrxId sampleLibs sampleChainTx.tx = some sampleChainTrxId := by
  decide +kernel

/-- A node with the block answers the operations of its transactions. -/
theorem VizLedger.answers_ops {L : Libs} (ledger : VizLedger L) (b : ℤ) :
    ledger.Answers b (some (ledger.ops b)) := by
  refine List.filter_eq_self.2 fun w hw => ?_
  obtain ⟨t, -, id, i, op, -, -, rfl⟩ := VizReaders.mem_ops.1 hw
  rfl

def sampleVizLedger : VizLedger sampleLibs where
  transactions b := if b = 900 then [sampleChainTx] else []
  genesis := rfl
  named := by
    intro b t ht
    split_ifs at ht with hb
    · rw [List.mem_singleton.1 ht]
      exact ⟨sampleChainTrxId, sampleChainTrxId_eq, by decide +kernel, by decide +kernel⟩
    · cases ht
  unique := by
    intro b b' t t' id ht ht' _ _
    split_ifs at ht with hb
    · split_ifs at ht' with hb'
      · exact ⟨hb.trans hb'.symm, (List.mem_singleton.1 ht).trans (List.mem_singleton.1 ht').symm⟩
      · cases ht'
    · cases ht

/-- A node that has pruned its history and keeps its block log. -/
def prunedNode : VizNode where
  getTransaction := fun _ => .error "unknown transaction"
  lastIrreversibleBlock := .ok 1000
  ring := [{
    getBlock := fun b => .ok (some (sampleVizLedger.transactions b))
    lastIrreversibleBlock := .ok 1000 }]
  getAccount := fun _ => .ok false
  time := .ok "2026-01-01T00:00:00"

theorem viz_readers_agree_sample :
    getDeposit sampleLibs sampleDeps.reader prunedNode sampleChainTrxId 0 (some 900)
        = .ok (some { sampleDeposit with trxId := sampleChainTrxId })
      ∧ getDeposit sampleLibs sampleDeps.reader prunedNode sampleChainTrxId 0 (some 901)
        = .ok none := by
  have hnode : prunedNode.Honest sampleVizLedger := {
    history := fun h => by cases h
    ring := by
      intro n hn b block hblock
      rw [List.mem_singleton.1 hn] at hblock
      cases hblock
      exact .inr rfl }
  have hmem : sampleChainTx ∈ sampleVizLedger.transactions 900 := List.mem_singleton_self _
  have hreads := (viz_readers_agree sampleLibs sampleDeps.reader sampleVizLedger hmem
    sampleChainTrxId_eq (rfl : sampleChainTx.operations[0]? = some sampleTransfer)
    (by unfold VizReader.Backs; decide)).2 prunedNode hnode
  obtain ⟨hserved, -, hother⟩ := hreads.2 rfl
  refine ⟨?_, hother (some 901) (by decide)⟩
  rw [hserved ⟨_, List.mem_cons_self, rfl, 1000, rfl, by decide⟩]
  decide +kernel

end VizGateway
