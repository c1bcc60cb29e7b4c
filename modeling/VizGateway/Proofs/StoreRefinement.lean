import VizGateway.Lib.Sorted
import VizGateway.Lib.Runs
import VizGateway.MemoryStore

/-!
# The two stores answer alike

The store the tests run on keeps what the database keeps, without the text it is stored as and
without the pruning. So every call is answered alike by both, up to the order of rows that nothing
orders, as long as the cutoffs of the windows do not go back, the keys of the cursors, of the
states and of the pause are apart, and no limit is negative.
-/

namespace VizGateway

open Runs SqliteGatewayStore

/-- The rows an address stands in. -/
def DepositAddressRecord.has (addressOrAta : String) (d : DepositAddressRecord) : Bool :=
  d.solAddress = addressOrAta ∨ d.wvizAta = addressOrAta

/-- The order of a scan: higher priority first, then the one scanned longest ago. -/
def DepositAddressRecord.scanKey (d : DepositAddressRecord) : ℤ ×ₗ ℤ := toLex (-d.priority, d.scanTime)

/-- Answers that agree: rows in any order where the call leaves it open, and no pause reason for
the empty one. An address of several accounts may be answered with either. -/
def StoreCall.Agree : (c : StoreCall) → c.Ans → c.Ans → Prop
  | .due .., a, b => a.Perm b ∧ a.map (·.createdAt) = b.map (·.createdAt)
  | .stale .., a, b => a.Perm b
  | .activeRemoteChains, a, b => a.Perm b
  | .depositAddressBy addressOrAta, a, b => a = b ∨ ∃ d d', a = some d ∧ b = some d' ∧
      d.vizAccount ≠ d'.vizAccount ∧ d.has addressOrAta ∧ d'.has addressOrAta
  | .depositAddressesForScan limit, a, b => Sorted.SameTop (·.scanKey) limit.toNat a b
  | .pauseReason, a, b => a.getD "" = b.getD ""
  | _, a, b => a = b

/-- Where a call starts its window of caps. -/
def StoreCall.capCutoff : StoreCall → Option ℤ
  | .capSumMilliViz sinceMs _ => some sinceMs
  | .tryReserveCap _ _ sinceMs _ => some sinceMs
  | _ => none

/-- Where a call starts its window of rates. -/
def StoreCall.rateCutoff : StoreCall → Option ℤ
  | .tryReserveSenderRate _ _ windowMs now => some (now - windowMs)
  | _ => none

/-- The call keeps to the keys of its kind, and its limit is one. -/
def StoreCall.Keeps (cursorKey stateKey : String → Prop) : StoreCall → Prop
  | .getCursor name => cursorKey name
  | .setCursor name _ => cursorKey name
  | .getState key => stateKey key
  | .setState key _ => stateKey key
  | .depositAddressesForScan limit => 0 ≤ limit
  | _ => True

/-- One call on both stores, at one time. -/
structure StoreEvent where
  call : StoreCall
  now : ℤ
  planner : Planner

/-- Calls whose windows move forward and whose keys are apart. Windows of a fixed length under a
clock that does not go back move forward. -/
structure Orderly (cursorKey stateKey : String → Prop) (es : List StoreEvent) : Prop where
  caps : (es.filterMap (·.call.capCutoff)).Pairwise (· ≤ ·)
  rates : (es.filterMap (·.call.rateCutoff)).Pairwise (· ≤ ·)
  calls : ∀ e ∈ es, e.call.Keeps cursorKey stateKey
  apart : ∀ key, cursorKey key → ¬ stateKey key
  pause : ∀ key, cursorKey key ∨ stateKey key → key ≠ "paused" ∧ key ≠ "pause_reason"

/-- Both stores, each after its own call. -/
def bothStep (s : Database × MemoryStore) (e : StoreEvent) : Database × MemoryStore :=
  ((run e.planner (method e.now e.call) s.1).1, (s.2.method e.now e.call).1)

/-- Both stores answer the call alike. -/
def Answered (s : Database × MemoryStore) (e : StoreEvent) : Prop :=
  e.call.Agree (run e.planner (method e.now e.call) s.1).2 (s.2.method e.now e.call).2

namespace StoreRefinement

def CapEntry.toRow (e : CapEntry) : CapWindowRow := ⟨e.ts, e.amount.repr⟩

/-- What the store in memory holds of the database, for the calls still to come. -/
structure Refines (cursorKey stateKey : String → Prop) (es : List StoreEvent) (db : Database)
    (s : MemoryStore) : Prop where
  rows : s.rows = db.action_outbox.map rowToRecord
  fees : ∀ r ∈ db.action_outbox, ∃ n : ℤ, r.fee_milli_viz = n.repr
  deposits : s.deposits = db.deposit_addresses
  accounts : (db.deposit_addresses.map (·.vizAccount)).Nodup
  signed : s.signed = db.signed_proposals
  caps : ∀ c ∈ es.filterMap (·.call.capCutoff),
    db.cap_window.filter (c ≤ ·.ts) = (s.caps.filter (c ≤ ·.ts)).map CapEntry.toRow
  rates : ∀ c ∈ es.filterMap (·.call.rateCutoff),
    db.pegin_rate.filter (c ≤ ·.ts) = s.rates.filter (c ≤ ·.ts)
  cursors : ∀ name, cursorKey name → db.gateway_state name = (s.cursors name).map Int.repr
  state : ∀ key, stateKey key → db.gateway_state key = s.state key
  paused : s.paused = decide (db.gateway_state "paused" = some "1")
  reason : (db.gateway_state "pause_reason").getD "" = s.reason

variable {cursorKey stateKey : String → Prop} {e : StoreEvent} {es : List StoreEvent}
  {db : Database} {s : MemoryStore}

/-! ## Sums, least fees and chains -/

theorem sumBigIntColumn_eq (vs : List String) : sumBigIntColumn vs = (vs.map ofNumeral).sum := by
  unfold sumBigIntColumn
  rw [List.sum_eq_foldl, List.foldl_map]

theorem foldl_ite_add {α : Type} (p : α → Bool) (f : α → ℤ) (l : List α) (n : ℤ) :
    l.foldl (fun acc a => if p a then acc + f a else acc) n = n + ((l.filter p).map f).sum := by
  induction l generalizing n with
  | nil => simp
  | cons a l ih =>
    rw [List.foldl_cons, ih]
    by_cases hp : p a = true
    · simp [hp]
      ring
    · simp [hp]

theorem min?_perm {l l' : List ℤ} (hp : l.Perm l') : l.min? = l'.min? := by
  rcases h : l.min? with _ | m
  · rw [List.min?_eq_none_iff] at h
    subst h
    rw [List.nil_perm.1 hp]
    rfl
  · obtain ⟨hm, hle⟩ := List.min?_eq_some_iff.1 h
    exact (List.min?_eq_some_iff.2 ⟨hp.subset hm, fun b hb => hle b (hp.symm.subset hb)⟩).symm

/-- The fold of the database's store finds the least fee. -/
theorem foldl_least (v : ℤ) (vs : List ℤ) :
    some ((v :: vs).foldl (fun m v => if v < m then v else m) v) = (v :: vs).min? := by
  have hmin : (fun m v : ℤ => if v < m then v else m) = min := by
    funext m v
    rw [min_def]
    split_ifs <;> omega
  rw [hmin, List.foldl_cons, min_self, List.min?_cons']

/-- So does the fold of the store in memory. -/
theorem foldl_lesserFee (chain : Option RemoteChainId) (l : List OutboxRecord) (acc : Option ℤ) :
    l.foldl (MemoryStore.lesserFee chain) acc = (acc.toList ++ (l.filter fun r =>
      MemoryStore.isMinted chain r && !MemoryStore.isUnpinned r).map (·.feeMilliViz)).min? := by
  induction l generalizing acc with
  | nil => rcases acc with _ | m <;> simp
  | cons r l ih =>
    rw [List.foldl_cons, ih]
    rcases hm : MemoryStore.isMinted chain r
    · simp [MemoryStore.lesserFee, hm]
    rcases hu : MemoryStore.isUnpinned r
    · rcases acc with _ | m
      · simp [MemoryStore.lesserFee, hm, hu]
      · have hle : (if r.feeMilliViz < m then some r.feeMilliViz else some m) =
            some (min m r.feeMilliViz) := by
          rw [min_def]
          split_ifs <;> first | rfl | (congr 1; omega)
        simp only [MemoryStore.lesserFee, hm, hu, hle, List.filter_cons, Option.toList_some]
        exact (List.min?_cons' ..).trans (List.min?_cons' ..).symm
    · simp [MemoryStore.lesserFee, hm, hu]

theorem addActive_eq (acc : List RemoteChainId) (r : OutboxRecord) (hacc : acc.Nodup) :
    (MemoryStore.addActive acc r).Nodup ∧ ∀ c, c ∈ MemoryStore.addActive acc r ↔
      c ∈ acc ∨ MemoryStore.isActive r ∧ r.remoteChain = some c := by
  unfold MemoryStore.addActive
  rcases hchain : r.remoteChain with _ | chain
  · simpa using hacc
  · by_cases hadd : MemoryStore.isActive r ∧ chain ∉ acc
    · simp only [if_pos hadd]
      refine ⟨List.nodup_append.2 ⟨hacc, List.nodup_singleton _, ?_⟩, fun c => ?_⟩
      · rintro a ha b hb rfl
        exact hadd.2 (List.mem_singleton.1 hb ▸ ha)
      · simp [hadd.1, eq_comm]
    · simp only [if_neg hadd, Option.some.injEq]
      refine ⟨hacc, fun c => ⟨.inl, ?_⟩⟩
      rintro (h | ⟨hactive, rfl⟩)
      · exact h
      · by_contra hc
        exact hadd ⟨hactive, hc⟩

theorem foldl_addActive (l : List OutboxRecord) (acc : List RemoteChainId) (hacc : acc.Nodup) :
    (l.foldl MemoryStore.addActive acc).Nodup ∧ ∀ c, c ∈ l.foldl MemoryStore.addActive acc ↔
      c ∈ acc ∨ ∃ r ∈ l, MemoryStore.isActive r ∧ r.remoteChain = some c := by
  induction l generalizing acc with
  | nil => simpa using hacc
  | cons r l ih =>
    obtain ⟨hnext, hadd⟩ := addActive_eq acc r hacc
    obtain ⟨hnodup, hmem⟩ := ih _ hnext
    refine ⟨hnodup, fun c => ?_⟩
    rw [List.foldl_cons, hmem, hadd, List.exists_mem_cons_iff, or_assoc]

/-- The chains of a query's rows, each once. -/
theorem mem_chains {rows : List OutboxRow} {c : RemoteChainId} :
    c ∈ (rows.filterMap (·.remote_chain)).dedup ↔ ∃ r ∈ rows, r.remote_chain = some c := by
  rw [List.mem_dedup, List.mem_filterMap]

/-! ## Answers read from the outbox -/

section Reads

variable (pl : Planner) (h : Refines cursorKey stateKey es db s)

include h

theorem get_rows (id : String) :
    s.get id = (Keyed.get OutboxRow.id id db.action_outbox).map rowToRecord := by
  unfold MemoryStore.get
  rw [h.rows]
  exact Keyed.get_map fun _ => rfl

/-- What a query selects are the rows the store in memory filters, in some order. -/
theorem selected_perm (p : OutboxRecord → Bool) (wh : OutboxRow → Bool)
    (hp : ∀ r ∈ db.action_outbox, p (rowToRecord r) = wh r) :
    (((pl.outbox db.action_outbox).filter wh).map rowToRecord).Perm (s.rows.filter p) := by
  rw [h.rows, List.filter_map]
  refine (((pl.outbox_perm _).filter wh).trans (.of_eq ?_)).map rowToRecord
  exact List.filter_congr fun r hr => (hp r hr).symm

theorem due_agree (t : ℤ) (statuses : List ActionStatus) :
    let rows := (((pl.outbox db.action_outbox).filter fun r =>
      r.status ∈ statuses ∧ r.next_attempt_at ≤ t).mergeSort fun a b =>
        a.created_at ≤ b.created_at).map rowToRecord
    rows.Perm (s.due t statuses) ∧
      rows.map (·.createdAt) = (s.due t statuses).map (·.createdAt) := by
  intro rows
  have hperm : rows.Perm (s.due t statuses) := by
    refine ((List.mergeSort_perm _ _).map rowToRecord).trans ?_
    refine .trans ?_ (List.mergeSort_perm _ _).symm
    exact selected_perm pl h (fun r => r.status ∈ statuses ∧ r.nextAttemptAt ≤ t) _ fun _ _ => rfl
  refine ⟨hperm, Sorted.map_key_eq hperm ?_ ?_⟩
  · rw [List.pairwise_map]
    have hle : ∀ a b : OutboxRow, decide (a.created_at ≤ b.created_at) = true ↔
        a.created_at ≤ b.created_at := fun _ _ => decide_eq_true_iff
    exact Sorted.pairwise_mergeSort hle _
  · exact Sorted.pairwise_mergeSort (fun _ _ => decide_eq_true_iff) _

theorem unswept_agree (chain : Option RemoteChainId) :
    (run pl (SqliteGatewayStore.unsweptFeesMilliViz chain) db).2 = s.unsweptFeesMilliViz chain := by
  have hminted := selected_perm pl h (MemoryStore.isMinted chain)
    (fun r => r.direction = .pegIn ∧ r.status ∈ mintedStatuses ∧ onChain chain r)
    fun r _ => by simp [MemoryStore.isMinted, mintedStatuses, rowToRecord, onChain, MemoryStore.onChain]
  have hswept := selected_perm pl h (MemoryStore.isSwept chain)
    (fun r => r.direction = .feeSweep ∧ r.status = .confirmed ∧ onChain chain r)
    fun r _ => rfl
  have hfees := (hminted.map (·.feeMilliViz)).sum_eq
  have hamounts := (hswept.map (·.amountMilliViz)).sum_eq
  rw [List.map_map] at hfees hamounts
  simp only [SqliteGatewayStore.unsweptFeesMilliViz, run_bind, run_pure, sumBigIntColumn_eq,
    List.map_map, MemoryStore.unsweptFeesMilliViz, foldl_ite_add, zero_add]
  exact congrArg₂ (· - ·) hfees hamounts

theorem fee_eq_zero {r : OutboxRow} (hr : r ∈ db.action_outbox) :
    r.fee_milli_viz = "0" ↔ (rowToRecord r).feeMilliViz = 0 := by
  obtain ⟨n, hn⟩ := h.fees r hr
  have hzero : "0" = (0 : ℤ).repr := by decide +kernel
  have hrepr : n.repr = (0 : ℤ).repr ↔ n = 0 :=
    ⟨fun h => by rw [← ofNumeral_repr n, h, ofNumeral_repr], congrArg Int.repr⟩
  simp only [rowToRecord, hn, ofNumeral_repr]
  rw [hzero, hrepr]

theorem minFee_agree (chain : Option RemoteChainId) :
    run pl (SqliteGatewayStore.minPegInFeeMilliViz chain) db = (db, s.minPegInFeeMilliViz chain) := by
  have hselected := selected_perm pl h
    (fun r => MemoryStore.isMinted chain r && !MemoryStore.isUnpinned r)
    (fun r => r.direction = .pegIn ∧ r.status ∈ mintedStatuses ∧
      ¬ (r.status = .broadcast ∧ r.fee_milli_viz = "0") ∧ onChain chain r) fun r hr => by
    have hzero := fee_eq_zero h hr
    rw [Bool.eq_iff_iff]
    simp only [MemoryStore.isMinted, MemoryStore.isUnpinned, mintedStatuses, onChain,
      MemoryStore.onChain, hzero]
    by_cases hstatus : r.status = .broadcast <;>
      by_cases hfee : ofNumeral r.fee_milli_viz = 0 <;> simp [rowToRecord, hstatus, hfee]
  have hfees := hselected.map (·.feeMilliViz)
  rw [List.map_map] at hfees
  have hleast := min?_perm hfees
  unfold MemoryStore.minPegInFeeMilliViz
  rw [foldl_lesserFee, Option.toList_none, List.nil_append, ← hleast,
    SqliteGatewayStore.minPegInFeeMilliViz, run_bind]
  refine Eq.trans ?_ (congrArg (fun fees : List ℤ => (db, fees.min?)) (rfl :
    List.map (fun r : OutboxRow => ofNumeral r.fee_milli_viz)
      (run pl (sql (.selectOutbox _)) db).2 = _))
  rcases List.map _ (run pl _ db).2 with _ | ⟨v, vs⟩
  · rfl
  · exact congrArg (Prod.mk db) (foldl_least v vs)

theorem active_agree :
    (run pl SqliteGatewayStore.activeRemoteChains db).2.Perm s.activeRemoteChains := by
  obtain ⟨hnodup, hmem⟩ := foldl_addActive s.rows [] List.nodup_nil
  refine (List.perm_ext_iff_of_nodup (List.nodup_dedup _) hnodup).2 fun c => ?_
  rw [mem_chains, hmem, h.rows]
  simp only [SqlOp.exec, List.mem_filter, (pl.outbox_perm _).mem_iff, decide_eq_true_eq,
    activeChainStatuses, MemoryStore.isActive, List.mem_map, List.not_mem_nil, false_or,
    exists_exists_and_eq_and, rowToRecord]
  refine exists_congr fun r => ?_
  rcases hchain : r.remote_chain with _ | chain <;> simp
  tauto

end Reads

/-! ## Windows -/

theorem Refines.tail (h : Refines cursorKey stateKey (e :: es) db s) :
    Refines cursorKey stateKey es db s :=
  have hmem : ∀ {f : StoreEvent → Option ℤ} {c : ℤ}, c ∈ es.filterMap f →
      c ∈ (e :: es).filterMap f := fun hc => by
    obtain ⟨x, hx, hf⟩ := List.mem_filterMap.1 hc
    exact List.mem_filterMap.2 ⟨x, List.mem_cons_of_mem _ hx, hf⟩
  { h with
    caps := fun c hc => h.caps c (hmem hc)
    rates := fun c hc => h.rates c (hmem hc) }

/-- Rows after a later cutoff are not touched by an earlier prune. -/
theorem filter_pruned {α : Type} {ts : α → ℤ} {b c : ℤ} (hbc : b ≤ c) (l : List α) :
    (l.filter (b ≤ ts ·)).filter (c ≤ ts ·) = l.filter (c ≤ ts ·) := by
  rw [List.filter_filter]
  refine List.filter_congr fun a _ => ?_
  rw [Bool.eq_iff_iff]
  simp only [Bool.and_eq_true, decide_eq_true_eq, and_iff_left_iff_imp]
  exact hbc.trans

theorem capSum_agree (pl : Planner) {sinceMs : ℤ} (t : ℤ)
    (hcaps : db.cap_window.filter (sinceMs ≤ ·.ts) =
      (s.caps.filter (sinceMs ≤ ·.ts)).map CapEntry.toRow) :
    sumBigIntColumn (((pl.caps (db.cap_window.filter (sinceMs ≤ ·.ts))).filter (·.ts ≤ t)).map
      (·.amount_milli_viz)) = s.capSumMilliViz sinceMs t := by
  have hperm := (pl.caps_perm (db.cap_window.filter (sinceMs ≤ ·.ts))).filter (·.ts ≤ t)
  rw [sumBigIntColumn_eq, ((hperm.map _).map ofNumeral).sum_eq, hcaps, List.filter_map,
    List.filter_filter, List.map_map, List.map_map, MemoryStore.capSumMilliViz, ← List.sum_eq_foldl]
  congr 1
  have hamount : (ofNumeral ∘ (·.amount_milli_viz)) ∘ CapEntry.toRow = (·.amount) := by
    funext a
    exact ofNumeral_repr a.amount
  rw [hamount]
  congr 1
  refine List.filter_congr fun a _ => ?_
  rw [Bool.eq_iff_iff]
  simp only [Function.comp_apply, Bool.and_eq_true, decide_eq_true_eq]
  exact and_comm

/-- Entries added to both windows keep them alike. -/
theorem caps_append {rows : List CapWindowRow} {entries : List CapEntry} {c : ℤ}
    (hcaps : rows.filter (c ≤ ·.ts) = (entries.filter (c ≤ ·.ts)).map CapEntry.toRow)
    (t amount : ℤ) : (rows ++ [(⟨t, amount.repr⟩ : CapWindowRow)]).filter (c ≤ ·.ts) =
      ((entries ++ [(⟨t, amount⟩ : CapEntry)]).filter (c ≤ ·.ts)).map CapEntry.toRow := by
  rw [List.filter_append, List.filter_append, List.map_append, hcaps]
  by_cases h : c ≤ t <;> simp [h, CapEntry.toRow]

/-- One call on the window of caps. -/
theorem caps_step (h : Refines cursorKey stateKey (e :: es) db s)
    (ho : Orderly cursorKey stateKey (e :: es)) {sinceMs : ℤ}
    (hcut : e.call.capCutoff = some sinceMs) :
    db.cap_window.filter (sinceMs ≤ ·.ts) = (s.caps.filter (sinceMs ≤ ·.ts)).map CapEntry.toRow ∧
      ∀ c ∈ es.filterMap (·.call.capCutoff), sinceMs ≤ c := by
  have hcuts : (e :: es).filterMap (·.call.capCutoff) =
      sinceMs :: es.filterMap (·.call.capCutoff) :=
    List.filterMap_cons_some hcut
  have horder := ho.caps
  rw [hcuts] at horder
  exact ⟨h.caps sinceMs (by rw [hcuts]; exact List.mem_cons_self), (List.pairwise_cons.1 horder).1⟩

theorem rates_step (h : Refines cursorKey stateKey (e :: es) db s)
    (ho : Orderly cursorKey stateKey (e :: es)) {cutoff : ℤ}
    (hcut : e.call.rateCutoff = some cutoff) :
    db.pegin_rate.filter (cutoff ≤ ·.ts) = s.rates.filter (cutoff ≤ ·.ts) ∧
      ∀ c ∈ es.filterMap (·.call.rateCutoff), cutoff ≤ c := by
  have hcuts : (e :: es).filterMap (·.call.rateCutoff) =
      cutoff :: es.filterMap (·.call.rateCutoff) :=
    List.filterMap_cons_some hcut
  have horder := ho.rates
  rw [hcuts] at horder
  exact ⟨h.rates cutoff (by rw [hcuts]; exact List.mem_cons_self), (List.pairwise_cons.1 horder).1⟩

/-- Pruned rows and all rows count alike after the cutoff. -/
theorem rate_count (sender : String) {cutoff : ℤ}
    (hrates : db.pegin_rate.filter (cutoff ≤ ·.ts) = s.rates.filter (cutoff ≤ ·.ts)) :
    (db.pegin_rate.filter (cutoff ≤ ·.ts)).countP (fun r => r.sender = sender ∧ cutoff < r.ts) =
      (s.rates.filter fun r => r.sender = sender ∧ cutoff < r.ts).length := by
  rw [hrates, List.countP_filter, List.countP_eq_length_filter]
  congr 1
  refine List.filter_congr fun r _ => ?_
  rw [Bool.eq_iff_iff]
  simp only [Bool.and_eq_true, decide_eq_true_eq, and_iff_left_iff_imp]
  exact fun hr => hr.2.le

/-! ## Deposit addresses -/

theorem scanLe_iff (a b : DepositAddressRecord) :
    Database.scanLe a b = true ↔ a.scanKey ≤ b.scanKey := by
  simp only [Database.scanLe, DepositAddressRecord.scanKey, Prod.Lex.toLex_le_toLex,
    decide_eq_true_eq]
  omega

theorem scanLe_eq : MemoryStore.scanLe = Database.scanLe := by
  funext a b
  rw [Bool.eq_iff_iff]
  simp only [MemoryStore.scanLe, Database.scanLe, decide_eq_true_eq]
  split_ifs <;> simp only [decide_eq_true_eq] <;> omega

section Deposits

variable {pl : Planner} (h : Refines cursorKey stateKey es db s)

include h

theorem scan_agree {n : ℤ} (hn : 0 ≤ n) :
    Sorted.SameTop (·.scanKey) n.toNat
      (Database.limit n ((pl.deposits db.deposit_addresses).mergeSort Database.scanLe))
      (s.depositAddressesForScan n) := by
  unfold Database.limit MemoryStore.depositAddressesForScan MemoryStore.slice
  rw [if_neg hn.not_gt, if_neg hn.not_gt, scanLe_eq, h.deposits]
  refine Sorted.sameTop_take ?_ (Sorted.pairwise_mergeSort scanLe_iff _)
    (Sorted.pairwise_mergeSort scanLe_iff _)
  exact (List.mergeSort_perm _ _).trans
    ((pl.deposits_perm _).trans (List.mergeSort_perm _ _).symm)

theorem address_agree (addressOrAta : String) :
    (pl.deposits db.deposit_addresses).find? (DepositAddressRecord.has addressOrAta) =
        s.deposits.find? (DepositAddressRecord.has addressOrAta) ∨
      ∃ d d', (pl.deposits db.deposit_addresses).find? (DepositAddressRecord.has addressOrAta) = some d ∧
        s.deposits.find? (DepositAddressRecord.has addressOrAta) = some d' ∧ d.vizAccount ≠ d'.vizAccount ∧
        d.has addressOrAta ∧ d'.has addressOrAta := by
  rw [h.deposits]
  have hperm := pl.deposits_perm db.deposit_addresses
  rcases hsql : (pl.deposits db.deposit_addresses).find? (DepositAddressRecord.has addressOrAta) with _ | d
  · rw [List.find?_eq_none] at hsql
    exact .inl (List.find?_eq_none.2 fun d hd => hsql d (hperm.symm.subset hd)).symm
  rcases hmem : db.deposit_addresses.find? (DepositAddressRecord.has addressOrAta) with _ | d'
  · rw [List.find?_eq_none] at hmem
    exact absurd (List.find?_some hsql) (hmem d (hperm.subset (List.mem_of_find?_eq_some hsql)))
  by_cases hacc : d.vizAccount = d'.vizAccount
  · refine .inl (congrArg some ?_)
    exact List.inj_on_of_nodup_map h.accounts
      (hperm.subset (List.mem_of_find?_eq_some hsql)) (List.mem_of_find?_eq_some hmem) hacc
  · exact .inr ⟨d, d', rfl, rfl, hacc, List.find?_some hsql, List.find?_some hmem⟩

end Deposits

/-! ## Keys -/

theorem cursor_agree (pl : Planner) (h : Refines cursorKey stateKey es db s) {name : String}
    (hname : cursorKey name) :
    run pl (SqliteGatewayStore.getCursor name) db = (db, s.getCursor name) := by
  have hget := h.cursors name hname
  have hrun : run pl (SqliteGatewayStore.getCursor name) db =
      (db, (db.gateway_state name).elim 0 fun v => if v = "" then 0 else ofNumeral v) := by
    rw [SqliteGatewayStore.getCursor, run_bind, run_getKey]
    rcases db.gateway_state name <;> rfl
  rw [hrun, hget]
  unfold MemoryStore.getCursor
  rcases s.cursors name with _ | n
  · rfl
  · have hempty : ofNumeral "" = 0 := by decide
    have hread : (if n.repr = "" then 0 else ofNumeral n.repr) = n := by
      split_ifs with he
      · rw [← ofNumeral_repr n, he, hempty]
      · exact ofNumeral_repr n
    exact congrArg (Prod.mk db) hread

theorem fees_update {id : String} {f : OutboxRow → OutboxRow} {rows : List OutboxRow}
    (h : ∀ r ∈ rows, ∃ n : ℤ, r.fee_milli_viz = n.repr)
    (hf : ∀ r, (∃ n : ℤ, r.fee_milli_viz = n.repr) → ∃ n : ℤ, (f r).fee_milli_viz = n.repr) :
    ∀ r ∈ Keyed.update OutboxRow.id id f rows, ∃ n : ℤ, r.fee_milli_viz = n.repr := by
  intro r hr
  obtain ⟨r', hr', rfl⟩ := List.mem_map.1 hr
  split_ifs
  · exact hf r' (h r' hr')
  · exact h r' hr'

theorem of_runs {c : StoreCall} {now : ℤ} {pl : Planner} {a b : c.Ans} {db' : Database}
    {s' : MemoryStore} (hdb : run pl (method now c) db = (db', a)) (hs : s.method now c = (s', b))
    (ht : Refines cursorKey stateKey es db' s') (hagree : c.Agree a b) :
    Refines cursorKey stateKey es (bothStep (db, s) ⟨c, now, pl⟩).1 (bothStep (db, s) ⟨c, now, pl⟩).2 ∧
      Answered (db, s) ⟨c, now, pl⟩ := by
  simp only [bothStep, Answered, hdb, hs]
  exact ⟨ht, hagree⟩

/-- An enqueue of a free id inserts its row. -/
theorem run_enqueue_free {pl : Planner} {now : ℤ} {input : EnqueueInput}
    (hrow : Keyed.get OutboxRow.id input.id db.action_outbox = none) :
    run pl (SqliteGatewayStore.enqueue now input) db =
      ({ db with action_outbox := db.action_outbox ++ [input.toRow now] }, true) := by
  have hinsert : db.insertOutbox (input.toRow now) =
      ({ db with action_outbox := db.action_outbox ++ [input.toRow now] }, 1) := by
    simp [Database.insertOutbox, Keyed.insertNew, hrow]
  rw [SqliteGatewayStore.enqueue, run_bind, run_sql, SqlOp.exec, hinsert]
  rfl

/-- An enqueue of a taken id pauses when the row there has another digest. -/
theorem run_enqueue_taken {pl : Planner} {now : ℤ} {input : EnqueueInput} {r : OutboxRow}
    (hrow : Keyed.get OutboxRow.id input.id db.action_outbox = some r) :
    run pl (SqliteGatewayStore.enqueue now input) db =
      (if r.digest ≠ input.digest then (db.setKey "paused" "1").setKey "pause_reason"
        (Outbox.collisionReason input.id r.digest input.digest) else db, false) := by
  have hinsert : db.insertOutbox (input.toRow now) = (db, 0) := by
    simp [Database.insertOutbox, Keyed.insertNew, hrow]
  have hlook : run pl (lookAtDigest input) db =
      (if r.digest ≠ input.digest then (db.setKey "paused" "1").setKey "pause_reason"
        (Outbox.collisionReason input.id r.digest input.digest) else db, false) := by
    rw [lookAtDigest, run_bind, run_sql, SqlOp.exec, hrow]
    by_cases hd : r.digest = input.digest
    · simp [hd]
    · simp [hd, run_pause]
  rw [SqliteGatewayStore.enqueue, run_bind, run_sql, SqlOp.exec, hinsert]
  exact hlook

/-- A claim of a proposal is refused when another one stands, and made otherwise. -/
theorem run_putSigned {pl : Planner} (actionId : String) (p : SignedProposal)
    (prev : Option String) :
    run pl (SqliteGatewayStore.putSignedProposal actionId p prev) db =
      if (prev = none ∧ (db.signed_proposals actionId).isSome) ∨
          (prev ≠ none ∧ (db.signed_proposals actionId).map (·.key) ≠ prev) then (db, false)
      else (db.putSigned actionId p, true) := by
  rcases prev with _ | k
  · rw [SqliteGatewayStore.putSignedProposal, run_bind, run_sql, SqlOp.exec]
    by_cases hsome : (db.signed_proposals actionId).isSome <;> simp [hsome]
  · rw [SqliteGatewayStore.putSignedProposal, run_bind, run_sql, SqlOp.exec]
    by_cases hkey : (db.signed_proposals actionId).map (·.key) = some k <;> simp [hkey]

theorem rowToRecord_toRow (input : EnqueueInput) (now : ℤ) :
    rowToRecord (input.toRow now) = input.toRecord now := by
  simp [rowToRecord, EnqueueInput.toRow, EnqueueInput.toRecord, ofNumeral_repr]

/-! ## Writing keys -/

theorem Refines.setPause (h : Refines cursorKey stateKey es db s)
    (hpause : ∀ key, cursorKey key ∨ stateKey key → key ≠ "paused" ∧ key ≠ "pause_reason")
    (flag reason : String) : Refines cursorKey stateKey es
      ((db.setKey "paused" flag).setKey "pause_reason" reason)
      { s with paused := decide (flag = "1"), reason } :=
  have hother : ∀ key, cursorKey key ∨ stateKey key →
      ((db.setKey "paused" flag).setKey "pause_reason" reason).gateway_state key =
        db.gateway_state key := fun key hkey => by
    obtain ⟨hpaused, hreason⟩ := hpause key hkey
    simp [Database.setKey, Function.update_of_ne, hpaused, hreason]
  { h with
    cursors := fun name hname => (hother name (.inl hname)).trans (h.cursors name hname)
    state := fun key hkey => (hother key (.inr hkey)).trans (h.state key hkey)
    paused := by simp [Database.setKey]
    reason := by simp [Database.setKey] }

theorem Refines.setCursor (h : Refines cursorKey stateKey (e :: es) db s)
    (ho : Orderly cursorKey stateKey (e :: es)) {name : String} (hname : cursorKey name)
    (value : ℤ) : Refines cursorKey stateKey es (db.setKey name value.repr)
      { s with cursors := Function.update s.cursors name (some value) } :=
  have hpause := ho.pause name (.inl hname)
  { h.tail with
    cursors := fun other hother => by
      by_cases heq : other = name
      · subst heq
        simp [Database.setKey]
      · simpa [Database.setKey, Function.update_of_ne heq] using h.cursors other hother
    state := fun key hkey => by
      have hne : key ≠ name := fun heq => ho.apart name hname (heq ▸ hkey)
      simpa [Database.setKey, Function.update_of_ne hne] using h.state key hkey
    paused := by simpa [Database.setKey, Function.update_of_ne hpause.1.symm] using h.paused
    reason := by simpa [Database.setKey, Function.update_of_ne hpause.2.symm] using h.reason }

theorem Refines.setState (h : Refines cursorKey stateKey (e :: es) db s)
    (ho : Orderly cursorKey stateKey (e :: es)) {key : String} (hkey : stateKey key)
    (value : String) : Refines cursorKey stateKey es (db.setKey key value)
      { s with state := Function.update s.state key (some value) } :=
  have hpause := ho.pause key (.inr hkey)
  { h.tail with
    cursors := fun name hname => by
      have hne : name ≠ key := fun heq => ho.apart name hname (heq ▸ hkey)
      simpa [Database.setKey, Function.update_of_ne hne] using h.cursors name hname
    state := fun other hother => by
      by_cases heq : other = key
      · subst heq
        simp [Database.setKey]
      · simpa [Database.setKey, Function.update_of_ne heq] using h.state other hother
    paused := by simpa [Database.setKey, Function.update_of_ne hpause.1.symm] using h.paused
    reason := by simpa [Database.setKey, Function.update_of_ne hpause.2.symm] using h.reason }

/-! ## One call -/

/-- A call on both stores keeps what the one holds of the other, and is answered alike. -/
theorem step (h : Refines cursorKey stateKey (e :: es) db s)
    (ho : Orderly cursorKey stateKey (e :: es)) :
    Refines cursorKey stateKey es (bothStep (db, s) e).1 (bothStep (db, s) e).2 ∧
      Answered (db, s) e := by
  have ht := h.tail
  have hkeeps := ho.calls e List.mem_cons_self
  obtain ⟨c, now, pl⟩ := e
  rcases c
  case enqueue input =>
    have hget := get_rows h input.id
    rcases hrow : Keyed.get OutboxRow.id input.id db.action_outbox with _ | r
    · rw [hrow, Option.map_none] at hget
      have hmem : s.enqueue now input = ({ s with rows := s.rows ++ [input.toRecord now] }, true) := by
        simp [MemoryStore.enqueue, hget]
      refine of_runs (run_enqueue_free hrow) hmem { ht with rows := ?_, fees := fun r hr => ?_ } rfl
      · rw [List.map_append, ht.rows, List.map_singleton, rowToRecord_toRow]
      · rcases List.mem_append.1 hr with hr | hr
        · exact ht.fees r hr
        · exact ⟨input.feeMilliViz.getD 0, by rw [List.mem_singleton.1 hr]; rfl⟩
    · rw [hrow, Option.map_some] at hget
      have hmem : s.enqueue now input = (if r.digest ≠ input.digest then
          s.pause (Outbox.collisionReason input.id r.digest input.digest) else s, false) := by
        by_cases hd : r.digest = input.digest <;>
          simp [MemoryStore.enqueue, hget, rowToRecord, hd]
      refine of_runs (run_enqueue_taken hrow) hmem ?_ rfl
      split_ifs
      · exact ht.setPause ho.pause "1" _
      · exact ht
  case get id => exact ⟨ht, (get_rows h id).symm⟩
  case setStatus id status patch =>
    refine ⟨{ ht with rows := ?_, fees := ?_ }, rfl⟩
    · exact (congrArg _ ht.rows).trans (Keyed.map_update (fun _ => rfl) fun r => by
        rcases patch with ⟨_, _, _, _, fee⟩
        rcases fee with _ | fee <;>
          simp [rowToRecord, OutboxRecord.withStatus, Database.updateStatus, ofNumeral_repr]).symm
    · exact fees_update ht.fees fun r hr => by
        rcases hfee : patch.feeMilliViz with _ | fee
        · simpa [Database.updateStatus, hfee] using hr
        · exact ⟨fee, by simp [Database.updateStatus, hfee]⟩
  case setFee id fee =>
    refine ⟨{ ht with rows := ?_, fees := ?_ }, rfl⟩
    · exact (congrArg _ ht.rows).trans (Keyed.map_update (fun _ => rfl) fun r => by
        simp [rowToRecord, ofNumeral_repr]).symm
    · exact fees_update ht.fees fun r _ => ⟨fee, rfl⟩
  case delete id =>
    refine ⟨{ ht with rows := ?_, fees := ?_ }, rfl⟩
    · exact (congrArg _ ht.rows).trans (Keyed.map_erase fun _ => rfl).symm
    · exact fun r hr => ht.fees r (List.mem_of_mem_filter hr)
  case due t statuses =>
    by_cases hnil : statuses = []
    · subst hnil
      have hmem : s.due t [] = [] := by simp [MemoryStore.due]
      have hrun : run pl (method now (.due t [])) db = (db, []) := rfl
      exact of_runs hrun (congrArg (Prod.mk s) hmem) ht ⟨.rfl, rfl⟩
    · have hrun : run pl (method now (.due t statuses)) db = (db,
          (((pl.outbox db.action_outbox).filter fun r =>
            r.status ∈ statuses ∧ r.next_attempt_at ≤ t).mergeSort fun a b =>
              a.created_at ≤ b.created_at).map rowToRecord) := by
        simp only [method, if_neg hnil]
        rfl
      exact of_runs hrun rfl ht (due_agree pl h t statuses)
  case stale t ageMs statuses =>
    by_cases hnil : statuses = []
    · subst hnil
      have hmem : s.stale t ageMs [] = [] := by simp [MemoryStore.stale]
      have hrun : run pl (method now (.stale t ageMs [])) db = (db, []) := rfl
      exact of_runs hrun (congrArg (Prod.mk s) hmem) ht .rfl
    · have hrun : run pl (method now (.stale t ageMs statuses)) db = (db,
          ((pl.outbox db.action_outbox).filter fun r =>
            r.status ∈ statuses ∧ r.updated_at < t - ageMs).map rowToRecord) := by
        simp only [method, if_neg hnil]
        rfl
      exact of_runs hrun rfl ht (selected_perm pl h
        (fun r => r.status ∈ statuses ∧ r.updatedAt < t - ageMs) _ fun _ _ => rfl)
  case unsweptFeesMilliViz chain => exact ⟨ht, unswept_agree pl h chain⟩
  case minPegInFeeMilliViz chain => exact of_runs (minFee_agree pl h chain) rfl ht rfl
  case activeRemoteChains => exact ⟨ht, active_agree pl h⟩
  case recordCap amount t =>
    exact ⟨{ ht with caps := fun c hc => caps_append (ht.caps c hc) t amount }, rfl⟩
  case capSumMilliViz sinceMs t =>
    obtain ⟨hcaps, hlater⟩ := caps_step h ho rfl
    refine ⟨{ ht with caps := fun c hc => ?_ }, capSum_agree pl t hcaps⟩
    exact (filter_pruned (hlater c hc) db.cap_window).trans (ht.caps c hc)
  case tryReserveCap amount cap sinceMs t =>
    obtain ⟨hcaps, hlater⟩ := caps_step h ho rfl
    have hsum := capSum_agree pl t hcaps
    have hpruned : ∀ c ∈ es.filterMap (·.call.capCutoff),
        (db.cap_window.filter (sinceMs ≤ ·.ts)).filter (c ≤ ·.ts) =
          (s.caps.filter (c ≤ ·.ts)).map CapEntry.toRow :=
      fun c hc => (filter_pruned (hlater c hc) db.cap_window).trans (ht.caps c hc)
    by_cases hcap : cap < s.capSumMilliViz sinceMs t + amount
    · have hrun : db.reserveCap pl amount cap sinceMs t =
          ({ db with cap_window := db.cap_window.filter (sinceMs ≤ ·.ts) }, false) := by
        simp only [Database.reserveCap, hsum, if_pos hcap]
      have hmem : s.tryReserveCap amount cap sinceMs t = (s, false) := if_pos hcap
      exact of_runs hrun hmem { ht with caps := hpruned } rfl
    · have hrun : db.reserveCap pl amount cap sinceMs t =
          ({ db with
            cap_window := db.cap_window.filter (sinceMs ≤ ·.ts) ++ [⟨t, amount.repr⟩] }, true) := by
        simp only [Database.reserveCap, hsum, if_neg hcap]
      have hmem : s.tryReserveCap amount cap sinceMs t =
          ({ s with caps := s.caps ++ [⟨t, amount⟩] }, true) := if_neg hcap
      exact of_runs hrun hmem { ht with caps := fun c hc => caps_append (hpruned c hc) t amount } rfl
  case tryReserveSenderRate sender maxPerWindow windowMs t =>
    obtain ⟨hrates, hlater⟩ := rates_step h ho rfl
    have hcount := rate_count sender hrates
    have hpruned : ∀ c ∈ es.filterMap (·.call.rateCutoff),
        (db.pegin_rate.filter (t - windowMs ≤ ·.ts)).filter (c ≤ ·.ts) =
          s.rates.filter (c ≤ ·.ts) :=
      fun c hc => (filter_pruned (hlater c hc) db.pegin_rate).trans (ht.rates c hc)
    by_cases hfull : maxPerWindow ≤
        ((s.rates.filter fun r => r.sender = sender ∧ t - windowMs < r.ts).length : ℤ)
    · have hrun : db.reserveRate sender maxPerWindow windowMs t =
          ({ db with pegin_rate := db.pegin_rate.filter (t - windowMs ≤ ·.ts) }, false) := by
        simp only [Database.reserveRate, hcount, if_pos hfull]
      have hmem : s.tryReserveSenderRate sender maxPerWindow windowMs t = (s, false) := if_pos hfull
      exact of_runs hrun hmem { ht with rates := hpruned } rfl
    · have hrun : db.reserveRate sender maxPerWindow windowMs t =
          ({ db with
            pegin_rate := db.pegin_rate.filter (t - windowMs ≤ ·.ts) ++ [⟨sender, t⟩] }, true) := by
        simp only [Database.reserveRate, hcount, if_neg hfull]
      have hmem : s.tryReserveSenderRate sender maxPerWindow windowMs t =
          ({ s with rates := s.rates ++ [⟨sender, t⟩] }, true) := if_neg hfull
      refine of_runs hrun hmem { ht with rates := fun c hc => ?_ } rfl
      rw [List.filter_append, List.filter_append, hpruned c hc]
  case registerDepositAddress acc sol ata =>
    refine ⟨{ ht with deposits := ?_, accounts := Keyed.nodup_insertNew ht.accounts }, rfl⟩
    exact congrArg (Keyed.insertNew DepositAddressRecord.vizAccount ⟨acc, sol, ata, now, 0, 0⟩)
      ht.deposits
  case depositAddressBy addressOrAta => exact ⟨ht, address_agree h addressOrAta⟩
  case depositAddressesForScan limit => exact ⟨ht, scan_agree h hkeeps⟩
  case touchDepositScan acc t =>
    refine ⟨{ ht with deposits := congrArg _ ht.deposits, accounts := ?_ }, rfl⟩
    have hkeys : (Keyed.update DepositAddressRecord.vizAccount acc (fun d => { d with scanTime := t })
        db.deposit_addresses).map (·.vizAccount) = db.deposit_addresses.map (·.vizAccount) :=
      Keyed.map_key_update fun _ => rfl
    exact hkeys ▸ ht.accounts
  case getCursor name => exact of_runs (cursor_agree pl h hkeeps) rfl ht rfl
  case setCursor name value =>
    have hread := cursor_agree pl h hkeeps
    by_cases hle : value ≤ s.getCursor name
    · have hrun : run pl (SqliteGatewayStore.setCursor name value) db = (db, ()) := by
        simp [SqliteGatewayStore.setCursor, hread, hle]
      have hmem : s.setCursor name value = s := if_neg hle.not_gt
      exact of_runs hrun (congrArg (·, ()) hmem) ht rfl
    · have hrun : run pl (SqliteGatewayStore.setCursor name value) db =
          (db.setKey name value.repr, ()) := by
        simp [SqliteGatewayStore.setCursor, hread, hle]
      have hmem : s.setCursor name value =
          { s with cursors := Function.update s.cursors name (some value) } :=
        if_pos (not_le.1 hle)
      exact of_runs hrun (congrArg (·, ()) hmem) (h.setCursor ho hkeeps value) rfl
  case isPaused => exact ⟨ht, h.paused.symm⟩
  case pause reason => exact ⟨ht.setPause ho.pause "1" reason, rfl⟩
  case unpause => exact ⟨ht.setPause ho.pause "0" "", rfl⟩
  case pauseReason =>
    refine ⟨ht, h.reason.trans ?_⟩
    rcases hreason : decide (s.reason = "") <;> simp_all [MemoryStore.method]
  case getState key => exact ⟨ht, h.state key hkeeps⟩
  case setState key value => exact ⟨h.setState ho hkeeps value, rfl⟩
  case getSignedProposal actionId => exact ⟨ht, (congrFun h.signed actionId).symm⟩
  case putSignedProposal actionId key expiresAtMs prev =>
    have hrun := @run_putSigned db pl actionId ⟨key, expiresAtMs⟩ prev
    rw [← h.signed] at hrun
    by_cases hput : (prev = none ∧ (s.signed actionId).isSome) ∨
        (prev ≠ none ∧ (s.signed actionId).map (·.key) ≠ prev)
    · rw [if_pos hput] at hrun
      have hmem : s.putSignedProposal actionId key expiresAtMs prev = (s, false) := if_pos hput
      exact of_runs hrun hmem ht rfl
    · rw [if_neg hput] at hrun
      have hmem : s.putSignedProposal actionId key expiresAtMs prev =
          ({ s with signed := Function.update s.signed actionId (some ⟨key, expiresAtMs⟩) }, true) :=
        if_neg hput
      exact of_runs hrun hmem { ht with signed := by simp [Database.putSigned, ht.signed] } rfl

/-! ## Any sequence of calls -/

theorem Orderly.tail (ho : Orderly cursorKey stateKey (e :: es)) : Orderly cursorKey stateKey es where
  caps := ho.caps.sublist ((List.sublist_cons_self e es).filterMap _)
  rates := ho.rates.sublist ((List.sublist_cons_self e es).filterMap _)
  calls e' he' := ho.calls e' (List.mem_cons_of_mem _ he')
  apart := ho.apart
  pause := ho.pause

theorem meets_of_refines (h : Refines cursorKey stateKey es db s)
    (ho : Orderly cursorKey stateKey es) : Meets bothStep Answered (db, s) es := by
  induction es generalizing db s with
  | nil => trivial
  | cons e es ih =>
    obtain ⟨hnext, hanswered⟩ := step h ho
    exact ⟨hanswered, ih hnext (Orderly.tail ho)⟩

theorem refines_empty : Refines cursorKey stateKey es .empty .empty where
  rows := rfl
  fees r hr := by cases hr
  deposits := rfl
  accounts := List.nodup_nil
  signed := rfl
  caps _ _ := rfl
  rates _ _ := rfl
  cursors _ _ := rfl
  state _ _ := rfl
  paused := rfl
  reason := rfl

end StoreRefinement

/-- Every call of an orderly sequence is answered alike by the store on SQLite and the one in
memory. -/
theorem store_refinement (cursorKey stateKey : String → Prop) (es : List StoreEvent)
    (h : Orderly cursorKey stateKey es) : Meets bothStep Answered (.empty, .empty) es :=
  StoreRefinement.meets_of_refines StoreRefinement.refines_empty h

def aliceDeposit : EnqueueInput :=
  { id := "deposit", direction := .pegIn, recipient := "owner", amountMilliViz := 1000
    digest := "digest" }

/-- A deposit is minted and its chain's cursor moves on, under a cap. -/
def orderlyCalls : List StoreEvent :=
  [⟨.enqueue aliceDeposit, 1000, .inOrder⟩, ⟨.tryReserveCap 1000 5000 0 1000, 1000, .inOrder⟩,
    ⟨.setCursor "cursor:viz" 900, 1000, .inOrder⟩, ⟨.setState "quote" "1", 1000, .inOrder⟩,
    ⟨.setStatus "deposit" .broadcast { feeMilliViz := some 7 }, 1001, .inOrder⟩,
    ⟨.capSumMilliViz 1 1001, 1001, .inOrder⟩, ⟨.minPegInFeeMilliViz none, 1001, .inOrder⟩,
    ⟨.getCursor "cursor:viz", 1001, .inOrder⟩]

theorem store_refinement_sample : Meets bothStep Answered (.empty, .empty) orderlyCalls := by
  refine store_refinement (· = "cursor:viz") (· = "quote") orderlyCalls ?_
  constructor
  · decide
  · decide
  · simp [orderlyCalls, StoreCall.Keeps]
  · rintro key rfl
    decide
  · rintro key (rfl | rfl) <;> decide

/-- The planner that meets the newest rows first. -/
def Planner.newestFirst : Planner where
  outbox := List.reverse
  caps := List.reverse
  deposits := List.reverse
  outbox_perm := List.reverse_perm
  caps_perm := List.reverse_perm
  deposits_perm := List.reverse_perm

/-- What both stores answer a call after some others. -/
def answersAfter (es : List StoreEvent) (e : StoreEvent) : e.call.Ans × e.call.Ans :=
  let s := Runs.run bothStep (.empty, .empty) es
  ((SqliteGatewayStore.run e.planner (method e.now e.call) s.1).2, (s.2.method e.now e.call).2)

def registered : DepositAddressRecord := ⟨"alice", "owner", "shared", 1, 0, 0⟩

/-- A cursor under the pause key, an address of two accounts, a negative limit. -/
theorem stores_differ :
    answersAfter [⟨.setCursor "paused" 1, 1, .inOrder⟩] ⟨.isPaused, 1, .inOrder⟩ = (true, false) ∧
      answersAfter [⟨.registerDepositAddress "alice" "owner" "shared", 1, .inOrder⟩]
        ⟨.depositAddressesForScan (-1), 1, .inOrder⟩ = ([registered], []) ∧
      answersAfter [⟨.registerDepositAddress "alice" "owner" "shared", 1, .inOrder⟩,
          ⟨.registerDepositAddress "bob" "shared" "ata", 1, .inOrder⟩]
        ⟨.depositAddressBy "shared", 1, .newestFirst⟩ =
        (some ⟨"bob", "shared", "ata", 1, 0, 0⟩, some registered) :=
  ⟨by decide +kernel, by decide +kernel, by decide +kernel⟩

end VizGateway
