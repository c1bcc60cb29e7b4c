import VizGateway.Lib.Sorted
import VizGateway.Proofs.GramContiguity

/-!
# The page walk

A walk that reports itself drained returns the burns of every final transaction above the cursor,
and it drains whenever one page more than needed is allowed. One page size is the exception: a page
of one transaction repeats the anchor and nothing else, which the walk takes for the end of the
history (`pagination_complete_iff`).
-/

namespace VizGateway

open Checks

namespace Pagination

open ScanProgress BurnReaders GramContiguity

section

variable (hist : WalletHistory) (limit fromLt : ℕ) (cutoff : ℤ)
  (toBurn : GramTx → Except String (Option RemoteBurn))

/-- The transactions above the cursor, newest first. -/
def above : List GramTx := hist.txs.filter (fromLt < ·.lt)

/-- The final ones among some transactions. -/
def finals (txs : List GramTx) : List GramTx := txs.filter (·.now ≤ cutoff)

/-- The walk over a history from its newest transaction. -/
def walk (maxScanPages : ℕ) : Except String ScanResult :=
  paginateBurnsByLt fromLt cutoff toBurn limit (fun a => .ok (hist.getTransactions limit a))
    maxScanPages none ⟨[], fromLt⟩

/-- How many transactions some pages hold: each after the first repeats one. -/
def held : ℕ → ℕ
  | 0 => 0
  | n + 1 => limit + n * (limit - 1)

/-- The burns are the images of the final transactions above the cursor, each once and in order,
and the new cursor is the largest logical time among them. -/
def Complete (scan : Scan) : Prop :=
  (∃ images : List (Option RemoteBurn), images.map .ok = (finals cutoff (above hist fromLt)).map toBurn ∧
    scan.burns = images.reduceOption) ∧
  scan.newestFinalLt = ((finals cutoff (above hist fromLt)).map GramTx.lt).foldl max fromLt

/-- A drained walk is complete, and a walk with a page to spare drains. -/
structure LosesNothing (maxScanPages : ℕ) (res : ScanResult) : Prop where
  complete : res.drained = true → Complete hist fromLt cutoff toBurn res.toScan
  drains : (above hist fromLt).length ≤ held limit (maxScanPages - 1) → res.drained = true

/-- Behind the newest transaction above the cursor there is no burn to find, nor a final
transaction before the newest one is final. -/
def NothingBehind : Prop :=
  ∀ tx ∈ (above hist fromLt).tail, tx.now ≤ cutoff →
    toBurn tx = .ok none ∧ ∀ f ∈ (above hist fromLt).head?, f.now ≤ cutoff

end

variable {hist : WalletHistory} {limit fromLt : ℕ} {cutoff : ℤ}
  {toBurn : GramTx → Except String (Option RemoteBurn)} {res : ScanResult}

theorem above_eq_fresh : above hist fromLt = fresh fromLt hist.txs := by
  obtain ⟨txs, hsorted⟩ := hist
  change txs.filter (fromLt < ·.lt) = fresh fromLt txs
  induction txs with
  | nil => rfl
  | cons tx txs ih =>
    rw [List.pairwise_cons] at hsorted
    by_cases hlt : fromLt < tx.lt
    · rw [List.filter_cons_of_pos (by simpa using hlt), ih hsorted.2]
      simp [fresh, hlt]
    · have hnil : txs.filter (fromLt < ·.lt) = [] := by
        rw [List.filter_eq_nil_iff]
        intro t ht
        have := hsorted.1 t ht
        simp only [decide_eq_true_eq]
        omega
      rw [List.filter_cons_of_neg (by simpa using hlt), hnil]
      simp [fresh, hlt]

/-! ## What a scan of some transactions returns -/

theorem foldlM_scanTx_iff {txs : List GramTx} {acc scan : Scan} :
    txs.foldlM (scanTx cutoff toBurn) acc = .ok scan ↔
      (∃ images : List (Option RemoteBurn), images.map .ok = (finals cutoff txs).map toBurn ∧
        scan.burns = acc.burns ++ images.reduceOption) ∧
      scan.newestFinalLt = ((finals cutoff txs).map GramTx.lt).foldl max acc.newestFinalLt := by
  induction txs generalizing acc with
  | nil =>
    simp only [List.foldlM_nil, pure_eq_ok, finals, List.filter_nil, List.map_nil, List.foldl_nil,
      List.map_eq_nil_iff, exists_eq_left, List.reduceOption_nil, List.append_nil]
    constructor
    · rintro rfl
      exact ⟨rfl, rfl⟩
    · rintro ⟨hb, hl⟩
      cases acc
      cases scan
      simp_all
  | cons tx txs ih =>
    rw [List.foldlM_cons, bind_eq_ok]
    unfold scanTx
    by_cases hnow : tx.now ≤ cutoff
    · have hfin : finals cutoff (tx :: txs) = tx :: finals cutoff txs := by simp [finals, hnow]
      simp only [if_pos hnow, hfin, bind_eq_ok, pure_eq_ok, List.map_cons, List.foldl_cons,
        List.map_eq_cons_iff]
      constructor
      · rintro ⟨mid, ⟨burn, hburn, rfl⟩, hrest⟩
        obtain ⟨⟨images, him, hb⟩, hl⟩ := ih.1 hrest
        refine ⟨⟨burn :: images, ⟨burn, images, rfl, hburn.symm, him⟩, ?_⟩, hl⟩
        rw [hb, List.append_assoc]
        rcases burn with _ | b <;> simp
      · rintro ⟨⟨_, ⟨burn, images, rfl, hburn, him⟩, hb⟩, hl⟩
        refine ⟨_, ⟨burn, hburn.symm, rfl⟩, ih.2 ⟨⟨images, him, ?_⟩, hl⟩⟩
        rw [hb, List.append_assoc]
        rcases burn with _ | b <;> simp
    · have hfin : finals cutoff (tx :: txs) = finals cutoff txs := by simp [finals, hnow]
      simp only [if_neg hnow, hfin, Except.ok.injEq, exists_eq_left']
      exact ih

theorem complete_iff {scan : Scan} : Complete hist fromLt cutoff toBurn scan ↔
    (above hist fromLt).foldlM (scanTx cutoff toBurn) ⟨[], fromLt⟩ = .ok scan := by
  rw [foldlM_scanTx_iff]
  simp [Complete]

/-- A scan stands still over transactions that are not final or older and without a burn. -/
theorem foldlM_scanTx_self {txs : List GramTx} {scan : Scan} :
    txs.foldlM (scanTx cutoff toBurn) scan = .ok scan ↔
      ∀ tx ∈ txs, tx.now ≤ cutoff → toBurn tx = .ok none ∧ tx.lt ≤ scan.newestFinalLt := by
  have hmem : ∀ {tx}, tx ∈ finals cutoff txs ↔ tx ∈ txs ∧ tx.now ≤ cutoff := by simp [finals]
  rw [foldlM_scanTx_iff]
  constructor
  · rintro ⟨⟨images, him, hb⟩, hl⟩ tx htx hnow
    have happ : scan.burns ++ [] = scan.burns ++ images.filterMap id := by
      rw [List.append_nil]
      exact hb
    have hnil : images.filterMap id = [] := (List.append_cancel_left happ).symm
    rw [List.filterMap_eq_nil_iff] at hnil
    have hle := (Sorted.foldl_max_le_iff.1 hl.ge).2
    have htoBurn := List.mem_map_of_mem (f := toBurn) (hmem.2 ⟨htx, hnow⟩)
    rw [← him, List.mem_map] at htoBurn
    obtain ⟨b, hbmem, hb⟩ := htoBurn
    rw [← hb, show b = none from hnil b hbmem]
    exact ⟨rfl, hle tx.lt (List.mem_map_of_mem (hmem.2 ⟨htx, hnow⟩))⟩
  · intro h
    refine ⟨⟨(finals cutoff txs).map fun _ => none, ?_, ?_⟩, ?_⟩
    · rw [List.map_map]
      exact List.map_congr_left fun tx htx => (h tx (hmem.1 htx).1 (hmem.1 htx).2).1.symm
    · simp [List.reduceOption, List.filterMap_map]
    · refine le_antisymm ?_ (Sorted.foldl_max_le_iff.2 ⟨le_rfl, fun x hx => ?_⟩)
      · exact (Sorted.foldl_max_le_iff.1 le_rfl).1
      · obtain ⟨tx, htx, rfl⟩ := List.mem_map.1 hx
        exact (h tx (hmem.1 htx).1 (hmem.1 htx).2).2

/-! ## When a walk drains -/

theorem below_page {pre post items : List GramTx} {a last : GramTx} {k : ℕ}
    (hsplit : hist.txs = pre ++ a :: post) (hitems : post.take k = items ++ [last]) :
    hist.txs = pre ++ a :: items ++ last :: post.drop k := by
  calc hist.txs = pre ++ a :: (post.take k ++ post.drop k) := by rw [hsplit, List.take_append_drop]
    _ = pre ++ a :: items ++ last :: post.drop k := by rw [hitems]; simp

theorem anchored_turn (hlimit : 1 ≤ limit) {n : ℕ} {pre post : List GramTx} {a : GramTx}
    (hsplit : hist.txs = pre ++ a :: post) {acc : Scan}
    (h : paginateBurnsByLt fromLt cutoff toBurn limit
      (fun anchor => .ok (hist.getTransactions limit anchor)) (n + 1) (some (a.lt, a.hash)) acc
        = .ok res) :
    (res.drained = true ∧ (0 < limit - 1 → fresh fromLt post = fresh fromLt (post.take (limit - 1))))
      ∨ ∃ last scan, (post.take (limit - 1)).getLast? = some last ∧ limit - 1 ≤ post.length ∧
        fresh fromLt post = post.take (limit - 1) ++ fresh fromLt (post.drop (limit - 1)) ∧
        paginateBurnsByLt fromLt cutoff toBurn limit
          (fun anchor => .ok (hist.getTransactions limit anchor)) n (some (last.lt, last.hash)) scan
            = .ok res := by
  have hpost := (List.pairwise_cons.1 (List.pairwise_append.1 (hsplit ▸ hist.newestFirst)).2.1).1
  exact drained_turn [a] post (congrArg Except.ok (getTransactions_anchor hist hlimit hsplit))
    (by simp; omega) (by simp) (fun tx ht => by simpa using hpost tx ht) h

theorem full_page_length {rest : List GramTx} {k : ℕ} {last : GramTx}
    (hlast : (rest.take k).getLast? = some last) (hk : k ≤ rest.length)
    (hfresh : fresh fromLt rest = rest.take k ++ fresh fromLt (rest.drop k)) :
    0 < k ∧ (fresh fromLt rest).length = k + (fresh fromLt (rest.drop k)).length := by
  constructor
  · rcases k with _ | k
    · simp at hlast
    · omega
  · rw [hfresh, List.length_append, List.length_take, Nat.min_eq_left hk]

/-- A walk below an anchor drains with one page more than those above the cursor need. -/
theorem drains_anchored (hlimit : 1 ≤ limit) (n : ℕ) {pre post : List GramTx} {a : GramTx}
    (hsplit : hist.txs = pre ++ a :: post) {acc : Scan}
    (h : paginateBurnsByLt fromLt cutoff toBurn limit
      (fun anchor => .ok (hist.getTransactions limit anchor)) (n + 1) (some (a.lt, a.hash)) acc
        = .ok res)
    (hlen : (fresh fromLt post).length ≤ n * (limit - 1)) : res.drained = true := by
  induction n generalizing pre post a acc with
  | zero =>
    rcases anchored_turn hlimit hsplit h with ⟨hdrained, -⟩ | ⟨last, scan, hlast, hk, hfresh, -⟩
    · exact hdrained
    · have := full_page_length hlast hk hfresh
      omega
  | succ n ih =>
    rcases anchored_turn hlimit hsplit h
      with ⟨hdrained, -⟩ | ⟨last, scan, hlast, hk, hfresh, hnext⟩
    · exact hdrained
    · have := full_page_length hlast hk hfresh
      rw [Nat.succ_mul] at hlen
      obtain ⟨items, hitems⟩ := List.getLast?_eq_some_iff.1 hlast
      exact ih (below_page hsplit hitems) hnext (by omega)

theorem drains (hlimit : 1 ≤ limit) {n : ℕ}
    (h : walk hist limit fromLt cutoff toBurn (n + 1) = .ok res)
    (hlen : (above hist fromLt).length ≤ held limit n) : res.drained = true := by
  rw [above_eq_fresh] at hlen
  rcases drained_turn [] hist.txs rfl (by simp) (by simp) (by simp) h
    with ⟨hdrained, -⟩ | ⟨last, scan, hlast, hk, hfresh, hnext⟩
  · exact hdrained
  · have := full_page_length hlast hk hfresh
    rcases n with _ | n
    · simp only [held] at hlen
      omega
    · obtain ⟨items, hitems⟩ := List.getLast?_eq_some_iff.1 hlast
      simp only [held] at hlen
      have hsplit : hist.txs = items ++ last :: hist.txs.drop limit := by
        calc hist.txs = hist.txs.take limit ++ hist.txs.drop limit :=
              (List.take_append_drop ..).symm
          _ = items ++ last :: hist.txs.drop limit := by rw [hitems, List.append_assoc]; rfl
      exact drains_anchored hlimit n hsplit hnext (by omega)

/-! ## When a drained walk is complete -/

theorem toScan_walk (hlimit : 1 ≤ limit) {n : ℕ}
    (h : walk hist limit fromLt cutoff toBurn (n + 1) = .ok res) :
    (fresh fromLt (hist.txs.take (limit + n * (limit - 1)))).foldlM (scanTx cutoff toBurn)
      ⟨[], fromLt⟩ = .ok res.toScan := by
  rw [← paginateBurnsByLt_eq hist hlimit n]
  exact congrArg (ScanResult.toScan <$> ·) h

/-- A walk in pages of one stops at its second page. -/
theorem drained_of_narrow {n : ℕ} (h : walk hist 1 fromLt cutoff toBurn (n + 2) = .ok res) :
    res.drained = true := by
  rcases drained_turn [] hist.txs rfl (by simp) (by simp) (by simp) h
    with ⟨hdrained, -⟩ | ⟨last, scan, hlast, hk, hfresh, hnext⟩
  · exact hdrained
  · obtain ⟨items, hitems⟩ := List.getLast?_eq_some_iff.1 hlast
    have hsplit : hist.txs = items ++ last :: hist.txs.drop 1 := by
      calc hist.txs = hist.txs.take 1 ++ hist.txs.drop 1 := (List.take_append_drop ..).symm
        _ = items ++ last :: hist.txs.drop 1 := by rw [hitems, List.append_assoc]; rfl
    rcases anchored_turn le_rfl hsplit hnext with ⟨hdrained, -⟩ | ⟨last', _, hlast', -, -, -⟩
    · exact hdrained
    · simp at hlast'

theorem complete_of_wide (hlimit : 2 ≤ limit) {n : ℕ}
    (h : walk hist limit fromLt cutoff toBurn (n + 1) = .ok res) (hdrained : res.drained = true) :
    Complete hist fromLt cutoff toBurn res.toScan := by
  rw [complete_iff, above_eq_fresh, drained_fresh hist hlimit n h hdrained]
  exact toScan_walk (by omega) h

theorem complete_of_one_page (hlimit : 1 ≤ limit)
    (h : walk hist limit fromLt cutoff toBurn 1 = .ok res) (hdrained : res.drained = true) :
    Complete hist fromLt cutoff toBurn res.toScan := by
  have hscan := toScan_walk (n := 0) hlimit h
  rw [Nat.zero_mul, Nat.add_zero] at hscan
  rw [complete_iff, above_eq_fresh]
  rcases drained_turn [] hist.txs rfl (by simp) (by simp) (by simp) h
    with ⟨-, hfresh⟩ | ⟨last, scan, hlast, hk, hfresh, hnext⟩
  · rw [hfresh hlimit]
    exact hscan
  · cases hnext
    cases hdrained

/-- Past its first page a walk in pages of one is complete when there is nothing behind. -/
theorem complete_narrow_iff {n : ℕ} (h : walk hist 1 fromLt cutoff toBurn (n + 1) = .ok res) :
    Complete hist fromLt cutoff toBurn res.toScan ↔ NothingBehind hist fromLt cutoff toBurn := by
  have hscan := toScan_walk le_rfl h
  have htake : fresh fromLt (hist.txs.take (1 + n * (1 - 1))) = (above hist fromLt).take 1 := by
    rw [above_eq_fresh, Nat.sub_self, Nat.mul_zero]
    rcases hist.txs with _ | ⟨tx, txs⟩
    · rfl
    · by_cases hlt : fromLt < tx.lt <;> simp [fresh, hlt]
  rw [htake] at hscan
  have habove : ∀ tx ∈ above hist fromLt, fromLt < tx.lt := by simp [above]
  have hsorted : (above hist fromLt).Pairwise fun a b => b.lt < a.lt :=
    hist.newestFirst.filter _
  rw [complete_iff]
  unfold NothingBehind
  generalize above hist fromLt = txs at *
  rcases txs with _ | ⟨f, rest⟩
  · simpa using hscan
  · have hone : scanTx cutoff toBurn ⟨[], fromLt⟩ f = .ok res.toScan := by
      simpa using hscan
    rw [List.foldlM_cons, hone, ok_bind, foldlM_scanTx_self, List.tail_cons]
    refine forall₃_congr fun tx htx hnow => and_congr_right fun _ => ?_
    have hlt := habove tx (List.mem_cons_of_mem _ htx)
    have hold := (List.pairwise_cons.1 hsorted).1 tx htx
    simp only [List.head?_cons, Option.mem_some_iff, forall_eq']
    unfold scanTx at hone
    by_cases hf : f.now ≤ cutoff
    · rw [if_pos hf, bind_eq_ok] at hone
      obtain ⟨burn, -, hret⟩ := hone
      have hnewest : max fromLt f.lt = res.newestFinalLt :=
        congrArg Scan.newestFinalLt (Except.ok.inj hret)
      exact iff_of_true (by omega) hf
    · rw [if_neg hf] at hone
      have hnewest : fromLt = res.newestFinalLt := congrArg Scan.newestFinalLt (Except.ok.inj hone)
      exact iff_of_false (by omega) hf

end Pagination

open Pagination

/-- A walk that returns is complete where it drains, and drains with a page to spare, except in
pages of one transaction with something behind the first. -/
theorem pagination_complete_iff (hist : WalletHistory) (limit maxScanPages fromLt : ℕ) (cutoff : ℤ)
    (toBurn : GramTx → Except String (Option RemoteBurn)) (res : ScanResult) (hlimit : 1 ≤ limit)
    (hpages : 1 ≤ maxScanPages)
    (h : walk hist limit fromLt cutoff toBurn maxScanPages = .ok res) :
    LosesNothing hist limit fromLt cutoff toBurn maxScanPages res ↔
      2 ≤ limit ∨ maxScanPages = 1 ∨ NothingBehind hist fromLt cutoff toBurn := by
  obtain ⟨n, rfl⟩ : ∃ n, maxScanPages = n + 1 := ⟨maxScanPages - 1, by omega⟩
  have hdrains : (above hist fromLt).length ≤ held limit (n + 1 - 1) → res.drained = true :=
    drains hlimit h
  constructor
  · intro hloses
    by_cases hwide : 2 ≤ limit
    · exact .inl hwide
    obtain rfl : limit = 1 := by omega
    rcases n with _ | n
    · exact .inr (.inl rfl)
    · exact .inr (.inr ((complete_narrow_iff h).1 (hloses.complete (drained_of_narrow h))))
  · intro hcond
    refine ⟨fun hdrained => ?_, hdrains⟩
    by_cases hwide : 2 ≤ limit
    · exact complete_of_wide hwide h hdrained
    obtain rfl : limit = 1 := by omega
    rcases hcond with hwide | hone | hbehind
    · omega
    · obtain rfl : n = 0 := by omega
      exact complete_of_one_page hlimit h hdrained
    · exact (complete_narrow_iff h).2 hbehind

/-- Two burns of the gateway wallet, the newer one first. -/
def twoBurnHistory : WalletHistory := ⟨[secondBurn, sampleGramTx], twoBurns_newestFirst⟩

def sampleToBurn (tx : GramTx) : Except String (Option RemoteBurn) :=
  burnFromTx sampleLibs tx 1767225594 70

theorem pagination_complete_sample :
    LosesNothing twoBurnHistory 2 4 1767225594 sampleToBurn 3
      ⟨⟨[{ sampleBurn with sourceId := "02" }, sampleBurn], 9⟩, true⟩ :=
  (pagination_complete_iff twoBurnHistory 2 3 4 1767225594 sampleToBurn _ (by decide) (by decide)
    (by decide +kernel)).2 (.inl le_rfl)

/-- In pages of one the older burn is lost, and the walk reports itself drained. -/
theorem narrow_walk_loses_burn :
    walk twoBurnHistory 1 4 1767225594 sampleToBurn 10
        = .ok ⟨⟨[{ sampleBurn with sourceId := "02" }], 9⟩, true⟩ ∧
      sampleToBurn sampleGramTx = .ok (some sampleBurn) ∧
      ¬ LosesNothing twoBurnHistory 1 4 1767225594 sampleToBurn 10
        ⟨⟨[{ sampleBurn with sourceId := "02" }], 9⟩, true⟩ := by
  have hwalk : walk twoBurnHistory 1 4 1767225594 sampleToBurn 10
      = .ok ⟨⟨[{ sampleBurn with sourceId := "02" }], 9⟩, true⟩ := by
    decide +kernel
  have hburn : sampleToBurn sampleGramTx = .ok (some sampleBurn) := by
    decide +kernel
  refine ⟨hwalk, hburn, fun hloses => ?_⟩
  have hfold := complete_iff.1 (hloses.complete rfl)
  have hall : (above twoBurnHistory 4).foldlM (scanTx 1767225594 sampleToBurn) ⟨[], 4⟩
      = .ok ⟨[{ sampleBurn with sourceId := "02" }, sampleBurn], 9⟩ := by
    decide +kernel
  rw [hall, Except.ok.injEq, Scan.mk.injEq] at hfold
  simp at hfold

end VizGateway
