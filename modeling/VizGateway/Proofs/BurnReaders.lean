import Mathlib
import VizGateway.SourceValidator
import VizGateway.Proofs.ScanProgress

/-!
# Two readers of one burn

The watcher pages down to its cursor, the signer looks at the newest page only, and both parse with
`burnFromTx`. So they agree on every burn the signer still sees, and it sees a burn for as long as
fewer than a page of transactions came after it.
-/

namespace VizGateway

open Checks

/-- Two readings that differ in the height alone. -/
def RemoteBurn.SameEvent (b b' : RemoteBurn) : Prop :=
  b.chain = b'.chain ∧ b.sourceId = b'.sourceId ∧ b.sender = b'.sender
    ∧ b.amountMilliViz = b'.amountMilliViz ∧ b.homeDestination = b'.homeDestination

namespace BurnReaders

open ScanProgress

variable {L : Libs} {cfg : GramScanConfig} {w w' : Wallet} {nowMs nowMs' : ℤ}
  {height height' fromLt : ℕ} {b b' : RemoteBurn} {id : String} {tx : GramTx} {res : ScanResult}

/-! ## The parse -/

theorem sourceId_burnFromTx {cutoff : ℤ} (h : burnFromTx L tx cutoff height = .ok (some b)) :
    b.sourceId = tx.hash := by
  obtain ⟨-, -, body, parsed, -, -, rfl⟩ := burnFromTx_eq_some h
  rfl

theorem sameEvent_burnFromTx {cutoff cutoff' : ℤ}
    (h : burnFromTx L tx cutoff height = .ok (some b))
    (h' : burnFromTx L tx cutoff' height' = .ok (some b')) : b'.SameEvent b := by
  obtain ⟨-, -, body, parsed, hbody, hparsed, rfl⟩ := burnFromTx_eq_some h
  obtain ⟨-, -, body', parsed', hbody', hparsed', rfl⟩ := burnFromTx_eq_some h'
  rw [hbody] at hbody'
  cases hbody'
  rw [hparsed] at hparsed'
  cases hparsed'
  exact ⟨rfl, rfl, rfl, rfl, rfl⟩

/-- A burn is read at every cutoff its transaction is final at. -/
theorem burnFromTx_later {cutoff cutoff' : ℤ} (hnow : tx.now ≤ cutoff') (height' : ℕ)
    (h : burnFromTx L tx cutoff height = .ok (some b)) :
    ∃ b', burnFromTx L tx cutoff' height' = .ok (some b') := by
  obtain ⟨-, hcomp, body, parsed, hbody, hparsed, -⟩ := burnFromTx_eq_some h
  have hbits : body.bits ≠ [] := by
    intro hnil
    have hnone : parseJettonDeposit L body.beginParse = .ok none := by
      unfold parseJettonDeposit
      rw [if_pos (by simp [Cell.beginParse, hnil])]
    rw [hnone] at hparsed
    cases hparsed
  have hfinal : ¬ tx.now > cutoff' := by omega
  refine ⟨{ chain := .gram, sourceId := tx.hash, height := height', sender := parsed.sender
            amountMilliViz := parsed.amountBaseUnits, homeDestination := Text.trim parsed.comment },
    ?_⟩
  unfold burnFromTx
  simp [hfinal, hcomp, hbody, hbits, hparsed]

/-! ## The signer's page -/

theorem eq_of_hash {t t' : GramTx} (ht : t ∈ w.txs) (ht' : t' ∈ w.txs) (h : t.hash = t'.hash) :
    t = t' :=
  List.inj_on_of_nodup_map w.hashes ht ht' h

theorem eq_of_lt {t t' : GramTx} (ht : t ∈ w.txs) (ht' : t' ∈ w.txs) (h : t.lt = t'.lt) :
    t = t' := by
  have hnodup : (w.txs.map GramTx.lt).Nodup :=
    List.pairwise_map.2 (w.newestFirst.imp fun hlt => Nat.ne_of_gt hlt)
  exact List.inj_on_of_nodup_map hnodup ht ht' h

theorem getBurn_iff : getBurn L (w.node cfg nowMs height) id = .ok (some b) ↔
    ∃ tx ∈ w.txs.take cfg.limit, tx.hash = id
      ∧ burnFromTx L tx (nowMs / 1000 - cfg.finalityBufferSec) height = .ok (some b) := by
  have hget : getBurn L (w.node cfg nowMs height) id
      = ((w.txs.take cfg.limit).find? fun tx => tx.hash = id).elim (.ok none)
        fun tx => burnFromTx L tx (nowMs / 1000 - cfg.finalityBufferSec) height := by
    unfold getBurn
    rw [if_neg (by simp [Wallet.node]), show (w.node cfg nowMs height).getTransactions
      = .ok (w.txs.take cfg.limit) from rfl, ok_bind]
    split
    · next h => rw [h]; rfl
    · next h => rw [h]; rfl
  rw [hget]
  cases hfind : (w.txs.take cfg.limit).find? fun tx => tx.hash = id with
  | none =>
    rw [List.find?_eq_none] at hfind
    simp only [Option.elim_none, Except.ok.injEq, reduceCtorEq, false_iff, not_exists, not_and]
    intro tx htx hid
    have hne : ¬ tx.hash = id := by simpa using hfind tx htx
    exact absurd hid hne
  | some t =>
    have ht : t.hash = id := by simpa using List.find?_some hfind
    have hmem := List.mem_of_find?_eq_some hfind
    constructor
    · exact fun h => ⟨t, hmem, ht, h⟩
    · rintro ⟨tx, htx, hid, h⟩
      have heq : t = tx :=
        eq_of_hash (List.mem_of_mem_take hmem) (List.mem_of_mem_take htx) (ht.trans hid.symm)
      rw [heq]
      exact h

/-! ## The watcher's range -/

theorem mem_fresh {txs : List GramTx} (h : txs.Pairwise fun a b => b.lt < a.lt) :
    tx ∈ fresh fromLt txs ↔ tx ∈ txs ∧ fromLt < tx.lt := by
  induction txs with
  | nil => simp [fresh]
  | cons t txs ih =>
    rw [List.pairwise_cons] at h
    unfold fresh at ih ⊢
    by_cases ht : fromLt < t.lt
    · rw [List.takeWhile_cons_of_pos (by simpa using ht), List.mem_cons, List.mem_cons, ih h.2]
      constructor
      · rintro (rfl | ⟨hmem, hlt⟩)
        · exact ⟨.inl rfl, ht⟩
        · exact ⟨.inr hmem, hlt⟩
      · rintro ⟨rfl | hmem, hlt⟩
        · exact .inl rfl
        · exact .inr ⟨hmem, hlt⟩
    · rw [List.takeWhile_cons_of_neg (by simpa using ht)]
      simp only [List.not_mem_nil, List.mem_cons, false_iff, not_and]
      rintro (rfl | hmem)
      · exact ht
      · have := h.1 tx hmem
        omega

theorem mem_range {hist : WalletHistory} :
    tx ∈ hist.range cfg fromLt ↔ tx ∈ hist.txs.take cfg.window ∧ fromLt < tx.lt :=
  mem_fresh (hist.newestFirst.sublist (List.take_sublist ..))

theorem limit_le_window : cfg.limit ≤ cfg.window := Nat.le_add_right ..

theorem mem_window (h : tx ∈ w.txs.take cfg.limit) : tx ∈ w.txs.take cfg.window :=
  (List.take_prefix_take_left limit_le_window).subset h

/-- The burns a scan reports are those of the final transactions it folds over. -/
theorem mem_foldlM_scanTx {cutoff : ℤ} {toBurn : GramTx → Except String (Option RemoteBurn)}
    {txs : List GramTx} {acc scan : Scan} (h : txs.foldlM (scanTx cutoff toBurn) acc = .ok scan)
    (hb : b ∈ scan.burns) : b ∈ acc.burns ∨ ∃ tx ∈ txs, toBurn tx = .ok (some b) := by
  induction txs generalizing acc with
  | nil =>
    cases h
    exact .inl hb
  | cons tx txs ih =>
    rw [List.foldlM_cons] at h
    obtain ⟨mid, hmid, hrest⟩ := bind_eq_ok.1 h
    rcases ih hrest with hb | ⟨t, ht, hburn⟩
    · unfold scanTx at hmid
      split_ifs at hmid with hfinal
      · obtain ⟨burn, hburn, hret⟩ := bind_eq_ok.1 hmid
        cases hret
        rcases List.mem_append.1 hb with hb | hb
        · exact .inl hb
        · rw [Option.mem_toList] at hb
          cases hb
          exact .inr ⟨tx, List.mem_cons_self, hburn⟩
      · cases hmid
        exact .inl hb
    · exact .inr ⟨t, List.mem_cons_of_mem _ ht, hburn⟩

/-- What a scan reports. -/
theorem mem_burns_iff {hist : WalletHistory}
    (h : finalizedBurnsPaginated L cfg hist nowMs height fromLt = .ok res) :
    b ∈ res.burns ↔ ∃ tx ∈ hist.range cfg fromLt,
      burnFromTx L tx (nowMs / 1000 - cfg.finalityBufferSec) height = .ok (some b) := by
  have hscan := finalizedBurnsPaginated_eq L cfg hist nowMs height fromLt
  rw [h] at hscan
  constructor
  · intro hb
    rcases mem_foldlM_scanTx hscan.symm hb with hb | hb
    · cases hb
    · exact hb
  · rintro ⟨tx, htx, hb⟩
    exact ((foldlM_scanTx hscan.symm).2.2 tx htx (burnFromTx_eq_some hb).1).2 b hb

section Drained

variable {cutoff : ℤ} {toBurn : GramTx → Except String (Option RemoteBurn)}

/-- A page of nothing but repeated and already scanned transactions ends the scan. -/
theorem scanPage_stale {anchorLt : ℕ} {page : List GramTx} {acc scanned : PageScan}
    (hpage : ∀ t ∈ page, anchorLt ≤ t.lt ∨ t.lt ≤ fromLt) (hacc : acc.sawFresh = false)
    (h : scanPage fromLt cutoff toBurn (some anchorLt) page acc = .ok scanned) :
    scanned.drained = true ∨ scanned.sawFresh = false := by
  induction page with
  | nil =>
    cases h
    exact .inr hacc
  | cons t page ih =>
    rw [scanPage] at h
    split_ifs at h with hskip hcursor
    · exact ih (fun t ht => hpage t (List.mem_cons_of_mem _ ht)) h
    · cases h
      exact .inl rfl
    · rcases hpage t List.mem_cons_self with hlt | hlt
      · simp [hlt] at hskip
      · omega

theorem paginate_stale {limit n anchorLt : ℕ} {hash : String} {acc : Scan}
    {fetchPage : Option (ℕ × String) → Except String (List GramTx)}
    (hpage : ∀ t : GramTx, anchorLt ≤ t.lt ∨ t.lt ≤ fromLt)
    (h : paginateBurnsByLt fromLt cutoff toBurn limit fetchPage (n + 1) (some (anchorLt, hash)) acc
      = .ok res) : res.drained = true := by
  rw [paginateBurnsByLt] at h
  obtain ⟨page, -, h⟩ := bind_eq_ok.1 h
  by_cases hnil : page = []
  · rw [if_pos hnil] at h
    cases h
    rfl
  · rw [if_neg hnil] at h
    obtain ⟨scanned, hscanned, h⟩ := bind_eq_ok.1 h
    rcases scanPage_stale (fun t _ => hpage t) rfl hscanned with hend | hend
    · rw [if_pos hend] at h
      cases h
      rfl
    · cases hlast : page.getLast? with
      | none => exact absurd (List.getLast?_eq_none_iff.1 hlast) hnil
      | some last =>
        simp only [hlast, hend, true_or, if_true, ite_self] at h
        cases h
        rfl

end Drained

theorem last_le {txs : List GramTx} {last : GramTx} (h : txs.Pairwise fun a b => b.lt < a.lt)
    (htx : tx ∈ txs) (hlast : txs.getLast? = some last) : last.lt ≤ tx.lt := by
  obtain ⟨pre, rfl⟩ := List.getLast?_eq_some_iff.1 hlast
  rcases List.mem_append.1 htx with hmem | hmem
  · exact le_of_lt ((List.pairwise_append.1 h).2.2 tx hmem last (by simp))
  · rw [List.mem_singleton.1 hmem]

/-- Just below a transaction of the first page, two pages drain the scan. -/
theorem drained_below (hpages : 2 ≤ cfg.maxScanPages) (htx : tx ∈ w.txs.take cfg.limit)
    (h : finalizedBurnsPaginated L cfg w.toWalletHistory nowMs height (tx.lt - 1) = .ok res) :
    res.drained = true := by
  obtain ⟨n, hn⟩ : ∃ n, cfg.pages = n + 2 := ⟨cfg.pages - 2, by
    have : cfg.maxScanPages ≤ cfg.pages := Nat.le_max_right ..
    omega⟩
  unfold finalizedBurnsPaginated at h
  simp only [hn] at h
  rw [paginateBurnsByLt] at h
  obtain ⟨page, hpage, h⟩ := bind_eq_ok.1 h
  cases hpage
  by_cases hnil : w.getTransactions cfg.limit none = []
  · rw [if_pos hnil] at h
    cases h
    rfl
  · rw [if_neg hnil] at h
    obtain ⟨scanned, -, h⟩ := bind_eq_ok.1 h
    by_cases hdrained : scanned.drained = true
    · rw [if_pos hdrained] at h
      cases h
      rfl
    · rw [if_neg hdrained] at h
      cases hlast : (w.getTransactions cfg.limit none).getLast? with
      | none => exact absurd (List.getLast?_eq_none_iff.1 hlast) hnil
      | some last =>
        have hle : last.lt ≤ tx.lt :=
          last_le (w.newestFirst.sublist (List.take_sublist ..)) htx hlast
        simp only [hlast] at h
        split_ifs at h with hend
        · cases h
          rfl
        · exact paginate_stale (fun t => by omega) h

/-! ## The two readers -/

/-- The signer reads what the watcher reported. -/
theorem sameEvent_of_readers
    (hget : getBurn L (w'.node cfg nowMs' height') b.sourceId = .ok (some b'))
    (hext : w.txs ⊆ w'.txs)
    (hscan : finalizedBurnsPaginated L cfg w.toWalletHistory nowMs height fromLt = .ok res)
    (hb : b ∈ res.burns) : b'.SameEvent b := by
  obtain ⟨tx, htx, hhash, hparse'⟩ := getBurn_iff.1 hget
  obtain ⟨t, ht, hparse⟩ := (mem_burns_iff hscan).1 hb
  have hold : t ∈ w'.txs := hext (List.mem_of_mem_take (mem_range.1 ht).1)
  have heq : tx = t :=
    eq_of_hash (List.mem_of_mem_take htx) hold (hhash.trans (sourceId_burnFromTx hparse))
  rw [heq] at hparse'
  exact sameEvent_burnFromTx hparse hparse'

variable (height') in
/-- The signer finds a reported burn for as long as it is on its page. -/
theorem getBurn_isSome_iff (hext : w.txs ⊆ w'.txs) (hclock : nowMs ≤ nowMs')
    (hscan : finalizedBurnsPaginated L cfg w.toWalletHistory nowMs height fromLt = .ok res)
    (hb : b ∈ res.burns) :
    (∃ b', getBurn L (w'.node cfg nowMs' height') b.sourceId = .ok (some b'))
      ↔ ∃ tx ∈ w'.txs.take cfg.limit, tx.hash = b.sourceId := by
  obtain ⟨t, ht, hparse⟩ := (mem_burns_iff hscan).1 hb
  constructor
  · rintro ⟨b', h⟩
    obtain ⟨tx, htx, hhash, -⟩ := getBurn_iff.1 h
    exact ⟨tx, htx, hhash⟩
  · rintro ⟨tx, htx, hhash⟩
    have hold : t ∈ w'.txs := hext (List.mem_of_mem_take (mem_range.1 ht).1)
    have heq : tx = t :=
      eq_of_hash (List.mem_of_mem_take htx) hold (hhash.trans (sourceId_burnFromTx hparse))
    have hcut : nowMs / 1000 - cfg.finalityBufferSec ≤ nowMs' / 1000 - cfg.finalityBufferSec := by
      have := Int.ediv_le_ediv (by norm_num : (0 : ℤ) < 1000) hclock
      omega
    obtain ⟨b', hb'⟩ := burnFromTx_later ((burnFromTx_eq_some hparse).1.trans hcut) height' hparse
    exact ⟨b', getBurn_iff.2 ⟨tx, htx, hhash, by rw [heq]; exact hb'⟩⟩

theorem reported_of_getBurn {height' : ℕ}
    (hread : ∀ tx ∈ w.txs, tx.hash = id → ∀ t ∈ w.txs, tx.lt < t.lt →
      ReadableTx t (nowMs / 1000 - cfg.finalityBufferSec))
    (hget : getBurn L (w.node cfg nowMs height') id = .ok (some b)) (height : ℕ) :
    ∃ tx ∈ w.txs.take cfg.limit, tx.hash = id ∧ ∃ res,
      finalizedBurnsPaginated L cfg w.toWalletHistory nowMs height (tx.lt - 1) = .ok res
        ∧ ∃ b' ∈ res.burns, b'.sourceId = id := by
  obtain ⟨tx, htx, hhash, hparse⟩ := getBurn_iff.1 hget
  have hmem := List.mem_of_mem_take htx
  have hpos := w.positive tx hmem
  obtain ⟨b', hb'⟩ := burnFromTx_later (burnFromTx_eq_some hparse).1 height hparse
  have hreads : ∀ t ∈ w.range cfg (tx.lt - 1),
      ReadableTx t (nowMs / 1000 - cfg.finalityBufferSec) := by
    intro t ht
    obtain ⟨ht, hlt⟩ := mem_range.1 ht
    rcases Nat.lt_or_ge tx.lt t.lt with hnew | hold
    · exact hread tx hmem hhash t (List.mem_of_mem_take ht) hnew
    · have heq : t = tx := eq_of_lt (List.mem_of_mem_take ht) hmem (by omega)
      rw [heq]
      exact fun hnow => (succeeds_burnFromTx L height).1 ⟨_, hb'⟩ hnow
  obtain ⟨res, hres, -⟩ := (scan_passes_range_iff L cfg w.toWalletHistory nowMs height _).2 hreads
  refine ⟨tx, htx, hhash, res, hres, b', (mem_burns_iff hres).2 ⟨tx, ?_, hb'⟩, ?_⟩
  · exact mem_range.2 ⟨mem_window htx, by omega⟩
  · rw [sourceId_burnFromTx hb', hhash]

/-- The digest leaves the height out. -/
theorem canonicalPegOut_sameEvent (h : b'.SameEvent b) :
    canonicalPegOut L.digestOf b' = canonicalPegOut L.digestOf b := by
  obtain ⟨hchain, hsource, -, hamount, hdest⟩ := h
  unfold canonicalPegOut pegOutBody
  rw [hchain, hsource, hamount, hdest]

end BurnReaders

open BurnReaders

/-- On one history `getBurn` returns a burn exactly when the scan reports it from below and it is on
the signer's page; and at any later time the signer validates what the watcher reported exactly
while fewer than a page of transactions came after it. -/
theorem burn_readers_agree (L : Libs) (cfg : GramScanConfig) (w : Wallet) (nowMs : ℤ)
    (height : ℕ) :
    (∀ (height' : ℕ) (id : String),
      (∀ tx ∈ w.txs, tx.hash = id → ∀ t ∈ w.txs, tx.lt < t.lt →
        ReadableTx t (nowMs / 1000 - cfg.finalityBufferSec)) →
      ((∃ b, getBurn L (w.node cfg nowMs height') id = .ok (some b)) ↔
        ∃ tx ∈ w.txs.take cfg.limit, tx.hash = id ∧ ∃ fromLt < tx.lt, ∃ res,
          finalizedBurnsPaginated L cfg w.toWalletHistory nowMs height fromLt = .ok res
            ∧ (2 ≤ cfg.maxScanPages → res.drained = true) ∧ ∃ b ∈ res.burns, b.sourceId = id))
    ∧ ∀ fromLt res b,
      finalizedBurnsPaginated L cfg w.toWalletHistory nowMs height fromLt = .ok res →
      b ∈ res.burns →
      ∀ (w' : Wallet) (newer : List GramTx) (nowMs' : ℤ) (height' : ℕ),
        w'.txs = newer ++ w.txs → nowMs ≤ nowMs' →
        (∀ b', getBurn L (w'.node cfg nowMs' height') b.sourceId = .ok (some b') → b'.SameEvent b)
          ∧ ∀ view : NodeView, view.gram = w'.node cfg nowMs' height' →
            (validateTonPegOut L view (canonicalPegOut L.digestOf b) = .ok ()
              ↔ ∃ tx ∈ w'.txs.take cfg.limit, tx.hash = b.sourceId) := by
  refine ⟨fun height' id hread => ⟨?_, ?_⟩, ?_⟩
  · rintro ⟨b, hget⟩
    obtain ⟨tx, htx, hhash, res, hres, hb⟩ := reported_of_getBurn hread hget height
    have hpos := w.positive tx (List.mem_of_mem_take htx)
    exact ⟨tx, htx, hhash, tx.lt - 1, by omega, res, hres,
      fun hpages => drained_below hpages htx hres, hb⟩
  · rintro ⟨tx, htx, hhash, fromLt, -, res, hres, -, b, hb, hid⟩
    rw [← hid]
    exact (getBurn_isSome_iff _ (fun _ h => h) le_rfl hres hb).2 ⟨tx, htx, hhash.trans hid.symm⟩
  · intro fromLt res b hscan hb w' newer nowMs' height' hext hclock
    have hsub : w.txs ⊆ w'.txs := by
      rw [hext]
      exact List.subset_append_right ..
    refine ⟨fun b' hget => sameEvent_of_readers hget hsub hscan hb, fun view hview => ?_⟩
    rw [validateTonPegOut_eq_ok, hview, canonicalPegOut_id,
      ← getBurn_isSome_iff height' hsub hclock hscan hb]
    constructor
    · rintro ⟨b', hget, -⟩
      exact ⟨b', hget⟩
    · rintro ⟨b', hget⟩
      have hsame := sameEvent_of_readers hget hsub hscan hb
      exact ⟨b', hget, (canonicalPegOut_sameEvent hsame).symm⟩

def burnWallet : Wallet where
  txs := [sampleGramTx]
  newestFirst := List.pairwise_singleton ..
  hashes := List.nodup_singleton _
  positive := by decide

/-- The same wallet after one more transaction. -/
def laterWallet : Wallet where
  txs := [{ sampleGramTx with hash := "02", lt := 6, description := .other }, sampleGramTx]
  newestFirst := by decide
  hashes := by decide
  positive := by decide

theorem burn_readers_agree_sample :
    (∃ b, getBurn sampleLibs (burnWallet.node hollowConfig 1767225600000 70) sampleBurn.sourceId
        = .ok (some b))
      ∧ validateTonPegOut sampleLibs
          { sampleView [] with gram := laterWallet.node hollowConfig 1767225700000 80 }
          (canonicalPegOut sampleLibs.digestOf sampleBurn) = .ok () := by
  have hscan : finalizedBurnsPaginated sampleLibs hollowConfig burnWallet.toWalletHistory
      1767225600000 70 4 = .ok { burns := [sampleBurn], newestFinalLt := 5, drained := true } := by
    decide +kernel
  have hagree := burn_readers_agree sampleLibs hollowConfig burnWallet 1767225600000 70
  refine ⟨(hagree.1 70 _ ?_).2 ⟨sampleGramTx, ?_, rfl, 4, by decide, _, hscan, fun _ => rfl,
    sampleBurn, List.mem_cons_self, rfl⟩, ?_⟩
  · intro tx htx _ t ht hlt
    rw [List.mem_singleton.1 htx, List.mem_singleton.1 ht] at hlt
    exact absurd hlt (lt_irrefl _)
  · exact List.mem_cons_self
  · have hlater := hagree.2 4 _ sampleBurn hscan List.mem_cons_self laterWallet
      [{ sampleGramTx with hash := "02", lt := 6, description := .other }] 1767225700000 80 rfl
      (by decide)
    refine (hlater.2 _ rfl).2 ⟨sampleGramTx, ?_, rfl⟩
    exact List.mem_cons_of_mem _ List.mem_cons_self

/-- A hundred transactions come after the burn. -/
def buriedWallet : Wallet where
  txs := ((List.range 100).reverse.map fun n =>
    { sampleGramTx with hash := n.repr, lt := 6 + n, description := .other }) ++ [sampleGramTx]
  newestFirst := by decide +kernel
  hashes := by decide +kernel
  positive := by decide +kernel

/-- The watcher still reports the burn, the signers no longer find it. -/
theorem buried_burn_not_validated :
    finalizedBurnsPaginated sampleLibs hollowConfig buriedWallet.toWalletHistory 1767225600000 70 4
        = .ok { burns := [sampleBurn], newestFinalLt := 105, drained := true }
      ∧ getBurn sampleLibs (buriedWallet.node hollowConfig 1767225600000 70) sampleBurn.sourceId
        = .ok none := by
  exact ⟨by decide +kernel, by decide +kernel⟩

end VizGateway
