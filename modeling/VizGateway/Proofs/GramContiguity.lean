import VizGateway.Proofs.BurnReaders
import VizGateway.Proofs.WatchSteps

/-!
# The TON watcher skips no burn behind its anchor

A drained scan has seen every transaction above the cursor, and its new cursor is the logical time
of a final one: whatever is older is final too. So behind the last cold start every burn below the
cursor has its row.
-/

namespace VizGateway

open Checks Watch ActionStatus

namespace GramContiguity

open ScanProgress BurnReaders WatchSteps

/-! ## A drained scan saw everything above the cursor -/

section Drained

variable {fromLt : ℕ} {cutoff : ℤ} {toBurn : GramTx → Except String (Option RemoteBurn)}
  {limit : ℕ} {res : ScanResult}

theorem fresh_append {txs : List GramTx} (rest : List GramTx) (h : ∃ tx ∈ txs, tx.lt ≤ fromLt) :
    fresh fromLt (txs ++ rest) = fresh fromLt txs := by
  unfold fresh
  rw [List.takeWhile_append, if_neg]
  intro hall
  obtain ⟨tx, htx, hle⟩ := h
  have hself := (List.takeWhile_prefix (l := txs) fun tx => decide (fromLt < tx.lt)).eq_of_length hall
  have hlt : fromLt < tx.lt := by simpa using List.takeWhile_eq_self_iff.1 hself tx htx
  omega

theorem fresh_take_eq_nil {l : List GramTx} {m : ℕ} (h : fresh fromLt l = []) :
    fresh fromLt (l.take m) = [] := by
  rcases l with _ | ⟨tx, txs⟩
  · simp [fresh]
  · cases m with
    | zero => simp [fresh]
    | succ m =>
      have hle : tx.lt ≤ fromLt := by simpa [fresh, List.takeWhile_cons] using h
      simp [fresh, List.takeWhile_cons, hle]

/-- A prefix is enough where it ends the fresh ones itself, or the rest does. -/
theorem fresh_take_add {rest : List GramTx} {k m : ℕ}
    (h : fresh fromLt rest = fresh fromLt (rest.take k)
      ∨ fresh fromLt (rest.drop k) = fresh fromLt ((rest.drop k).take m)) :
    fresh fromLt rest = fresh fromLt (rest.take (k + m)) := by
  have hsplit : rest = rest.take k ++ rest.drop k := (List.take_append_drop k rest).symm
  rw [List.take_add]
  by_cases hall : ∃ tx ∈ rest.take k, tx.lt ≤ fromLt
  · rw [fresh_append _ hall]
    conv_lhs => rw [hsplit]
    exact fresh_append _ hall
  · have happend : ∀ l, fresh fromLt (rest.take k ++ l) = rest.take k ++ fresh fromLt l := by
      intro l
      unfold fresh
      refine List.takeWhile_append_of_pos fun tx htx => ?_
      simpa using fun hle => hall ⟨tx, htx, hle⟩
    have hrest : fresh fromLt rest = rest.take k ++ fresh fromLt (rest.drop k) := by
      conv_lhs => rw [hsplit, happend]
    rw [happend, hrest]
    refine congrArg _ ?_
    rcases h with hend | htail
    · have hself : fresh fromLt (rest.take k) = rest.take k := by simpa [fresh] using happend []
      have hnil : fresh fromLt (rest.drop k) = [] := by
        rw [hrest, hself] at hend
        exact List.append_cancel_left (hend.trans (List.append_nil _).symm)
      rw [hnil, fresh_take_eq_nil hnil]
    · exact htail

theorem fresh_of_all {rest : List GramTx} {k : ℕ}
    (h : (rest.take k).all (fromLt < ·.lt) = true) :
    fresh fromLt rest = rest.take k ++ fresh fromLt (rest.drop k) := by
  conv_lhs => rw [← List.take_append_drop k rest]
  exact List.takeWhile_append_of_pos (List.all_eq_true.1 h)

/-- One turn of the loop: it drains, with the page down to the end of the fresh ones, or the page
was full and fresh throughout and the loop goes on below it. -/
theorem drained_turn {k n : ℕ} {anchor : Option (ℕ × String)} {acc : Scan}
    {fetchPage : Option (ℕ × String) → Except String (List GramTx)} (skip rest : List GramTx)
    (hpage : fetchPage anchor = .ok (skip ++ rest.take k)) (hk : skip.length + k = limit)
    (hskip : ∀ tx ∈ skip, (anchor.map (·.1)).any (· ≤ tx.lt))
    (hrest : ∀ tx ∈ rest, ¬ (anchor.map (·.1)).any (· ≤ tx.lt))
    (h : paginateBurnsByLt fromLt cutoff toBurn limit fetchPage (n + 1) anchor acc = .ok res) :
    (res.drained = true ∧ (0 < k → fresh fromLt rest = fresh fromLt (rest.take k))) ∨
      ∃ last scan, (rest.take k).getLast? = some last ∧ k ≤ rest.length ∧
        fresh fromLt rest = rest.take k ++ fresh fromLt (rest.drop k) ∧
        paginateBurnsByLt fromLt cutoff toBurn limit fetchPage n (some (last.lt, last.hash)) scan
          = .ok res := by
  rw [paginateBurnsByLt_step skip rest hpage hk hskip hrest] at h
  obtain ⟨scan, -, h⟩ := bind_eq_ok.1 h
  by_cases hgo : (rest.take k).all (fromLt < ·.lt) = true ∧ k ≤ rest.length
  · rw [if_pos hgo] at h
    rcases hlast : (rest.take k).getLast? with _ | last
    · rw [hlast] at h
      cases h
      rw [List.getLast?_eq_none_iff, List.take_eq_nil_iff] at hlast
      refine .inl ⟨rfl, fun hpos => ?_⟩
      rcases hlast with hzero | rfl
      · omega
      · simp
    · rw [hlast] at h
      exact .inr ⟨last, scan, rfl, hgo.2, fresh_of_all hgo.1, h⟩
  · rw [if_neg hgo] at h
    cases h
    refine .inl ⟨rfl, fun _ => ?_⟩
    by_cases hlen : k ≤ rest.length
    · obtain ⟨tx, htx, hle⟩ : ∃ tx ∈ rest.take k, tx.lt ≤ fromLt := by
        simpa using fun hall => hgo ⟨hall, hlen⟩
      rw [← fresh_append (rest.drop k) ⟨tx, htx, hle⟩, List.take_append_drop]
    · rw [List.take_of_length_le (by omega)]

/-- From an anchor on. -/
theorem drained_anchored (hist : WalletHistory) (hlimit : 2 ≤ limit) (n : ℕ)
    {pre post : List GramTx} {a : GramTx} (hsplit : hist.txs = pre ++ a :: post) {acc : Scan}
    (h : paginateBurnsByLt fromLt cutoff toBurn limit
      (fun anchor => .ok (hist.getTransactions limit anchor)) n (some (a.lt, a.hash)) acc = .ok res)
    (hdrained : res.drained = true) :
    fresh fromLt post = fresh fromLt (post.take (n * (limit - 1))) := by
  induction n generalizing pre post a acc with
  | zero =>
    cases h
    cases hdrained
  | succ n ih =>
    have hpost := (List.pairwise_cons.1 (List.pairwise_append.1 (hsplit ▸ hist.newestFirst)).2.1).1
    rw [Nat.succ_mul, Nat.add_comm (n * (limit - 1))]
    refine fresh_take_add ?_
    rcases drained_turn [a] post (congrArg Except.ok (getTransactions_anchor hist (by omega) hsplit))
      (by simp; omega) (by simp) (fun tx ht => by simpa using hpost tx ht) h
      with ⟨-, hend⟩ | ⟨last, scan, hlast, -, -, hnext⟩
    · exact .inl (hend (by omega))
    · obtain ⟨items, hitems⟩ := List.getLast?_eq_some_iff.1 hlast
      have hnew : hist.txs = (pre ++ a :: items) ++ last :: post.drop (limit - 1) := by
        calc hist.txs = pre ++ a :: (post.take (limit - 1) ++ post.drop (limit - 1)) := by
              rw [hsplit, List.take_append_drop]
          _ = (pre ++ a :: items) ++ last :: post.drop (limit - 1) := by rw [hitems]; simp
      exact .inr (ih hnew hnext)

/-- A drained scan has looked through everything above the cursor. -/
theorem drained_fresh (hist : WalletHistory) (hlimit : 2 ≤ limit) (n : ℕ) {acc : Scan}
    (h : paginateBurnsByLt fromLt cutoff toBurn limit
      (fun anchor => .ok (hist.getTransactions limit anchor)) (n + 1) none acc = .ok res)
    (hdrained : res.drained = true) :
    fresh fromLt hist.txs = fresh fromLt (hist.txs.take (limit + n * (limit - 1))) := by
  refine fresh_take_add ?_
  rcases drained_turn [] hist.txs rfl (by simp) (by simp) (by simp) h
    with ⟨-, hend⟩ | ⟨last, scan, hlast, -, -, hnext⟩
  · exact .inl (hend (by omega))
  · obtain ⟨items, hitems⟩ := List.getLast?_eq_some_iff.1 hlast
    have hsplit : hist.txs = items ++ last :: hist.txs.drop limit := by
      calc hist.txs = hist.txs.take limit ++ hist.txs.drop limit :=
            (List.take_append_drop ..).symm
        _ = items ++ last :: hist.txs.drop limit := by rw [hitems, List.append_assoc]; rfl
    exact .inr (drained_anchored hist hlimit n hsplit hnext hdrained)

theorem drained_covers {L : Libs} {cfg : GramScanConfig} {hist : WalletHistory} {nowMs : ℤ}
    {height : ℕ} (hlimit : 2 ≤ cfg.limit)
    (h : finalizedBurnsPaginated L cfg hist nowMs height fromLt = .ok res)
    (hdrained : res.drained = true) {tx : GramTx} (htx : tx ∈ hist.txs) (hlt : fromLt < tx.lt) :
    tx ∈ hist.range cfg fromLt := by
  suffices hall : fresh fromLt hist.txs = hist.range cfg fromLt from
    hall ▸ (mem_fresh hist.newestFirst).2 ⟨htx, hlt⟩
  obtain ⟨n, hn⟩ : ∃ n, cfg.pages = n + 1 := ⟨cfg.pages - 1, by
    have : 1 ≤ cfg.pages := Nat.le_max_left ..
    omega⟩
  unfold finalizedBurnsPaginated at h
  unfold WalletHistory.range GramScanConfig.window
  rw [hn, Nat.add_sub_cancel]
  rw [hn] at h
  exact drained_fresh hist hlimit n h hdrained

end Drained

/-! ## What a drained scan leaves behind its new cursor -/

section Scan

variable {L : Libs} {cfg : GramScanConfig} {wallet : TonWallet} {lag height fromLt : ℕ} {nowMs : ℤ}
  {res : ScanResult}

/-- An older transaction has the older block. -/
theorem now_le {tx t : GramTx} (htx : tx ∈ wallet.txs) (ht : t ∈ wallet.txs) (h : tx.lt ≤ t.lt) :
    tx.now ≤ t.now := by
  obtain ⟨i, hi, rfl⟩ := List.getElem_of_mem htx
  obtain ⟨j, hj, rfl⟩ := List.getElem_of_mem ht
  rcases lt_trichotomy i j with hij | rfl | hji
  · have := List.pairwise_iff_getElem.1 wallet.newestFirst i j hi hj hij
    omega
  · exact le_rfl
  · exact List.pairwise_iff_getElem.1 wallet.ordered j i hj hi hji

/-- A node that sees a transaction sees the older ones. -/
theorem mem_seen {tx t : GramTx} (htx : tx ∈ wallet.txs) (ht : t ∈ (wallet.seen lag).txs)
    (h : tx.lt ≤ t.lt) : tx ∈ (wallet.seen lag).txs := by
  have hsplit := List.take_append_drop lag wallet.txs
  have hsorted := wallet.newestFirst
  rw [← hsplit, List.pairwise_append] at hsorted
  rw [← hsplit, List.mem_append] at htx
  rcases htx with htake | hdrop
  · have := hsorted.2.2 tx htake t ht
    omega
  · exact hdrop

/-- The new cursor is the old one or the logical time of a final transaction. -/
theorem newestFinalLt_of_foldlM {cutoff : ℤ} {toBurn : GramTx → Except String (Option RemoteBurn)}
    {txs : List GramTx} {acc scan : Scan} (h : txs.foldlM (scanTx cutoff toBurn) acc = .ok scan) :
    scan.newestFinalLt = acc.newestFinalLt
      ∨ ∃ tx ∈ txs, tx.now ≤ cutoff ∧ tx.lt = scan.newestFinalLt := by
  induction txs generalizing acc with
  | nil =>
    cases h
    exact .inl rfl
  | cons tx txs ih =>
    rw [List.foldlM_cons] at h
    obtain ⟨mid, hmid, hrest⟩ := bind_eq_ok.1 h
    rcases ih hrest with hmax | ⟨t, ht, hfinal, hlt⟩
    · unfold scanTx at hmid
      split_ifs at hmid with hnow
      · obtain ⟨burn, -, hret⟩ := bind_eq_ok.1 hmid
        cases hret
        rcases max_choice acc.newestFinalLt tx.lt with hold | hnew
        · exact .inl (hmax.trans hold)
        · exact .inr ⟨tx, List.mem_cons_self, hnow, (hmax.trans hnew).symm⟩
      · cases hmid
        exact .inl hmax
    · exact .inr ⟨t, List.mem_cons_of_mem _ ht, hfinal, hlt⟩

theorem mem_of_range {tx : GramTx} (h : tx ∈ (wallet.seen lag).range cfg fromLt) :
    tx ∈ (wallet.seen lag).txs := List.mem_of_mem_take (mem_range.1 h).1

theorem hash_of_mem_burns {b : RemoteBurn}
    (h : finalizedBurnsPaginated L cfg (wallet.seen lag) nowMs height fromLt = .ok res)
    (hb : b ∈ res.burns) : b.sourceId ∈ wallet.txs.map GramTx.hash := by
  obtain ⟨tx, htx, hparse⟩ := (mem_burns_iff h).1 hb
  rw [sourceId_burnFromTx hparse]
  exact List.mem_map_of_mem (List.mem_of_mem_drop (mem_of_range htx))

/-- What the scan vouches for below its new cursor. -/
structure Drained (L : Libs) (wallet : TonWallet) (fromLt : ℕ) (res : ScanResult) : Prop where
  le : fromLt ≤ res.newestFinalLt
  tip : res.newestFinalLt = fromLt ∨ ∃ tx ∈ wallet.txs, res.newestFinalLt ≤ tx.lt
  burns : ∀ tx ∈ wallet.txs, fromLt < tx.lt → tx.lt ≤ res.newestFinalLt → tx.Burns L →
    ∃ b ∈ res.burns, b.sourceId = tx.hash

theorem drained_scan (hlimit : 2 ≤ cfg.limit)
    (h : finalizedBurnsPaginated L cfg (wallet.seen lag) nowMs height fromLt = .ok res)
    (hdrained : res.drained = true) : Drained L wallet fromLt res := by
  have hfold := finalizedBurnsPaginated_eq L cfg (wallet.seen lag) nowMs height fromLt
  rw [h] at hfold
  obtain ⟨hle, -, hfinal⟩ := foldlM_scanTx hfold.symm
  have hsource := newestFinalLt_of_foldlM hfold.symm
  refine ⟨hle, ?_, fun tx htx hlt hnew hburn => ?_⟩
  · rcases hsource with hold | ⟨t, ht, -, hlt⟩
    · exact .inl hold
    · exact .inr ⟨t, List.mem_of_mem_drop (mem_of_range ht), hlt.ge⟩
  · rcases hsource with hold | ⟨t, ht, hnow, ht'⟩
    · have hold' : res.newestFinalLt = fromLt := hold
      omega
    have hle' : tx.lt ≤ t.lt := hnew.trans ht'.ge
    have hseen : tx ∈ (wallet.seen lag).txs := mem_seen htx (mem_of_range ht) hle'
    have hrange := drained_covers hlimit h hdrained hseen hlt
    have hcut := (now_le htx (List.mem_of_mem_drop (mem_of_range ht)) hle').trans hnow
    obtain ⟨cutoff, height', b, hb⟩ := hburn
    obtain ⟨b', hb'⟩ := burnFromTx_later hcut height hb
    exact ⟨b', (hfinal tx hrange hcut).2 b' hb', sourceId_burnFromTx hb'⟩

end Scan

/-! ## What stays -/

/-- The ids of the wallet's burns. -/
abbrev GramState.Id (s : GramState) (id : String) : Prop := id ∈ s.wallet.txs.map GramTx.hash

/-- What everyone keeps, a cold start and the write of the cursor apart; the wallet only grows. -/
structure GramGrows (s t : GramState) : Prop where
  watch : Grows (GramState.Id s) s.toWatchState t.toWatchState
  wallet : s.wallet.txs <:+ t.wallet.txs
  tip : t.tip = s.tip

theorem GramGrows.refl (s : GramState) : GramGrows s s := ⟨Grows.refl _, List.suffix_refl _, rfl⟩

theorem GramGrows.id {s t : GramState} (h : GramGrows s t) {id : String} (hid : GramState.Id s id) :
    GramState.Id t id := (h.wallet.map GramTx.hash).subset hid

theorem GramGrows.trans {s t u : GramState} (h : GramGrows s t) (h' : GramGrows t u) :
    GramGrows s u where
  watch := ⟨h'.watch.cursor.trans h.watch.cursor, fun _ hb => h'.watch.scanned (h.watch.scanned hb),
    fun id hid hs => h'.watch.rows id (h.id hid) (h.watch.rows id hid hs)⟩
  wallet := h.wallet.trans h'.wallet
  tip := h'.tip.trans h.tip

/-- Besides, no cold start. -/
def GramPlain : WatchOp → Prop
  | .newestLt => False
  | o => Plain o

section

variable {L : Libs} {cfg : GramScanConfig}

theorem gramGrows_exec {o : WatchOp} (ho : GramPlain o) (i : GramInput) (s : GramState) :
    GramGrows s (GramState.exec L cfg o i s).1 := by
  refine ⟨?_, List.suffix_refl _, ?_⟩
  · refine grows_exec ?_ _ _
    cases o <;> first | exact ho | exact ho.elim
  · cases o <;> first | rfl | exact ho.elim

/-- The burns from the last cold start's tip up to the cursor `c` have their rows, and no later
transaction can fall below it. -/
structure Anchored (L : Libs) (s : GramState) (c : ℤ) : Prop where
  tip : 1 < s.tip
  le : (coldStartAnchorLt s.tip : ℤ) ≤ c
  seen : ∃ tx ∈ s.wallet.txs, c ≤ tx.lt
  rows : ∀ tx ∈ s.wallet.txs, s.tip ≤ tx.lt → (tx.lt : ℤ) ≤ c → tx.Burns L →
    (s.outbox.get tx.hash).isSome = true

/-- What the memory's cursor vouches for. -/
structure Mem (L : Libs) (c : ℤ) (s : GramState) : Prop where
  cursor : s.cursor ≤ c
  nonneg : 0 ≤ c
  anchored : 0 < c → Anchored L s c

variable {s t : GramState} {c : ℤ}

theorem Anchored.grow (hst : GramGrows s t) (h : Anchored L s c) : Anchored L t c := by
  obtain ⟨tx₀, htx₀, hc⟩ := h.seen
  obtain ⟨newer, hnewer⟩ := hst.wallet
  refine ⟨hst.tip ▸ h.tip, hst.tip ▸ h.le, ⟨tx₀, hst.wallet.subset htx₀, hc⟩, ?_⟩
  intro tx htx htip hle hburn
  rw [← hnewer, List.mem_append] at htx
  rcases htx with hnew | hold
  · -- it came later than a transaction at or above the cursor
    have hsorted := t.wallet.newestFirst
    rw [← hnewer, List.pairwise_append] at hsorted
    have := hsorted.2.2 tx hnew tx₀ htx₀
    omega
  · rw [hst.tip] at htip
    exact hst.watch.rows _ (List.mem_map_of_mem hold) (h.rows tx hold htip hle hburn)

theorem Mem.grow (hst : GramGrows s t) (h : Mem L c s) : Mem L c t :=
  ⟨hst.watch.cursor ▸ h.cursor, h.nonneg, fun hc => (h.anchored hc).grow hst⟩

/-- A transaction that came later is above whatever a scan vouches for. -/
theorem Drained.grow {fromLt : ℕ} {res : ScanResult} (hst : GramGrows s t)
    (h : Drained L s.wallet fromLt res) : Drained L t.wallet fromLt res := by
  obtain ⟨newer, hnewer⟩ := hst.wallet
  refine ⟨h.le, h.tip.imp id fun ⟨tx, htx, hle⟩ => ⟨tx, hst.wallet.subset htx, hle⟩, ?_⟩
  intro tx htx hlt hnew hburn
  rw [← hnewer, List.mem_append] at htx
  rcases htx with hlater | hold
  · rcases h.tip with heq | ⟨tx₀, htx₀, hle⟩
    · omega
    · have hsorted := t.wallet.newestFirst
      rw [← hnewer, List.pairwise_append] at hsorted
      have := hsorted.2.2 tx hlater tx₀ htx₀
      omega
  · exact h.burns tx hold hlt hnew hburn

theorem Anchored.set {v : ℤ} (h : Anchored L s c) :
    Anchored L { s with cursor := v } c := ⟨h.tip, h.le, h.seen, h.rows⟩

end

/-! ## One turn of the loop -/

section Turn

variable {L : Libs} (cfg : GramWatcherConfig)

/-- The cursor is written only where the memory vouches for it, and a cold start finds none. -/
def contract (L : Libs) : Prog.Contract WatchOp WatchOp.Ans String GramState GramInput where
  exec := GramState.exec L cfg.scan
  rely := GramGrows
  rely_refl := GramGrows.refl
  rely_trans := GramGrows.trans
  allowed _ _ _ := True
  point o s := (∀ v, o = .setCursor v → Mem L v s) ∧ (o = .newestLt → s.cursor ≤ 0)
    ∧ ∀ id, o ≠ .store (.delete id)

/-- What survives anything but a cold start and a write of the cursor. -/
def Lasting (P : GramState → Prop) : Prop := ∀ s t, GramGrows s t → P s → P t

def Claimed (id : String) (s : GramState) : Prop :=
  GramState.Id s id ∧ (s.outbox.get id).isSome = true

theorem Lasting.and {P Q : GramState → Prop} (hP : Lasting P) (hQ : Lasting Q) :
    Lasting fun s => P s ∧ Q s := fun s t hst h => ⟨hP s t hst h.1, hQ s t hst h.2⟩

theorem lasting_claimed (id : String) : Lasting (Claimed id) :=
  fun _ _ hst h => ⟨hst.id h.1, hst.watch.rows id h.1 h.2⟩

theorem lasting_mem (c : ℤ) : Lasting (Mem L c) := fun _ _ hst h => h.grow hst

variable {cfg} {s : GramState} {P : GramState → Prop} (hP : Lasting P)

include hP

theorem holds_plain {α : Type} {p : WatchM α} (h : Prog.Uses GramPlain p) :
    Prog.Holds (contract cfg L) P (fun _ _ => True) p := by
  refine Prog.holds_of_uses h hP (fun o s ho _ => ⟨?_, ?_, ?_⟩) fun o i s ho hs _ =>
    hP s _ (gramGrows_exec ho i s) hs
  · rintro v rfl
    exact ho.elim
  · rintro rfl
    exact ho.elim
  · rintro id rfl
    exact ho

/-- A handled burn of the wallet has its row. -/
theorem holds_handleBurn {burn : RemoteBurn} (hid : ∀ s, P s → GramState.Id s burn.sourceId) :
    Prog.Holds (contract cfg L) P (fun _ => Claimed burn.sourceId)
      (GramWatcher.handleBurn L cfg burn) := by
  have henqueue : Prog.Holds (contract cfg L) P (fun _ => Claimed burn.sourceId)
      (enqueue (GramWatcher.claim L burn)) := by
    refine Prog.holds_ask hP (fun s _ => ⟨by rintro v ⟨⟩, by rintro ⟨⟩, by rintro id ⟨⟩⟩)
      fun i s hs _ => ?_
    refine ⟨hP s _ (gramGrows_exec (o := .store (.enqueue _)) trivial i s) hs, fun first hfirst =>
      ⟨hid s hs, ?_⟩⟩
    exact claimed_enqueue (GramWatcher.claim L burn) hfirst
  refine Prog.holds_bind henqueue fun first => ?_
  refine (holds_plain (hP.and (lasting_claimed _)) ?_).mono fun _ s hs _ => hs.2
  refine Prog.uses_ite ?_ trivial
  refine Prog.uses_bind (Prog.uses_bind (Prog.uses_ask trivial) fun _ => trivial) fun reason => ?_
  refine Prog.uses_ite (Prog.uses_ask trivial) ?_
  exact uses_capDecision (fun _ => trivial) (fun _ _ _ => trivial) (fun _ => trivial) ..

theorem holds_forEach_burns {burns : List RemoteBurn}
    (hids : ∀ s, P s → ∀ b ∈ burns, GramState.Id s b.sourceId) :
    Prog.Holds (contract cfg L) P (fun _ s => ∀ b ∈ burns, Claimed b.sourceId s)
      (Prog.forEach (GramWatcher.handleBurn L cfg) burns) := by
  induction burns generalizing P with
  | nil => exact Prog.holds_pure fun _ _ b hb => by cases hb
  | cons burn burns ih =>
    refine Prog.holds_bind (p := GramWatcher.handleBurn L cfg burn)
      (holds_handleBurn hP fun s hs => hids s hs burn List.mem_cons_self) fun _ => ?_
    refine (ih (hP.and (lasting_claimed _)) fun s hs b hb =>
      hids s hs.1 b (List.mem_cons_of_mem _ hb)).mono fun _ s hs hrest b hb => ?_
    rcases List.mem_cons.1 hb with rfl | hb
    · exact hs.2
    · exact hrest b hb

/-- The scan answers from the wallet as some node sees it. -/
theorem holds_scan (hlimit : 2 ≤ cfg.scan.limit) (fromLt : ℕ) :
    Prog.Holds (contract cfg L) P
      (fun res s => (∀ b ∈ res.burns, GramState.Id s b.sourceId) ∧
        (res.drained = true → Drained L s.wallet fromLt res))
      (Prog.ask (WatchOp.finalizedBurnsPaginated fromLt) : WatchM ScanResult) := by
  refine Prog.holds_ask (o := WatchOp.finalizedBurnsPaginated fromLt) hP
    (fun s _ => ⟨by rintro v ⟨⟩, by rintro ⟨⟩, by rintro id ⟨⟩⟩) fun i s hs _ => ?_
  refine ⟨hP s _ (gramGrows_exec (o := .finalizedBurnsPaginated fromLt) trivial i s) hs,
    fun res hres => ?_⟩
  have hscan : finalizedBurnsPaginated L cfg.scan (s.wallet.seen i.lag) i.clock i.height fromLt
      = .ok res := by
    change (GramState.exec L cfg.scan (.finalizedBurnsPaginated fromLt) i s).2 = _ at hres
    simp only [GramState.exec, WatchOp.exec] at hres
    split at hres
    · cases hres
    · exact hres
  exact ⟨fun b hb => hash_of_mem_burns hscan hb, fun hdrained => drained_scan hlimit hscan hdrained⟩

omit hP in
/-- The cursor moves to where the memory vouches for it. -/
theorem safe_keepCursor {v : ℤ} (hs : Mem L v s) :
    Prog.Safe (contract cfg L) (Mem L) (fun _ _ => False) (keepCursor v) s := by
  have hset : ∀ t i, Mem L v t → Mem L v (GramState.exec L cfg.scan (.setCursor v) i t).1 := by
    intro t i ht
    simp only [GramState.exec, WatchOp.exec]
    split
    · exact ht
    · simp only [WatchOp.run]
      split_ifs with hle
      · exact ht
      · exact ⟨le_rfl, ht.nonneg, fun hv => (ht.anchored hv).set⟩
  refine Prog.safe_bind (Prog.safe_catch (Prog.safe_ask ?_ ?_ ?_))
  · refine fun t ht => ⟨?_, by rintro ⟨⟩, by rintro id ⟨⟩⟩
    rintro v' ⟨⟩
    exact hs.grow ht
  · exact fun t ht i _ _ _ => hset t i (hs.grow ht)
  · exact fun t ht i _ _ _ => hset t i (hs.grow ht)

omit hP in
theorem coldStartAnchorLt_pos (tip : ℕ) (h : 0 < coldStartAnchorLt tip) :
    1 < tip ∧ coldStartAnchorLt tip < tip := by
  unfold coldStartAnchorLt at h ⊢
  split_ifs at h ⊢ <;> omega

omit hP in
theorem exists_newest {hist : WalletHistory} (h : 0 < hist.newestLt) :
    ∃ tx ∈ hist.txs, tx.lt = hist.newestLt := by
  unfold WalletHistory.newestLt at h ⊢
  cases htxs : hist.txs with
  | nil => simp [htxs] at h
  | cons tx txs => exact ⟨tx, List.mem_cons_self, rfl⟩

omit hP in
/-- A cold start anchors just below the tip it reads. -/
theorem safe_coldStart (hs : Mem L 0 s) :
    Prog.Safe (contract cfg L) (Mem L) (fun _ s => Mem L 0 s)
      (do
        let tip : ℕ ← Prog.ask WatchOp.newestLt
        keepCursor (coldStartAnchorLt tip) : WatchM ℤ) s := by
  refine Prog.safe_bind (Prog.safe_ask (fun t ht => ⟨by rintro v ⟨⟩, fun _ => (hs.grow ht).cursor,
    by rintro id ⟨⟩⟩) (fun t ht i _ tip hok => ?_) fun t ht i _ e herr => ?_)
  · have hmem := hs.grow ht
    change (GramState.exec L cfg.scan .newestLt i t).2 = _ at hok
    change Prog.Safe _ _ _ _ (GramState.exec L cfg.scan .newestLt i t).1
    simp only [GramState.exec, WatchOp.exec] at hok ⊢
    split at hok
    · cases hok
    · next hfails =>
      cases hok
      rw [hfails]
      refine (safe_keepCursor ⟨?_, ?_, fun hpos => ?_⟩).mono (fun _ _ h => h) fun _ _ => False.elim
      · exact hmem.cursor.trans (Int.natCast_nonneg _)
      · exact Int.natCast_nonneg _
      · change (0 : ℤ) < (coldStartAnchorLt (t.wallet.seen i.lag).newestLt : ℕ) at hpos
        have hanchor := coldStartAnchorLt_pos (t.wallet.seen i.lag).newestLt (by omega)
        refine ⟨hanchor.1, le_rfl, ?_, fun tx htx hge hle _ => ?_⟩
        · obtain ⟨tx, htx, hlt⟩ := exists_newest (by omega : 0 < (t.wallet.seen i.lag).newestLt)
          exact ⟨tx, List.mem_of_mem_drop htx, by rw [hlt]; exact_mod_cast hanchor.2.le⟩
        · change (t.wallet.seen i.lag).newestLt ≤ tx.lt at hge
          change (tx.lt : ℤ) ≤ (coldStartAnchorLt (t.wallet.seen i.lag).newestLt : ℕ) at hle
          omega
  · change (GramState.exec L cfg.scan .newestLt i t).2 = _ at herr
    change Mem L 0 (GramState.exec L cfg.scan .newestLt i t).1
    simp only [GramState.exec, WatchOp.exec] at herr ⊢
    split at herr
    · next hfails =>
      rw [hfails]
      exact hs.grow ht
    · cases herr

omit hP in
/-- A turn ends with a memory that vouches for its cursor. -/
theorem safe_tick (hlimit : 2 ≤ cfg.scan.limit) {c : ℤ} (hs : Mem L c s) :
    Prog.Safe (contract cfg L) (Mem L) (fun _ _ => False) (GramWatcher.tick L cfg c) s := by
  have hlasting : Lasting (Mem L c) := lasting_mem c
  refine Prog.safe_catch ?_
  refine (holds_plain hlasting ?_).then_safe (fun paused s hs _ => ?_) (fun _ _ h => h) hs
  · exact Prog.uses_ask trivial
  refine Prog.safe_ite (fun _ => hs) fun _ => ?_
  refine (holds_plain hlasting ?_).then_safe (fun now s hs _ => ?_) (fun _ _ h => h) hs
  · exact Prog.uses_ask trivial
  refine (holds_plain hlasting ?_).then_safe (fun _ s hs _ => ?_) (fun _ _ h => h) hs
  · exact uses_recoverStaleSeen (fun _ => trivial) (fun _ _ _ => trivial) (fun _ => trivial)
      (fun _ _ _ => trivial) ..
  refine Prog.safe_ite (fun hzero => ?_) fun hzero => ?_
  · subst hzero
    exact (safe_coldStart hs).mono (fun _ _ h => h) fun _ _ h => h
  refine (holds_scan hlasting hlimit c.toNat).then_safe (fun res s hs hres => ?_) (fun _ _ h => h) hs
  have hscan : Lasting fun s => Mem L c s ∧ (∀ b ∈ res.burns, GramState.Id s b.sourceId) ∧
      (res.drained = true → Drained L s.wallet c.toNat res) :=
    hlasting.and fun s t hst h => ⟨fun b hb => hst.id (h.1 b hb), fun hd => (h.2 hd).grow hst⟩
  refine Prog.Holds.then_safe (p := Prog.forEach (GramWatcher.handleBurn L cfg) res.burns)
    (holds_forEach_burns hscan fun s hs => hs.2.1) (fun _ s hs hclaimed => ?_) (fun _ _ h => h.1)
    ⟨hs, hres⟩
  obtain ⟨hmem, -, hdrained⟩ := hs
  refine Prog.safe_ite (fun hd => ?_) fun _ => ?_
  · have hcover := hdrained hd
    have hpos : 0 < c := lt_of_le_of_ne hmem.nonneg (Ne.symm hzero)
    have hanchored := hmem.anchored hpos
    have hle : c ≤ res.newestFinalLt := by have := hcover.le; omega
    refine (safe_keepCursor ⟨hmem.cursor.trans hle, by omega, fun _ => ⟨hanchored.tip,
      hanchored.le.trans hle, ?_, fun tx htx htip hnew hburn => ?_⟩⟩).mono (fun _ _ h => h)
      fun _ _ => False.elim
    · rcases hcover.tip with heq | ⟨tx, htx, hnew⟩
      · obtain ⟨tx, htx, hc⟩ := hanchored.seen
        exact ⟨tx, htx, by omega⟩
      · exact ⟨tx, htx, by omega⟩
    · by_cases hold : (tx.lt : ℤ) ≤ c
      · exact hanchored.rows tx htx htip hold hburn
      · obtain ⟨b, hb, hid⟩ := hcover.burns tx htx (by omega) (by omega) hburn
        rw [← hid]
        exact (hclaimed b hb).2
  · refine (holds_plain hlasting ?_).then_safe (fun _ s hs _ => hs) (fun _ _ h => h) hmem
    exact Prog.uses_ask trivial

end Turn

/-! ## Runs -/

section Run

variable {L : Libs} {cfg : GramWatcherConfig}

abbrev Inv (L : Libs) (cfg : GramWatcherConfig) : GramWorld → Prop :=
  LoopWorld.Inv (contract cfg L) (fun s => Mem L s.cursor s) (Mem L)

/-- What one await does to what the store's cursor vouches for. -/
theorem mem_exec {s : GramState} {o : WatchOp} (i : GramInput) (hI : Mem L s.cursor s)
    (hpoint : (contract cfg L).point o s) :
    Mem L (GramState.exec L cfg.scan o i s).1.cursor (GramState.exec L cfg.scan o i s).1 := by
  have hplain : GramPlain o →
      Mem L (GramState.exec L cfg.scan o i s).1.cursor (GramState.exec L cfg.scan o i s).1 := by
    intro ho
    have hgrows : GramGrows s (GramState.exec L cfg.scan o i s).1 := gramGrows_exec ho i s
    rw [hgrows.watch.cursor]
    exact hI.grow hgrows
  cases o with
  | setCursor v =>
    have hmem := hpoint.1 v rfl
    simp only [GramState.exec, WatchOp.exec]
    split
    · exact hI
    · simp only [WatchOp.run]
      split_ifs with hle
      · exact hI
      · exact ⟨le_rfl, hmem.nonneg, fun hv => (hmem.anchored hv).set⟩
  | newestLt =>
    have hzero : s.cursor = 0 := le_antisymm (hpoint.2.1 rfl) hI.nonneg
    have hcursor : (GramState.exec L cfg.scan .newestLt i s).1.cursor = s.cursor := by
      simp only [GramState.exec, WatchOp.exec]
      split <;> rfl
    rw [hcursor, hzero]
    exact ⟨by rw [hcursor, hzero], le_rfl, fun h => absurd h (lt_irrefl _)⟩
  | store o =>
    cases o with
    | delete id => exact absurd rfl (hpoint.2.2 id)
    | _ => exact hplain trivial
  | _ => exact hplain trivial

theorem step_inv (hlimit : 2 ≤ cfg.scan.limit) {w : GramWorld} {e : GramEvent} (h : Inv L cfg w)
    (hc : ChainOnlyAdds w e) : Inv L cfg (w.step (gramWatcherSystem L cfg) e) := by
  cases e with
  | start =>
    refine LoopWorld.inv_start h (Prog.safe_ask ?_ ?_ fun _ _ _ _ _ _ => trivial)
    · exact fun t _ => ⟨by rintro v ⟨⟩, by rintro ⟨⟩, by rintro id ⟨⟩⟩
    · intro t ht i _ c hread
      have hI : Mem L t.cursor t := by
        rw [ht.watch.cursor]
        exact h.state.grow ht
      change (GramState.exec L cfg.scan .getCursor i t).2 = _ at hread
      change Mem L c (GramState.exec L cfg.scan .getCursor i t).1
      simp only [GramState.exec, WatchOp.exec] at hread ⊢
      split at hread
      · cases hread
      · cases hread
        exact hI
  | turn =>
    exact LoopWorld.inv_turn h fun c hc => (safe_tick hlimit hc).mono (fun _ _ h => h)
      fun _ _ _ => trivial
  | crash => exact LoopWorld.inv_crash h
  | act m =>
    have hgrows : GramGrows w.shared ((gramWatcherSystem L cfg).act m w.shared) := by
      cases m with
      | outside m =>
        refine ⟨grows_act (fun clock id he hid => ?_) _, List.suffix_refl _, rfl⟩
        subst he
        exact hc hid
      | arrive wallet => exact ⟨Grows.refl _, hc, rfl⟩
    refine LoopWorld.inv_act h ?_ hgrows fun c s t hst hM => hM.grow hst
    rw [hgrows.watch.cursor]
    exact h.state.grow hgrows
  | await i => exact LoopWorld.inv_await h (fun _ _ _ => rfl) fun o _ hpoint =>
      ⟨trivial, mem_exec i h.state hpoint⟩

end Run

end GramContiguity

open GramContiguity

/-- In every run that starts without a cursor the wallet's burns from the tip of the last cold start
up to the durable cursor have their rows. -/
theorem gram_watcher_complete (L : Libs) (cfg : GramWatcherConfig)
    (hpage : 2 ≤ cfg.scan.maxTransactions) (s₀ : GramState) (hnew : s₀.cursor = 0)
    (es : List GramEvent)
    (h : Runs.Meets (LoopWorld.step (gramWatcherSystem L cfg)) ChainOnlyAdds ⟨s₀, .down⟩ es) :
    let w := Runs.run (LoopWorld.step (gramWatcherSystem L cfg)) ⟨s₀, .down⟩ es
    0 < w.shared.cursor → 1 < w.shared.tip ∧
      ∀ tx ∈ w.shared.wallet.txs, tx.Burns L → w.shared.tip ≤ tx.lt →
        (tx.lt : ℤ) ≤ w.shared.cursor → (w.shared.outbox.get tx.hash).isSome = true := by
  have hlimit : 2 ≤ cfg.scan.limit := hpage.trans (Nat.le_max_right ..)
  have hinit : Inv L cfg (⟨s₀, .down⟩ : GramWorld) := by
    refine ⟨⟨le_rfl, hnew.ge, fun hpos => ?_⟩, trivial⟩
    exact absurd hpos (by rw [hnew]; exact lt_irrefl _)
  have hinv := Runs.run_inv (fun _ _ hw hc => step_inv hlimit hw hc) hinit h
  intro w hpos
  have hanchored := hinv.state.anchored hpos
  exact ⟨hanchored.tip, fun tx htx hburn htip hle => hanchored.rows tx htx htip hle hburn⟩

/-! ## Runs over two burns -/

def secondBurn : GramTx := { sampleGramTx with hash := "02", lt := 9 }

def thirdBurn : GramTx := { sampleGramTx with hash := "03", lt := 11 }

def noBurns : TonWallet := ⟨⟨⟨[], List.Pairwise.nil⟩, List.nodup_nil, by simp⟩, List.Pairwise.nil⟩

theorem oneBurn_newestFirst : [sampleGramTx].Pairwise fun a b => b.lt < a.lt :=
  List.pairwise_singleton ..

def oneBurn : TonWallet :=
  ⟨⟨⟨[sampleGramTx], oneBurn_newestFirst⟩, by decide, by decide⟩, by decide⟩

theorem twoBurns_newestFirst : [secondBurn, sampleGramTx].Pairwise fun a b => b.lt < a.lt := by
  decide

def twoBurns : TonWallet :=
  ⟨⟨⟨[secondBurn, sampleGramTx], twoBurns_newestFirst⟩, by decide, by decide⟩, by decide⟩

def threeBurns : TonWallet :=
  ⟨⟨⟨[thirdBurn, secondBurn, sampleGramTx], by decide⟩, by decide, by decide⟩, by decide⟩

def sampleGramConfig : GramWatcherConfig := ⟨hollowConfig, ⟨1000000, 1000000, 1000000⟩⟩

/-- Pages of one transaction. -/
def narrowGramConfig : GramWatcherConfig :=
  { sampleGramConfig with scan := { hollowConfig with maxTransactions := 1 } }

def sampleGramAnswer : GramInput where
  clock := 1767225600000
  accounts _ := true

/-- One turn, answered `n` times. -/
def gramTick (n : ℕ) : List GramEvent := .turn :: List.replicate n (.await sampleGramAnswer)

/-- The first ever tick. -/
def firstTick : List GramEvent := .start :: .await sampleGramAnswer :: gramTick 5

/-- The watcher's first run over a wallet. -/
def gramRun (cfg : GramWatcherConfig) (wallet : TonWallet) (es : List GramEvent) : GramWorld :=
  Runs.run (LoopWorld.step (gramWatcherSystem sampleLibs cfg)) ⟨⟨WatchState.empty, wallet, 0⟩, .down⟩ es

theorem sampleGramTx_burns : sampleGramTx.Burns sampleLibs :=
  ⟨1767225594, 70, sampleBurn, by decide +kernel⟩

theorem secondBurn_burns : secondBurn.Burns sampleLibs :=
  ⟨1767225594, 70, { sampleBurn with sourceId := "02" }, by decide +kernel⟩

/-- Ticks leave the wallet, and no event of theirs is the chain's. -/
theorem wallet_run (cfg : GramWatcherConfig) {es : List GramEvent} (h : ∀ e ∈ es, ∀ m, e ≠ .act m)
    (w : GramWorld) :
    (Runs.run (LoopWorld.step (gramWatcherSystem sampleLibs cfg)) w es).shared.wallet
        = w.shared.wallet ∧
      Runs.Meets (LoopWorld.step (gramWatcherSystem sampleLibs cfg)) ChainOnlyAdds w es := by
  induction es generalizing w with
  | nil => exact ⟨rfl, trivial⟩
  | cons e es ih =>
    obtain ⟨hwallet, hmeets⟩ := ih (fun x hx => h x (List.mem_cons_of_mem _ hx)) (w.step _ e)
    refine ⟨hwallet.trans ?_, ?_, hmeets⟩
    · cases e with
      | act m => exact absurd rfl (h _ List.mem_cons_self m)
      | _ => simp only [LoopWorld.step] <;> split <;> rfl
    · cases e with
      | act m => exact absurd rfl (h _ List.mem_cons_self m)
      | _ => exact True.intro

theorem gramTick_ne_act (n : ℕ) : ∀ e ∈ gramTick n, ∀ m, e ≠ .act m := by
  intro e he m
  simp only [gramTick, List.mem_cons, List.mem_replicate] at he
  rcases he with rfl | ⟨-, rfl⟩ <;> rintro ⟨⟩

theorem firstTick_ne_act : ∀ e ∈ firstTick, ∀ m, e ≠ .act m := by
  intro e he m
  simp only [firstTick, List.mem_cons] at he
  rcases he with rfl | rfl | he
  · rintro ⟨⟩
  · rintro ⟨⟩
  · exact gramTick_ne_act 5 e he m

/-- The first tick, then `next` arrives and more ticks follow. -/
def laterRun (next : TonWallet) (ticks : List GramEvent) : List GramEvent :=
  firstTick ++ .act (.arrive next) :: ticks

theorem wallet_laterRun (cfg : GramWatcherConfig) (wallet next : TonWallet) {ticks : List GramEvent}
    (h : ∀ e ∈ ticks, ∀ m, e ≠ .act m) :
    (gramRun cfg wallet (laterRun next ticks)).shared.wallet = next := by
  unfold gramRun laterRun
  rw [Runs.run_append, Runs.run_cons, (wallet_run _ h _).1]
  rfl

theorem gram_watcher_complete_sample :
    (gramRun sampleGramConfig oneBurn (laterRun twoBurns (gramTick 16))).shared.cursor = 9 ∧
      ((gramRun sampleGramConfig oneBurn (laterRun twoBurns (gramTick 16))).shared.outbox.get
        sampleGramTx.hash).isSome = true := by
  have hcursor : (gramRun sampleGramConfig oneBurn (laterRun twoBurns (gramTick 16))).shared.cursor
      = 9 := by decide +kernel
  have htip : (gramRun sampleGramConfig oneBurn (laterRun twoBurns (gramTick 16))).shared.tip = 5 := by
    decide +kernel
  have hwallet := wallet_laterRun sampleGramConfig oneBurn twoBurns (gramTick_ne_act 16)
  have hrun : Runs.Meets (LoopWorld.step (gramWatcherSystem sampleLibs sampleGramConfig))
      ChainOnlyAdds ⟨⟨WatchState.empty, oneBurn, 0⟩, .down⟩ (laterRun twoBurns (gramTick 16)) := by
    obtain ⟨hfirst, hmeets⟩ := wallet_run sampleGramConfig firstTick_ne_act
      ⟨⟨WatchState.empty, oneBurn, 0⟩, .down⟩
    refine Runs.meets_append.2 ⟨hmeets, ?_, (wallet_run _ (gramTick_ne_act 16) _).2⟩
    refine ⟨[secondBurn], ?_⟩
    rw [hfirst]
    rfl
  have hrows := gram_watcher_complete sampleLibs sampleGramConfig (by decide)
    ⟨WatchState.empty, oneBurn, 0⟩ rfl (laterRun twoBurns (gramTick 16)) hrun
  -- the run stays a name from here on
  have hname : gramRun sampleGramConfig oneBurn (laterRun twoBurns (gramTick 16)) = Runs.run
      (LoopWorld.step (gramWatcherSystem sampleLibs sampleGramConfig))
      ⟨⟨WatchState.empty, oneBurn, 0⟩, .down⟩ (laterRun twoBurns (gramTick 16)) := by
    unfold gramRun
    exact Eq.refl _
  dsimp only at hrows
  rw [← hname] at hrows
  clear hname hrun
  generalize gramRun sampleGramConfig oneBurn (laterRun twoBurns (gramTick 16)) = w at *
  refine ⟨hcursor, (hrows (by omega)).2 sampleGramTx ?_ sampleGramTx_burns htip.le ?_⟩
  · rw [hwallet]
    exact List.mem_cons_of_mem _ List.mem_cons_self
  · rw [hcursor]
    decide

/-- The first tick finds an empty wallet and keeps no cursor; of two burns that arrive before the
next one, only the newer gets a row. With pages of one transaction the repeated anchor passes for
the end of the history. -/
theorem late_cold_start_skips_burn :
    (let w := gramRun sampleGramConfig noBurns (laterRun twoBurns (gramTick 5 ++ gramTick 10));
      (gramRun sampleGramConfig noBurns firstTick).shared.tip = 0 ∧
        sampleGramTx ∈ w.shared.wallet.txs ∧ sampleGramTx.Burns sampleLibs ∧
        0 < sampleGramTx.lt ∧ (sampleGramTx.lt : ℤ) ≤ w.shared.cursor ∧
        w.shared.outbox.get sampleGramTx.hash = none) ∧
    (let w := gramRun narrowGramConfig oneBurn (laterRun threeBurns (gramTick 16));
      (gramRun narrowGramConfig oneBurn firstTick).shared.tip = 5 ∧
        secondBurn ∈ w.shared.wallet.txs ∧ secondBurn.Burns sampleLibs ∧
        5 < secondBurn.lt ∧ (secondBurn.lt : ℤ) ≤ w.shared.cursor ∧
        w.shared.outbox.get secondBurn.hash = none) := by
  have hticks : ∀ e ∈ gramTick 5 ++ gramTick 10, ∀ m, e ≠ .act m := fun e he =>
    (List.mem_append.1 he).elim (gramTick_ne_act 5 e) (gramTick_ne_act 10 e)
  have hempty := wallet_laterRun sampleGramConfig noBurns twoBurns hticks
  have hnarrow := wallet_laterRun narrowGramConfig oneBurn threeBurns (gramTick_ne_act 16)
  refine ⟨⟨by decide +kernel, ?_, sampleGramTx_burns, by decide, by decide +kernel,
    by decide +kernel⟩, by decide +kernel, ?_, secondBurn_burns, by decide, by decide +kernel,
    by decide +kernel⟩
  · exact hempty.symm ▸ List.mem_cons_of_mem _ List.mem_cons_self
  · exact hnarrow.symm ▸ List.mem_cons_of_mem _ List.mem_cons_self

end VizGateway
