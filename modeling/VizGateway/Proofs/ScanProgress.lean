import Mathlib
import VizGateway.GramScan
import VizGateway.Sample

/-!
# What stops the peg-out scan

The scan returns, with every burn of its range, exactly when every final transfer of the range can
be read to its end.
-/

namespace VizGateway

open Checks Text

namespace ScanProgress

/-! ## Which bodies the parser reads -/

def Succeeds {α : Type} (x : Except String α) : Prop := ∃ a, x = .ok a

/-- The reader succeeds, and the value and what is left meet `P`. -/
def Reads {α : Type} (x : Except String (α × Slice)) (P : α → Slice → Prop) : Prop :=
  ∃ a s, x = .ok (a, s) ∧ P a s

variable {α β : Type}

@[simp] theorem succeeds_ok (a : α) : Succeeds (.ok a : Except String α) := ⟨a, rfl⟩

@[simp] theorem succeeds_pure (a : α) : Succeeds (pure a : Except String α) := ⟨a, rfl⟩

@[simp] theorem succeeds_error (e : String) : ¬ Succeeds (.error e : Except String α) := by
  rintro ⟨a, h⟩
  cases h

theorem succeeds_bind {x : Except String α} {f : α → Except String β} :
    Succeeds (x >>= f) ↔ ∃ a, x = .ok a ∧ Succeeds (f a) := by
  constructor
  · rintro ⟨b, h⟩
    obtain ⟨a, ha, hf⟩ := bind_eq_ok.1 h
    exact ⟨a, ha, b, hf⟩
  · rintro ⟨a, ha, b, hf⟩
    exact ⟨b, bind_eq_ok.2 ⟨a, ha, hf⟩⟩

theorem succeeds_read {x : Except String (α × Slice)} {f : α × Slice → Except String β} :
    Succeeds (x >>= f) ↔ Reads x fun a s => Succeeds (f (a, s)) := by
  rw [succeeds_bind]
  constructor
  · rintro ⟨⟨a, s⟩, hx, hs⟩
    exact ⟨a, s, hx, hs⟩
  · rintro ⟨a, s, hx, hs⟩
    exact ⟨(a, s), hx, hs⟩

theorem reads_bind {x : Except String α} {f : α → Except String (β × Slice)}
    {P : β → Slice → Prop} : Reads (x >>= f) P ↔ ∃ a, x = .ok a ∧ Reads (f a) P := by
  constructor
  · rintro ⟨b, s, h, hP⟩
    obtain ⟨a, ha, hf⟩ := bind_eq_ok.1 h
    exact ⟨a, ha, b, s, hf, hP⟩
  · rintro ⟨a, ha, b, s, hf, hP⟩
    exact ⟨b, s, bind_eq_ok.2 ⟨a, ha, hf⟩, hP⟩

theorem reads_bind_read {x : Except String (α × Slice)} {f : α × Slice → Except String (β × Slice)}
    {P : β → Slice → Prop} : Reads (x >>= f) P ↔ Reads x fun a s => Reads (f (a, s)) P := by
  rw [reads_bind]
  constructor
  · rintro ⟨⟨a, s⟩, hx, h⟩
    exact ⟨a, s, hx, h⟩
  · rintro ⟨a, s, hx, h⟩
    exact ⟨(a, s), hx, h⟩

theorem reads_pure {a : α} {s : Slice} {P : α → Slice → Prop} :
    Reads (pure (a, s) : Except String (α × Slice)) P ↔ P a s := by
  constructor
  · rintro ⟨a', s', h, hP⟩
    cases h
    exact hP
  · exact fun h => ⟨a, s, rfl, h⟩

theorem reads_require {c : Prop} [Decidable c] {e : String}
    {f : PUnit → Except String (β × Slice)} {P : β → Slice → Prop} :
    Reads (require c e >>= f) P ↔ c ∧ Reads (f ⟨⟩) P := by
  rw [reads_bind]
  constructor
  · rintro ⟨u, hc, h⟩
    exact ⟨require_eq_ok.1 hc, h⟩
  · rintro ⟨hc, h⟩
    exact ⟨⟨⟩, require_eq_ok.2 hc, h⟩

theorem reads_loadBits {s : Slice} {n : ℕ} {P : List Bool → Slice → Prop} :
    Reads (s.loadBits n) P
      ↔ ∃ bits rest, bits.length = n ∧ s.bits = bits ++ rest ∧ P bits ⟨rest, s.refs⟩ := by
  unfold Slice.loadBits
  constructor
  · rintro ⟨bits, s', h, hP⟩
    split_ifs at h with hlen
    rw [Except.ok.injEq, Prod.mk.injEq] at h
    obtain ⟨rfl, rfl⟩ := h
    exact ⟨_, _, List.length_take_of_le (Nat.not_lt.1 hlen), (List.take_append_drop ..).symm, hP⟩
  · rintro ⟨bits, rest, rfl, h, hP⟩
    refine ⟨bits, ⟨rest, s.refs⟩, ?_, hP⟩
    rw [if_neg (by rw [h, List.length_append]; omega)]
    unfold Slice.skip
    rw [h, List.take_left' rfl, List.drop_left' rfl]

theorem reads_loadUint {s : Slice} {n : ℕ} {P : ℕ → Slice → Prop} : Reads (s.loadUint n) P
    ↔ ∃ bits rest, bits.length = n ∧ s.bits = bits ++ rest
      ∧ P (bitsToNat bits) ⟨rest, s.refs⟩ := by
  unfold Slice.loadUint
  rw [reads_bind_read, reads_loadBits]
  simp only [reads_pure]

theorem reads_loadCoins {s : Slice} {P : Slice → Prop} : Reads s.loadCoins (fun _ => P)
    ↔ ∃ rest, CoinsThen s.bits rest ∧ P ⟨rest, s.refs⟩ := by
  unfold Slice.loadCoins
  rw [reads_bind_read, reads_loadUint]
  simp only [reads_loadUint]
  constructor
  · rintro ⟨size, s1, hsize, hs, value, rest, hv, hvs, hP⟩
    exact ⟨rest, ⟨size, value, hsize, hv, by rw [hs, hvs]⟩, hP⟩
  · rintro ⟨rest, ⟨size, value, hsize, hv, hs⟩, hP⟩
    exact ⟨size, value ++ rest, hsize, hs, value, rest, hv, rfl, hP⟩

theorem bitsToNat_two {b : List Bool} (h : b.length = 2) :
    (bitsToNat b = 2 ↔ b = [true, false]) ∧ (bitsToNat b = 0 ↔ b = [false, false]) := by
  obtain ⟨x, y, rfl⟩ := List.length_eq_two.1 h
  cases x <;> cases y <;> decide

theorem bitsToNat_one {b : List Bool} (h : b.length = 1) : bitsToNat b = 0 ↔ b = [false] := by
  obtain ⟨x, rfl⟩ := List.length_eq_one_iff.1 h
  cases x <;> decide

/-- What follows the two type bits of a standard address. -/
theorem reads_loadInternalAddress {s : Slice} {P : Slice → Prop} :
    Reads s.loadInternalAddress (fun _ => P) ↔ ∃ wc hash rest, wc.length = 8 ∧ hash.length = 256
      ∧ s.bits = false :: (wc ++ (hash ++ rest)) ∧ P ⟨rest, s.refs⟩ := by
  unfold Slice.loadInternalAddress
  simp only [reads_bind_read, reads_loadUint, reads_require, reads_loadBits, reads_pure]
  constructor
  · rintro ⟨b, s1, hb, hs, h0, wc, s2, hwc, hs1, hash, rest, hh, hs2, hP⟩
    rw [bitsToNat_one hb] at h0
    subst h0
    exact ⟨wc, hash, rest, hwc, hh, by rw [hs, hs1, hs2]; rfl, hP⟩
  · rintro ⟨wc, hash, rest, hwc, hh, hs, hP⟩
    exact ⟨[false], wc ++ (hash ++ rest), rfl, hs, rfl, wc, hash ++ rest, hwc, rfl, hash, rest, hh,
      rfl, hP⟩

theorem reads_loadAddress {s : Slice} {P : Slice → Prop} : Reads s.loadAddress (fun _ => P)
    ↔ ∃ rest, AddressThen s.bits rest ∧ P ⟨rest, s.refs⟩ := by
  unfold Slice.loadAddress
  simp only [reads_bind_read, reads_loadUint, reads_require, reads_loadInternalAddress]
  constructor
  · rintro ⟨b, s1, hb, hs, h2, wc, hash, rest, hwc, hh, hs1, hP⟩
    rw [(bitsToNat_two hb).1] at h2
    subst h2
    exact ⟨rest, ⟨wc, hash, hwc, hh, by rw [hs, hs1]; rfl⟩, hP⟩
  · rintro ⟨rest, ⟨wc, hash, hwc, hh, hs⟩, hP⟩
    exact ⟨[true, false], _, rfl, hs, rfl, wc, hash, rest, hwc, hh, rfl, hP⟩

theorem reads_loadMaybeAddress {s : Slice} {P : Slice → Prop} :
    Reads s.loadMaybeAddress (fun _ => P)
      ↔ ∃ rest, MaybeAddressThen s.bits rest ∧ P ⟨rest, s.refs⟩ := by
  unfold Slice.loadMaybeAddress
  rw [reads_bind_read, reads_loadUint]
  constructor
  · rintro ⟨b, s1, hb, hs, h⟩
    simp only at h
    split_ifs at h with h0
    · rw [(bitsToNat_two hb).2] at h0
      subst h0
      exact ⟨s1, .inl hs, reads_pure.1 h⟩
    · simp only [reads_require, reads_bind_read, reads_loadInternalAddress, reads_pure] at h
      obtain ⟨h2, wc, hash, rest, hwc, hh, hs1, hP⟩ := h
      rw [(bitsToNat_two hb).1] at h2
      subst h2
      exact ⟨rest, .inr ⟨wc, hash, hwc, hh, by rw [hs, hs1]; rfl⟩, hP⟩
  · rintro ⟨rest, hs | ⟨wc, hash, hwc, hh, hs⟩, hP⟩
    · refine ⟨[false, false], rest, rfl, hs, ?_⟩
      simp only
      rw [if_pos (by decide)]
      exact reads_pure.2 hP
    · refine ⟨[true, false], false :: (wc ++ (hash ++ rest)), rfl, hs, ?_⟩
      simp only
      rw [if_neg (by decide)]
      simp only [reads_require, reads_bind_read, reads_loadInternalAddress, reads_pure]
      exact ⟨by decide, wc, hash, rest, hwc, hh, rfl, hP⟩

theorem succeeds_stringBytes (c : Cell) : Succeeds c.stringBytes ↔ StringTail c := by
  induction c using Cell.stringBytes.induct with
  | case1 bits =>
    unfold Cell.stringBytes StringTail
    rw [succeeds_bind]
    simp
  | case2 bits next ih =>
    unfold Cell.stringBytes StringTail
    simp only [succeeds_bind, require_eq_ok, succeeds_pure, and_true]
    rw [← ih]
    constructor
    · rintro ⟨-, h1, -, h2, h3⟩
      exact ⟨h1, by omega, h3⟩
    · rintro ⟨h1, h2, h3⟩
      exact ⟨⟨⟩, h1, ⟨⟩, by omega, h3⟩
  | case3 bits a b rest =>
    unfold Cell.stringBytes StringTail
    rw [succeeds_bind, iff_false]
    rintro ⟨-, -, a, h⟩
    cases h

variable {L : Libs}

/-- The comment of a payload, and what is made of it. -/
def commentThen (L : Libs) (fp : Slice) (mk : String → α) : Except String α :=
  if 32 ≤ fp.bits.length then do
    let x ← fp.loadUint 32
    if x.1 = 0 then do
      let comment ← x.2.loadStringTail L
      pure (mk comment)
    else pure (mk "")
  else pure (mk "")

/-- The forward payload, and what is made of its comment. -/
def forwardThen (L : Libs) (s : Slice) (mk : String → α) : Except String α := do
  let x ← s.loadUint 1
  if x.1 = 1 then do
    let c ← x.2.loadRef
    commentThen L c.1.beginParse mk
  else commentThen L x.2 mk

/-- The deposit a comment completes. -/
def depositOf (L : Libs) (amount : ℕ) (sender : TonAddress) (comment : String) :
    Option JettonDeposit :=
  some { amountBaseUnits := amount, sender := L.addressToString sender, comment }

theorem parseJettonDeposit_eq {body : Slice} (hlen : ¬ body.bits.length < 32) :
    parseJettonDeposit L body = body.loadUint 32 >>= fun op =>
      if op.1 ≠ opTransferNotification ∧ op.1 ≠ opInternalTransfer then pure none
      else op.2.loadUint 64 >>= fun queryId => queryId.2.loadCoins >>= fun amount =>
        amount.2.loadAddress >>= fun sender =>
          if op.1 = opInternalTransfer then
            sender.2.loadMaybeAddress >>= fun response => response.2.loadCoins >>= fun forward =>
              forwardThen L forward.2 (depositOf L amount.1 sender.1)
          else forwardThen L sender.2 (depositOf L amount.1 sender.1) := by
  unfold parseJettonDeposit forwardThen commentThen depositOf
  rw [if_neg hlen]
  simp only [pure_bind]

theorem succeeds_loadStringTail {s : Slice} {mk : String → α} :
    Succeeds (do
      let comment ← s.loadStringTail L
      pure (mk comment)) ↔ StringTail (.mk s.bits s.refs) := by
  rw [← succeeds_stringBytes, succeeds_bind]
  unfold Slice.loadStringTail
  constructor
  · rintro ⟨c, hc, -⟩
    cases hx : (Cell.mk s.bits s.refs).stringBytes with
    | error e =>
      rw [hx] at hc
      cases hc
    | ok b => exact ⟨b, rfl⟩
  · rintro ⟨b, hb⟩
    exact ⟨L.utf8 b, by rw [hb]; rfl, succeeds_pure _⟩

theorem succeeds_commentThen {fp : Slice} {mk : String → α} :
    Succeeds (commentThen L fp mk) ↔ PayloadOk fp := by
  unfold commentThen PayloadOk
  by_cases hlen : 32 ≤ fp.bits.length
  · rw [if_pos hlen, succeeds_read, reads_loadUint]
    constructor
    · rintro ⟨bits, rest, hb, hs, h⟩
      have htake : fp.bits.take 32 = bits := by rw [hs, List.take_left' hb]
      have hdrop : fp.bits.drop 32 = rest := by rw [hs, List.drop_left' hb]
      simp only at h
      split_ifs at h with h0
      · rw [hdrop]
        exact .inr (.inr (succeeds_loadStringTail.1 h))
      · exact .inr (.inl (by rw [htake]; exact h0))
    · intro h
      refine ⟨fp.bits.take 32, fp.bits.drop 32, List.length_take_of_le hlen,
        (List.take_append_drop ..).symm, ?_⟩
      simp only
      split_ifs with h0
      · rcases h with h | h | h
        · omega
        · exact absurd h0 h
        · exact succeeds_loadStringTail.2 h
      · exact succeeds_pure _
  · rw [if_neg hlen]
    simp only [succeeds_pure, true_iff]
    exact .inl (Nat.not_le.1 hlen)

theorem succeeds_forwardThen {s : Slice} {mk : String → α} :
    Succeeds (forwardThen L s mk) ↔ ForwardOk s.bits s.refs := by
  unfold forwardThen ForwardOk
  rw [succeeds_read, reads_loadUint]
  constructor
  · rintro ⟨bits, rest, hb, hs, h⟩
    obtain ⟨inRef, rfl⟩ := List.length_eq_one_iff.1 hb
    refine ⟨inRef, rest, hs, ?_⟩
    cases inRef with
    | false => exact succeeds_commentThen.1 h
    | true =>
      unfold Slice.loadRef at h
      cases hr : s.refs with
      | nil =>
        rw [hr] at h
        exact absurd h (succeeds_error _)
      | cons c tail =>
        rw [hr] at h
        exact ⟨c, tail, rfl, succeeds_commentThen.1 h⟩
  · rintro ⟨inRef, rest, hs, h⟩
    refine ⟨[inRef], rest, rfl, hs, ?_⟩
    cases inRef with
    | false => exact succeeds_commentThen.2 h
    | true =>
      obtain ⟨c, tail, hr, hp⟩ := h
      unfold Slice.loadRef
      rw [hr]
      exact succeeds_commentThen.2 hp

/-- The parser does not throw exactly on the readable bodies. -/
theorem succeeds_parseJettonDeposit (body : Slice) :
    Succeeds (parseJettonDeposit L body) ↔ Readable body := by
  unfold Readable
  by_cases hlen : body.bits.length < 32
  · unfold parseJettonDeposit
    rw [if_pos hlen]
    simp [hlen]
  · have htd : body.bits = body.bits.take 32 ++ body.bits.drop 32 :=
      (List.take_append_drop ..).symm
    have h32 : (body.bits.take 32).length = 32 := List.length_take_of_le (Nat.not_lt.1 hlen)
    have hop : ∀ P : ℕ → Slice → Prop, Reads (body.loadUint 32) P
        ↔ P (bitsToNat (body.bits.take 32)) ⟨body.bits.drop 32, body.refs⟩ := by
      intro P
      rw [reads_loadUint]
      constructor
      · rintro ⟨bits, rest, hb, hs, h⟩
        rw [hs, List.take_left' hb, List.drop_left' hb]
        exact h
      · exact fun h => ⟨_, _, h32, htd, h⟩
    rw [parseJettonDeposit_eq hlen, succeeds_read, hop, or_iff_right hlen]
    simp only
    by_cases hother : bitsToNat (body.bits.take 32) ≠ opTransferNotification
        ∧ bitsToNat (body.bits.take 32) ≠ opInternalTransfer
    · rw [if_pos hother]
      exact ⟨fun _ => .inl hother, fun _ => succeeds_pure _⟩
    rw [if_neg hother, or_iff_right hother]
    by_cases hint : bitsToNat (body.bits.take 32) = opInternalTransfer
    · simp only [if_pos hint, succeeds_read, reads_loadUint, reads_loadCoins, reads_loadAddress,
        reads_loadMaybeAddress, succeeds_forwardThen]
      constructor
      · rintro ⟨q, a, hq, hqa, s, hs, r, hr, f, hf, p, hp, hfw⟩
        exact ⟨q, a, s, hq, hqa, hs, r, hr, f, p, hf, hp, hfw⟩
      · rintro ⟨q, a, s, hq, hqa, hs, r, hr, f, p, hf, hp, hfw⟩
        exact ⟨q, a, hq, hqa, s, hs, r, hr, f, hf, p, hp, hfw⟩
    · simp only [if_neg hint, succeeds_read, reads_loadUint, reads_loadCoins, reads_loadAddress,
        succeeds_forwardThen]
      constructor
      · rintro ⟨q, a, hq, hqa, s, hs, r, hr, hfw⟩
        exact ⟨q, a, s, hq, hqa, hs, r, hr, hfw⟩
      · rintro ⟨q, a, s, hq, hqa, hs, r, hr, hfw⟩
        exact ⟨q, a, hq, hqa, s, hs, r, hr, hfw⟩

theorem succeeds_burnFromTx (L : Libs) (height : ℕ) {tx : GramTx} {cutoff : ℤ} :
    Succeeds (burnFromTx L tx cutoff height) ↔ ReadableTx tx cutoff := by
  unfold burnFromTx ReadableTx
  split_ifs with hcut hcomp
  · simp only [succeeds_ok, true_iff]
    exact fun h => absurd h (by omega)
  · simp only [succeeds_ok, true_iff]
    intro _ h
    rw [hcomp] at h
    cases h
  · have hpre : tx.now ≤ cutoff ∧ txComputeSucceeded tx = true := ⟨by omega, by simpa using hcomp⟩
    cases hbody : tx.inMessageBody with
    | none => simp
    | some body =>
      simp only [Option.some.injEq, forall_eq']
      split_ifs with hempty
      · simp only [succeeds_ok, true_iff]
        intro _ _
        have hnil : body.beginParse.bits = [] := hempty
        exact .inl (by rw [hnil]; exact Nat.zero_lt_succ _)
      · rw [succeeds_bind]
        constructor
        · rintro ⟨a, ha, -⟩ - -
          exact (succeeds_parseJettonDeposit _).1 ⟨a, ha⟩
        · intro h
          obtain ⟨a, ha⟩ := (succeeds_parseJettonDeposit (L := L) _).2 (h hpre.1 hpre.2)
          refine ⟨a, ha, ?_⟩
          cases a <;> exact succeeds_pure _

/-! ## What the page loop scans -/

section

variable {fromLt : ℕ} {cutoff : ℤ} {toBurn : GramTx → Except String (Option RemoteBurn)}

theorem scanPage_skip {anchorLt : Option ℕ} {skip page : List GramTx} {acc : PageScan}
    (h : ∀ tx ∈ skip, anchorLt.any (· ≤ tx.lt)) :
    scanPage fromLt cutoff toBurn anchorLt (skip ++ page) acc
      = scanPage fromLt cutoff toBurn anchorLt page acc := by
  induction skip with
  | nil => rfl
  | cons tx skip ih =>
    rw [List.cons_append, scanPage, if_pos (h tx List.mem_cons_self)]
    exact ih fun t ht => h t (List.mem_cons_of_mem _ ht)

/-- A page of new transactions is scanned down to the cursor. -/
theorem scanPage_eq {anchorLt : Option ℕ} {page : List GramTx} (acc : PageScan)
    (h : ∀ tx ∈ page, ¬ anchorLt.any (· ≤ tx.lt)) (hd : acc.drained = false) :
    scanPage fromLt cutoff toBurn anchorLt page acc
      = (fresh fromLt page).foldlM (scanTx cutoff toBurn) acc.toScan >>= fun scan =>
          .ok { toScan := scan, drained := !page.all (fromLt < ·.lt)
                sawFresh := acc.sawFresh || !(fresh fromLt page).isEmpty } := by
  induction page generalizing acc with
  | nil =>
    cases acc
    cases hd
    simp [scanPage, fresh]
  | cons tx page ih =>
    rw [scanPage, if_neg (h tx List.mem_cons_self)]
    by_cases hlt : tx.lt ≤ fromLt
    · have hf : fresh fromLt (tx :: page) = [] := by simp [fresh, hlt]
      rw [if_pos hlt, hf]
      simp [Nat.not_lt.2 hlt]
    · have hf : fresh fromLt (tx :: page) = tx :: fresh fromLt page := by
        simp [fresh, Nat.not_le.1 hlt]
      rw [if_neg hlt, hf, List.foldlM_cons, bind_assoc]
      refine congrArg _ (funext fun scan => ?_)
      rw [ih { acc with toScan := scan, sawFresh := true }
        (fun t ht => h t (List.mem_cons_of_mem _ ht)) hd]
      simp [Nat.not_le.1 hlt]

/-- One turn of the loop: the new transactions of the page are scanned, and the loop goes on below
a full page that is fresh throughout. -/
theorem paginateBurnsByLt_step {limit k n : ℕ} {anchor : Option (ℕ × String)} {acc : Scan}
    {fetchPage : Option (ℕ × String) → Except String (List GramTx)} (skip rest : List GramTx)
    (hpage : fetchPage anchor = .ok (skip ++ rest.take k)) (hk : skip.length + k = limit)
    (hskip : ∀ tx ∈ skip, (anchor.map (·.1)).any (· ≤ tx.lt))
    (hrest : ∀ tx ∈ rest, ¬ (anchor.map (·.1)).any (· ≤ tx.lt)) :
    paginateBurnsByLt fromLt cutoff toBurn limit fetchPage (n + 1) anchor acc
      = (fresh fromLt (rest.take k)).foldlM (scanTx cutoff toBurn) acc >>= fun scan =>
          match if (rest.take k).all (fromLt < ·.lt) ∧ k ≤ rest.length
            then (rest.take k).getLast? else none with
          | none => .ok { scan with drained := true }
          | some last => paginateBurnsByLt fromLt cutoff toBurn limit fetchPage
              n (some (last.lt, last.hash)) scan := by
  have hnew : ∀ tx ∈ rest.take k, ¬ (anchor.map (·.1)).any (· ≤ tx.lt) :=
    fun tx ht => hrest tx (List.mem_of_mem_take ht)
  rw [paginateBurnsByLt, hpage, ok_bind]
  by_cases hnil : skip ++ rest.take k = []
  · obtain ⟨-, hr⟩ := List.append_eq_nil_iff.1 hnil
    rw [if_pos hnil, hr]
    simp only [fresh, List.takeWhile_nil, List.foldlM_nil, List.getLast?_nil, ite_self]
    rfl
  rw [if_neg hnil, scanPage_skip hskip, scanPage_eq _ hnew rfl, bind_assoc]
  refine congrArg _ (funext fun scan => ?_)
  rw [ok_bind]
  simp only [Bool.false_or]
  by_cases hall : (rest.take k).all (fromLt < ·.lt) = true
  · have hfresh : fresh fromLt (rest.take k) = rest.take k :=
      List.takeWhile_eq_self_iff.2 (List.all_eq_true.1 hall)
    simp only [hall, hfresh, Bool.not_true, Bool.false_eq_true, if_false, true_and]
    cases hlast : (rest.take k).getLast? with
    | none =>
      -- only the anchor came back
      rw [List.getLast?_eq_none_iff] at hlast
      rw [hlast, ite_self]
      cases (skip ++ []).getLast? <;> rfl
    | some last =>
      have hne : (rest.take k).isEmpty = false := by
        cases hr : rest.take k with
        | nil =>
          rw [hr] at hlast
          cases hlast
        | cons _ _ => rfl
      have hfull : (skip ++ rest.take k).length < limit ↔ ¬ k ≤ rest.length := by
        rw [List.length_append, List.length_take]
        omega
      have hl : (skip ++ rest.take k).getLast? = some last := by
        rw [List.getLast?_append, hlast]
        rfl
      simp only [hl, hne, hfull, Bool.not_false, Bool.true_eq_false, false_or]
      by_cases hk : k ≤ rest.length
      · simp only [hk, not_true, if_false, if_true]
      · simp only [hk, not_false_eq_true, if_true, if_false]
        rfl
  · simp only [hall, Bool.not_false, if_true, Bool.false_eq_true, false_and, if_false]
    rfl

/-- One turn and, by `hnext`, the turns after it. -/
theorem paginateBurnsByLt_turn {limit k m n : ℕ} {anchor : Option (ℕ × String)} {acc : Scan}
    {fetchPage : Option (ℕ × String) → Except String (List GramTx)} (skip rest : List GramTx)
    (hpage : fetchPage anchor = .ok (skip ++ rest.take k)) (hk : skip.length + k = limit)
    (hskip : ∀ tx ∈ skip, (anchor.map (·.1)).any (· ≤ tx.lt))
    (hrest : ∀ tx ∈ rest, ¬ (anchor.map (·.1)).any (· ≤ tx.lt)) (hm : k = 0 → m = 0)
    (hnext : ∀ last scan, (rest.take k).getLast? = some last →
      ScanResult.toScan <$> paginateBurnsByLt fromLt cutoff toBurn limit fetchPage n
          (some (last.lt, last.hash)) scan
        = (fresh fromLt ((rest.drop k).take m)).foldlM (scanTx cutoff toBurn) scan) :
    ScanResult.toScan <$> paginateBurnsByLt fromLt cutoff toBurn limit fetchPage (n + 1) anchor acc
      = (fresh fromLt (rest.take (k + m))).foldlM (scanTx cutoff toBurn) acc := by
  rw [paginateBurnsByLt_step skip rest hpage hk hskip hrest, map_bind, List.take_add]
  split_ifs with hgo
  · have hfresh : fresh fromLt (rest.take k ++ (rest.drop k).take m)
        = fresh fromLt (rest.take k) ++ fresh fromLt ((rest.drop k).take m) := by
      unfold fresh
      rw [List.takeWhile_append_of_pos (List.all_eq_true.1 hgo.1),
        List.takeWhile_eq_self_iff.2 (List.all_eq_true.1 hgo.1)]
    rw [hfresh, List.foldlM_append]
    refine congrArg _ (funext fun scan => ?_)
    cases hlast : (rest.take k).getLast? with
    | some last => exact hnext last scan hlast
    | none =>
      have hnil : (rest.drop k).take m = [] := by
        rw [List.getLast?_eq_none_iff, List.take_eq_nil_iff] at hlast
        rcases hlast with h | h
        · rw [hm h, List.take_zero]
        · rw [h, List.drop_nil, List.take_nil]
      rw [hnil]
      rfl
  · have hfresh : fresh fromLt (rest.take k ++ (rest.drop k).take m) = fresh fromLt (rest.take k) := by
      by_cases hlen : k ≤ rest.length
      · unfold fresh
        rw [List.takeWhile_append, if_neg]
        intro hlength
        exact hgo ⟨List.all_eq_true.2 (List.takeWhile_eq_self_iff.1
          ((List.takeWhile_prefix _).eq_of_length hlength)), hlen⟩
      · rw [List.drop_eq_nil_of_le (by omega), List.take_nil, List.append_nil]
    rw [hfresh]
    exact bind_pure _

/-- A page from an anchor on repeats the anchor. -/
theorem getTransactions_anchor (h : WalletHistory) {limit : ℕ} (hlimit : 1 ≤ limit)
    {pre post : List GramTx} {a : GramTx} (hsplit : h.txs = pre ++ a :: post) :
    h.getTransactions limit (some (a.lt, a.hash)) = [a] ++ post.take (limit - 1) := by
  have hsorted := h.newestFirst
  rw [hsplit, List.pairwise_append] at hsorted
  have hdrop : (h.txs.dropWhile fun tx => a.lt < tx.lt) = a :: post := by
    rw [hsplit, List.dropWhile_append_of_pos]
    · simp
    · exact fun tx ht => by simpa using hsorted.2.2 tx ht a List.mem_cons_self
  obtain ⟨k, rfl⟩ : ∃ k, limit = k + 1 := ⟨limit - 1, by omega⟩
  exact congrArg (List.take (k + 1)) hdrop

/-- From an anchor on, `n` pages scan the next `n * (limit - 1)` transactions. -/
theorem paginateBurnsByLt_anchored (h : WalletHistory) {limit : ℕ} (hlimit : 1 ≤ limit) (n : ℕ)
    {pre post : List GramTx} {a : GramTx} (hsplit : h.txs = pre ++ a :: post) (acc : Scan) :
    ScanResult.toScan <$> paginateBurnsByLt fromLt cutoff toBurn limit
        (fun anchor => .ok (h.getTransactions limit anchor)) n (some (a.lt, a.hash)) acc
      = (fresh fromLt (post.take (n * (limit - 1)))).foldlM (scanTx cutoff toBurn) acc := by
  induction n generalizing pre a post acc with
  | zero => simp [paginateBurnsByLt, fresh]; rfl
  | succ n ih =>
    have hpost := (List.pairwise_cons.1 (List.pairwise_append.1 (hsplit ▸ h.newestFirst)).2.1).1
    have hpage := getTransactions_anchor h hlimit hsplit
    rw [Nat.succ_mul, Nat.add_comm (n * (limit - 1))]
    refine paginateBurnsByLt_turn [a] post ?_ ?_ ?_ ?_ ?_ ?_
    · exact congrArg Except.ok hpage
    · simp only [List.length_singleton]
      omega
    · simp
    · intro tx ht
      simpa using hpost tx ht
    · intro hk
      rw [hk, Nat.mul_zero]
    · intro last scan hlast
      obtain ⟨items, hitems⟩ := List.getLast?_eq_some_iff.1 hlast
      have hnext : h.txs = pre ++ a :: items ++ last :: post.drop (limit - 1) := by
        calc h.txs = pre ++ a :: (post.take (limit - 1) ++ post.drop (limit - 1)) := by
              rw [hsplit, List.take_append_drop]
          _ = pre ++ a :: items ++ last :: post.drop (limit - 1) := by rw [hitems]; simp
      exact ih hnext scan

/-- From the newest on, the pages scan as many transactions as they hold. -/
theorem paginateBurnsByLt_eq (h : WalletHistory) {limit : ℕ} (hlimit : 1 ≤ limit) (n : ℕ)
    (acc : Scan) :
    ScanResult.toScan <$> paginateBurnsByLt fromLt cutoff toBurn limit
        (fun anchor => .ok (h.getTransactions limit anchor)) (n + 1) none acc
      = (fresh fromLt (h.txs.take (limit + n * (limit - 1)))).foldlM (scanTx cutoff toBurn) acc := by
  refine paginateBurnsByLt_turn [] _ rfl (by simp) (by simp) (by simp) (by omega) ?_
  intro last scan hlast
  obtain ⟨items, hitems⟩ := List.getLast?_eq_some_iff.1 hlast
  have hnext : h.txs = items ++ last :: h.txs.drop limit := by
    calc h.txs = h.txs.take limit ++ h.txs.drop limit := (List.take_append_drop ..).symm
      _ = items ++ last :: h.txs.drop limit := by rw [hitems, List.append_assoc]; rfl
  exact paginateBurnsByLt_anchored h hlimit n hnext scan

end

/-! ## The scan of a wallet -/

theorem finalizedBurnsPaginated_eq (L : Libs) (cfg : GramScanConfig) (h : WalletHistory) (nowMs : ℤ)
    (height fromLt : ℕ) :
    ScanResult.toScan <$> finalizedBurnsPaginated L cfg h nowMs height fromLt
      = (h.range cfg fromLt).foldlM (scanTx (nowMs / 1000 - cfg.finalityBufferSec) fun tx =>
          burnFromTx L tx (nowMs / 1000 - cfg.finalityBufferSec) height) ⟨[], fromLt⟩ := by
  obtain ⟨n, hn⟩ : ∃ n, cfg.pages = n + 1 := ⟨cfg.pages - 1, by
    have : 1 ≤ cfg.pages := Nat.le_max_left ..
    omega⟩
  unfold finalizedBurnsPaginated WalletHistory.range GramScanConfig.window
  rw [hn, Nat.add_sub_cancel]
  exact paginateBurnsByLt_eq h (Nat.le_max_left ..) n _

/-- What a scan that returns has seen: it passed every final transaction, with its burn. -/
theorem foldlM_scanTx {cutoff : ℤ} {toBurn : GramTx → Except String (Option RemoteBurn)}
    {txs : List GramTx} {acc res : Scan} (h : txs.foldlM (scanTx cutoff toBurn) acc = .ok res) :
    acc.newestFinalLt ≤ res.newestFinalLt ∧ acc.burns ⊆ res.burns
      ∧ ∀ tx ∈ txs, tx.now ≤ cutoff → tx.lt ≤ res.newestFinalLt
        ∧ ∀ b, toBurn tx = .ok (some b) → b ∈ res.burns := by
  induction txs generalizing acc with
  | nil =>
    cases h
    simp
  | cons tx txs ih =>
    rw [List.foldlM_cons] at h
    obtain ⟨scan, hscan, hrest⟩ := bind_eq_ok.1 h
    obtain ⟨hlt, hburns, hall⟩ := ih hrest
    unfold scanTx at hscan
    split_ifs at hscan with hfinal
    · obtain ⟨burn, hburn, hret⟩ := bind_eq_ok.1 hscan
      cases hret
      refine ⟨le_trans (Nat.le_max_left ..) hlt,
        fun b hb => hburns (List.mem_append_left _ hb), ?_⟩
      rintro t (_ | ⟨_, ht⟩) hnow
      · refine ⟨le_trans (Nat.le_max_right ..) hlt, fun b hb => hburns ?_⟩
        rw [hburn] at hb
        cases hb
        simp
      · exact hall t ht hnow
    · cases hscan
      refine ⟨hlt, hburns, ?_⟩
      rintro t (_ | ⟨_, ht⟩) hnow
      · exact absurd hnow hfinal
      · exact hall t ht hnow

theorem succeeds_foldlM_scanTx {cutoff : ℤ} {toBurn : GramTx → Except String (Option RemoteBurn)}
    {txs : List GramTx} {acc : Scan} : Succeeds (txs.foldlM (scanTx cutoff toBurn) acc)
      ↔ ∀ tx ∈ txs, tx.now ≤ cutoff → Succeeds (toBurn tx) := by
  induction txs generalizing acc with
  | nil => simp
  | cons tx txs ih =>
    rw [List.foldlM_cons, succeeds_bind, List.forall_mem_cons]
    unfold scanTx
    split_ifs with hfinal
    · constructor
      · rintro ⟨scan, hscan, hrest⟩
        obtain ⟨burn, hburn, -⟩ := bind_eq_ok.1 hscan
        exact ⟨fun _ => ⟨burn, hburn⟩, ih.1 hrest⟩
      · rintro ⟨htx, hrest⟩
        obtain ⟨burn, hburn⟩ := htx hfinal
        exact ⟨_, by rw [hburn]; rfl, ih.2 hrest⟩
    · constructor
      · rintro ⟨scan, -, hrest⟩
        exact ⟨fun hnow => absurd hnow hfinal, ih.1 hrest⟩
      · exact fun h => ⟨acc, rfl, ih.2 h.2⟩

end ScanProgress

open ScanProgress

/-- The scan returns, past every final transaction of its range and with every burn of it, exactly
when every transaction of the range is readable. -/
theorem scan_passes_range_iff (L : Libs) (cfg : GramScanConfig) (h : WalletHistory) (nowMs : ℤ)
    (height fromLt : ℕ) :
    (∃ res, finalizedBurnsPaginated L cfg h nowMs height fromLt = .ok res
      ∧ ∀ tx ∈ h.range cfg fromLt, tx.now ≤ nowMs / 1000 - cfg.finalityBufferSec →
        tx.lt ≤ res.newestFinalLt
          ∧ ∀ b, burnFromTx L tx (nowMs / 1000 - cfg.finalityBufferSec) height = .ok (some b) →
            b ∈ res.burns)
      ↔ ∀ tx ∈ h.range cfg fromLt, ReadableTx tx (nowMs / 1000 - cfg.finalityBufferSec) := by
  have hscan := finalizedBurnsPaginated_eq L cfg h nowMs height fromLt
  constructor
  · rintro ⟨res, hres, -⟩
    rw [hres] at hscan
    have hall := succeeds_foldlM_scanTx.1 ⟨_, hscan.symm⟩
    intro tx htx hfinal
    exact (succeeds_burnFromTx L height).1 (hall tx htx hfinal) hfinal
  · intro hread
    obtain ⟨scan, hok⟩ := succeeds_foldlM_scanTx.2 fun tx htx _ =>
      (succeeds_burnFromTx L height).2 (hread tx htx)
    rw [hok] at hscan
    cases hres : finalizedBurnsPaginated L cfg h nowMs height fromLt with
    | error e =>
      rw [hres] at hscan
      cases hscan
    | ok res =>
      rw [hres] at hscan
      cases hscan
      exact ⟨res, rfl, (foldlM_scanTx hok).2.2⟩

/-- A committed transfer whose payload bit promises a reference that is not there. -/
def hollowMessage : Cell :=
  .mk (natBits 32 opInternalTransfer ++ natBits 64 0 ++ natBits 4 1 ++ natBits 8 1
    ++ [true, false, false] ++ natBits 8 0 ++ sampleSenderHash ++ [false, false] ++ natBits 4 0
    ++ [true]) []

/-- It came after an honest burn. -/
def hollowHistory : WalletHistory where
  txs := [{ sampleGramTx with hash := "02", lt := 6, inMessageBody := some hollowMessage },
    sampleGramTx]
  newestFirst := by simp [sampleGramTx]

def hollowConfig : GramScanConfig where
  finalityBufferSec := 30
  maxTransactions := 100
  maxScanPages := 20

/-- One dust transfer makes the scan throw, and the honest burn below it is not reported. -/
theorem hollow_transfer_blocks_scan :
    finalizedBurnsPaginated sampleLibs hollowConfig hollowHistory 1767225600000 70 0
        = .error "No more references"
      ∧ sampleGramTx ∈ hollowHistory.range hollowConfig 0
      ∧ burnFromTx sampleLibs sampleGramTx (1767225600000 / 1000 - 30) 70
        = .ok (some sampleBurn) := by
  refine ⟨by decide +kernel, ?_, by decide +kernel⟩
  exact List.mem_cons_of_mem _ List.mem_cons_self

end VizGateway
