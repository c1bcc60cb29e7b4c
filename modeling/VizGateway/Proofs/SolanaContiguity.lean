import VizGateway.SolanaWatcher
import VizGateway.Proofs.WatchSteps
import VizGateway.Sample

/-!
# The Solana watcher skips no payment behind its first cursor

While a scan walks the signature list the list grows. What is new lies above the safe slot, and what
the walk has not passed yet stays behind the signature it pages from. So a drained scan has read
every final transaction above the cursor, and behind the first durable cursor every payment up to
the present one has its row (`solana_watcher_complete`).
-/

namespace VizGateway

open Watch ActionStatus

namespace SolanaContiguity

open WatchSteps

/-! ## Behind a signature -/

section Behind

/-- The signatures strictly after one. -/
def behind (sigs : List ScanSig) : Option String → List ScanSig
  | none => sigs
  | some sig => (sigs.dropWhile (·.signature ≠ sig)).drop 1

variable {sigs sigs' page : List ScanSig} {g l : ScanSig} {before : Option String} {limit : ℕ}

theorem page_eq (h : SigHistory) (limit : ℕ) (before : Option String) :
    h.page limit before = (behind h.sigs before).take limit := by
  cases before <;> rfl

theorem behind_eq {pre post : List ScanSig} (hn : (sigs.map ScanSig.signature).Nodup)
    (hsplit : sigs = pre ++ l :: post) : behind sigs (some l.signature) = post := by
  have hpre : ∀ s ∈ pre, decide (s.signature ≠ l.signature) = true := by
    intro s hs
    rw [hsplit, List.map_append, List.nodup_append] at hn
    rw [decide_eq_true_eq]
    exact hn.2.2 _ (List.mem_map_of_mem hs) _ (by simp)
  have hdrop : sigs.dropWhile (·.signature ≠ l.signature) = l :: post := by
    rw [hsplit, List.dropWhile_append_of_pos hpre]
    simp
  simp only [behind, hdrop, List.drop_one, List.tail_cons]

/-- One is behind another where it comes later in the list. -/
theorem mem_behind_iff (hn : (sigs.map ScanSig.signature).Nodup) {sig : String} :
    g ∈ behind sigs (some sig) ↔ ∃ l, l.signature = sig ∧ [l, g].Sublist sigs := by
  constructor
  · intro hg
    have hdrop := List.dropWhile_sublist (l := sigs) fun s => decide (s.signature ≠ sig)
    rcases h : sigs.dropWhile (fun s => decide (s.signature ≠ sig)) with _ | ⟨l, post⟩
    · simp only [behind, h, List.drop_nil, List.not_mem_nil] at hg
    · have hl : l.signature = sig := by
        have hnot := List.head_dropWhile_not (l := sigs) (fun s => decide (s.signature ≠ sig))
          (by rw [h]; exact List.cons_ne_nil _ _)
        simpa only [h, List.head_cons, decide_eq_false_iff_not, not_not] using hnot
      rw [h] at hdrop
      have hmem : g ∈ post := by simpa only [behind, h, List.drop_one, List.tail_cons] using hg
      exact ⟨l, hl, (List.cons_sublist_cons.2 (List.singleton_sublist.2 hmem)).trans hdrop⟩
  · rintro ⟨l, rfl, hsub⟩
    obtain ⟨r₁, r₂, rfl, hl, hg⟩ := List.cons_sublist_iff.1 hsub
    obtain ⟨pre, post, rfl⟩ := List.append_of_mem hl
    have hbehind : behind (pre ++ l :: post ++ r₂) (some l.signature) = post ++ r₂ :=
      behind_eq hn (List.append_assoc pre (l :: post) r₂)
    rw [hbehind]
    exact List.mem_append_right _ (List.singleton_sublist.1 hg)

/-- A list that grows keeps what is behind a signature. -/
theorem mem_behind_of_sublist (hn : (sigs'.map ScanSig.signature).Nodup)
    (hsub : sigs.Sublist sigs') (hg : g ∈ behind sigs before) : g ∈ behind sigs' before := by
  cases before with
  | none => exact hsub.subset hg
  | some sig =>
    obtain ⟨l, hl, hpair⟩ := (mem_behind_iff (hn.sublist (hsub.map _))).1 hg
    exact (mem_behind_iff hn).2 ⟨l, hl, hpair.trans hsub⟩

/-- What is behind a signature is on the page from it or behind the page's last. -/
theorem mem_page_or_behind (h : SigHistory) (hg : g ∈ behind h.sigs before)
    (hpage : h.page limit before = page) :
    g ∈ page ∨ limit ≤ page.length ∧ ∀ last, page.getLast? = some last →
      g ∈ behind h.sigs (some last.signature) := by
  subst hpage
  rw [page_eq]
  obtain ⟨pre, hpre⟩ : ∃ pre, h.sigs = pre ++ behind h.sigs before := by
    cases before with
    | none => exact ⟨[], rfl⟩
    | some sig =>
      exact (List.IsSuffix.trans (List.drop_suffix ..) (List.dropWhile_suffix _)).imp fun _ => Eq.symm
  by_cases hmem : g ∈ (behind h.sigs before).take limit
  · exact .inl hmem
  refine .inr ⟨?_, fun last hlast => ?_⟩
  · by_contra hshort
    rw [List.length_take] at hshort
    rw [List.take_of_length_le (by omega)] at hmem
    exact hmem hg
  · have hrest : g ∈ (behind h.sigs before).drop limit := by
      rw [← List.take_append_drop limit (behind h.sigs before), List.mem_append] at hg
      exact hg.resolve_left hmem
    obtain ⟨init, hinit⟩ := List.getLast?_eq_some_iff.1 hlast
    have hsplit : h.sigs = (pre ++ init) ++ last :: (behind h.sigs before).drop limit := by
      calc h.sigs = pre ++ behind h.sigs before := hpre
        _ = pre ++ ((behind h.sigs before).take limit ++ (behind h.sigs before).drop limit) := by
          rw [List.take_append_drop]
        _ = (pre ++ init) ++ last :: (behind h.sigs before).drop limit := by
          rw [hinit]
          simp
    rwa [behind_eq h.nodup hsplit]

theorem slot_le_of_behind (h : SigHistory) (hg : g ∈ behind h.sigs (some l.signature))
    (hl : l ∈ h.sigs) : g.slot ≤ l.slot := by
  obtain ⟨pre, post, hsplit⟩ := List.append_of_mem hl
  rw [behind_eq h.nodup hsplit] at hg
  have hsorted := h.newestFirst
  rw [hsplit, List.pairwise_append, List.pairwise_cons] at hsorted
  exact hsorted.2.1.1 g hg

theorem page_sublist (h : SigHistory) (limit : ℕ) (before : Option String) :
    (h.page limit before).Sublist h.sigs := by
  rw [page_eq]
  refine (List.take_sublist ..).trans ?_
  cases before with
  | none => exact List.Sublist.refl _
  | some sig => exact (List.drop_sublist ..).trans (List.dropWhile_sublist _)

end Behind

/-! ## What stays -/

/-- The ids of the account's transactions. -/
abbrev Id (s : SolanaWatchState) (id : String) : Prop :=
  id ∈ s.account.sigs.map ScanSig.signature

theorem extends_refl (a : SolanaAccount) (slot : ℤ) : a.Extends a slot :=
  ⟨List.Sublist.refl _, fun _ _ => rfl, fun _ => .inl⟩

theorem extends_trans {a b c : SolanaAccount} {slot slot' : ℤ} (hle : slot ≤ slot')
    (h : a.Extends b slot) (h' : b.Extends c slot') : a.Extends c slot where
  keeps := h.keeps.trans h'.keeps
  tx s hs := (h'.tx s (h.keeps.subset hs)).trans (h.tx s hs)
  adds s hs := by
    rcases h'.adds s hs with hb | hlt
    · exact h.adds s hb
    · exact .inr (hle.trans_lt hlt)

/-- What everyone keeps, the write of the cursor apart. -/
structure SolanaGrows (finality : ℕ) (s t : SolanaWatchState) : Prop where
  watch : Grows (Id s) s.toWatchState t.toWatchState
  account : s.account.Extends t.account ((s.height : ℤ) - finality)
  height : s.height ≤ t.height
  first : s.cursor ≠ 0 → t.first = s.first

variable {finality : ℕ} {s t u : SolanaWatchState} {acct : String} {g : ScanSig}
  {fromSlot safeSlot c : ℤ}

theorem SolanaGrows.refl (s : SolanaWatchState) : SolanaGrows finality s s :=
  ⟨Grows.refl _, extends_refl _ _, le_rfl, fun _ => rfl⟩

theorem SolanaGrows.id (h : SolanaGrows finality s t) {id : String} (hid : Id s id) : Id t id :=
  (h.account.keeps.map ScanSig.signature).subset hid

theorem SolanaGrows.trans (h : SolanaGrows finality s t) (h' : SolanaGrows finality t u) :
    SolanaGrows finality s u where
  watch := ⟨h'.watch.cursor.trans h.watch.cursor, fun _ hb => h'.watch.scanned (h.watch.scanned hb),
    fun id hid hs => h'.watch.rows id (h.id hid) (h.watch.rows id hid hs)⟩
  account := extends_trans (by have := h.height; omega) h.account h'.account
  height := h.height.trans h'.height
  first hc := (h'.first (by rwa [h.watch.cursor])).trans (h.first hc)

theorem pays_of_grows (h : SolanaGrows finality s t) (hg : g ∈ s.account.sigs)
    (hp : t.account.Pays acct g) : s.account.Pays acct g := by
  obtain ⟨-, herr, tx, p, htx, hparse⟩ := hp
  exact ⟨hg, herr, tx, p, (h.account.tx g hg).symm.trans htx, hparse⟩

/-- Neither a write of the cursor nor a deletion. -/
def SolanaPlain : SolanaWatchOp → Prop
  | .watch o => Plain o
  | .rpc _ => True

theorem solanaGrows_exec {o : SolanaWatchOp} (ho : SolanaPlain o) (i : SolanaInput)
    (s : SolanaWatchState) : SolanaGrows finality s (SolanaWatchState.exec o i s).1 := by
  cases o with
  | watch o =>
    refine ⟨grows_exec ho _ _, extends_refl _ _, le_rfl, fun hc => ?_⟩
    simp only [SolanaWatchState.exec, if_neg hc]
  | rpc o =>
    simp only [SolanaWatchState.exec]
    split
    · exact SolanaGrows.refl s
    · refine ⟨Grows.refl _, extends_refl _ _, ?_, fun _ => rfl⟩
      cases o <;> simp

/-! ## What the cursor vouches for -/

section Cursor

variable (cfg : SolanaWatcherConfig) (acct : String)

/-- The payments of some slots have their rows. -/
def Rows (a c : ℤ) (s : SolanaWatchState) : Prop :=
  ∀ g, s.account.Pays acct g → a < g.slot → g.slot ≤ c → (s.outbox.get g.signature).isSome = true

/-- What the memory's cursor vouches for: the payments behind an anchor no newer than the first
durable cursor; what the node has not indexed yet lies above it. -/
structure Mem (c : ℤ) (s : SolanaWatchState) : Prop where
  cursor : s.cursor ≤ c
  nonneg : 0 ≤ s.cursor
  anchored : 0 < c → ∃ a ≤ c, (0 < s.cursor → a ≤ s.first)
    ∧ c ≤ max a ((s.height : ℤ) - cfg.scan.finalitySlots) ∧ Rows acct a c s

variable {cfg acct}

theorem Mem.grow (hst : SolanaGrows cfg.scan.finalitySlots s t) (h : Mem cfg acct c s) :
    Mem cfg acct c t := by
  refine ⟨hst.watch.cursor ▸ h.cursor, hst.watch.cursor ▸ h.nonneg, fun hc => ?_⟩
  obtain ⟨a, hle, hfirst, hmax, hrows⟩ := h.anchored hc
  have hheight := hst.height
  refine ⟨a, hle, fun hpos => ?_, by omega, fun g hp halt hle' => ?_⟩
  · rw [hst.watch.cursor] at hpos
    rw [hst.first (by omega)]
    exact hfirst hpos
  · rcases hst.account.adds g hp.1 with hold | hnew
    · exact hst.watch.rows _ (List.mem_map_of_mem hold)
        (hrows g (pays_of_grows hst hold hp) halt hle')
    · -- what is new lies above the safe slot
      omega

/-- A write of the cursor fails or is no news, or it moves the cursor up. -/
theorem setCursor_cases (v : ℤ) (i : SolanaInput) (s : SolanaWatchState) :
    SolanaGrows finality s (SolanaWatchState.exec (.watch (.setCursor v)) i s).1
      ∨ s.cursor < v ∧ (SolanaWatchState.exec (.watch (.setCursor v)) i s).1
        = { s with cursor := v, first := if s.cursor = 0 then v else s.first } := by
  simp only [SolanaWatchState.exec, WatchOp.exec]
  split
  · exact .inl ⟨Grows.refl _, extends_refl _ _, le_rfl, fun hc => if_neg hc⟩
  · simp only [WatchOp.run]
    by_cases hle : v ≤ s.cursor
    · rw [if_pos hle]
      exact .inl ⟨Grows.refl _, extends_refl _ _, le_rfl, fun hc => if_neg hc⟩
    · rw [if_neg hle]
      exact .inr ⟨by omega, rfl⟩

/-- A write of the cursor: what it vouches for it had in the memory. -/
theorem Mem.set {i : SolanaInput} (h : Mem cfg acct c s) :
    Mem cfg acct c (SolanaWatchState.exec (.watch (.setCursor c)) i s).1 := by
  rcases (setCursor_cases c i s : SolanaGrows cfg.scan.finalitySlots s _ ∨ _) with
    hgrows | ⟨hlt, heq⟩
  · exact h.grow hgrows
  · rw [heq]
    have hnonneg := h.nonneg
    refine ⟨le_rfl, hnonneg.trans hlt.le, fun hc => ?_⟩
    obtain ⟨a, hle, hfirst, hmax, hrows⟩ := h.anchored hc
    refine ⟨a, hle, fun _ => ?_, hmax, hrows⟩
    simp only
    split_ifs with hzero
    · exact hle
    · exact hfirst (by omega)

end Cursor

/-! ## One scan -/

section Scan

variable (cfg : SolanaWatcherConfig) (acct : String)

/-- The cursor is written only where the memory vouches for it, and the node answers with the
transactions it lists. -/
def contract : Prog.Contract SolanaWatchOp SolanaWatchOp.Ans String SolanaWatchState SolanaInput where
  exec := SolanaWatchState.exec
  rely := SolanaGrows cfg.scan.finalitySlots
  rely_refl := SolanaGrows.refl
  rely_trans := SolanaGrows.trans
  allowed o i _ := ∀ signature, o = .rpc (.getParsedTransaction signature) → i.unread = false
  point o s := (∀ v, o = .watch (.setCursor v) → Mem cfg acct v s)
    ∧ ∀ id, o ≠ .watch (.store (.delete id))

/-- What survives anything but a write of the cursor. -/
def Lasting (P : SolanaWatchState → Prop) : Prop :=
  ∀ s t, SolanaGrows cfg.scan.finalitySlots s t → P s → P t

/-- The walk's programs, its operations asked of the node. -/
def walk {α : Type} (limit : ℕ) (p : ScanM α) : SolanaWatchM α :=
  SolanaWatcher.liftRpc (p.translate (carryScan limit acct))

/-- A listed signature that was read: what paid into the account is among the burns. -/
def Read (burns : List RemoteBurn) (g : ScanSig) (s : SolanaWatchState) : Prop :=
  g ∈ s.account.sigs ∧ (s.account.Pays acct g → ∃ b ∈ burns, b.sourceId = g.signature)

/-- What a walk over some signatures does. -/
structure Walked (safeSlot : ℤ) (seen : List ScanSig) (scan scan' : SlotScan)
    (s : SolanaWatchState) : Prop where
  burns : scan.burns ⊆ scan'.burns
  le : scan.newestFinalSlot ≤ scan'.newestFinalSlot
  le_max : scan'.newestFinalSlot ≤ max scan.newestFinalSlot safeSlot
  ids : ∀ b ∈ scan'.burns, b ∈ scan.burns ∨ Id s b.sourceId
  read : ∀ g ∈ seen, g.slot ≤ safeSlot → Read acct scan'.burns g s

variable {cfg acct} {P Q : SolanaWatchState → Prop} {limit : ℕ} {scan scan' scan'' : SlotScan}
  {seen seen' page : List ScanSig}

/-- A fact that does not change. -/
theorem holds_of_fact {α : Type} {R : α → SolanaWatchState → Prop} {p : SolanaWatchM α} {fact : Prop}
    (hfact : ∀ s, P s → fact) (h : fact → Prog.Holds (contract cfg acct) P R p) :
    Prog.Holds (contract cfg acct) P R p :=
  fun s hs => h (hfact s hs) s hs

/-- What the states with `P` have anyway may be used. -/
theorem holds_gain {α : Type} {R : α → SolanaWatchState → Prop} {p : SolanaWatchM α}
    (hQ : ∀ s, P s → Q s) (h : Prog.Holds (contract cfg acct) (fun s => P s ∧ Q s) R p) :
    Prog.Holds (contract cfg acct) P R p :=
  fun s hs => (h s ⟨hs, hQ s hs⟩).mono (fun _ _ ht => ⟨ht.1.1, ht.2⟩) fun _ _ ht => ht.1

theorem Lasting.and (hP : Lasting cfg P) (hQ : Lasting cfg Q) : Lasting cfg fun s => P s ∧ Q s :=
  fun s t hst h => ⟨hP s t hst h.1, hQ s t hst h.2⟩

theorem Read.grow {burns : List RemoteBurn} (hst : SolanaGrows finality s t)
    (h : Read acct burns g s) : Read acct burns g t :=
  ⟨hst.account.keeps.subset h.1, fun hp => h.2 (pays_of_grows hst h.1 hp)⟩

theorem Read.mono {burns burns' : List RemoteBurn} (hsub : burns ⊆ burns')
    (h : Read acct burns g s) : Read acct burns' g s :=
  ⟨h.1, fun hp => (h.2 hp).imp fun _ hb => ⟨hsub hb.1, hb.2⟩⟩

theorem Walked.grow (hst : SolanaGrows finality s t)
    (h : Walked acct safeSlot seen scan scan' s) : Walked acct safeSlot seen scan scan' t :=
  ⟨h.burns, h.le, h.le_max, fun b hb => (h.ids b hb).imp id hst.id,
    fun g hg hle => (h.read g hg hle).grow hst⟩

theorem Walked.nil : Walked acct safeSlot [] scan scan s :=
  ⟨List.Subset.refl _, le_rfl, le_max_left _ _, fun _ => .inl, fun _ hg => by simp at hg⟩

theorem Walked.append (h : Walked acct safeSlot seen scan scan' s)
    (h' : Walked acct safeSlot seen' scan' scan'' s) :
    Walked acct safeSlot (seen ++ seen') scan scan'' s where
  burns := List.Subset.trans h.burns h'.burns
  le := h.le.trans h'.le
  le_max := by
    have hle := h.le_max
    have hle' := h'.le_max
    omega
  ids b hb := by
    rcases h'.ids b hb with hold | hid
    · exact h.ids b hold
    · exact .inr hid
  read g hg hle := by
    rcases List.mem_append.1 hg with hg | hg
    · exact (h.read g hg hle).mono h'.burns
    · exact h'.read g hg hle

theorem walk_pure {α : Type} (a : α) : walk acct limit (pure a) = pure a := rfl

theorem walk_bind {α β : Type} (p : ScanM α) (f : α → ScanM β) :
    walk acct limit (p >>= f) = walk acct limit p >>= fun a => walk acct limit (f a) := by
  unfold walk SolanaWatcher.liftRpc
  rw [Prog.translate_bind, Prog.translate_bind]

theorem walk_ask (o : ScanOp) :
    walk acct limit (Prog.ask o) = SolanaWatcher.liftRpc (carryScan limit acct o) := by
  unfold walk
  rw [Prog.translate_ask]

variable (hP : Lasting cfg P)

include hP

theorem holds_plain {α : Type} {p : SolanaWatchM α} (h : Prog.Uses SolanaPlain p) :
    Prog.Holds (contract cfg acct) P (fun _ _ => True) p := by
  refine Prog.holds_of_uses h hP (fun o s ho _ => ⟨?_, ?_⟩) fun o i s ho hs _ =>
    hP s _ (solanaGrows_exec ho i s) hs
  · rintro v rfl
    exact ho.elim
  · rintro id rfl
    exact ho

/-- An answer of the node. -/
theorem holds_rpc {o : SolanaRpc} {R : o.Ans → SolanaWatchState → Prop}
    (h : ∀ i s, P s → (contract cfg acct).allowed (.rpc o) i s → i.fails = none →
      R (SolanaWatchState.answer i s o) (SolanaWatchState.exec (.rpc o) i s).1) :
    Prog.Holds (contract cfg acct) P R (SolanaWatcher.askRpc o) := by
  refine Prog.holds_ask (o := SolanaWatchOp.rpc o) hP (fun s _ => ⟨nofun, nofun⟩) fun i s hs hi => ?_
  refine ⟨hP s _ (solanaGrows_exec (o := .rpc o) trivial i s) hs, fun a ha => ?_⟩
  have hfails : i.fails = none := by
    cases hf : i.fails with
    | none => rfl
    | some e =>
      change (SolanaWatchState.exec (.rpc o) i s).2 = _ at ha
      simp [SolanaWatchState.exec, hf] at ha
  have hans : SolanaWatchState.answer i s o = a := by
    change (SolanaWatchState.exec (.rpc o) i s).2 = _ at ha
    simp only [SolanaWatchState.exec, hfails] at ha
    exact Except.ok.inj ha
  exact hans ▸ h i s hs hi hfails

theorem holds_toBurn :
    Prog.Holds (contract cfg acct) P
      (fun (burn : (ScanOp.toBurn g.signature g.slot).Ans) s =>
        (∀ b, (burn : Option RemoteBurn) = some b → b.sourceId = g.signature)
          ∧ (s.account.Pays acct g → (burn : Option RemoteBurn) ≠ none))
      (walk acct limit (Prog.ask (ScanOp.toBurn g.signature g.slot))) := by
  rw [walk_ask]
  unfold carryScan SolanaWatcher.liftRpc
  rw [Prog.translate_ask_bind]
  refine Prog.holds_bind (holds_rpc hP (o := .getParsedTransaction g.signature)
    (R := fun tx s => tx = s.account.tx g.signature) fun i s _ hi hfails => ?_) fun tx => ?_
  · have hread : i.unread = false := hi g.signature rfl
    simp only [SolanaWatchState.answer, SolanaWatchState.exec, hread, hfails]
    rfl
  · cases tx with
    | none =>
      refine Prog.holds_pure fun s hs => ⟨nofun, fun hp => ?_⟩
      obtain ⟨-, -, tx, p, htx, -⟩ := hp
      exact absurd (hs.2.trans htx) nofun
    | some tx =>
      dsimp only
      generalize hparse : parseGatewayDeposit tx acct = parsed
      cases parsed with
      | error e => exact Prog.holds_throw
      | ok parsed =>
        refine Prog.holds_pure fun s hs => ⟨fun b hb => ?_, fun hp => ?_⟩
        · obtain ⟨p, -, rfl⟩ := Option.map_eq_some_iff.1 hb
          rfl
        · obtain ⟨-, -, tx', p, htx, hparse'⟩ := hp
          obtain rfl : tx = tx' := Option.some.inj (hs.2.trans htx)
          rw [hparse] at hparse'
          obtain rfl := Except.ok.inj hparse'
          exact Option.some_ne_none _

/-- A fresh signature: whatever becomes of it, it has been read if it is final. -/
theorem holds_scanSig (hg : ∀ s, P s → g ∈ s.account.sigs) :
    Prog.Holds (contract cfg acct) P (fun scan' => Walked acct safeSlot [g] scan scan')
      (walk acct limit (scanSig safeSlot scan g)) := by
  have hskip : (∀ s, P s → g.slot ≤ safeSlot → Read acct scan.burns g s) →
      Prog.Holds (contract cfg acct) P (fun scan' => Walked acct safeSlot [g] scan scan')
        (pure scan) := by
    refine fun hread => Prog.holds_pure fun s hs => ?_
    refine ⟨List.Subset.refl _, le_rfl, le_max_left _ _, fun _ => .inl, fun g' hg' hle => ?_⟩
    obtain rfl := List.mem_singleton.1 hg'
    exact hread s hs hle
  unfold scanSig
  split_ifs with herr hsafe
  · refine hskip fun s hs _ => ⟨hg s hs, fun hp => ?_⟩
    rw [hp.2.1] at herr
    cases herr
  · rw [walk_bind]
    refine Prog.holds_bind (holds_toBurn hP) fun burn => Prog.holds_pure fun s hs => ?_
    obtain ⟨hs, hsource, hfound⟩ := hs
    refine ⟨List.subset_append_left _ _, le_max_left _ _, ?_, fun b hb => ?_, fun g' hg' _ => ?_⟩
    · simp only
      omega
    · rcases List.mem_append.1 hb with hb | hb
      · exact .inl hb
      · rw [hsource b (Option.mem_toList.1 hb)]
        exact .inr (List.mem_map_of_mem (hg s hs))
    · obtain rfl := List.mem_singleton.1 hg'
      refine ⟨hg s hs, fun hp => ?_⟩
      obtain ⟨b, hb⟩ := Option.ne_none_iff_exists'.1 (hfound hp)
      exact ⟨b, List.mem_append_right _ (Option.mem_toList.2 hb), hsource b hb⟩
  · exact hskip fun _ _ hle => absurd hle hsafe

/-- What a page is scanned to: its signatures above the cursor are walked, and it ends early or sees
nothing fresh only at one that is not. -/
structure PageWalked (acct : String) (fromSlot safeSlot : ℤ) (page : List ScanSig)
    (acc acc' : SlotPage) (s : SolanaWatchState) : Prop where
  walked : Walked acct safeSlot (page.filter fun g => fromSlot < g.slot) acc.toSlotScan
    acc'.toSlotScan s
  drained : acc'.drained = true → acc.drained = true ∨ ∃ g ∈ page, g.slot ≤ fromSlot
  sawFresh : acc'.sawFresh = false → page = [] ∨ ∃ g ∈ page, g.slot ≤ fromSlot
  fresh : acc.sawFresh = true → acc'.sawFresh = true

theorem holds_scanSigs {acc : SlotPage} (hpage : ∀ s, P s → page ⊆ s.account.sigs)
    (hsorted : page.Pairwise fun a b => b.slot ≤ a.slot) :
    Prog.Holds (contract cfg acct) P (fun acc' => PageWalked acct fromSlot safeSlot page acc acc')
      (walk acct limit (scanSigs fromSlot safeSlot page acc)) := by
  induction page generalizing P acc with
  | nil => exact Prog.holds_pure fun s _ => ⟨Walked.nil, .inl, fun _ => .inl rfl, id⟩
  | cons g page ih =>
    rw [List.pairwise_cons] at hsorted
    unfold scanSigs
    split_ifs with hold
    · refine Prog.holds_pure fun s _ => ⟨?_, fun _ => .inr ⟨g, List.mem_cons_self, hold⟩,
        fun _ => .inr ⟨g, List.mem_cons_self, hold⟩, id⟩
      have hnil : ((g :: page).filter fun g => fromSlot < g.slot) = [] := by
        refine List.filter_eq_nil_iff.2 fun g' hg' => ?_
        rw [decide_eq_true_eq]
        rcases List.mem_cons.1 hg' with rfl | hg'
        · omega
        · have := hsorted.1 g' hg'
          omega
      rw [hnil]
      exact Walked.nil
    · rw [walk_bind]
      refine Prog.holds_bind (holds_scanSig hP fun s hs => hpage s hs List.mem_cons_self)
        fun scan => ?_
      have hlasting : Lasting cfg fun s => P s ∧ Walked acct safeSlot [g] acc.toSlotScan scan s :=
        hP.and fun s t hst h => h.grow hst
      refine (ih hlasting (fun s hs _ hx => hpage s hs.1 (List.mem_cons_of_mem _ hx))
        hsorted.2).mono fun acc' s hs hrest => ?_
      have hcons : ((g :: page).filter fun g => fromSlot < g.slot)
          = [g] ++ page.filter fun g => fromSlot < g.slot := by
        rw [List.filter_cons_of_pos (by simpa using hold)]
        rfl
      refine ⟨hcons ▸ hs.2.append hrest.walked, fun hd => ?_, fun hf => ?_, fun _ => hrest.fresh rfl⟩
      · exact (hrest.drained hd).imp id fun ⟨g', hg', hle⟩ => ⟨g', List.mem_cons_of_mem _ hg', hle⟩
      · rw [hrest.fresh rfl] at hf
        cases hf

omit hP in
theorem Walked.bounds (h : Walked acct safeSlot seen scan scan' s)
    (hle : fromSlot ≤ scan.newestFinalSlot)
    (hmax : scan.newestFinalSlot ≤ max fromSlot safeSlot) :
    fromSlot ≤ scan'.newestFinalSlot ∧ scan'.newestFinalSlot ≤ max fromSlot safeSlot := by
  have h₁ := h.le
  have h₂ := h.le_max
  omega

/-- What is final above the cursor was read or is behind the signature the walk pages from; the
node's height keeps the safe slot. -/
structure Paged (finality : ℕ) (acct : String) (fromSlot safeSlot : ℤ) (before : Option String)
    (scan : SlotScan) (s : SolanaWatchState) : Prop where
  safe : safeSlot ≤ (s.height : ℤ) - finality
  from_le : fromSlot ≤ scan.newestFinalSlot
  le_max : scan.newestFinalSlot ≤ max fromSlot safeSlot
  ids : ∀ b ∈ scan.burns, Id s b.sourceId
  read : ∀ g ∈ s.account.sigs, fromSlot < g.slot → g.slot ≤ safeSlot →
    Read acct scan.burns g s ∨ g ∈ behind s.account.sigs before

/-- The page at hand, with what is behind it. -/
structure Fetched (finality : ℕ) (acct : String) (fromSlot safeSlot : ℤ) (limit : ℕ)
    (page : List ScanSig) (scan : SlotScan) (s : SolanaWatchState) : Prop where
  safe : safeSlot ≤ (s.height : ℤ) - finality
  ids : ∀ b ∈ scan.burns, Id s b.sourceId
  listed : page ⊆ s.account.sigs
  read : ∀ g ∈ s.account.sigs, fromSlot < g.slot → g.slot ≤ safeSlot →
    Read acct scan.burns g s ∨ g ∈ page ∨ limit ≤ page.length ∧ ∀ last, page.getLast? = some last →
      g ∈ behind s.account.sigs (some last.signature)

omit hP in
theorem Paged.grow {before : Option String} (hst : SolanaGrows finality s t)
    (h : Paged finality acct fromSlot safeSlot before scan s) :
    Paged finality acct fromSlot safeSlot before scan t := by
  have hheight := hst.height
  have hsafe := h.safe
  refine ⟨by omega, h.from_le, h.le_max, fun b hb => hst.id (h.ids b hb), fun g hg hlt hle => ?_⟩
  rcases hst.account.adds g hg with hold | hnew
  · rcases h.read g hold hlt hle with hread | hbehind
    · exact .inl (hread.grow hst)
    · exact .inr (mem_behind_of_sublist t.account.nodup hst.account.keeps hbehind)
  · omega

omit hP in
theorem Fetched.grow (hst : SolanaGrows finality s t)
    (h : Fetched finality acct fromSlot safeSlot limit page scan s) :
    Fetched finality acct fromSlot safeSlot limit page scan t := by
  have hheight := hst.height
  have hsafe := h.safe
  refine ⟨by omega, fun b hb => hst.id (h.ids b hb),
    fun g hg => hst.account.keeps.subset (h.listed hg), fun g hg hlt hle => ?_⟩
  rcases hst.account.adds g hg with hold | hnew
  · rcases h.read g hold hlt hle with hread | hpage | ⟨hlen, hbehind⟩
    · exact .inl (hread.grow hst)
    · exact .inr (.inl hpage)
    · exact .inr (.inr ⟨hlen, fun last hlast =>
        mem_behind_of_sublist t.account.nodup hst.account.keeps (hbehind last hlast)⟩)
  · omega

theorem holds_fetchPage {before : Option String} :
    Prog.Holds (contract cfg acct)
      (fun s => P s ∧ Paged cfg.scan.finalitySlots acct fromSlot safeSlot before scan s)
      (fun (page : (ScanOp.fetchPage before).Ans) s =>
        List.Pairwise (fun a b : ScanSig => b.slot ≤ a.slot) page
          ∧ Fetched cfg.scan.finalitySlots acct fromSlot safeSlot limit page scan s)
      (walk acct limit (Prog.ask (ScanOp.fetchPage before))) := by
  have hwalk : walk acct limit (Prog.ask (ScanOp.fetchPage before))
      = SolanaWatcher.askRpc (.getSignaturesForAddress limit before) :=
    (walk_ask _).trans (Prog.translate_ask _ _)
  rw [hwalk]
  have hlasting : Lasting cfg fun s =>
      P s ∧ Paged cfg.scan.finalitySlots acct fromSlot safeSlot before scan s :=
    hP.and fun _ _ hst h => h.grow hst
  refine holds_rpc hlasting (o := .getSignaturesForAddress limit before) fun i s hs _ hfails => ?_
  have hexec : (SolanaWatchState.exec (.rpc (.getSignaturesForAddress limit before)) i s).1 = s := by
    simp only [SolanaWatchState.exec, hfails]
  rw [hexec]
  have hsub := page_sublist s.account.toSigHistory limit before
  refine ⟨s.account.newestFirst.sublist hsub, hs.2.safe, hs.2.ids, hsub.subset,
    fun g hg hlt hle => ?_⟩
  rcases hs.2.read g hg hlt hle with hread | hbehind
  · exact .inl hread
  · exact .inr (mem_page_or_behind s.account.toSigHistory hbehind rfl)

omit hP in
/-- A page that ends the scan leaves nothing final behind it. -/
theorem read_of_ended {acc acc' : SlotPage} (hd : acc.drained = false)
    (hf : Fetched finality acct fromSlot safeSlot limit page acc.toSlotScan s)
    (hw : PageWalked acct fromSlot safeSlot page acc acc' s) {last : ScanSig}
    (hlast : page.getLast? = some last) (hsorted : page.Pairwise fun a b => b.slot ≤ a.slot)
    (hend : acc'.drained = true ∨ acc'.sawFresh = false ∨ page.length < limit) (hg : g ∈ s.account.sigs)
    (hlt : fromSlot < g.slot) (hle : g.slot ≤ safeSlot) : Read acct acc'.burns g s := by
  rcases hf.read g hg hlt hle with hread | hpage | ⟨hlen, hbehind⟩
  · exact hread.mono hw.walked.burns
  · exact hw.walked.read g (List.mem_filter.2 ⟨hpage, by simpa using hlt⟩) hle
  · -- the page's last is no older than what is behind it
    have hmem : last ∈ page := List.mem_of_getLast? hlast
    have hslot := slot_le_of_behind s.account.toSigHistory (hbehind last hlast) (hf.listed hmem)
    have hpast : (∃ g' ∈ page, (g'.slot : ℤ) ≤ fromSlot) → Read acct acc'.burns g s := by
      rintro ⟨g', hg', hold⟩
      obtain ⟨init, rfl⟩ := List.getLast?_eq_some_iff.1 hlast
      rw [List.pairwise_append] at hsorted
      have : last.slot ≤ g'.slot := by
        rcases List.mem_append.1 hg' with hin | hin
        · exact hsorted.2.2 g' hin last (by simp)
        · rw [List.mem_singleton.1 hin]
      omega
    rcases hend with hdrained | hfresh | hshort
    · rcases hw.drained hdrained with hacc | hpassed
      · rw [hd] at hacc
        cases hacc
      · exact hpast hpassed
    · rcases hw.sawFresh hfresh with rfl | hpassed
      · simp at hmem
      · exact hpast hpassed
    · omega

/-- A scan's result. -/
structure Scanned (finality : ℕ) (acct : String) (fromSlot : ℤ) (res : SlotResult)
    (s : SolanaWatchState) : Prop where
  from_le : fromSlot ≤ res.newestFinalSlot
  le_max : res.newestFinalSlot ≤ max fromSlot ((s.height : ℤ) - finality)
  ids : ∀ b ∈ res.burns, Id s b.sourceId
  read : res.drained = true → ∀ g ∈ s.account.sigs, fromSlot < g.slot →
    g.slot ≤ res.newestFinalSlot → Read acct res.burns g s

omit hP in
theorem Scanned.grow {res : SlotResult} (hst : SolanaGrows finality s t)
    (h : Scanned finality acct fromSlot res s) : Scanned finality acct fromSlot res t := by
  have hheight := hst.height
  have hmax := h.le_max
  refine ⟨h.from_le, by omega, fun b hb => hst.id (h.ids b hb), fun hd g hg hlt hle => ?_⟩
  rcases hst.account.adds g hg with hold | hnew
  · exact (h.read hd g hold hlt hle).grow hst
  · omega

theorem holds_paginate (hlimit : 1 ≤ limit) (n : ℕ) {before : Option String} :
    Prog.Holds (contract cfg acct)
      (fun s => P s ∧ Paged cfg.scan.finalitySlots acct fromSlot safeSlot before scan s)
      (fun res => Scanned cfg.scan.finalitySlots acct fromSlot res)
      (walk acct limit (paginateBurnsBySlot fromSlot safeSlot limit n before scan)) := by
  induction n generalizing P before scan with
  | zero =>
    refine Prog.holds_pure fun s hs => ?_
    have hsafe := hs.2.safe
    have hmax := hs.2.le_max
    exact ⟨hs.2.from_le, by simp only; omega, hs.2.ids, nofun⟩
  | succ n ih =>
    unfold paginateBurnsBySlot
    rw [walk_bind]
    refine Prog.holds_bind (holds_fetchPage hP) fun page => ?_
    refine holds_of_fact (fun s hs => hs.2.1) fun hsorted => ?_
    rcases hlast : List.getLast? page with _ | last
    · refine Prog.holds_pure fun s hs => ?_
      obtain rfl : page = [] := List.getLast?_eq_none_iff.1 hlast
      have hsafe := hs.1.2.safe
      have hmax := hs.1.2.le_max
      refine ⟨hs.1.2.from_le, by simp only; omega, hs.1.2.ids, fun _ g hg hlt hle => ?_⟩
      simp only at hle
      rcases hs.2.2.read g hg hlt (by omega) with hread | hpage | ⟨hlen, -⟩
      · exact hread
      · simp at hpage
      · simp only [List.length_nil] at hlen
        omega
    · simp only []
      rw [walk_bind]
      have hlasting : Lasting cfg fun s =>
          (P s ∧ Paged cfg.scan.finalitySlots acct fromSlot safeSlot before scan s)
            ∧ List.Pairwise (fun a b : ScanSig => b.slot ≤ a.slot) page
            ∧ Fetched cfg.scan.finalitySlots acct fromSlot safeSlot limit page scan s :=
        (hP.and fun _ _ hst h => h.grow hst).and fun _ _ hst h => ⟨h.1, h.2.grow hst⟩
      refine Prog.holds_bind (holds_scanSigs hlasting (fun s hs => hs.2.2.listed) hsorted)
        fun scanned => ?_
      split_ifs with hend
      · refine Prog.holds_pure fun s hs => ?_
        obtain ⟨⟨⟨-, hpaged⟩, -, hfetched⟩, hwalked⟩ := hs
        have hbounds := hwalked.walked.bounds hpaged.from_le hpaged.le_max
        have hsafe := hpaged.safe
        refine ⟨hbounds.1, by simp only; omega, fun b hb => ?_, fun _ g hg hlt hle => ?_⟩
        · exact (hwalked.walked.ids b hb).elim (hpaged.ids b) id
        · exact read_of_ended rfl hfetched hwalked hlast hsorted hend hg hlt
            (by simp only at hle; omega)
      · have hlasting' : Lasting cfg fun s =>
            ((P s ∧ Paged cfg.scan.finalitySlots acct fromSlot safeSlot before scan s)
              ∧ List.Pairwise (fun a b : ScanSig => b.slot ≤ a.slot) page
              ∧ Fetched cfg.scan.finalitySlots acct fromSlot safeSlot limit page scan s)
            ∧ PageWalked acct fromSlot safeSlot page { toSlotScan := scan } scanned s :=
          hlasting.and fun _ _ hst h => ⟨h.walked.grow hst, h.drained, h.sawFresh, h.fresh⟩
        refine holds_gain (fun s hs => ?_) (ih hlasting')
        obtain ⟨⟨⟨-, hpaged⟩, -, hfetched⟩, hwalked⟩ := hs
        have hbounds := hwalked.walked.bounds hpaged.from_le hpaged.le_max
        refine ⟨hpaged.safe, hbounds.1, hbounds.2, fun b hb => ?_, fun g hg hlt hle => ?_⟩
        · exact (hwalked.walked.ids b hb).elim (hpaged.ids b) id
        · rcases hfetched.read g hg hlt hle with hread | hpage | ⟨-, hbehind⟩
          · exact .inl (hread.mono hwalked.walked.burns)
          · exact .inl (hwalked.walked.read g (List.mem_filter.2 ⟨hpage, by simpa using hlt⟩) hle)
          · exact .inr (hbehind last hlast)

/-- The scan of the watched account. -/
theorem holds_scan (hacct : cfg.scan.gatewayTokenAccount = some acct) :
    Prog.Holds (contract cfg acct) P
      (fun res => Scanned cfg.scan.finalitySlots acct fromSlot res)
      (SolanaWatcher.liftRpc (finalizedBurnsBySlot cfg.scan fromSlot)) := by
  have hscan : SolanaWatcher.liftRpc (finalizedBurnsBySlot cfg.scan fromSlot)
      = SolanaWatcher.askRpc .getSlot >>= fun (height : ℕ) =>
        walk acct cfg.scan.limit (paginateBurnsBySlot fromSlot
          ((height : ℤ) - cfg.scan.finalitySlots) cfg.scan.limit cfg.scan.pages none
          ⟨[], fromSlot⟩) := by
    unfold finalizedBurnsBySlot
    rw [hacct]
    exact Prog.translate_ask_bind _ _ _
  rw [hscan]
  refine Prog.holds_bind (holds_rpc hP (o := .getSlot)
    (R := fun (height : ℕ) s => height ≤ s.height) fun i s _ _ hfails => ?_) fun (height : ℕ) => ?_
  · simp only [SolanaWatchState.answer, SolanaWatchState.exec, hfails]
    exact le_max_right _ _
  · have hlasting : Lasting cfg fun s => P s ∧ height ≤ s.height :=
      hP.and fun s t hst h => h.trans hst.height
    refine holds_gain (fun s hs => ?_) (holds_paginate hlasting (Nat.le_max_left ..) _)
    obtain ⟨-, hheight⟩ := hs
    exact ⟨by omega, le_rfl, le_max_left _ _, nofun, fun g hg _ _ => .inr hg⟩

/-! ## One turn of the loop -/

def Claimed (id : String) (s : SolanaWatchState) : Prop :=
  Id s id ∧ (s.outbox.get id).isSome = true

omit hP in
theorem lasting_claimed (id : String) : Lasting cfg (Claimed id) :=
  fun _ _ hst h => ⟨hst.id h.1, hst.watch.rows id h.1 h.2⟩

omit hP in
theorem lift_bind {α β : Type} (p : WatchM α) (f : α → WatchM β) :
    SolanaWatcher.lift (p >>= f) = SolanaWatcher.lift p >>= fun a => SolanaWatcher.lift (f a) :=
  Prog.translate_bind _ _ _

omit hP in
theorem uses_lift {α : Type} {p : WatchM α} (h : Prog.Uses Plain p) :
    Prog.Uses SolanaPlain (SolanaWatcher.lift p) :=
  Prog.Uses.translate _ h fun _ ho => Prog.uses_ask ho

theorem holds_lift {α : Type} {p : WatchM α} (h : Prog.Uses Plain p) :
    Prog.Holds (contract cfg acct) P (fun _ _ => True) (SolanaWatcher.lift p) :=
  holds_plain hP (uses_lift h)

/-- A handled burn of the account has its row. -/
theorem holds_handleBurn {L : Libs} {burn : RemoteBurn} (hid : ∀ s, P s → Id s burn.sourceId) :
    Prog.Holds (contract cfg acct) P (fun _ => Claimed burn.sourceId)
      (SolanaWatcher.lift (SolanaWatcher.handleBurn L cfg burn)) := by
  have henqueue : Prog.Holds (contract cfg acct) P (fun _ => Claimed burn.sourceId)
      (SolanaWatcher.lift (enqueue (SolanaWatcher.claim L burn))) := by
    have hask : SolanaWatcher.lift (enqueue (SolanaWatcher.claim L burn))
        = Prog.ask (SolanaWatchOp.watch (.store (.enqueue (SolanaWatcher.claim L burn)))) :=
      Prog.translate_ask _ _
    rw [hask]
    refine Prog.holds_ask (o := SolanaWatchOp.watch _) hP (fun s _ => ⟨nofun, nofun⟩)
      fun i s hs _ => ?_
    refine ⟨hP s _ (solanaGrows_exec (o := .watch (.store (.enqueue _))) trivial i s) hs,
      fun first hfirst => ⟨hid s hs, ?_⟩⟩
    exact claimed_enqueue (SolanaWatcher.claim L burn) hfirst
  unfold SolanaWatcher.handleBurn
  rw [lift_bind]
  refine Prog.holds_bind henqueue fun first => ?_
  refine (holds_lift (hP.and (lasting_claimed _)) ?_).mono fun _ s hs _ => hs.2
  refine Prog.uses_ite ?_ trivial
  exact uses_capDecision (fun _ => trivial) (fun _ _ _ => trivial) (fun _ => trivial) ..

theorem holds_forEach_burns {L : Libs} {burns : List RemoteBurn}
    (hids : ∀ s, P s → ∀ b ∈ burns, Id s b.sourceId) :
    Prog.Holds (contract cfg acct) P (fun _ s => ∀ b ∈ burns, Claimed b.sourceId s)
      (SolanaWatcher.lift (Prog.forEach (SolanaWatcher.handleBurn L cfg) burns)) := by
  induction burns generalizing P with
  | nil => exact Prog.holds_pure fun _ _ b hb => by cases hb
  | cons burn burns ih =>
    have hcons : SolanaWatcher.lift (Prog.forEach (SolanaWatcher.handleBurn L cfg) (burn :: burns))
        = SolanaWatcher.lift (SolanaWatcher.handleBurn L cfg burn) >>= fun _ =>
          SolanaWatcher.lift (Prog.forEach (SolanaWatcher.handleBurn L cfg) burns) :=
      lift_bind _ _
    rw [hcons]
    refine Prog.holds_bind (holds_handleBurn hP fun s hs => hids s hs burn List.mem_cons_self)
      fun _ => ?_
    refine (ih (hP.and (lasting_claimed _)) fun s hs b hb =>
      hids s hs.1 b (List.mem_cons_of_mem _ hb)).mono fun _ s hs hrest b hb => ?_
    rcases List.mem_cons.1 hb with rfl | hb
    · exact hs.2
    · exact hrest b hb

omit hP in
/-- The cursor moves to where the memory vouches for it. -/
theorem safe_keepCursor {v : ℤ} (hs : Mem cfg acct v s) :
    Prog.Safe (contract cfg acct) (Mem cfg acct) (fun _ _ => False)
      (SolanaWatcher.lift (keepCursor v)) s := by
  have hkeep : SolanaWatcher.lift (keepCursor v)
      = tryCatch (Prog.ask (SolanaWatchOp.watch (.setCursor v))) (fun _ => pure ()) >>=
        fun _ => pure v := by
    unfold keepCursor
    rw [lift_bind]
    refine congrArg (· >>= fun _ => pure v) ?_
    refine (Prog.translate_catch _ _ _).trans ?_
    exact congrArg (tryCatch · fun _ => pure ()) (Prog.translate_ask _ _)
  rw [hkeep]
  refine Prog.safe_bind (Prog.safe_catch (Prog.safe_ask ?_ ?_ ?_))
  · refine fun t ht => ⟨?_, nofun⟩
    rintro v' ⟨⟩
    exact hs.grow ht
  · exact fun t ht i _ _ _ => (hs.grow ht).set
  · exact fun t ht i _ _ _ => (hs.grow ht).set

omit hP in
theorem lasting_mem (c : ℤ) : Lasting cfg (Mem cfg acct c) := fun _ _ hst h => h.grow hst

omit hP in
/-- A cold start vouches for nothing below the slot it reads. -/
theorem Mem.cold {height : ℕ} (h : Mem cfg acct 0 s) : Mem cfg acct height s := by
  have hcursor := h.cursor
  have hnonneg := h.nonneg
  refine ⟨by omega, hnonneg, fun hpos => ⟨height, le_rfl, fun hc => by omega, le_max_left _ _, ?_⟩⟩
  intro g _ hlt hle
  omega

omit hP in
/-- A drained scan whose burns are claimed carries the cursor to its new one. -/
theorem Mem.scanned {res : SlotResult} (h : Mem cfg acct c s) (hc : c ≠ 0)
    (hres : Scanned cfg.scan.finalitySlots acct c res s) (hd : res.drained = true)
    (hclaimed : ∀ b ∈ res.burns, Claimed b.sourceId s) : Mem cfg acct res.newestFinalSlot s := by
  have hpos : 0 < c := lt_of_le_of_ne (h.nonneg.trans h.cursor) (Ne.symm hc)
  obtain ⟨a, hle, hfirst, hmax, hrows⟩ := h.anchored hpos
  have hfrom := hres.from_le
  have hnew := hres.le_max
  refine ⟨h.cursor.trans hfrom, h.nonneg, fun _ => ⟨a, hle.trans hfrom, hfirst, by omega, ?_⟩⟩
  intro g hp halt hgle
  by_cases hold : (g.slot : ℤ) ≤ c
  · exact hrows g hp halt hold
  · obtain ⟨b, hb, hid⟩ := (hres.read hd g hp.1 (by omega) hgle).2 hp
    exact hid ▸ (hclaimed b hb).2

omit hP in
/-- A turn ends with a memory that vouches for its cursor. -/
theorem safe_tick (L : Libs) (hacct : cfg.scan.gatewayTokenAccount = some acct)
    (hs : Mem cfg acct c s) :
    Prog.Safe (contract cfg acct) (Mem cfg acct) (fun _ _ => False)
      (SolanaWatcher.tick L cfg c) s := by
  have hlasting : Lasting cfg (Mem cfg acct c) := lasting_mem c
  refine Prog.safe_catch ?_
  unfold SolanaWatcher.body
  refine Prog.Holds.then_safe (holds_lift hlasting (p := isPaused)
    (Prog.uses_ask (o := WatchOp.store .isPaused) trivial)) (fun (paused : Bool) s hs _ => ?_)
    (fun _ _ h => h) hs
  refine Prog.safe_ite (fun _ => hs) fun _ => ?_
  refine Prog.Holds.then_safe (holds_plain hlasting (p := SolanaWatcher.askRpc .getSlot)
    (Prog.uses_ask trivial)) (fun (slot : ℕ) s hs _ => ?_) (fun _ _ h => h) hs
  refine Prog.safe_ite (fun hzero => ?_) fun hzero => ?_
  · subst hzero
    exact (safe_keepCursor hs.cold).mono (fun _ _ h => h) fun _ _ => False.elim
  refine Prog.safe_ite (fun _ => ?_) fun _ => hs
  refine (holds_scan hlasting hacct).then_safe (fun res s hs hres => ?_) (fun _ _ h => h) hs
  have hscan : Lasting cfg fun s =>
      Mem cfg acct c s ∧ Scanned cfg.scan.finalitySlots acct c res s :=
    hlasting.and fun _ _ hst h => h.grow hst
  refine Prog.Holds.then_safe (holds_forEach_burns hscan fun s hs => hs.2.ids)
    (fun _ s hs hclaimed => ?_) (fun _ _ h => h.1) ⟨hs, hres⟩
  refine Prog.safe_ite (fun hd => ?_) fun _ => ?_
  · exact (safe_keepCursor (hs.1.scanned hzero hs.2 hd hclaimed)).mono (fun _ _ h => h)
      fun _ _ => False.elim
  · refine (holds_lift hlasting (p := pause _)
      (Prog.uses_ask (o := WatchOp.store (.pause _)) trivial)).then_safe (fun _ s hs _ => hs)
      (fun _ _ h => h) hs.1

end Scan

/-! ## Runs -/

section Run

variable {L : Libs} {cfg : SolanaWatcherConfig} {acct : String}

abbrev Inv (cfg : SolanaWatcherConfig) (acct : String) : SolanaWorld → Prop :=
  LoopWorld.Inv (contract cfg acct) (fun s => Mem cfg acct s.cursor s) (Mem cfg acct)

/-- What one await does to what the store's cursor vouches for. -/
theorem mem_exec {o : SolanaWatchOp} (i : SolanaInput) (hI : Mem cfg acct s.cursor s)
    (hpoint : (contract cfg acct).point o s) :
    Mem cfg acct (SolanaWatchState.exec o i s).1.cursor (SolanaWatchState.exec o i s).1 := by
  have hplain : SolanaPlain o →
      Mem cfg acct (SolanaWatchState.exec o i s).1.cursor (SolanaWatchState.exec o i s).1 := by
    intro ho
    have hgrows : SolanaGrows cfg.scan.finalitySlots s (SolanaWatchState.exec o i s).1 :=
      solanaGrows_exec ho i s
    rw [hgrows.watch.cursor]
    exact hI.grow hgrows
  cases o with
  | rpc o => exact hplain trivial
  | watch o =>
    cases o with
    | setCursor v =>
      have hmem : Mem cfg acct v s := hpoint.1 v rfl
      rcases setCursor_cases v i s with hgrows | ⟨-, heq⟩
      · rw [hgrows.watch.cursor]
        exact hI.grow hgrows
      · have hset := hmem.set (i := i)
        rw [heq] at hset ⊢
        exact hset
    | store o =>
      cases o with
      | delete id => exact absurd rfl (hpoint.2 id)
      | _ => exact hplain trivial
    | _ => exact hplain trivial

theorem step_inv (hacct : cfg.scan.gatewayTokenAccount = some acct) {w : SolanaWorld}
    {e : SolanaEvent} (h : Inv cfg acct w) (hc : IndexSettles cfg w e) :
    Inv cfg acct (w.step (solanaWatcherSystem L cfg) e) := by
  cases e with
  | start =>
    refine LoopWorld.inv_start h (Prog.safe_ask ?_ ?_ fun _ _ _ _ _ _ => trivial)
    · exact fun t _ => ⟨nofun, nofun⟩
    · intro t ht i _ c hread
      have hI : Mem cfg acct t.cursor t := by
        rw [ht.watch.cursor]
        exact h.state.grow ht
      change (SolanaWatchState.exec (.watch .getCursor) i t).2 = _ at hread
      change Mem cfg acct c (SolanaWatchState.exec (.watch .getCursor) i t).1
      have hgrows : SolanaGrows cfg.scan.finalitySlots t
          (SolanaWatchState.exec (.watch .getCursor) i t).1 :=
        solanaGrows_exec (o := .watch .getCursor) trivial i t
      have hcursor : c = t.cursor := by
        simp only [SolanaWatchState.exec, WatchOp.exec] at hread
        split at hread
        · cases hread
        · exact (Except.ok.inj hread).symm
      rw [hcursor]
      exact hI.grow hgrows
  | turn =>
    exact LoopWorld.inv_turn h fun c hc => (safe_tick L hacct hc).mono (fun _ _ h => h)
      fun _ _ _ => trivial
  | crash => exact LoopWorld.inv_crash h
  | act m =>
    have hgrows : SolanaGrows cfg.scan.finalitySlots w.shared
        ((solanaWatcherSystem L cfg).act m w.shared) := by
      cases m with
      | outside m =>
        have hwatch : Grows (Id w.shared) w.shared.toWatchState (m.apply w.shared.toWatchState) := by
          refine grows_act (fun clock id he hid => ?_) _
          subst he
          exact hc hid
        exact ⟨hwatch, extends_refl _ _, le_rfl, fun _ => rfl⟩
      | arrive account => exact ⟨Grows.refl _, hc, le_rfl, fun _ => rfl⟩
    refine LoopWorld.inv_act h ?_ hgrows fun c s t hst hM => hM.grow hst
    rw [hgrows.watch.cursor]
    exact h.state.grow hgrows
  | await i =>
    refine LoopWorld.inv_await h (fun _ _ _ => rfl) fun o ho hpoint => ⟨?_, mem_exec i h.state hpoint⟩
    rintro signature rfl
    exact hc signature ho

end Run

end SolanaContiguity

open SolanaContiguity

namespace SolanaContiguity

def sampleWatcher : SolanaWatcherConfig where
  scan := { gatewayTokenAccount := some "gateway-ata", finalitySlots := 2, maxSignatures := 10
            maxScanPages := 3 }
  caps := ⟨1000000, 1000000, 1000000⟩

def samplePayment : ParsedTx where
  slot := 20
  err := false
  instructions :=
    [{ program := some "spl-memo", programId := none, memo := some (.str "carol"), token := none },
      { program := some "spl-token-2022", programId := none, memo := none
        token := some { type := "transferChecked", destination := some (.str "gateway-ata")
                        tokenAmount := some (some "120000"), amount := none
                        authority := some (.str "sender"), source := none } }]

def sampleSig : ScanSig := ⟨"pay1", 20, false⟩

def noPayments : SolanaAccount := ⟨⟨[], List.nodup_nil, List.Pairwise.nil⟩, fun _ => none⟩

def onePayment : SolanaAccount where
  sigs := [sampleSig]
  nodup := List.nodup_singleton _
  newestFirst := List.pairwise_singleton ..
  tx signature := if signature = "pay1" then some samplePayment else none

def coldTick : List SolanaEvent :=
  [.start, .await {}, .turn, .await {}, .await { slot := 10 }, .await {}]

def scanTick : List SolanaEvent := .turn :: List.replicate 12 (.await { slot := 30 })

def sampleRun : List SolanaEvent := coldTick ++ .act (.arrive onePayment) :: scanTick

def sampleStart : SolanaWorld := ⟨⟨WatchState.empty, noPayments, 0, 0⟩, .down⟩

def sampleWorld (es : List SolanaEvent) : SolanaWorld :=
  Runs.run (LoopWorld.step (solanaWatcherSystem sampleLibs sampleWatcher)) sampleStart es

theorem settles_of_answered {es : List SolanaEvent}
    (h : ∀ e ∈ es, (∃ i : SolanaInput, e = .await i ∧ i.unread = false) ∨ e = .start ∨ e = .turn)
    (w : SolanaWorld) : Runs.Meets (LoopWorld.step (solanaWatcherSystem sampleLibs sampleWatcher))
      (IndexSettles sampleWatcher) w es := by
  refine Runs.meets_of_forall fun e he s => ?_
  rcases h e he with ⟨i, rfl, hi⟩ | rfl | rfl
  · exact fun _ _ => hi
  · trivial
  · trivial

end SolanaContiguity

end VizGateway
