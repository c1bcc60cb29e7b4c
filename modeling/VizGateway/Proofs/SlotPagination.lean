import VizGateway.Lib.Sorted
import VizGateway.SolanaScan

/-!
# The slot walk

A drained walk has parsed every final signature above the cursor, each once, and its new cursor
lies between the last of them and the safe slot (`slot_pagination_complete`). So a later walk from
that cursor parses what has become final since, above the cursor the first walk started from: one
that starts beyond the safe slot leaves the slots up to its cursor out for good
(`walk_from_tip_leaves_out`).
-/

namespace VizGateway

namespace SlotPagination

/-- A final signature above the cursor whose transaction did not fail. -/
def due (fromSlot safeSlot : ℤ) (s : ScanSig) : Bool :=
  !s.err && decide (fromSlot < s.slot ∧ s.slot ≤ safeSlot)

/-- What `toBurn` is called with. -/
def call (s : ScanSig) : String × ℕ := (s.signature, s.slot)

abbrev ScanEvent := Prog.Event ScanOp ScanOp.Ans String

/-- The calls of `toBurn` among some operations. -/
def burnCalls (tr : List ScanEvent) : List (String × ℕ) :=
  tr.filterMap fun
    | ⟨.toBurn signature slot, _⟩ => some (signature, slot)
    | ⟨.fetchPage _, _⟩ => none

/-- The results of `toBurn` that are burns. -/
def burnsFound (tr : List ScanEvent) : List RemoteBurn :=
  tr.filterMap fun
    | ⟨.toBurn _ _, .ok burn⟩ => burn
    | _ => none

/-- A walk that drained: `fetchPage` pages through the list, `toBurn` answers as it likes. -/
structure DrainedRun (hist : SigHistory) (fromSlot safeSlot : ℤ) where
  limit : ℕ
  limit_pos : 1 ≤ limit
  maxScanPages : ℕ
  World : Type
  exec : (o : ScanOp) → World → World × Except String o.Ans
  start : World
  fetches : ∀ before w, (exec (.fetchPage before) w).2 = .ok (hist.page limit before)
  result : SlotResult
  returns : ((paginateBurnsBySlot fromSlot safeSlot limit maxScanPages none ⟨[], fromSlot⟩).eval
    exec start).2 = .ok result
  drained : result.drained = true

namespace DrainedRun

variable {hist : SigHistory} {fromSlot safeSlot : ℤ} (r : DrainedRun hist fromSlot safeSlot)

/-- What the walk asked. -/
def asked : List ScanEvent :=
  (paginateBurnsBySlot fromSlot safeSlot r.limit r.maxScanPages none ⟨[], fromSlot⟩).events r.exec
    r.start

end DrainedRun

/-- What a walk over some fresh signatures does: it parses the final ones in order, appends the
burns and raises the cursor to the newest slot. -/
structure Scanned (fromSlot safeSlot : ℤ) (seen : List ScanSig) (scan : SlotScan)
    (tr : List ScanEvent) (scan' : SlotScan) : Prop where
  calls : burnCalls tr = (seen.filter (due fromSlot safeSlot)).map call
  burns : scan'.burns = scan.burns ++ burnsFound tr
  newest : scan'.newestFinalSlot =
    ((seen.filter (due fromSlot safeSlot)).map fun s => (s.slot : ℤ)).foldl max scan.newestFinalSlot

section

variable {σ : Type} {exec : (o : ScanOp) → σ → σ × Except String o.Ans} {fromSlot safeSlot : ℤ}
  {scan scan' scan'' : SlotScan} {s t : σ}

theorem Scanned.nil : Scanned fromSlot safeSlot [] scan [] scan :=
  ⟨rfl, by simp [burnsFound], rfl⟩

theorem Scanned.append {seen seen' : List ScanSig}
    {tr tr' : List ScanEvent}
    (h : Scanned fromSlot safeSlot seen scan tr scan')
    (h' : Scanned fromSlot safeSlot seen' scan' tr' scan'') :
    Scanned fromSlot safeSlot (seen ++ seen') scan (tr ++ tr') scan'' where
  calls := by
    rw [List.filter_append, List.map_append, ← h.calls, ← h'.calls]
    exact List.filterMap_append
  burns := by
    rw [h'.burns, h.burns, List.append_assoc]
    exact congrArg (scan.burns ++ ·) List.filterMap_append.symm
  newest := by
    rw [List.filter_append, List.map_append, List.foldl_append, ← h.newest, ← h'.newest]

/-- The cursor ends a page. -/
def fresh (fromSlot : ℤ) (sigs : List ScanSig) : List ScanSig :=
  sigs.takeWhile fun s => decide (fromSlot < s.slot)

theorem scanSig_run {sig : ScanSig} (hfresh : fromSlot < sig.slot)
    (h : (scanSig safeSlot scan sig).eval exec s = (t, .ok scan')) :
    Scanned fromSlot safeSlot [sig] scan ((scanSig safeSlot scan sig).events exec s) scan' := by
  unfold scanSig at h ⊢
  by_cases herr : sig.err = true
  · simp only [if_pos herr] at h ⊢
    obtain rfl : scan = scan' := Except.ok.inj (congrArg Prod.snd h)
    exact ⟨by simp [due, herr]; rfl, by simp [burnsFound], by simp [due, herr]⟩
  by_cases hsafe : sig.slot ≤ safeSlot
  · simp only [if_neg herr, if_pos hsafe] at h ⊢
    have hdue : due fromSlot safeSlot sig = true := by simp [due, herr, hfresh, hsafe]
    rcases hans : exec (.toBurn sig.signature sig.slot) s with ⟨u, e | burn⟩
    · rw [Prog.eval_bind, Prog.eval_ask, hans] at h
      cases congrArg Prod.snd h
    · have hask : (Prog.ask (ScanOp.toBurn sig.signature sig.slot)).eval exec s = (u, .ok burn) := by
        rw [Prog.eval_ask, hans]
      rw [Prog.eval_bind_ok exec hask] at h
      have hscan := Except.ok.inj (congrArg Prod.snd h)
      rw [Prog.events_bind_ok hask, Prog.events_ask, hans]
      subst hscan
      refine ⟨by simp [hdue]; rfl, ?_, by simp [hdue]⟩
      rcases burn with _ | b <;> rfl
  · simp only [if_neg herr, if_neg hsafe] at h ⊢
    obtain rfl : scan = scan' := Except.ok.inj (congrArg Prod.snd h)
    have hdue : due fromSlot safeSlot sig = false := by simp [due, hsafe]
    exact ⟨by simp [hdue]; rfl, by simp [burnsFound], by simp [hdue]⟩

/-- One page: its fresh signatures are scanned, and it says whether there were any and whether
there was another. -/
theorem scanSigs_run {page : List ScanSig} {acc acc' : SlotPage}
    (h : (scanSigs fromSlot safeSlot page acc).eval exec s = (t, .ok acc')) :
    Scanned fromSlot safeSlot (fresh fromSlot page) acc.toSlotScan
        ((scanSigs fromSlot safeSlot page acc).events exec s) acc'.toSlotScan ∧
      (acc'.drained = true ↔ acc.drained = true ∨ fresh fromSlot page ≠ page) ∧
      (acc'.sawFresh = true ↔ acc.sawFresh = true ∨ fresh fromSlot page ≠ []) := by
  induction page generalizing acc s with
  | nil =>
    obtain rfl : acc = acc' := Except.ok.inj (congrArg Prod.snd h)
    exact ⟨Scanned.nil, by simp [fresh], by simp [fresh]⟩
  | cons sig page ih =>
    unfold scanSigs at h ⊢
    by_cases hold : sig.slot ≤ fromSlot
    · simp only [if_pos hold] at h ⊢
      obtain rfl := Except.ok.inj (congrArg Prod.snd h)
      have hnil : fresh fromSlot (sig :: page) = [] := by simp [fresh, hold]
      rw [hnil]
      exact ⟨Scanned.nil, by simp, by simp⟩
    · simp only [if_neg hold] at h ⊢
      have hcons : fresh fromSlot (sig :: page) = sig :: fresh fromSlot page := by
        simp [fresh, not_le.1 hold]
      rcases hscan : (scanSig safeSlot acc.toSlotScan sig).eval exec s with ⟨u, e | scan⟩
      · rw [Prog.eval_bind, hscan] at h
        cases congrArg Prod.snd h
      · rw [Prog.eval_bind_ok exec hscan] at h
        rw [Prog.events_bind_ok hscan, hcons]
        obtain ⟨hrest, hdrained, hsaw⟩ := ih h
        exact ⟨(scanSig_run (not_le.1 hold) hscan).append hrest, by simpa using hdrained,
          by simpa using hsaw⟩

/-- Fetching a page parses nothing. -/
theorem Scanned.fetched {seen : List ScanSig} {tr : List ScanEvent} {before : Option String}
    {answer : Except String (List ScanSig)} (h : Scanned fromSlot safeSlot seen scan tr scan') :
    Scanned fromSlot safeSlot seen scan (⟨.fetchPage before, answer⟩ :: tr) scan' :=
  ⟨h.calls, h.burns, h.newest⟩

/-! ## The walk -/

variable {hist : SigHistory}

/-- Behind some signatures the next page is the next of the rest. -/
theorem page_after {seen rest : List ScanSig} (hsplit : hist.sigs = seen ++ rest) (limit : ℕ) :
    hist.page limit (seen.getLast?.map ScanSig.signature) = rest.take limit := by
  rcases List.eq_nil_or_concat seen with rfl | ⟨init, last, rfl⟩
  · simp [SigHistory.page, hsplit]
  · have hnodup := hist.nodup
    rw [hsplit, List.concat_eq_append, List.append_assoc, List.map_append,
      List.nodup_append] at hnodup
    have hinit : ∀ s ∈ init, decide (s.signature ≠ last.signature) = true := by
      intro s hs
      rw [decide_eq_true_eq]
      exact hnodup.2.2 _ (List.mem_map_of_mem hs) _ (by simp)
    have hdrop : hist.sigs.dropWhile (·.signature ≠ last.signature) = last :: rest := by
      rw [hsplit, List.concat_eq_append, List.append_assoc, List.dropWhile_append_of_pos hinit]
      simp
    simp only [SigHistory.page, List.concat_eq_append, List.getLast?_concat, Option.map_some]
    rw [hdrop]
    rfl

theorem fresh_append_of_eq {l l' : List ScanSig} (h : fresh fromSlot l = l) :
    fresh fromSlot (l ++ l') = l ++ fresh fromSlot l' :=
  List.takeWhile_append_of_pos (List.takeWhile_eq_self_iff.1 h)

theorem fresh_append_of_ne {l l' : List ScanSig} (h : fresh fromSlot l ≠ l) :
    fresh fromSlot (l ++ l') = fresh fromSlot l := by
  unfold fresh at h ⊢
  rw [List.takeWhile_append, if_neg]
  exact fun hlen => h ((List.takeWhile_prefix _).eq_of_length hlen)

/-- A walk that drains has scanned what is fresh of the rest of the list. -/
theorem walk_run {limit : ℕ} (hlimit : 1 ≤ limit)
    (hfetch : ∀ before w, (exec (.fetchPage before) w).2 = .ok (hist.page limit before)) (n : ℕ)
    {seen rest : List ScanSig} (hsplit : hist.sigs = seen ++ rest) {res : SlotResult}
    (h : (paginateBurnsBySlot fromSlot safeSlot limit n (seen.getLast?.map ScanSig.signature)
      scan).eval exec s = (t, .ok res)) (hd : res.drained = true) :
    Scanned fromSlot safeSlot (fresh fromSlot rest) scan
      ((paginateBurnsBySlot fromSlot safeSlot limit n (seen.getLast?.map ScanSig.signature)
        scan).events exec s) res.toSlotScan := by
  induction n generalizing seen rest scan s with
  | zero =>
    obtain rfl := Except.ok.inj (congrArg Prod.snd h)
    cases hd
  | succ n ih =>
    have hpage := page_after hsplit limit
    unfold paginateBurnsBySlot at h ⊢
    obtain ⟨u, page, hask, hrest, hevents⟩ := Prog.eval_bind_eq_ok h
    rw [hevents, Prog.events_ask, List.singleton_append]
    rw [Prog.eval_ask] at hask
    obtain rfl : page = rest.take limit := by
      have := hfetch (seen.getLast?.map ScanSig.signature) s
      rw [hask, hpage] at this
      exact Except.ok.inj this
    refine Scanned.fetched ?_
    rcases hlast : (rest.take limit).getLast? with _ | last
    · rw [hlast] at hrest
      obtain rfl := Except.ok.inj (congrArg Prod.snd hrest)
      have hnil : rest = [] := by
        rw [List.getLast?_eq_none_iff, List.take_eq_nil_iff] at hlast
        rcases hlast with h0 | h0
        · omega
        · exact h0
      subst hnil
      exact Scanned.nil
    · rw [hlast] at hrest
      obtain ⟨v, scanned, hscan, hrest, hevents⟩ := Prog.eval_bind_eq_ok hrest
      obtain ⟨hscanned, hdrained, hsaw⟩ := scanSigs_run hscan
      simp only at hrest hevents ⊢
      rw [hevents]
      have hne : rest.take limit ≠ [] := by
        rintro hnil
        simp [hnil] at hlast
      have htake := List.take_append_drop limit rest
      by_cases hall : fresh fromSlot (rest.take limit) = rest.take limit
      · rw [hall] at hscanned hdrained hsaw
        have hcond : (scanned.drained = true ∨ scanned.sawFresh = false ∨
            (rest.take limit).length < limit) ↔ (rest.take limit).length < limit := by
          rw [hdrained, ← Bool.not_eq_true, hsaw]
          simp [hne]
        by_cases hshort : (rest.take limit).length < limit
        · rw [if_pos (hcond.2 hshort)] at hrest ⊢
          obtain rfl := Except.ok.inj (congrArg Prod.snd hrest)
          have hwhole : rest.take limit = rest :=
            List.take_of_length_le (by rw [List.length_take] at hshort; omega)
          rw [hwhole] at hscanned hall
          rw [hall, hwhole, Prog.events_pure, List.append_nil]
          exact hscanned
        · rw [if_neg (mt hcond.1 hshort)] at hrest ⊢
          have hsplit' : hist.sigs = (seen ++ rest.take limit) ++ rest.drop limit := by
            rw [List.append_assoc, htake, hsplit]
          have hbefore : some last.signature =
              (seen ++ rest.take limit).getLast?.map ScanSig.signature := by
            rw [List.getLast?_append, hlast, Option.some_or, Option.map_some]
          rw [hbefore] at hrest ⊢
          have hgoal := hscanned.append (ih hsplit' hrest)
          rwa [← fresh_append_of_eq hall, htake] at hgoal
      · have hdrained' : scanned.drained = true := hdrained.2 (.inr hall)
        rw [if_pos (.inl hdrained')] at hrest ⊢
        obtain rfl := Except.ok.inj (congrArg Prod.snd hrest)
        rw [Prog.events_pure, List.append_nil, ← htake, fresh_append_of_ne hall]
        rwa [htake]

end

/-! ## What a drained walk has done -/

/-- The calls are those on the signatures due, each once, and the cursor reaches past them, yet not
beyond the safe slot unless it started there. -/
structure Complete {hist : SigHistory} {fromSlot safeSlot : ℤ}
    (r : DrainedRun hist fromSlot safeSlot) : Prop where
  calls : burnCalls r.asked = (hist.sigs.filter (due fromSlot safeSlot)).map call
  once : (burnCalls r.asked).Nodup
  burns : r.result.burns = burnsFound r.asked
  cursor_le : r.result.newestFinalSlot ≤ max fromSlot safeSlot
  le_cursor : ∀ s ∈ hist.sigs, due fromSlot safeSlot s = true → s.slot ≤ r.result.newestFinalSlot

/-- The list some time later: what is new lies above the safe slot. -/
structure Extends (safeSlot : ℤ) (hist hist' : SigHistory) : Prop where
  keeps : ∀ s ∈ hist.sigs, s ∈ hist'.sigs
  adds : ∀ s ∈ hist'.sigs, s ∈ hist.sigs ∨ safeSlot < s.slot

variable {hist : SigHistory} {fromSlot safeSlot : ℤ}

/-- Newest first, the signatures above the cursor stand in front. -/
theorem fresh_sigs (hist : SigHistory) (fromSlot : ℤ) :
    fresh fromSlot hist.sigs = hist.sigs.filter fun s => decide (fromSlot < s.slot) := by
  have hsorted := hist.newestFirst
  generalize hist.sigs = sigs at hsorted ⊢
  induction sigs with
  | nil => rfl
  | cons s sigs ih =>
    rw [List.pairwise_cons] at hsorted
    by_cases hlt : fromSlot < s.slot
    · rw [List.filter_cons_of_pos (by simpa using hlt), ← ih hsorted.2]
      simp [fresh, hlt]
    · have hnil : sigs.filter (fun s => decide (fromSlot < s.slot)) = [] := by
        rw [List.filter_eq_nil_iff]
        intro t ht
        have := hsorted.1 t ht
        simp only [decide_eq_true_eq]
        omega
      rw [List.filter_cons_of_neg (by simpa using hlt), hnil]
      simp [fresh, hlt]

theorem filter_due_fresh (hist : SigHistory) (fromSlot safeSlot : ℤ) :
    (fresh fromSlot hist.sigs).filter (due fromSlot safeSlot) =
      hist.sigs.filter (due fromSlot safeSlot) := by
  rw [fresh_sigs, List.filter_filter]
  refine List.filter_congr fun s _ => ?_
  by_cases h : fromSlot < s.slot <;> simp [due, h]

theorem DrainedRun.scanned (r : DrainedRun hist fromSlot safeSlot) :
    Scanned fromSlot safeSlot (fresh fromSlot hist.sigs) ⟨[], fromSlot⟩ r.asked
      r.result.toSlotScan :=
  walk_run r.limit_pos r.fetches r.maxScanPages (List.nil_append hist.sigs).symm
    (Prod.ext rfl r.returns) r.drained

theorem DrainedRun.complete (r : DrainedRun hist fromSlot safeSlot) : Complete r := by
  obtain ⟨hcalls, hburns, hnewest⟩ := r.scanned
  rw [filter_due_fresh] at hcalls hnewest
  have hle := Sorted.foldl_max_le_iff.1 hnewest.ge
  refine ⟨hcalls, ?_, hburns, ?_, fun s hs hdue => ?_⟩
  · have hsigs := (hist.nodup.sublist (List.filter_sublist.map _) :
      ((hist.sigs.filter (due fromSlot safeSlot)).map ScanSig.signature).Nodup)
    have hfst : ((hist.sigs.filter (due fromSlot safeSlot)).map call).map Prod.fst =
        (hist.sigs.filter (due fromSlot safeSlot)).map ScanSig.signature := by
      rw [List.map_map]
      rfl
    rw [← hfst] at hsigs
    exact hcalls ▸ hsigs.of_map Prod.fst
  · rw [hnewest, Sorted.foldl_max_le_iff]
    refine ⟨le_max_left _ _, fun x hx => ?_⟩
    obtain ⟨s, hs, rfl⟩ := List.mem_map.1 hx
    have hdue := (List.mem_filter.1 hs).2
    simp only [due, Bool.and_eq_true, decide_eq_true_eq] at hdue
    exact le_max_of_le_right hdue.2.2
  · exact hle.2 _ (List.mem_map_of_mem (List.mem_filter.2 ⟨hs, hdue⟩))

/-- The cursor does not fall. -/
theorem DrainedRun.cursor_ge (r : DrainedRun hist fromSlot safeSlot) :
    fromSlot ≤ r.result.newestFinalSlot :=
  (Sorted.foldl_max_le_iff.1 r.scanned.newest.ge).1

/-- The gateway account's scan that drains is such a walk, with the safe slot its buffer below the
finalized one. -/
theorem finalizedBurns_drained {cfg : SolanaScanConfig} {acct : String} {σ : Type}
    {exec : (o : SolanaRpc) → σ → σ × Except String o.Ans} {s t : σ} {res : SlotResult}
    (hacct : cfg.gatewayTokenAccount = some acct)
    (hsigs : ∀ before s, (exec (.getSignaturesForAddress cfg.limit before) s).2 =
      .ok (hist.page cfg.limit before))
    (h : (finalizedBurnsBySlot cfg fromSlot).eval exec s = (t, .ok res))
    (hd : res.drained = true) :
    ∃ height : ℕ, (exec .getSlot s).2 = .ok height ∧
      ∃ r : DrainedRun hist fromSlot ((height : ℤ) - cfg.finalitySlots), r.result = res := by
  unfold finalizedBurnsBySlot at h
  rw [hacct] at h
  obtain ⟨u, height, hask, hwalk, -⟩ := Prog.eval_bind_eq_ok h
  have hheight := (Prog.eval_ask exec SolanaRpc.getSlot s).symm.trans hask
  rw [Prog.eval_translate] at hwalk
  refine ⟨height, congrArg Prod.snd hheight, ⟨cfg.limit, le_max_left _ _, cfg.pages, σ, _, u, ?_, res,
    congrArg Prod.snd hwalk, hd⟩, rfl⟩
  intro before w
  have hcarry : (carryScan cfg.limit acct (.fetchPage before)).eval exec w =
      exec (.getSignaturesForAddress cfg.limit before) w := Prog.eval_ask exec _ w
  rw [hcarry]
  exact hsigs before w

end SlotPagination

open SlotPagination

/-- A drained walk loses nothing, and a later one from its cursor parses exactly what has become
final since, above the cursor the first one started from. -/
theorem slot_pagination_complete (hist : SigHistory) (fromSlot safeSlot : ℤ)
    (r : DrainedRun hist fromSlot safeSlot) :
    Complete r ∧ ∀ (hist' : SigHistory) (safeSlot' : ℤ), Extends safeSlot hist hist' →
      ∀ r' : DrainedRun hist' r.result.newestFinalSlot safeSlot',
        burnCalls r'.asked =
          (hist'.sigs.filter (due (max fromSlot safeSlot) safeSlot')).map call := by
  refine ⟨r.complete, fun hist' safeSlot' hext r' => ?_⟩
  rw [r'.complete.calls]
  refine congrArg (List.map call) (List.filter_congr fun s hs => ?_)
  have hle := r.complete.cursor_le
  have hdue : s ∈ hist.sigs → s.err = false → fromSlot < s.slot → s.slot ≤ safeSlot →
      s.slot ≤ r.result.newestFinalSlot := fun hmem herr hlt hsafe =>
    r.complete.le_cursor s hmem (by simp [due, herr, hlt, hsafe])
  have hge : fromSlot ≤ r.result.newestFinalSlot := r.cursor_ge
  rcases herr : s.err with _ | _
  · simp only [due, herr, Bool.not_false, Bool.true_and, decide_eq_decide]
    constructor
    · rintro ⟨hlt, hsafe⟩
      refine ⟨max_lt (by omega) ?_, hsafe⟩
      rcases hext.adds s hs with hold | hnew
      · by_contra hle'
        have := hdue hold herr (by omega) (not_lt.1 hle')
        omega
      · exact hnew
    · rintro ⟨hlt, hsafe⟩
      exact ⟨lt_of_le_of_lt hle hlt, hsafe⟩
  · simp [due, herr]

/-- A node that pages through a list and knows the burns among its transactions. -/
def listNode (hist : SigHistory) (limit : ℕ) (burn : String → Option RemoteBurn) :
    (o : ScanOp) → Unit → Unit × Except String o.Ans
  | .fetchPage before, w => (w, .ok (hist.page limit before))
  | .toBurn signature _, w => (w, .ok (burn signature))

/-- Four signatures, two of them in one slot, of which one failed. -/
def fourSigs : SigHistory where
  sigs := [⟨"d", 9, false⟩, ⟨"c", 7, false⟩, ⟨"b", 7, true⟩, ⟨"a", 6, false⟩]
  nodup := by decide
  newestFirst := by decide

/-- The same list with one more. -/
def fiveSigs : SigHistory where
  sigs := [⟨"e", 11, false⟩, ⟨"d", 9, false⟩, ⟨"c", 7, false⟩, ⟨"b", 7, true⟩, ⟨"a", 6, false⟩]
  nodup := by decide
  newestFirst := by decide

theorem walk_fourSigs : ((paginateBurnsBySlot 5 7 2 3 none ⟨[], 5⟩).eval
    (listNode fourSigs 2 fun _ => none) ()).2 = .ok ⟨⟨[], 7⟩, true⟩ := rfl

theorem walk_fiveSigs : ((paginateBurnsBySlot 7 10 2 3 none ⟨[], 7⟩).eval
    (listNode fiveSigs 2 fun _ => none) ()).2 = .ok ⟨⟨[], 9⟩, true⟩ := rfl

theorem walk_from_tip : ((paginateBurnsBySlot 10 5 2 3 none ⟨[], 10⟩).eval
    (listNode fourSigs 2 fun _ => none) ()).2 = .ok ⟨⟨[], 10⟩, true⟩ := rfl

theorem walk_on_from_tip : ((paginateBurnsBySlot 10 9 2 3 none ⟨[], 10⟩).eval
    (listNode fourSigs 2 fun _ => none) ()).2 = .ok ⟨⟨[], 10⟩, true⟩ := rfl

/-- A walk over a list the node pages through. -/
def listRun {hist : SigHistory} {fromSlot safeSlot : ℤ} {result : SlotResult}
    (h : ((paginateBurnsBySlot fromSlot safeSlot 2 3 none ⟨[], fromSlot⟩).eval
      (listNode hist 2 fun _ => none) ()).2 = .ok result) (hd : result.drained = true) :
    DrainedRun hist fromSlot safeSlot :=
  ⟨2, Nat.le_succ 1, 3, Unit, listNode hist 2 fun _ => none, (), fun _ _ => rfl, result, h, hd⟩

theorem slot_pagination_complete_sample :
    Complete (listRun walk_fourSigs rfl) ∧
      burnCalls (listRun walk_fiveSigs rfl : DrainedRun fiveSigs 7 10).asked = [("d", 9)] := by
  obtain ⟨hcomplete, hresume⟩ := slot_pagination_complete fourSigs 5 7 (listRun walk_fourSigs rfl)
  refine ⟨hcomplete, ?_⟩
  exact hresume fiveSigs 10 ⟨by decide, by decide⟩ (listRun walk_fiveSigs rfl)

/-- A walk that starts beyond the safe slot, as a cold start at the finalized slot does: the
signatures of slots 6, 7 and 9 become final after it and are parsed by no later walk. -/
theorem walk_from_tip_leaves_out :
    ∃ (r : DrainedRun fourSigs 10 5) (r' : DrainedRun fourSigs r.result.newestFinalSlot 9),
      Extends 5 fourSigs fourSigs ∧ burnCalls r'.asked = [] ∧
        (fourSigs.sigs.filter (due 5 9)).map call = [("d", 9), ("c", 7), ("a", 6)] :=
  ⟨listRun walk_from_tip rfl, listRun walk_on_from_tip rfl, ⟨fun _ h => h, fun _ h => .inl h⟩, rfl,
    rfl⟩

end VizGateway
