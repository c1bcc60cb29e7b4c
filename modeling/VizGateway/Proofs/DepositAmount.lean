import VizGateway.RemoteChains

/-!
# The amount of a Solana deposit

One loop over the instructions reads a deposit's amount, for the scanner and for the signers alike.
It assigns the amount of every transfer into the account it meets, so what it returns is the last
one's (`parse_amount`): the whole of what the transaction moved there only when the transfers
before the last moved nothing (`deposit_amount_is_sum_iff`).
-/

namespace VizGateway

open Checks Text

/-- A parsed transaction as the node returns it: the message's instructions, and the inner ones in
groups. -/
structure RawTx where
  slot : ℕ
  err : Bool
  instructions : List SolanaIx
  innerInstructions : Option (List (List SolanaIx))
  deriving DecidableEq

/-- The transaction with its instructions in the order the parser visits them. -/
def RawTx.parsed (raw : RawTx) : ParsedTx where
  slot := raw.slot
  err := raw.err
  instructions := raw.instructions ++ (raw.innerInstructions.getD []).flatten

/-- The token transfer into `ata` an instruction makes, memos apart. -/
def SolanaIx.transferOf (ix : SolanaIx) (ata : String) : Option TokenInfo :=
  if ix.isMemo then none else ix.transferInto ata

/-- The token transfers into `ata` among some instructions. -/
def transfersInto (ata : String) (ixs : List SolanaIx) : List TokenInfo :=
  ixs.filterMap (·.transferOf ata)

/-- The text of a transfer's amount. -/
def TokenInfo.amountText (info : TokenInfo) : Option String :=
  truthy (info.tokenAmount.join <|> info.amount)

/-- The amount a transfer names. -/
def TokenInfo.named (info : TokenInfo) : Option ℤ := info.amountText.bind bigIntOfString

/-- Whether the amount, where there is one, is a number. -/
def TokenInfo.Readable (info : TokenInfo) : Prop := ∀ s, info.amountText = some s →
  (bigIntOfString s).isSome

/-- What a transfer credits. -/
def TokenInfo.credit (info : TokenInfo) : ℤ := info.named.getD 0

/-- The parser returns the sum of the transfers into the account, and null without one. -/
def SumsTransfers (ata : String) (tx : ParsedTx) : Prop :=
  ∃ dep, parseGatewayDeposit tx ata = .ok dep ∧
    dep.map (·.amountBaseUnits) =
      if transfersInto ata tx.instructions = [] then none
      else some ((transfersInto ata tx.instructions).map TokenInfo.credit).sum

/-- Every amount is a number, and if there is a transfer at all then one names an amount, and the
amounts named before the last one cancel out. -/
def LastCarriesAll (ts : List TokenInfo) : Prop :=
  (∀ t ∈ ts, t.Readable) ∧
    (ts = [] ∨ ts.filterMap TokenInfo.named ≠ [] ∧ (ts.filterMap TokenInfo.named).dropLast.sum = 0)

/-! ## The loop -/

section

variable (ata : String)

theorem depositScanStep_of_none {ix : SolanaIx} (h : ix.transferOf ata = none)
    (acc : DepositScan) :
    ∃ acc', depositScanStep ata acc ix = .ok acc' ∧ acc'.amount = acc.amount := by
  unfold SolanaIx.transferOf at h
  by_cases hm : ix.isMemo = true
  · exact ⟨{ acc with memo := jsStringOr "" ix.memo }, by rw [depositScanStep, if_pos hm], rfl⟩
  · rw [if_neg hm] at h
    exact ⟨acc, by rw [depositScanStep, if_neg hm, h], rfl⟩

theorem depositScanStep_of_some {ix : SolanaIx} {info : TokenInfo}
    (h : ix.transferOf ata = some info) (acc acc' : DepositScan)
    (hs : depositScanStep ata acc ix = .ok acc') :
    info.Readable ∧ acc'.amount = info.named.or acc.amount := by
  unfold SolanaIx.transferOf at h
  by_cases hm : ix.isMemo = true
  · simp [hm] at h
  rw [if_neg hm] at h
  rw [depositScanStep, if_neg hm, h] at hs
  unfold TokenInfo.Readable TokenInfo.named TokenInfo.amountText
  rcases ht : truthy (info.tokenAmount.join <|> info.amount) with _ | amt
  · simp only [ht, pure_eq_ok] at hs
    subst hs
    simp
  · simp only [ht, bind_eq_ok, found_eq_ok, pure_eq_ok] at hs
    obtain ⟨n, hn, rfl⟩ := hs
    simp [hn]

theorem depositScanStep_ok {ix : SolanaIx} {info : TokenInfo} (h : ix.transferOf ata = some info)
    (hr : info.Readable) (acc : DepositScan) : ∃ acc', depositScanStep ata acc ix = .ok acc' := by
  unfold SolanaIx.transferOf at h
  by_cases hm : ix.isMemo = true
  · simp [hm] at h
  rw [if_neg hm] at h
  unfold TokenInfo.Readable TokenInfo.amountText at hr
  rw [depositScanStep, if_neg hm, h]
  rcases ht : truthy (info.tokenAmount.join <|> info.amount) with _ | amt
  · exact ⟨_, by simp only [ht]; rfl⟩
  · obtain ⟨n, hn⟩ := Option.isSome_iff_exists.1 (hr amt ht)
    exact ⟨_, by simp only [ht, hn, found]; rfl⟩

theorem transfersInto_cons (ix : SolanaIx) (ixs : List SolanaIx) :
    transfersInto ata (ix :: ixs) = (ix.transferOf ata).toList ++ transfersInto ata ixs := by
  unfold transfersInto
  rcases h : ix.transferOf ata with _ | info <;> simp [h]

/-- The loop throws at an unreadable amount and else keeps the last amount named. -/
theorem foldlM_depositScanStep (ixs : List SolanaIx) :
    ∀ acc : DepositScan,
      ((∃ r, ixs.foldlM (depositScanStep ata) acc = .ok r) ↔
        ∀ t ∈ transfersInto ata ixs, t.Readable) ∧
      ∀ r, ixs.foldlM (depositScanStep ata) acc = .ok r →
        r.amount = (((transfersInto ata ixs).filterMap TokenInfo.named).getLast?).or acc.amount := by
  induction ixs with
  | nil =>
    intro acc
    refine ⟨by simp [transfersInto], fun r h => ?_⟩
    simp only [List.foldlM_nil, pure_eq_ok] at h
    simp [← h, transfersInto]
  | cons ix ixs ih =>
    intro acc
    rw [transfersInto_cons, List.foldlM_cons]
    rcases ht : ix.transferOf ata with _ | info
    · obtain ⟨acc', hs, hamount⟩ := depositScanStep_of_none ata ht acc
      rw [hs, ← hamount]
      exact ih acc'
    · constructor
      · constructor
        · rintro ⟨r, h⟩
          rw [bind_eq_ok] at h
          obtain ⟨acc', hs, h⟩ := h
          simp only [Option.toList_some, List.singleton_append, List.forall_mem_cons]
          exact ⟨(depositScanStep_of_some ata ht acc acc' hs).1, (ih acc').1.1 ⟨r, h⟩⟩
        · intro hr
          simp only [Option.toList_some, List.singleton_append, List.forall_mem_cons] at hr
          obtain ⟨acc', hs⟩ := depositScanStep_ok ata ht hr.1 acc
          obtain ⟨r, h⟩ := (ih acc').1.2 hr.2
          exact ⟨r, by rw [hs]; exact h⟩
      · intro r h
        rw [bind_eq_ok] at h
        obtain ⟨acc', hs, h⟩ := h
        have hacc := (depositScanStep_of_some ata ht acc acc' hs).2
        have hrest := (ih acc').2 r h
        rw [hrest, hacc, Option.toList_some, List.singleton_append]
        rcases hn : info.named with _ | n
        · simp [hn]
        · rw [List.filterMap_cons_some hn, List.getLast?_cons]
          rcases (((transfersInto ata ixs).filterMap TokenInfo.named).getLast?) with _ | m <;> rfl

/-- The amount of a parsed deposit is the last one a transfer into the account names. -/
theorem parse_amount (tx : ParsedTx) :
    ((∃ dep, parseGatewayDeposit tx ata = .ok dep) ↔
      ∀ t ∈ transfersInto ata tx.instructions, t.Readable) ∧
    ∀ dep, parseGatewayDeposit tx ata = .ok dep →
      dep.map (·.amountBaseUnits) =
        ((transfersInto ata tx.instructions).filterMap TokenInfo.named).getLast? := by
  obtain ⟨hok, hval⟩ := foldlM_depositScanStep ata tx.instructions {}
  unfold parseGatewayDeposit
  refine ⟨?_, fun dep h => ?_⟩
  · rw [← hok]
    constructor
    · rintro ⟨dep, h⟩
      rw [bind_eq_ok] at h
      obtain ⟨r, hr, -⟩ := h
      exact ⟨r, hr⟩
    · rintro ⟨r, hr⟩
      exact ⟨_, by rw [hr]; rfl⟩
  · simp only [bind_eq_ok, pure_eq_ok] at h
    obtain ⟨r, hr, rfl⟩ := h
    have := hval r hr
    simp only [Option.or_none] at this
    rw [Option.map_map, ← this]
    rcases r.amount with _ | n <;> rfl

end

/-! ## The sum -/

theorem sum_credit (ts : List TokenInfo) :
    (ts.map TokenInfo.credit).sum = (ts.filterMap TokenInfo.named).sum := by
  induction ts with
  | nil => rfl
  | cons t ts ih =>
    rcases h : t.named with _ | n <;> simp [TokenInfo.credit, h, ih]

theorem sum_eq_getLast_iff {l : List ℤ} (hl : l ≠ []) :
    l.getLast? = some l.sum ↔ l.dropLast.sum = 0 := by
  rw [List.getLast?_eq_some_getLast hl, Option.some.injEq]
  have hsum : l.sum = l.dropLast.sum + l.getLast hl := by
    conv_lhs => rw [← List.dropLast_append_getLast hl]
    simp
  omega

/-- The parser returns what the transaction moved into the account exactly when the last transfer
carries it all. -/
theorem sumsTransfers_iff (ata : String) (tx : ParsedTx) :
    SumsTransfers ata tx ↔ LastCarriesAll (transfersInto ata tx.instructions) := by
  obtain ⟨hok, hval⟩ := parse_amount ata tx
  unfold SumsTransfers LastCarriesAll
  rw [← hok, sum_credit]
  rcases hts : transfersInto ata tx.instructions with _ | ⟨t, ts⟩
  · simp only [hts, List.filterMap_nil, List.getLast?_nil] at hval
    simp only [if_true, true_or, and_true]
    exact ⟨fun ⟨dep, h, _⟩ => ⟨dep, h⟩, fun ⟨dep, h⟩ => ⟨dep, h, hval dep h⟩⟩
  · rw [hts] at hval
    simp only [reduceCtorEq, if_false, false_or]
    rcases hn : (t :: ts).filterMap TokenInfo.named with _ | ⟨n, ns⟩
    · simp only [hn, List.getLast?_nil] at hval
      constructor
      · rintro ⟨dep, h, hsum⟩
        rw [hval dep h] at hsum
        simp at hsum
      · rintro ⟨-, hne, -⟩
        exact absurd rfl hne
    · rw [hn] at hval
      have hiff := sum_eq_getLast_iff (List.cons_ne_nil n ns)
      constructor
      · rintro ⟨dep, h, hsum⟩
        exact ⟨⟨dep, h⟩, List.cons_ne_nil n ns, hiff.1 (by rw [← hval dep h, hsum])⟩
      · rintro ⟨⟨dep, h⟩, -, hzero⟩
        exact ⟨dep, h, by rw [hval dep h, hiff.2 hzero]⟩

/-- With amounts as the chain writes them, every transfer but the last has to move nothing. -/
theorem sumsTransfers_iff_of_amounts {ata : String} {tx : ParsedTx} {amounts : List ℕ}
    (h : (transfersInto ata tx.instructions).map TokenInfo.amountText =
      amounts.map fun n => some n.repr) :
    SumsTransfers ata tx ↔ ∀ n ∈ amounts.dropLast, n = 0 := by
  rw [sumsTransfers_iff]
  generalize transfersInto ata tx.instructions = ts at h
  have hmap : ts.map TokenInfo.named = amounts.map fun n : ℕ => some (n : ℤ) := by
    have := congrArg (List.map fun s => Option.bind s bigIntOfString) h
    simp only [List.map_map, Function.comp_def, Option.bind_some, bigIntOfString_repr] at this
    exact this
  have hnamed : ts.filterMap TokenInfo.named = amounts.map (fun n : ℕ => (n : ℤ)) := by
    have := congrArg (List.filterMap id) hmap
    simpa only [List.filterMap_map, Function.comp_def, id_eq, List.filterMap_eq_map'] using this
  have hread : ∀ t ∈ ts, t.Readable := by
    intro t ht s hs
    have hmem := List.mem_map_of_mem (f := TokenInfo.amountText) ht
    rw [h, List.mem_map] at hmem
    obtain ⟨n, -, hn⟩ := hmem
    rw [hs, Option.some.injEq] at hn
    rw [← hn, bigIntOfString_repr, Option.isSome_some]
  have hlen : ts.length = amounts.length := by simpa using congrArg List.length h
  have hsum : (amounts.map (fun n : ℕ => (n : ℤ))).dropLast.sum = 0 ↔ ∀ n ∈ amounts.dropLast, n = 0 := by
    rw [← List.map_dropLast, ← Nat.cast_list_sum, Int.natCast_eq_zero, List.sum_eq_zero_iff]
  unfold LastCarriesAll
  rw [hnamed, hsum]
  constructor
  · rintro ⟨-, rfl | ⟨-, hz⟩⟩
    · have : amounts = [] := List.eq_nil_of_length_eq_zero hlen.symm
      simp [this]
    · exact hz
  · intro hz
    refine ⟨hread, ?_⟩
    rcases ts with _ | ⟨t, ts⟩
    · exact Or.inl rfl
    · refine Or.inr ⟨?_, hz⟩
      intro hnil
      rw [List.map_eq_nil_iff] at hnil
      simp [hnil] at hlen

/-- A swap that pays the account twice, and what the parser makes of it. -/
def twoTransfers : RawTx where
  slot := 100
  err := false
  instructions := [⟨some "spl-token-2022", none, none,
    some ⟨"transferChecked", some (.str "ATA"), some (some "5000"), none, some (.str "user"), none⟩⟩]
  innerInstructions := some [[⟨some "spl-token", none, none,
    some ⟨"transfer", some (.str "ATA"), none, some "7000", some (.str "pool"), none⟩⟩]]

end VizGateway
