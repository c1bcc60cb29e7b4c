import VizGateway.Proofs.ChildAgreement

/-!
# What an action id determines

Truthful nodes accept one mint a deposit id and one payout a child id: the recipient and the amount
are the source event's, at whatever time and through whatever hint it is read.
-/

namespace VizGateway

open Checks Text

variable {L : Libs} {deps : SourceValidatorDeps} {G : Ledger} {view view' : NodeView}
  {a a' : CanonicalAction} {hint hint' : Option ℕ}

theorem validatePegIn_unique (ht : Truthful L G view) (ht' : Truthful L G view')
    (h : validatePegIn L deps view a hint = .ok ())
    (h' : validatePegIn L deps view' a' hint' = .ok ()) (hid : a.id = a'.id) : a' = a := by
  obtain ⟨key, d, hkey, hd, -, rfl⟩ := validatePegIn_eq_ok.1 h
  obtain ⟨key', d', hkey', hd', -, rfl⟩ := validatePegIn_eq_ok.1 h'
  rw [← hid, hkey, Option.some.injEq] at hkey'
  subst hkey'
  obtain ⟨n, rfl⟩ := getDeposit_unique ht ht' hd hd'
  rfl

theorem reReadParentPegIn_unique {suffix : String} {d d' : VizDeposit} {p p' : CanonicalAction}
    (ht : Truthful L G view) (ht' : Truthful L G view')
    (h : reReadParentPegIn L deps view a suffix hint = .ok (d, p))
    (h' : reReadParentPegIn L deps view' a' suffix hint' = .ok (d', p')) (hid : a.id = a'.id) :
    ∃ n, d' = { d with blockNum := n } := by
  obtain ⟨key, hkey, hd, -, -⟩ := reReadParentPegIn_eq_ok.1 h
  obtain ⟨key', hkey', hd', -, -⟩ := reReadParentPegIn_eq_ok.1 h'
  rw [← hid, hkey, Option.some.injEq] at hkey'
  subst hkey'
  exact getDeposit_unique ht ht' hd hd'

/-- Equal in what is paid and to whom. -/
def SamePayout (a a' : CanonicalAction) : Prop :=
  a'.recipient = a.recipient ∧ a'.amountMilliViz = a.amountMilliViz

theorem validateFeeSweep_unique (ht : Truthful L G view) (ht' : Truthful L G view')
    (h : validateFeeSweep L deps view a hint = .ok ())
    (h' : validateFeeSweep L deps view' a' hint' = .ok ()) (hid : a.id = a'.id) :
    SamePayout a a' := by
  obtain ⟨d, p, hp, -, hrec, -, hamt⟩ := validateFeeSweep_eq_ok.1 h
  obtain ⟨d', p', hp', -, hrec', -, hamt'⟩ := validateFeeSweep_eq_ok.1 h'
  obtain ⟨n, rfl⟩ := reReadParentPegIn_unique ht ht' hp hp' hid
  exact ⟨hrec'.trans hrec.symm, hamt'.trans hamt.symm⟩

theorem validateRefund_unique (ht : Truthful L G view) (ht' : Truthful L G view')
    (h : validateRefund L deps view a hint = .ok ())
    (h' : validateRefund L deps view' a' hint' = .ok ()) (hid : a.id = a'.id) :
    SamePayout a a' := by
  obtain ⟨d, p, hp, -, hrec, -, hamt, -⟩ := validateRefund_eq_ok.1 h
  obtain ⟨d', p', hp', -, hrec', -, hamt', -⟩ := validateRefund_eq_ok.1 h'
  obtain ⟨n, rfl⟩ := reReadParentPegIn_unique ht ht' hp hp' hid
  exact ⟨hrec'.trans hrec.symm, hamt'.trans hamt.symm⟩

theorem validateGramReturn_unique (ht : Truthful L G view) (ht' : Truthful L G view')
    (h : validateGramReturn L deps view a = .ok ())
    (h' : validateGramReturn L deps view' a' = .ok ()) (hid : a.id = a'.id) :
    SamePayout a a' := by
  obtain ⟨-, b, hb, -, -, hrec, -, hamt, -⟩ := validateGramReturn_eq_ok.1 h
  obtain ⟨-, b', hb', -, -, hrec', -, hamt', -⟩ := validateGramReturn_eq_ok.1 h'
  rw [← hid] at hb'
  obtain ⟨n, rfl⟩ := getBurn_unique ht ht' hb hb'
  exact ⟨hrec'.trans hrec.symm, hamt'.trans hamt.symm⟩

/-- A child id pays one amount to one recipient. -/
theorem child_unique (ht : Truthful L G view) (ht' : Truthful L G view')
    (h : validateAction L deps view a hint = .ok ())
    (h' : validateAction L deps view' a' hint' = .ok ())
    (hdir : a.direction ≠ .known .pegIn) (hdir' : a'.direction ≠ .known .pegIn)
    (hid : a.id = a'.id) (hchild : ¬ NoSuffix a.id) : SamePayout a a' := by
  rw [validateAction_eq_ok] at h h'
  by_cases hfee : endsWith a.id feeSweepSuffix = true
  · rw [validateActionInner_fee hdir hfee] at h
    rw [validateActionInner_fee hdir' (hid ▸ hfee)] at h'
    exact validateFeeSweep_unique ht ht' h h' hid
  · by_cases hrefund : endsWith a.id refundSuffix = true
    · rw [validateActionInner_refund hdir hrefund] at h
      rw [validateActionInner_refund hdir' (hid ▸ hrefund)] at h'
      exact validateRefund_unique ht ht' h h' hid
    · by_cases hreturn : endsWith a.id returnSuffix = true
      · rw [validateActionInner_return hdir hreturn] at h
        rw [validateActionInner_return hdir' (hid ▸ hreturn)] at h'
        exact validateGramReturn_unique ht ht' h h' hid
      · rw [Bool.not_eq_true] at hfee hrefund hreturn
        exact absurd ⟨hfee, hrefund, hreturn⟩ hchild

/-- Without a suffix, only releases are accepted besides mints. -/
theorem direction_of_noSuffix (h : validateAction L deps view a hint = .ok ())
    (hin : a.direction ≠ .known .pegIn) (hs : NoSuffix a.id) :
    a.direction = .known .pegOut := by
  obtain ⟨hfee, hrefund, hreturn⟩ := hs
  rw [validateAction_eq_ok] at h
  unfold validateActionInner at h
  rw [if_neg hin, hfee, hrefund, hreturn] at h
  simp only [Bool.false_eq_true, ↓reduceIte] at h
  split_ifs at h
  · obtain ⟨-, ata, dep, -, -, ha⟩ := validateSolanaPegOut_eq_ok.1 h
    rw [ha]
    rfl
  · obtain ⟨b, -, rfl⟩ := validateTonPegOut_eq_ok.1 h
    rfl

/-- A return is a child. -/
theorem child_of_gramReturn (h : validateAction L deps view a hint = .ok ())
    (hdir : a.direction = .known .gramReturn) : ¬ NoSuffix a.id := by
  intro hs
  have hout := direction_of_noSuffix h (by simp [hdir]) hs
  simp [hdir] at hout

/-- What follows the first colon of a deposit id is digits only. -/
theorem splitSourceId_digits {id : String} {key : String × ℕ} (h : splitSourceId id = some key) :
    ∃ n, indexOf id ':' = some n ∧ isDigits (dropStr id (n + 1)) = true := by
  unfold splitSourceId at h
  split at h
  · next n hn =>
    simp only at h
    split_ifs at h with hd
    exact ⟨n + 1, hn, hd⟩
  · simp at h

/-- No deposit id is a child id, a signature or a burn hash: it ends with a colon and digits. -/
theorem splitSourceId_endsWith {id suffix : String} {key : String × ℕ} {c : Char}
    (h : splitSourceId id = some key) (hs : suffix.toList.getLast? = some c)
    (hc : c.isDigit = false) : endsWith id suffix = false := by
  obtain ⟨n, -, hd⟩ := splitSourceId_digits h
  unfold isDigits at hd
  rw [Bool.and_eq_true, List.all_eq_true] at hd
  have hne : (dropStr id (n + 1)).toList ≠ [] := by simpa using hd.1
  refine endsWith_eq_false_of_getLast (c := (dropStr id (n + 1)).toList.getLast hne) ?_ hs ?_
  · conv_lhs => rw [← takeStr_append_dropStr id (n + 1)]
    rw [String.toList_append, List.getLast?_append, List.getLast?_eq_some_getLast hne]
    rfl
  · intro heq
    have := hd.2 _ (List.getLast_mem hne)
    rw [heq, hc] at this
    exact Bool.false_ne_true this

theorem colon_of_splitSourceId {id : String} {key : String × ℕ} (h : splitSourceId id = some key) :
    ':' ∈ id.toList := by
  obtain ⟨n, hn, -⟩ := splitSourceId_digits h
  unfold indexOf at hn
  obtain ⟨hlt, hget, -⟩ := List.findIdx?_eq_some_iff_getElem.1 hn
  rw [beq_iff_eq] at hget
  exact hget ▸ List.getElem_mem hlt

/-- A deposit id is not accepted for a payout on VIZ. -/
theorem pegIn_ne_pegOut {key : String × ℕ} (hkey : splitSourceId a.id = some key)
    (h : validateAction L deps view a hint = .ok ()) : a.direction = .known .pegIn := by
  by_contra hin
  have hfee : endsWith a.id feeSweepSuffix = false :=
    splitSourceId_endsWith (c := 'e') hkey rfl rfl
  have hrefund : endsWith a.id refundSuffix = false :=
    splitSourceId_endsWith (c := 'd') hkey rfl rfl
  have hreturn : endsWith a.id returnSuffix = false :=
    splitSourceId_endsWith (c := 'n') hkey rfl rfl
  have hcolon := colon_of_splitSourceId hkey
  rw [validateAction_eq_ok] at h
  unfold validateActionInner at h
  rw [if_neg hin, hfee, hrefund, hreturn] at h
  simp only [Bool.false_eq_true, ↓reduceIte] at h
  split_ifs at h with hsol hton
  · unfold looksLikeSolanaSignature at hsol
    rw [Bool.and_eq_true, List.all_eq_true] at hsol
    exact absurd (hsol.2 _ hcolon) (by decide)
  · unfold looksLikeTonTxHash at hton
    rw [Bool.and_eq_true, List.all_eq_true] at hton
    exact absurd (hton.2 _ hcolon) (by decide)

end VizGateway
