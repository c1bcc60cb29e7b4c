import VizGateway.Proofs.Exclusivity
import VizGateway.Proofs.KeyedEffect

/-!
# The kind of an effect and the kind of its source

Validation looks at the id's suffix, routing at the direction. A mint and a burn release are tied to
both, since their whole action is compared with the source's; a child's direction is compared with
nothing, so a return child asked for as a peg-out gets a VIZ release.
-/

namespace VizGateway

open Checks Text

/-- What a signature or an approval may stand for. -/
inductive SourceKind
  | pegIn
  | burnRelease
  | feeSweep
  | refund
  | giveBack
  deriving DecidableEq

section

variable {L : Libs} {cfg : SignerConfig} {deps : SourceValidatorDeps} {view : NodeView}
  {a : CanonicalAction} {hint : Option ℕ} {kind : SourceKind}

/-- The nodes show the event of that kind that the action settles. -/
inductive StandsFor (L : Libs) (deps : SourceValidatorDeps) (view : NodeView) :
    SourceKind → CanonicalAction → Prop
  | pegIn {e : SourceEvent} {a : CanonicalAction} (he : Confirms L deps view e a)
    (hdir : a.direction = .known .pegIn) : StandsFor L deps view .pegIn a
  | burnRelease {e : SourceEvent} {a : CanonicalAction} (he : Confirms L deps view e a)
    (hdir : a.direction = .known .pegOut) (hs : NoSuffix a.id) : StandsFor L deps view .burnRelease a
  | feeSweep {d : VizDeposit} {trxId : String} {opIndex : ℕ} {hint : Option ℕ} {a : CanonicalAction}
    (hd : getDeposit L deps.reader view.viz trxId opIndex hint = .ok (some d))
    (hid : a.id = d.id ++ feeSweepSuffix)
    (hdigest : a.digest = L.digestOf (pegInBody d) ++ feeSweepSuffix) :
    StandsFor L deps view .feeSweep a
  | refund {d : VizDeposit} {trxId : String} {opIndex : ℕ} {hint : Option ℕ} {a : CanonicalAction}
    (hd : getDeposit L deps.reader view.viz trxId opIndex hint = .ok (some d))
    (hid : a.id = d.id ++ refundSuffix)
    (hdigest : a.digest = L.digestOf (pegInBody d) ++ refundSuffix) :
    StandsFor L deps view .refund a
  | giveBack {b : RemoteBurn} {a : CanonicalAction} (hb : view.gram.Final L b)
    (hid : a.id = b.sourceId ++ returnSuffix)
    (hdigest : a.digest = L.digestOf (pegOutBody b) ++ returnSuffix) :
    StandsFor L deps view .giveBack a

/-- The kinds an effect may stand for. -/
def Effect.Pays : Effect → SourceKind → Prop
  | .vizRelease _, kind => kind = .burnRelease ∨ kind = .feeSweep ∨ kind = .refund
  | .gramOrder _ (.giveBack _ _), kind => kind = .giveBack
  | .gramOrder _ (.mint _ _), kind => kind = .pegIn
  | .solanaMint _, kind => kind = .pegIn

/-- The direction is one child's and the suffix another's. -/
def Crossed (a : CanonicalAction) : Prop :=
  (a.direction = .known .pegOut ∧ endsWith a.id returnSuffix = true) ∨
    (a.direction = .known .gramReturn ∧
      (endsWith a.id feeSweepSuffix = true ∨ endsWith a.id refundSuffix = true))

/-! ## What validation shows of a child -/

theorem standsFor_feeSweep (hdir : a.direction ≠ .known .pegIn)
    (hs : endsWith a.id feeSweepSuffix = true) (h : validateAction L deps view a hint = .ok ()) :
    StandsFor L deps view .feeSweep a := by
  rw [validateAction_eq_ok, validateActionInner_fee hdir hs] at h
  obtain ⟨d, p, hp, -, -, hdigest, -⟩ := validateFeeSweep_eq_ok.1 h
  obtain ⟨key, -, hd, rfl, hid⟩ := reReadParentPegIn_eq_ok.1 hp
  exact .feeSweep hd hid hdigest

theorem standsFor_refund (hdir : a.direction ≠ .known .pegIn)
    (hs : endsWith a.id refundSuffix = true) (h : validateAction L deps view a hint = .ok ()) :
    StandsFor L deps view .refund a := by
  rw [validateAction_eq_ok, validateActionInner_refund hdir hs] at h
  obtain ⟨d, p, hp, -, -, -, -, hdigest⟩ := validateRefund_eq_ok.1 h
  obtain ⟨key, -, hd, rfl, hid⟩ := reReadParentPegIn_eq_ok.1 hp
  exact .refund hd hid hdigest

theorem standsFor_giveBack (hdir : a.direction ≠ .known .pegIn)
    (hs : endsWith a.id returnSuffix = true) (h : validateAction L deps view a hint = .ok ()) :
    StandsFor L deps view .giveBack a := by
  rw [validateAction_eq_ok, validateActionInner_return hdir hs] at h
  obtain ⟨-, b, hb, -, -, -, -, -, hdigest⟩ := validateGramReturn_eq_ok.1 h
  obtain ⟨hfinal, hsource⟩ := getBurn_eq_some hb
  have hid := dropEnd_append_of_endsWith hs
  rw [← hsource] at hid
  exact .giveBack hfinal hid.symm hdigest

/-! ## Suffixes and kinds -/

theorem endsWith_of_id {s t : String} (h : a.id = s ++ t) : endsWith a.id t = true := by
  rw [h]
  exact endsWith_append s t

/-- A return is no release, and the other children are no return. -/
theorem StandsFor.suffix (h : StandsFor L deps view kind a) :
    (kind = .burnRelease ∨ kind = .feeSweep ∨ kind = .refund →
        endsWith a.id returnSuffix = false) ∧
      (kind = .giveBack →
        endsWith a.id feeSweepSuffix = false ∧ endsWith a.id refundSuffix = false) := by
  cases h with
  | pegIn he hdir => simp
  | burnRelease he hdir hs =>
    obtain ⟨-, -, hreturn⟩ := hs
    simp [hreturn]
  | feeSweep hd hid hdigest =>
    have hreturn : endsWith a.id returnSuffix = false :=
      endsWith_of_suffix (c := 'e') (d := 'n') rfl rfl (by decide) (endsWith_of_id hid)
    simp [hreturn]
  | refund hd hid hdigest =>
    have hreturn : endsWith a.id returnSuffix = false :=
      endsWith_of_suffix (c := 'd') (d := 'n') rfl rfl (by decide) (endsWith_of_id hid)
    simp [hreturn]
  | giveBack hb hid hdigest =>
    have hfee : endsWith a.id feeSweepSuffix = false :=
      endsWith_of_suffix (c := 'n') (d := 'e') rfl rfl (by decide) (endsWith_of_id hid)
    have hrefund : endsWith a.id refundSuffix = false :=
      endsWith_of_suffix (c := 'n') (d := 'd') rfl rfl (by decide) (endsWith_of_id hid)
    simp [hfee, hrefund]

theorem noSuffix_of_not (hfee : ¬ endsWith a.id feeSweepSuffix = true)
    (hrefund : ¬ endsWith a.id refundSuffix = true)
    (hreturn : ¬ endsWith a.id returnSuffix = true) : NoSuffix a.id :=
  ⟨Bool.not_eq_true _ ▸ hfee, Bool.not_eq_true _ ▸ hrefund, Bool.not_eq_true _ ▸ hreturn⟩

/-! ## One approval -/

variable {effect : Effect}

theorem release_standsFor (hval : validateAction L deps view a hint = .ok ())
    (hdir : a.direction = .known .pegOut) (hs : ¬ endsWith a.id returnSuffix = true) :
    ∃ kind, StandsFor L deps view kind a ∧
      (kind = .burnRelease ∨ kind = .feeSweep ∨ kind = .refund) := by
  have hne : a.direction ≠ .known .pegIn := by simp [hdir]
  by_cases hfee : endsWith a.id feeSweepSuffix = true
  · exact ⟨_, standsFor_feeSweep hne hfee hval, by simp⟩
  by_cases hrefund : endsWith a.id refundSuffix = true
  · exact ⟨_, standsFor_refund hne hrefund hval, by simp⟩
  have hnone := noSuffix_of_not hfee hrefund hs
  obtain ⟨e, he⟩ := confirms_of_validateAction hval (.inr ⟨hdir, hnone⟩)
  exact ⟨_, .burnRelease he hdir hnone, by simp⟩

theorem return_standsFor (hval : validateAction L deps view a hint = .ok ())
    (hdir : a.direction = .known .gramReturn) (hfee : ¬ endsWith a.id feeSweepSuffix = true)
    (hrefund : ¬ endsWith a.id refundSuffix = true) : StandsFor L deps view .giveBack a := by
  have hne : a.direction ≠ .known .pegIn := by simp [hdir]
  by_cases hreturn : endsWith a.id returnSuffix = true
  · exact standsFor_giveBack hne hreturn hval
  · exact absurd (noSuffix_of_not hfee hrefund hreturn) (child_of_gramReturn hval hdir)

theorem routeApproval_pays_iff {view : RequestView} {p : JsonObject}
    (h : routeApproval L cfg view a p hint = .ok effect) :
    (∃ kind, StandsFor L cfg.deps view.nodes kind a ∧ effect.Pays kind) ↔ ¬ Crossed a := by
  have hval := routeApproval_valid h
  have hdir := routeApproval_direction h
  match effect with
  | .vizRelease bytes =>
    change a.direction = .known .pegOut at hdir
    simp only [Crossed, hdir, Effect.Pays, true_and, Wire.known.injEq, reduceCtorEq, false_and,
      or_false]
    refine ⟨fun ⟨kind, hk, hpays⟩ => ?_, release_standsFor hval hdir⟩
    simp [hk.suffix.1 hpays]
  | .gramOrder orderAddr (.giveBack toAddr n) =>
    change a.direction = .known .gramReturn at hdir
    simp only [Crossed, hdir, Effect.Pays, true_and, Wire.known.injEq, reduceCtorEq, false_and,
      false_or, not_or]
    refine ⟨fun ⟨kind, hk, hpays⟩ => ?_, fun ⟨hfee, hrefund⟩ =>
      ⟨_, return_standsFor hval hdir hfee hrefund, rfl⟩⟩
    simp [hk.suffix.2 hpays]
  | .gramOrder orderAddr (.mint toAddr n) =>
    change a.direction = .known .pegIn at hdir
    obtain ⟨e, he⟩ := confirms_of_validateAction hval (.inl hdir)
    simp only [Crossed, hdir, Wire.known.injEq, reduceCtorEq, false_and, or_self, not_false_eq_true,
      iff_true]
    exact ⟨_, .pegIn he hdir, rfl⟩
  | .solanaMint message =>
    change a.direction = .known .pegIn at hdir
    obtain ⟨e, he⟩ := confirms_of_validateAction hval (.inl hdir)
    simp only [Crossed, hdir, Wire.known.injEq, reduceCtorEq, false_and, or_self, not_false_eq_true,
      iff_true]
    exact ⟨_, .pegIn he hdir, rfl⟩

/-- An approved request gets what its source is due exactly if its direction and its suffix are not
two children's. -/
theorem approve_kind_iff {view : RequestView} {m : SignedProposals} {req : ApproveRequest}
    {approval : Approval} (h : (approve L cfg view m req).1 = .ok approval) :
    ∃ action, actionFromWire req.action = some action ∧ approval.actionId = action.id ∧
      ((∃ kind, StandsFor L cfg.deps view.nodes kind action ∧ approval.effect.Pays kind) ↔
        ¬ Crossed action) := by
  obtain ⟨action, row, haction, -, -, hid, hroute⟩ := approve_eq_ok h
  exact ⟨action, haction, hid, routeApproval_pays_iff hroute⟩

end

/-! ## A return released on VIZ -/

/-- The return of the sample burn, asked for as a peg-out. -/
def crossedAction : CanonicalAction where
  direction := .known .pegOut
  id := sampleBurnHash ++ returnSuffix
  remoteChain := some (.known .gram)
  recipient := sampleSender
  amountMilliViz := 115000
  digest := (canonicalPegOut sampleLibs.digestOf sampleBurn).digest ++ returnSuffix

def crossedRequest : ApproveRequest where
  action := crossedAction.toWire
  proposal := VizReleaseProposal.toJson
    { refBlockNum := 3, refBlockPrefix := 77, expiration := "2026-01-01T00:01:00"
      sender := "gram.gate", receiver := sampleSender, amount := "115.000 VIZ"
      memo := crossedAction.id }
  sourceBlockNum := none

/-- The signer gives a release for a return child. -/
theorem release_of_return_child : ∃ bytes,
    (approve sampleLibs sampleConfig (sampleRequestView []) (fun _ => none) crossedRequest).1 =
        .ok ⟨sampleBurnHash ++ returnSuffix, "op1", .vizRelease bytes⟩ ∧
      ∀ kind, (Effect.vizRelease bytes).Pays kind →
        ¬ StandsFor sampleLibs sampleDeps (sampleRequestView []).nodes kind crossedAction := by
  refine ⟨(sampleLibs.toBuffer (buildReleaseTx crossedRequest.proposal)).getD [],
    by decide +kernel, fun kind hpays hstands => ?_⟩
  have hreturn : endsWith crossedAction.id returnSuffix = true := endsWith_append _ _
  simp [hstands.suffix.1 hpays] at hreturn

/-- The refund of the sample deposit is a release and a refund. -/
theorem approve_kind_iff_refund : ∃ bytes,
    (∃ kind, StandsFor sampleLibs sampleDeps (sampleRequestView []).nodes kind
      sampleRefundAction ∧ (Effect.vizRelease bytes).Pays kind) ↔ ¬ Crossed sampleRefundAction := by
  have happroved : (approve sampleLibs sampleConfig (sampleRequestView []) (fun _ => none)
      sampleRefundRequest).1 = .ok ⟨sampleRefundAction.id, "op1",
        .vizRelease ((sampleLibs.toBuffer (buildReleaseTx sampleRefundRequest.proposal)).getD
          [])⟩ := by
    decide +kernel
  obtain ⟨action, haction, -, hiff⟩ := approve_kind_iff happroved
  have hsame : actionFromWire sampleRefundRequest.action = some sampleRefundAction := by
    decide +kernel
  obtain rfl := Option.some.inj (hsame.symm.trans haction)
  exact ⟨_, hiff⟩

end VizGateway
