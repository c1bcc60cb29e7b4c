import VizGateway.Coordinator
import VizGateway.Lib.Events

/-!
# One round of the orchestrator

`process` over a broadcaster and signer clients that may do anything: each of its calls is one
operation, answered by an environment of any kind. The round broadcasts once, and exactly when the
replies it received make up the threshold (`orchestrator_quorum`). With a broadcaster's own programs
for its calls it is the coordinator's round (`translate_process`).
-/

namespace VizGateway

namespace OrchestratorRound

/-- The calls of one round, on proposals `P` and signer clients `S`. -/
inductive RoundOp (P S : Type)
  | actionExecuted
  | buildProposal
  | persistFee (feeMilliViz : ℤ)
  | approve (signer : S) (proposal : P)
  | broadcast (proposal : P) (signatures : List String)

abbrev RoundOp.Ans {P S : Type} : RoundOp P S → Type
  | actionExecuted => ExecutedCheck
  | buildProposal => BuildResult P
  | persistFee _ => Unit
  | approve .. => SignerReply
  | broadcast .. => String

abbrev RoundM (P S : Type) := Prog (RoundOp P S) RoundOp.Ans String

abbrev RoundEvent (P S : Type) := Prog.Event (RoundOp P S) RoundOp.Ans String

section

variable {P S : Type} (threshold : ℕ) (operators : List String) (action : CanonicalAction)

def pinFee (feeMilliViz : ℤ) : RoundM P S Unit :=
  if action.direction ≠ .known .pegIn ∨ feeMilliViz ≤ 0 then pure ()
  else tryCatch (Prog.ask (RoundOp.persistFee feeMilliViz)) fun _ => pure ()

/-- One signer's reply, unless the call throws. -/
def askSigner (proposal : P) (signer : S) : RoundM P S (Option SignerReply) :=
  tryCatch (do
    let a : SignerReply ← Prog.ask (RoundOp.approve signer proposal)
    pure (some a))
  fun _ => pure none

def collect (proposal : P) : List S → ApprovalSet → RoundM P S ApprovalSet
  | [], set => pure set
  | signer :: rest, set => do
    let reply ← askSigner proposal signer
    let set' := reply.elim set (set.add operators)
    if set'.isMet action.id threshold then pure set' else collect proposal rest set'

def recover (txid : Option String) : RoundM P S DeliveryResult := do
  let feeMilliViz ← tryCatch (do
      let built : BuildResult P ← Prog.ask RoundOp.buildProposal
      pinFee action built.feeMilliViz
      pure built.feeMilliViz)
    fun _ => pure (0 : ℤ)
  pure { broadcast := true, txid, feeMilliViz := some feeMilliViz }

def finish (built : BuildResult P) (set : ApprovalSet) : RoundM P S DeliveryResult :=
  tryCatch (do
    let txid : String ← Prog.ask
      (RoundOp.broadcast built.proposal ((set.approvals action.id).map (·.signature)))
    pure { broadcast := true, txid := some txid, feeMilliViz := some built.feeMilliViz })
  fun e => pure { broadcast := false, feeMilliViz := some built.feeMilliViz, error := some e }

def drive (signers : List S) : RoundM P S DeliveryResult := do
  let built : BuildResult P ← Prog.ask RoundOp.buildProposal
  pinFee action built.feeMilliViz
  let set ← collect threshold operators action built.proposal signers []
  if set.isMet action.id threshold then finish action built set
  else pure { broadcast := false, feeMilliViz := some built.feeMilliViz }

/-- `Orchestrator.process`. -/
def process (signers : List S) : RoundM P S DeliveryResult := do
  let check : ExecutedCheck ← Prog.ask RoundOp.actionExecuted
  if check.executed then recover action check.txid
  else drive threshold operators action signers

end

/-! ## The coordinator's round -/

section Wiring

variable {P : Type} (cfg : CoordinatorConfig) (b : Broadcaster P) (action : CanonicalAction)
  (hint : Option ℕ)

/-- A call of the round as the coordinator carries it out. -/
def wire : (o : RoundOp P String) → GatewayM o.Ans
  | .actionExecuted => b.actionExecuted action
  | .buildProposal => b.buildProposal action
  | .persistFee feeMilliViz => Prog.ask (GatewayOp.store (.setFee action.id feeMilliViz))
  | .approve operatorId proposal =>
    Prog.ask (GatewayOp.approve operatorId action (b.toProposal proposal) hint)
  | .broadcast proposal signatures => b.broadcast action proposal signatures

theorem translate_pinFee (feeMilliViz : ℤ) :
    (pinFee action feeMilliViz).translate (wire b action hint) =
      Orchestrator.pinFee action feeMilliViz := by
  unfold pinFee Orchestrator.pinFee
  split_ifs
  · rfl
  · exact congrArg (Prog.call _) (funext fun r => by cases r <;> rfl)

theorem translate_askSigner (proposal : P) (signer : String) :
    (askSigner proposal signer).translate (wire b action hint) =
      (tryCatch (do
        let a : SignerReply ←
          Prog.ask (GatewayOp.approve signer action (b.toProposal proposal) hint)
        pure (some a))
      fun _ => pure none : GatewayM (Option SignerReply)) :=
  congrArg (Prog.call _) (funext fun r => by cases r <;> rfl)

theorem translate_collect (proposal : P) (signers : List String) (set : ApprovalSet) :
    (collect cfg.threshold cfg.operators action proposal signers set).translate (wire b action hint) =
      Orchestrator.collect cfg action (b.toProposal proposal) hint signers set := by
  induction signers generalizing set with
  | nil => rfl
  | cons signer rest ih =>
    unfold collect Orchestrator.collect
    rw [Prog.translate_bind, translate_askSigner]
    refine congrArg _ (funext fun reply => ?_)
    simp only [Prog.translate_ite, ih]
    rfl

theorem translate_recover (txid : Option String) :
    (recover action txid).translate (wire b action hint) = Orchestrator.recover b action txid := by
  unfold recover Orchestrator.recover
  rw [Prog.translate_bind, Prog.translate_catch]
  refine congrArg (fun p => tryCatch p _ >>= _) ?_
  refine (Prog.translate_ask_bind _ RoundOp.buildProposal _).trans ?_
  refine congrArg _ (funext fun built => ?_)
  rw [Prog.translate_bind, translate_pinFee]
  rfl

theorem translate_finish (built : BuildResult P) (set : ApprovalSet) :
    (finish action built set).translate (wire b action hint) =
      Orchestrator.finish b action built set := by
  unfold finish Orchestrator.finish
  rw [Prog.translate_catch]
  exact congrArg (fun p => tryCatch p _) (Prog.translate_ask_bind _ (RoundOp.broadcast _ _) _)

theorem translate_drive (signers : List String) :
    (drive cfg.threshold cfg.operators action signers).translate (wire b action hint) =
      Orchestrator.drive cfg b signers action hint := by
  refine (Prog.translate_ask_bind _ RoundOp.buildProposal _).trans ?_
  refine congrArg _ (funext fun built => ?_)
  rw [Prog.translate_bind, translate_pinFee]
  refine congrArg _ (funext fun _ => ?_)
  rw [Prog.translate_bind, translate_collect]
  refine congrArg _ (funext fun set => ?_)
  rw [Prog.translate_ite]
  split_ifs
  · exact translate_finish b action hint built set
  · rfl

/-- The round over a broadcaster's programs is the coordinator's. -/
theorem translate_process (signers : List String) :
    (process cfg.threshold cfg.operators action signers).translate (wire b action hint) =
      Orchestrator.process cfg b signers action hint := by
  refine (Prog.translate_ask_bind _ RoundOp.actionExecuted _).trans ?_
  refine congrArg _ (funext fun check => ?_)
  rw [Prog.translate_ite, translate_recover, translate_drive]

end Wiring

/-! ## Counting approvals -/

/-- The set after some replies. -/
def collected (operators : List String) (rs : List SignerReply) : ApprovalSet :=
  rs.foldl (ApprovalSet.add operators) []

/-- The configured operators an approval of the action came from. -/
def approvers (operators : List String) (actionId : String) (rs : List SignerReply) :
    Finset String :=
  ((rs.filter fun a => a.actionId = actionId ∧ a.operatorId ∈ operators).map
    (·.operatorId)).toFinset

section Counting

variable {operators : List String} {actionId : String}

theorem approvals_add (set : ApprovalSet) (a : SignerReply) :
    (set.add operators a).approvals actionId =
      if a.actionId = actionId ∧ a.operatorId ∈ operators ∧
          a.operatorId ∉ (set.approvals actionId).map (·.operatorId)
        then set.approvals actionId ++ [a] else set.approvals actionId := by
  unfold ApprovalSet.add ApprovalSet.approvals
  by_cases hop : a.operatorId ∈ operators
  · by_cases hid : a.actionId = actionId
    · have hiff : (set.any fun b => b.actionId = a.actionId ∧ b.operatorId = a.operatorId) = true ↔
          a.operatorId ∈ (set.filter (·.actionId = actionId)).map (·.operatorId) := by
        simp [hid, and_assoc]
      by_cases hmem : a.operatorId ∈ (set.filter (·.actionId = actionId)).map (·.operatorId)
      · rw [if_neg (not_not.2 hop), if_pos (hiff.2 hmem), if_neg (fun h => h.2.2 hmem)]
      · rw [if_neg (not_not.2 hop), if_neg (fun h => hmem (hiff.1 h)), if_pos ⟨hid, hop, hmem⟩,
          List.filter_append]
        simp [hid]
    · rw [if_neg (not_not.2 hop), if_neg (fun h : _ ∧ _ => hid h.1)]
      split_ifs
      · rfl
      · simp [List.filter_append, hid]
  · simp [hop]

theorem collected_append (rs : List SignerReply) (a : SignerReply) :
    collected operators (rs ++ [a]) = (collected operators rs).add operators a := by
  simp [collected]

theorem approvers_append (rs : List SignerReply) (a : SignerReply) :
    approvers operators actionId (rs ++ [a]) =
      if a.actionId = actionId ∧ a.operatorId ∈ operators
        then insert a.operatorId (approvers operators actionId rs)
        else approvers operators actionId rs := by
  unfold approvers
  by_cases h : a.actionId = actionId ∧ a.operatorId ∈ operators
  · ext o
    simp only [List.filter_append, List.map_append, List.toFinset_append, Finset.mem_union, if_pos h,
      Finset.mem_insert]
    simp [h, or_comm]
  · simp [List.filter_append, h]

variable (operators actionId) in
/-- The set holds one approval of each approver, as it was received. -/
theorem approvals_collected (rs : List SignerReply) :
    (((collected operators rs).approvals actionId).map (·.operatorId)).Nodup ∧
      (((collected operators rs).approvals actionId).map (·.operatorId)).toFinset =
        approvers operators actionId rs ∧
      ∀ a ∈ (collected operators rs).approvals actionId, a ∈ rs ∧ a.actionId = actionId := by
  induction rs using List.reverseRecOn with
  | nil => simp [collected, ApprovalSet.approvals, approvers]
  | append_singleton rs a ih =>
    obtain ⟨hnodup, hset, hmem⟩ := ih
    rw [collected_append, approvals_add, approvers_append, ← hset]
    by_cases hnew : a.actionId = actionId ∧ a.operatorId ∈ operators ∧
        a.operatorId ∉ ((collected operators rs).approvals actionId).map (·.operatorId)
    · rw [if_pos hnew, if_pos ⟨hnew.1, hnew.2.1⟩]
      refine ⟨?_, ?_, ?_⟩
      · rw [List.map_append, List.map_singleton, List.nodup_append]
        refine ⟨hnodup, List.nodup_singleton _, ?_⟩
        rintro o ho o' ho' rfl
        rw [List.mem_singleton] at ho'
        exact hnew.2.2 (ho' ▸ ho)
      · ext o
        simp [or_comm]
      · intro c hc
        rcases List.mem_append.1 hc with hc | hc
        · exact ⟨List.mem_append_left _ (hmem c hc).1, (hmem c hc).2⟩
        · rw [List.mem_singleton.1 hc]
          exact ⟨by simp, hnew.1⟩
    · rw [if_neg hnew]
      refine ⟨hnodup, ?_, fun c hc => ⟨List.mem_append_left _ (hmem c hc).1, (hmem c hc).2⟩⟩
      by_cases hin : a.actionId = actionId ∧ a.operatorId ∈ operators
      · rw [if_pos hin, Finset.insert_eq_of_mem]
        rw [List.mem_toFinset]
        by_contra hout
        exact hnew ⟨hin.1, hin.2, hout⟩
      · rw [if_neg hin]

variable (operators actionId) in
theorem isMet_collected (threshold : ℕ) (rs : List SignerReply) :
    (collected operators rs).isMet actionId threshold = true ↔
      threshold ≤ (approvers operators actionId rs).card := by
  obtain ⟨hnodup, hset, -⟩ := approvals_collected operators actionId rs
  unfold ApprovalSet.isMet
  rw [decide_eq_true_eq, ← hset, List.toFinset_card_of_nodup hnodup, List.length_map]

end Counting

/-! ## The events of a round -/

section Round

variable {P S : Type}

/-- The reply a call to a signer brought. -/
def replyOf : RoundEvent P S → Option SignerReply
  | ⟨.approve _ _, .ok a⟩ => some a
  | _ => none

/-- The replies received. -/
def replies (es : List (RoundEvent P S)) : List SignerReply := es.filterMap replyOf

@[simp] theorem replies_append (es fs : List (RoundEvent P S)) :
    replies (es ++ fs) = replies es ++ replies fs := List.filterMap_append

def isApprove (e : RoundEvent P S) : Bool :=
  match e.op with
  | .approve .. => true
  | _ => false

def isBroadcast (e : RoundEvent P S) : Bool :=
  match e.op with
  | .broadcast .. => true
  | _ => false

def IsPersistFee (feeMilliViz : ℤ) (e : RoundEvent P S) : Prop := e.op = .persistFee feeMilliViz

theorem replyOf_of_not_approve {e : RoundEvent P S} (h : isApprove e = false) :
    replyOf e = none := by
  rcases e with ⟨o, x⟩
  cases o <;> first | rfl | simp [isApprove] at h

theorem not_broadcast_of_approve {e : RoundEvent P S} (h : isApprove e = true) :
    isBroadcast e = false := by
  rcases e with ⟨o, x⟩
  cases o <;> first | rfl | simp [isApprove] at h

theorem replies_of_not_approve {es : List (RoundEvent P S)} (h : ∀ e ∈ es, isApprove e = false) :
    replies es = [] :=
  List.filterMap_eq_nil_iff.2 fun e he => replyOf_of_not_approve (h e he)

variable {σ : Type} {exec : (o : RoundOp P S) → σ → σ × Except String o.Ans} {threshold : ℕ}
  {operators : List String} {action : CanonicalAction}

variable (P S exec action) in
theorem events_pinFee (feeMilliViz : ℤ) (s : σ) :
    ∃ t, (pinFee action feeMilliViz : RoundM P S Unit).eval exec s = (t, .ok ()) ∧
      (∀ e ∈ (pinFee action feeMilliViz : RoundM P S Unit).events exec s,
        IsPersistFee feeMilliViz e) ∧
      (action.direction = .known .pegIn → 0 < feeMilliViz →
        (pinFee action feeMilliViz : RoundM P S Unit).events exec s ≠ []) := by
  unfold pinFee
  split_ifs with h
  · refine ⟨s, rfl, by simp, fun hdir hpos => ?_⟩
    rcases h with h | h
    · exact absurd hdir h
    · omega
  · have hask := Prog.eval_ask exec (RoundOp.persistFee feeMilliViz) s
    rcases hx : exec (RoundOp.persistFee feeMilliViz) s with ⟨t, e | u⟩
    · rw [hx] at hask
      refine ⟨t, Prog.eval_catch_error hask _, ?_, ?_⟩ <;>
        rw [Prog.events_catch_error hask, Prog.events_ask]
      · simp [IsPersistFee]
      · simp
    · rw [hx] at hask
      refine ⟨t, Prog.eval_catch_ok hask _, ?_, ?_⟩ <;>
        rw [Prog.events_catch_ok hask, Prog.events_ask]
      · simp [IsPersistFee]
      · simp

variable (exec) in
theorem events_askSigner (proposal : P) (signer : S) (s : σ) :
    ∃ t x, (askSigner proposal signer).eval exec s = (t, .ok (replyOf ⟨.approve signer proposal, x⟩)) ∧
      (askSigner proposal signer).events exec s = [⟨.approve signer proposal, x⟩] := by
  refine ⟨(exec (.approve signer proposal) s).1, (exec (.approve signer proposal) s).2, ?_⟩
  unfold askSigner
  have hask := Prog.eval_ask exec (RoundOp.approve signer proposal) s
  rcases hx : exec (RoundOp.approve signer proposal) s with ⟨t, e | a⟩
  · rw [hx] at hask
    have hbind := Prog.eval_bind_error hask fun a : SignerReply =>
      (pure (some a) : RoundM P S (Option SignerReply))
    refine ⟨Prog.eval_catch_error hbind _, ?_⟩
    rw [Prog.events_catch_error hbind, Prog.events_bind_error hask, Prog.events_ask, hx,
      Prog.events_pure, List.append_nil]
  · rw [hx] at hask
    have hbind : (Prog.ask (RoundOp.approve signer proposal) >>= fun a : SignerReply =>
        (pure (some a) : RoundM P S (Option SignerReply))).eval exec s = (t, .ok (some a)) :=
      Prog.eval_bind_ok exec hask _
    refine ⟨Prog.eval_catch_ok hbind _, ?_⟩
    rw [Prog.events_catch_ok hbind, Prog.events_bind_ok hask, Prog.events_ask, hx,
      Prog.events_pure, List.append_nil]

variable (exec threshold operators action) in
/-- The signers are asked one after the other while the threshold is not met. -/
theorem events_collect (proposal : P) (signers : List S) (set : ApprovalSet) (s : σ) :
    ∃ t es, (collect threshold operators action proposal signers set).eval exec s =
        (t, .ok ((replies es).foldl (ApprovalSet.add operators) set)) ∧
      (collect threshold operators action proposal signers set).events exec s = es ∧
      (∀ e ∈ es, isApprove e = true) ∧
      ∀ pre e post, es = pre ++ e :: post → pre ≠ [] →
        ((replies pre).foldl (ApprovalSet.add operators) set).isMet action.id threshold = false := by
  induction signers generalizing set s with
  | nil => exact ⟨s, [], rfl, rfl, by simp, by simp⟩
  | cons signer rest ih =>
    obtain ⟨t, x, heval, hevents⟩ := events_askSigner exec proposal signer s
    have hfold : (replies [(⟨.approve signer proposal, x⟩ : RoundEvent P S)]).foldl
        (ApprovalSet.add operators) set =
        (replyOf ⟨.approve signer proposal, x⟩).elim set (set.add operators) := by
      rcases x with e | a <;> rfl
    rw [collect, Prog.eval_bind_ok exec heval, Prog.events_bind_ok heval, hevents, ← hfold]
    by_cases hmet : ((replies [(⟨.approve signer proposal, x⟩ : RoundEvent P S)]).foldl
        (ApprovalSet.add operators) set).isMet action.id threshold = true
    · rw [if_pos hmet]
      refine ⟨t, _, rfl, rfl, by simp [isApprove], fun pre e post hsplit hne => ?_⟩
      have hlen := congrArg List.length hsplit
      have hpos := List.length_pos_of_ne_nil hne
      simp only [List.length_append, List.length_cons, List.length_nil] at hlen
      omega
    · rw [if_neg hmet]
      obtain ⟨t', es, heval', hevents', hall, hunmet⟩ := ih ((replies
        [(⟨.approve signer proposal, x⟩ : RoundEvent P S)]).foldl (ApprovalSet.add operators) set) t
      refine ⟨t', ⟨.approve signer proposal, x⟩ :: es, ?_, by rw [hevents']; rfl, ?_, ?_⟩
      · rw [heval', ← List.foldl_append, ← replies_append]
        rfl
      · rintro e (_ | ⟨_, he⟩)
        · rfl
        · exact hall e he
      · intro pre e post hsplit hne
        obtain ⟨e', pre, rfl⟩ := List.exists_cons_of_ne_nil hne
        simp only [List.cons_append, List.cons.injEq] at hsplit
        obtain ⟨rfl, hsplit⟩ := hsplit
        rw [← List.singleton_append, replies_append, List.foldl_append]
        rcases pre with _ | ⟨e'', pre⟩
        · exact Bool.eq_false_iff.2 hmet
        · exact hunmet _ e post hsplit (List.cons_ne_nil _ _)

variable (exec action) in
theorem events_finish (built : BuildResult P) (set : ApprovalSet) (s : σ) :
    ∃ x, (finish action built set : RoundM P S DeliveryResult).events exec s =
      [⟨.broadcast built.proposal ((set.approvals action.id).map (·.signature)), x⟩] := by
  unfold finish
  have hask := Prog.eval_ask exec
    (RoundOp.broadcast built.proposal ((set.approvals action.id).map (·.signature)) : RoundOp P S) s
  rcases hx : exec (RoundOp.broadcast built.proposal
    ((set.approvals action.id).map (·.signature))) s with ⟨t, e | txid⟩
  · rw [hx] at hask
    refine ⟨.error e, ?_⟩
    rw [Prog.events_catch_error (Prog.eval_bind_error hask _), Prog.events_bind_error hask,
      Prog.events_ask, hx, Prog.events_pure, List.append_nil]
  · rw [hx] at hask
    refine ⟨.ok txid, ?_⟩
    rw [Prog.events_catch_ok (Prog.eval_bind_ok exec hask _), Prog.events_bind_ok hask, Prog.events_ask,
      hx, Prog.events_pure, List.append_nil]

/-- What a round of an action that is not executed does once its proposal is built: it pins the fee,
asks the signers, and broadcasts if the replies make up the threshold. -/
structure RoundShape (threshold : ℕ) (operators : List String) (action : CanonicalAction)
    (built : BuildResult P) (pins asks ends : List (RoundEvent P S)) : Prop where
  persist : ∀ e ∈ pins, IsPersistFee built.feeMilliViz e
  pinned : action.direction = .known .pegIn → 0 < built.feeMilliViz → pins ≠ []
  approve : ∀ e ∈ asks, isApprove e = true
  unmet : ∀ pre e post, asks = pre ++ e :: post →
    (collected operators (replies pre)).isMet action.id threshold = false
  broadcast : if (collected operators (replies asks)).isMet action.id threshold then
      ∃ x, ends = [⟨.broadcast built.proposal
        (((collected operators (replies asks)).approvals action.id).map (·.signature)), x⟩]
    else ends = []

variable (exec operators action) in
theorem events_drive (hT : 0 < threshold) (signers : List S) (s : σ) :
    (∃ e, (drive threshold operators action signers : RoundM P S DeliveryResult).events exec s =
      [⟨.buildProposal, .error e⟩]) ∨
    ∃ built pins asks ends,
      (drive threshold operators action signers : RoundM P S DeliveryResult).events exec s =
        ⟨.buildProposal, .ok built⟩ :: pins ++ (asks ++ ends) ∧
      RoundShape threshold operators action built pins asks ends := by
  have hask := Prog.eval_ask exec (RoundOp.buildProposal : RoundOp P S) s
  unfold drive
  rcases hx : exec (RoundOp.buildProposal : RoundOp P S) s with ⟨t, e | built⟩
  · rw [hx] at hask
    refine .inl ⟨e, ?_⟩
    rw [Prog.events_bind_error hask, Prog.events_ask, hx]
  · rw [hx] at hask
    obtain ⟨t₁, hpin, hpins, hpinned⟩ :=
      events_pinFee P S exec action built.feeMilliViz t
    obtain ⟨t₂, asks, hcollect, hasks, hall, hunmet⟩ :=
      events_collect exec threshold operators action built.proposal signers [] t₁
    have hnil : (collected operators (replies ([] : List (RoundEvent P S)))).isMet action.id
        threshold = false := by
      simp [collected, replies, ApprovalSet.isMet, ApprovalSet.approvals]
      omega
    rw [Prog.events_bind_ok hask, Prog.events_ask, hx, Prog.events_bind_ok hpin,
      Prog.events_bind_ok hcollect, hasks]
    refine .inr ⟨built, _, asks, _, rfl, hpins, hpinned, hall, ?_, ?_⟩
    · intro pre e post hsplit
      by_cases hne : pre = []
      · rw [hne]
        exact hnil
      · exact hunmet pre e post hsplit hne
    · by_cases hmet : (collected operators (replies asks)).isMet action.id threshold = true
      · rw [if_pos hmet]
        obtain ⟨x, hend⟩ := events_finish (S := S) exec action built
          (collected operators (replies asks)) t₂
        refine ⟨x, ?_⟩
        rw [← hend]
        exact congrArg (fun p => Prog.events exec p t₂) (if_pos hmet)
      · rw [if_neg hmet]
        exact congrArg (fun p => Prog.events exec p t₂) (if_neg hmet)

/-- One broadcast at most, exactly with the threshold's approvals received, with one signature of
each approver; no call to a signer after that; and the fee pinned before. -/
structure KeepsQuorum (threshold : ℕ) (operators : List String) (action : CanonicalAction)
    (es : List (RoundEvent P S)) : Prop where
  once : es.countP isBroadcast ≤ 1
  quorum : (∃ e ∈ es, isBroadcast e = true) ↔
    threshold ≤ (approvers operators action.id (replies es)).card
  signatures : ∀ e ∈ es, ∀ proposal signatures, e.op = .broadcast proposal signatures →
    ∃ picks : List SignerReply, signatures = picks.map (·.signature) ∧
      (picks.map (·.operatorId)).Nodup ∧
      (picks.map (·.operatorId)).toFinset = approvers operators action.id (replies es) ∧
      ∀ a ∈ picks, a ∈ replies es ∧ a.actionId = action.id
  stops : ∀ pre e post, es = pre ++ e :: post → isApprove e = true →
    (approvers operators action.id (replies pre)).card < threshold
  pinned : ∀ pre e post, es = pre ++ e :: post → isBroadcast e = true →
    action.direction = .known .pegIn → ∀ built, ⟨.buildProposal, .ok built⟩ ∈ pre →
      0 < built.feeMilliViz → ∃ e' ∈ pre, IsPersistFee built.feeMilliViz e'

/-- An event that stands in neither the front nor the back stands in the middle. -/
theorem split_middle {front mid back pre post : List (RoundEvent P S)} {e : RoundEvent P S}
    (h : front ++ (mid ++ back) = pre ++ e :: post) (hfront : e ∉ front) (hback : e ∉ back) :
    ∃ pre' post', pre = front ++ pre' ∧ mid = pre' ++ e :: post' := by
  obtain ⟨as, rfl, hmid⟩ : ∃ as, pre = front ++ as ∧ mid ++ back = as ++ e :: post := by
    rcases List.append_eq_append_iff.1 h with ⟨as, hpre, hmid⟩ | ⟨bs, rfl, hrest⟩
    · exact ⟨as, hpre, hmid⟩
    · rcases bs with _ | ⟨c, bs⟩
      · exact ⟨[], by simp, by simpa using hrest.symm⟩
      · simp only [List.cons_append, List.cons.injEq] at hrest
        exact absurd (by simp [hrest.1]) hfront
  rcases List.append_eq_append_iff.1 hmid with ⟨cs, rfl, hend⟩ | ⟨cs, rfl, hend⟩
  · exact absurd (by simp [hend]) hback
  · rcases cs with _ | ⟨c, cs⟩
    · exact absurd (by simp [show back = e :: post from hend.symm]) hback
    · simp only [List.cons_append, List.cons.injEq] at hend
      exact ⟨as, cs, rfl, by rw [hend.1]⟩

/-- A round of the shape keeps the quorum. -/
theorem RoundShape.keepsQuorum {built : BuildResult P} {check : ExecutedCheck}
    {pins asks ends : List (RoundEvent P S)}
    (h : RoundShape threshold operators action built pins asks ends) :
    KeepsQuorum threshold operators action
      ((⟨.actionExecuted, .ok check⟩ :: ⟨.buildProposal, .ok built⟩ :: pins) ++ (asks ++ ends)) := by
  have hpin : ∀ e ∈ pins, isApprove e = false ∧ isBroadcast e = false := by
    intro e he
    have := h.persist e he
    unfold IsPersistFee at this
    simp [isApprove, isBroadcast, this]
  generalize hfront : (⟨.actionExecuted, .ok check⟩ :: ⟨.buildProposal, .ok built⟩ :: pins :
    List (RoundEvent P S)) = front
  have hfrontOps : ∀ e ∈ front, isApprove e = false ∧ isBroadcast e = false := by
    rw [← hfront]
    rintro e (_ | ⟨_, _ | ⟨_, he⟩⟩)
    · exact ⟨rfl, rfl⟩
    · exact ⟨rfl, rfl⟩
    · exact hpin e he
  have hendOps : ∀ e ∈ ends, isApprove e = false ∧ isBroadcast e = true := by
    have := h.broadcast
    split_ifs at this
    · obtain ⟨x, rfl⟩ := this
      simp [isApprove, isBroadcast]
    · rw [this]
      simp
  have hreplies : ∀ l, replies (front ++ l) = replies l := fun l => by
    rw [replies_append, replies_of_not_approve fun e he => (hfrontOps e he).1, List.nil_append]
  have hall : replies (front ++ (asks ++ ends)) = replies asks := by
    rw [hreplies, replies_append, replies_of_not_approve fun e he => (hendOps e he).1,
      List.append_nil]
  have hmet := isMet_collected operators action.id threshold (replies asks)
  have hask : ∀ e ∈ asks, isBroadcast e = false := fun e he =>
    not_broadcast_of_approve (h.approve e he)
  have hmem : ∀ e ∈ front ++ (asks ++ ends), isBroadcast e = true → e ∈ ends := by
    intro e he hb
    rcases List.mem_append.1 he with he | he
    · simp [(hfrontOps e he).2] at hb
    · rcases List.mem_append.1 he with he | he
      · simp [hask e he] at hb
      · exact he
  have hends : ends ≠ [] ↔ threshold ≤ (approvers operators action.id (replies asks)).card := by
    rw [← hmet]
    have := h.broadcast
    split_ifs at this with hm
    · obtain ⟨x, rfl⟩ := this
      simp [hm]
    · simp [this, hm]
  refine ⟨?_, ?_, ?_, ?_, ?_⟩
  · have hlen : ends.length ≤ 1 := by
      have := h.broadcast
      split_ifs at this
      · obtain ⟨x, rfl⟩ := this
        simp
      · simp [this]
    rw [List.countP_append, List.countP_append,
      List.countP_eq_zero.2 fun e he => by simp [(hfrontOps e he).2],
      List.countP_eq_zero.2 fun e he => by simp [hask e he]]
    have := List.countP_le_length (p := isBroadcast) (l := ends)
    omega
  · rw [hall, ← hends]
    constructor
    · rintro ⟨e, he, hb⟩
      exact List.ne_nil_of_mem (hmem e he hb)
    · intro hne
      obtain ⟨e, he⟩ := List.exists_mem_of_ne_nil _ hne
      exact ⟨e, by simp [he], (hendOps e he).2⟩
  · intro e he proposal signatures hop
    have hin := hmem e he (by simp [isBroadcast, hop])
    rw [hall]
    have := h.broadcast
    split_ifs at this with hm
    · obtain ⟨x, rfl⟩ := this
      obtain ⟨hnodup, hset, hpicks⟩ :=
        approvals_collected operators action.id (replies asks)
      rw [List.mem_singleton] at hin
      subst hin
      cases hop
      exact ⟨_, rfl, hnodup, hset, hpicks⟩
    · rw [this] at hin
      cases hin
  · intro pre e post hsplit ha
    obtain ⟨pre', post', rfl, hasks⟩ := split_middle hsplit
      (fun he => by simp [(hfrontOps e he).1] at ha) (fun he => by simp [(hendOps e he).1] at ha)
    rw [hreplies]
    have := isMet_collected operators action.id threshold (replies pre')
    rw [h.unmet pre' e post' hasks] at this
    simpa using this
  · intro pre e post hsplit hb hdir built' hbuilt' hpos
    rw [← List.append_assoc, ← List.append_nil ends] at hsplit
    obtain ⟨pre', post', rfl, hend⟩ := split_middle hsplit (by
      intro he
      rcases List.mem_append.1 he with he | he
      · simp [(hfrontOps e he).2] at hb
      · simp [hask e he] at hb) (by simp)
    have heq : built' = built := by
      rcases List.mem_append.1 hbuilt' with hin | hin
      · rcases List.mem_append.1 hin with hin | hin
        · rw [← hfront] at hin
          simp only [List.mem_cons, Prog.Event.mk.injEq, reduceCtorEq, false_and, false_or,
            true_and, heq_eq_eq, Except.ok.injEq] at hin
          rcases hin with hin | hin
          · exact hin
          · exact absurd (h.persist _ hin) (by simp [IsPersistFee])
        · exact absurd (h.approve _ hin) (by simp [isApprove])
      · have := (hendOps ⟨.buildProposal, .ok built'⟩ (by rw [hend]; simp [hin])).2
        simp [isBroadcast] at this
    subst heq
    obtain ⟨e', he'⟩ := List.exists_mem_of_ne_nil _ (h.pinned hdir hpos)
    exact ⟨e', by simp [← hfront, he'], h.persist e' he'⟩

/-- Before any signer is asked there is nothing to broadcast. -/
theorem keepsQuorum_of_quiet (hT : 0 < threshold) {es : List (RoundEvent P S)}
    (h : ∀ e ∈ es, isApprove e = false ∧ isBroadcast e = false) :
    KeepsQuorum threshold operators action es := by
  have hreplies := replies_of_not_approve fun e he => (h e he).1
  have hnot : ∀ e ∈ es, isBroadcast e ≠ true := fun e he => by simp [(h e he).2]
  refine ⟨?_, ?_, ?_, ?_, ?_⟩
  · rw [List.countP_eq_zero.2 hnot]
    omega
  · rw [hreplies]
    refine iff_of_false (fun ⟨e, he, hb⟩ => hnot e he hb) ?_
    simp [approvers]
    omega
  · intro e he proposal signatures hop
    exact absurd (by simp [isBroadcast, hop]) (hnot e he)
  · intro pre e post hsplit ha
    simp [(h e (by simp [hsplit])).1] at ha
  · intro pre e post hsplit hb
    exact absurd hb (hnot e (by simp [hsplit]))

end Round

end OrchestratorRound

open OrchestratorRound

/-- A round of an action that is not executed keeps the quorum, whatever its broadcaster and its
signers do. -/
theorem orchestrator_quorum {P S σ : Type} (exec : (o : RoundOp P S) → σ → σ × Except String o.Ans)
    (s : σ) (threshold : ℕ) (operators : List String) (action : CanonicalAction) (signers : List S)
    (hT : 0 < threshold) (hnew : ∀ check, (exec .actionExecuted s).2 = .ok check →
      check.executed = false) :
    KeepsQuorum threshold operators action
      ((process threshold operators action signers).events exec s) := by
  have hask := Prog.eval_ask exec (RoundOp.actionExecuted : RoundOp P S) s
  unfold process
  rcases hx : exec (RoundOp.actionExecuted : RoundOp P S) s with ⟨t, e | check⟩
  · rw [hx] at hask
    rw [Prog.events_bind_error hask, Prog.events_ask, hx]
    exact keepsQuorum_of_quiet hT (by simp [isApprove, isBroadcast])
  · rw [hx] at hask
    have hexec : check.executed = false := hnew check (by rw [hx])
    rw [Prog.events_bind_ok hask, Prog.events_ask, hx, hexec]
    rcases events_drive exec operators action hT signers t with
      ⟨e, hevents⟩ | ⟨built, pins, asks, ends, hevents, hshape⟩
    · simp only [Bool.false_eq_true, if_false]
      rw [hevents]
      exact keepsQuorum_of_quiet hT (by simp [isApprove, isBroadcast])
    · simp only [Bool.false_eq_true, if_false]
      rw [hevents]
      exact hshape.keepsQuorum

/-- Every signer approves under its own name. -/
def everyoneApproves : (o : RoundOp Unit String) → Unit → Unit × Except String o.Ans
  | .actionExecuted, s => (s, .ok { executed := false })
  | .buildProposal, s => (s, .ok ⟨(), 5⟩)
  | .persistFee _, s => (s, .ok ())
  | .approve signer _, s => (s, .ok ⟨"t:0", signer, signer ++ "'s signature"⟩)
  | .broadcast .., s => (s, .ok "txid")

def sampleMint : CanonicalAction := ⟨.known .pegIn, some (.known .gram), "t:0", "recipient", 10, ""⟩

/-- A repeated and a foreign operator on the way to two of two; the last signer is not asked. -/
theorem orchestrator_quorum_sample :
    KeepsQuorum 2 ["op1", "op2"] sampleMint
      ((process 2 ["op1", "op2"] sampleMint ["op1", "op1", "op3", "op2", "op1"]).events
        everyoneApproves ()) ∧
    ((process 2 ["op1", "op2"] sampleMint ["op1", "op1", "op3", "op2", "op1"]).events
      everyoneApproves ()).countP isApprove = 4 :=
  ⟨orchestrator_quorum everyoneApproves () 2 ["op1", "op2"] sampleMint _ (by decide)
    (fun _ h => by cases h; rfl), by decide +kernel⟩

end VizGateway
