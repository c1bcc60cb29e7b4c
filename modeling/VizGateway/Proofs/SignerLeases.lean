import VizGateway.Lib.Runs
import VizGateway.SignerRegistry

/-!
# Who is listed

A nonce in the map was issued to the operator it stands for and has brought no registration yet,
and taking it out before anything else makes it bring one at most. A registration is held under the
id its key is listed for; the list goes through the manifest and leaves out what has run out.
-/

namespace VizGateway

open Checks

/-- The nonce a call drew. -/
def drawn : RegistryCall × RegistryReply → Option String
  | (.issueChallenge _ _ _, .challenge (.ok nonce)) => some nonce
  | _ => none

/-- A registration made with the nonce. -/
def registeredWith (nonce : String) : RegistryCall × RegistryReply → Bool
  | (.register _ _ used _ _ _, .registration (.ok _)) => used == nonce
  | _ => false

section

variable (cfg : RegistryConfig) (verifies : String → String → String → Prop)

/-- The nonce was issued to the operator at that time. -/
def Issued (log : List (RegistryCall × RegistryReply)) (operatorId nonce : String) (t : ℤ) : Prop :=
  (.issueChallenge operatorId nonce t, .challenge (.ok nonce)) ∈ log

/-- The registration was made with a nonce issued to its operator before and not expired, signed
together with operator and address by a key the manifest lists for the operator. -/
def MadeWith (log : List (RegistryCall × RegistryReply)) (reg : Registration) (nonce : String) :
    Prop :=
  ∃ sigHex t t' issuedAt key earlier later,
    log = earlier ++ (.register reg.operatorId reg.url nonce sigHex t t',
      .registration (.ok reg)) :: later ∧
    Issued earlier reg.operatorId nonce issuedAt ∧ t ≤ issuedAt + cfg.nonceTtlMs ∧
    reg.expiresAt = t' + cfg.leaseMs ∧
    verifies key (challengeMessage reg.operatorId reg.url nonce) sigHex ∧
    ∃ o ∈ cfg.operators, o.id = reg.operatorId ∧ o.vizPubkey = key

/-- What the maps hold of what has been asked and answered. -/
structure Accounted (w : RegistryRun) : Prop where
  issued : ∀ nonce record, w.registry.nonces nonce = some record →
    ∃ t, Issued w.log record.operatorId nonce t ∧ record.expiresAt = t + cfg.nonceTtlMs ∧
      w.log.countP (registeredWith nonce) = 0
  drawn_of_used : ∀ nonce, 0 < w.log.countP (registeredWith nonce) → nonce ∈ w.log.filterMap drawn
  once : ∀ nonce, w.log.countP (registeredWith nonce) ≤ 1
  held : ∀ id reg, w.registry.byId id = some reg →
    reg.operatorId = id ∧ ∃ nonce, MadeWith cfg verifies w.log reg nonce

end

variable {cfg : RegistryConfig} {recoverPublicKey : String → String → Except String String}
  {verifies : String → String → String → Prop} {log more : List (RegistryCall × RegistryReply)} {w : RegistryRun}

theorem Issued.append {operatorId nonce : String} {t : ℤ} (h : Issued log operatorId nonce t) :
    Issued (log ++ more) operatorId nonce t :=
  List.mem_append_left _ h

theorem MadeWith.append {reg : Registration} {nonce : String}
    (h : MadeWith cfg verifies log reg nonce) :
    MadeWith cfg verifies (log ++ more) reg nonce := by
  obtain ⟨sigHex, t, t', issuedAt, key, earlier, later, rfl, hrest⟩ := h
  refine ⟨sigHex, t, t', issuedAt, key, earlier, later ++ more, ?_, hrest⟩
  rw [List.append_assoc, List.cons_append]

theorem mem_of_idOfPubkey {key id : String} (h : cfg.idOfPubkey key = some id) :
    ∃ o ∈ cfg.operators, o.id = id ∧ o.vizPubkey = key := by
  rw [RegistryConfig.idOfPubkey, Option.map_eq_some_iff] at h
  obtain ⟨o, ho, rfl⟩ := h
  have hkey := List.find?_some ho
  rw [Bool.and_eq_true, beq_iff_eq] at hkey
  exact ⟨o, List.mem_reverse.1 (List.mem_of_find?_eq_some ho), rfl, hkey.2⟩

theorem checkRegistration_eq_ok {operatorId url nonce sigHex : String}
    {record : Option NonceRecord} {t : ℤ} {u : Unit}
    (h : checkRegistration cfg recoverPublicKey operatorId url nonce sigHex record t = .ok u) :
    ∃ expiresAt key, record = some ⟨operatorId, expiresAt⟩ ∧ t ≤ expiresAt ∧
      recoverPublicKey (challengeMessage operatorId url nonce) sigHex = .ok key ∧
      ∃ o ∈ cfg.operators, o.id = operatorId ∧ o.vizPubkey = key := by
  simp only [checkRegistration, recoverChallengeSigner, bind_eq_ok, found_eq_ok, require_eq_ok,
    mapError_eq_ok, Option.filter_eq_some_iff] at h
  obtain ⟨record, rfl, -, rfl, -, hlive, key, hkey, id, ⟨hid, -⟩, rfl⟩ := h
  exact ⟨record.expiresAt, key, rfl, by omega, hkey, mem_of_idOfPubkey hid⟩

/-! ## One call -/

theorem accounted_start : Accounted cfg verifies .start where
  issued _ _ h := by cases h
  drawn_of_used _ h := by cases h
  once _ := Nat.zero_le _
  held _ _ h := by cases h

/-- A call that registers nothing. -/
theorem countP_append_of_not {e : RegistryCall × RegistryReply} {nonce : String}
    (h : registeredWith nonce e = false) :
    (log ++ [e]).countP (registeredWith nonce) = log.countP (registeredWith nonce) := by
  rw [List.countP_append, List.countP_singleton, h]
  rfl

/-- A call that registers nothing and only takes things out of the maps. -/
theorem Accounted.append (h : Accounted cfg verifies w) {s : SignerRegistry}
    {e : RegistryCall × RegistryReply} (he : ∀ nonce, registeredWith nonce e = false)
    (hnonces : ∀ nonce record, s.nonces nonce = some record → w.registry.nonces nonce = some record)
    (hbyId : ∀ id reg, s.byId id = some reg → w.registry.byId id = some reg) :
    Accounted cfg verifies ⟨s, w.log ++ [e]⟩ where
  issued nonce record hn := by
    obtain ⟨t, hissued, hexp, hcount⟩ := h.issued nonce record (hnonces nonce record hn)
    exact ⟨t, hissued.append, hexp, (countP_append_of_not (he nonce)).trans hcount⟩
  drawn_of_used nonce hpos := by
    rw [countP_append_of_not (he nonce)] at hpos
    rw [List.filterMap_append]
    exact List.mem_append_left _ (h.drawn_of_used nonce hpos)
  once nonce := (countP_append_of_not (he nonce)).trans_le (h.once nonce)
  held id reg hreg := by
    obtain ⟨hid, nonce, hmade⟩ := h.held id reg (hbyId id reg hreg)
    exact ⟨hid, nonce, hmade.append⟩

theorem accounted_issueChallenge (h : Accounted cfg verifies w) {operatorId nonce : String}
    {t : ℤ} (hfresh : nonce ∉ w.log.filterMap drawn) :
    Accounted cfg verifies
      (w.step cfg recoverPublicKey (.issueChallenge operatorId nonce t)) := by
  simp only [RegistryRun.step, SignerRegistry.answer, issueChallenge]
  split_ifs with hknown
  · have hzero : w.log.countP (registeredWith nonce) = 0 := by
      by_contra hpos
      exact hfresh (h.drawn_of_used nonce (by omega))
    refine ⟨fun n record hn => ?_, fun n hpos => ?_, fun n => ?_, fun id reg hreg => ?_⟩
    · rw [countP_append_of_not rfl]
      by_cases hself : n = nonce
      · subst hself
        simp only [Function.update_self, Option.some.injEq] at hn
        subst hn
        exact ⟨t, List.mem_append_right _ List.mem_cons_self, rfl, hzero⟩
      · simp only [Function.update_of_ne hself, Option.filter_eq_some_iff] at hn
        obtain ⟨t', hissued, hexp, hcount⟩ := h.issued n record hn.1
        exact ⟨t', hissued.append, hexp, hcount⟩
    · rw [countP_append_of_not rfl] at hpos
      rw [List.filterMap_append]
      exact List.mem_append_left _ (h.drawn_of_used n hpos)
    · rw [countP_append_of_not rfl]
      exact h.once n
    · obtain ⟨hid, nonce', hmade⟩ := h.held id reg hreg
      exact ⟨hid, nonce', hmade.append⟩
  · exact h.append (fun _ => rfl) (fun _ _ hn => hn) fun _ _ hreg => hreg

section

variable (hrecover : ∀ message sigHex key, recoverPublicKey message sigHex = .ok key →
  verifies key message sigHex)

include hrecover

theorem accounted_register (h : Accounted cfg verifies w)
    {operatorId url nonce sigHex : String} {t t' : ℤ} :
    Accounted cfg verifies
      (w.step cfg recoverPublicKey (.register operatorId url nonce sigHex t t')) := by
  have htaken : ∀ n record, Function.update w.registry.nonces nonce none n = some record →
      n ≠ nonce ∧ w.registry.nonces n = some record := by
    intro n record hn
    by_cases hself : n = nonce
    · rw [hself, Function.update_self] at hn
      cases hn
    · rw [Function.update_of_ne hself] at hn
      exact ⟨hself, hn⟩
  simp only [RegistryRun.step, SignerRegistry.answer, register]
  split
  · exact h.append (fun _ => rfl) (fun n record hn => (htaken n record hn).2) fun _ _ hreg => hreg
  · next hok =>
    obtain ⟨expiresAt, key, hrecord, hlive, hkey, hlisted⟩ := checkRegistration_eq_ok hok
    obtain ⟨issuedAt, hissued, hexp, hzero⟩ := h.issued nonce _ hrecord
    have hcount : ∀ n, (w.log ++ [(RegistryCall.register operatorId url nonce sigHex t t',
          RegistryReply.registration (.ok ⟨operatorId, url, t' + cfg.leaseMs⟩))]).countP
            (registeredWith n) = w.log.countP (registeredWith n) + if nonce = n then 1 else 0 := by
      intro n
      rw [List.countP_append, List.countP_singleton]
      simp [registeredWith]
    refine ⟨fun n record hn => ?_, fun n hpos => ?_, fun n => ?_, fun id reg hreg => ?_⟩
    · obtain ⟨hne, hn⟩ := htaken n record hn
      obtain ⟨t, hissued, hexp, hzero⟩ := h.issued n record hn
      refine ⟨t, hissued.append, hexp, ?_⟩
      rw [hcount, hzero, if_neg (Ne.symm hne)]
    · rw [List.filterMap_append]
      refine List.mem_append_left _ ?_
      by_cases hself : nonce = n
      · rw [← hself]
        exact List.mem_filterMap.2 ⟨_, hissued, rfl⟩
      · rw [hcount, if_neg hself] at hpos
        exact h.drawn_of_used n hpos
    · rw [hcount]
      have := h.once n
      split_ifs with hself
      · rw [← hself, hzero]
      · omega
    · by_cases hself : id = operatorId
      · subst hself
        simp only [Function.update_self, Option.some.injEq] at hreg
        subst hreg
        exact ⟨rfl, nonce, sigHex, t, t', issuedAt, key, w.log, [], rfl, hissued, hexp ▸ hlive, rfl,
          hrecover _ _ _ hkey, hlisted⟩
      · simp only [Function.update_of_ne hself] at hreg
        obtain ⟨hid, nonce', hmade⟩ := h.held id reg hreg
        exact ⟨hid, nonce', hmade.append⟩

theorem accounted_step (h : Accounted cfg verifies w) (c : RegistryCall)
    (hfresh : ((w.step cfg recoverPublicKey c).log.filterMap drawn).Nodup) :
    Accounted cfg verifies (w.step cfg recoverPublicKey c) := by
  cases c with
  | issueChallenge operatorId nonce t =>
    by_cases hknown : operatorId ∈ cfg.operators.map (·.id)
    · refine accounted_issueChallenge h fun hmem => ?_
      simp only [RegistryRun.step, SignerRegistry.answer, issueChallenge, if_pos hknown,
        List.filterMap_append] at hfresh
      exact (List.nodup_append.1 hfresh).2.2 nonce hmem nonce (by simp [drawn]) rfl
    · simp only [RegistryRun.step, SignerRegistry.answer, issueChallenge, if_neg hknown]
      exact h.append (fun _ => rfl) (fun _ _ hn => hn) fun _ _ hreg => hreg
  | register operatorId url nonce sigHex t t' => exact accounted_register hrecover h
  | live t =>
    exact h.append (fun _ => rfl) (fun _ _ hn => hn) fun _ _ hreg =>
      (Option.filter_eq_some_iff.1 hreg).1

end

/-! ## A run -/

theorem log_run (cs : List RegistryCall) :
    ∃ more, (Runs.run (RegistryRun.step cfg recoverPublicKey) w cs).log = w.log ++ more := by
  induction cs generalizing w with
  | nil => exact ⟨[], (List.append_nil _).symm⟩
  | cons c cs ih =>
    obtain ⟨more, hmore⟩ := ih (w := w.step cfg recoverPublicKey c)
    exact ⟨_, hmore.trans (List.append_assoc ..)⟩

section

variable (hrecover : ∀ message sigHex key, recoverPublicKey message sigHex = .ok key →
  verifies key message sigHex)

include hrecover

theorem accounted_run (h : Accounted cfg verifies w) (cs : List RegistryCall)
    (hfresh : ((Runs.run (RegistryRun.step cfg recoverPublicKey) w cs).log.filterMap drawn).Nodup) :
    Accounted cfg verifies (Runs.run (RegistryRun.step cfg recoverPublicKey) w cs) := by
  induction cs generalizing w with
  | nil => exact h
  | cons c cs ih =>
    refine ih (accounted_step hrecover h c ?_) hfresh
    obtain ⟨more, hmore⟩ := log_run (w := w.step cfg recoverPublicKey c) cs
    rw [Runs.run_cons, hmore, List.filterMap_append] at hfresh
    exact (List.nodup_append.1 hfresh).1

end

theorem live_eq (t : ℤ) (s : SignerRegistry) (hid : ∀ id reg, s.byId id = some reg → reg.operatorId = id) :
    ((live cfg t s).1.map (·.operatorId)).Sublist (cfg.operators.map (·.id)) ∧
      ∀ reg ∈ (live cfg t s).1, s.byId reg.operatorId = some reg ∧ t < reg.expiresAt := by
  have hone : ∀ o : OperatorRef, ∀ reg,
      (s.byId o.id).filter (fun reg => ¬ reg.expiresAt ≤ t) = some reg →
        reg.operatorId = o.id ∧ s.byId reg.operatorId = some reg ∧ t < reg.expiresAt := by
    intro o reg h
    rw [Option.filter_eq_some_iff] at h
    have hself := hid _ _ h.1
    rw [hself]
    exact ⟨rfl, h.1, by simpa using h.2⟩
  constructor
  · simp only [live]
    induction cfg.operators with
    | nil => exact List.Sublist.slnil
    | cons o rest ih =>
      rcases ho : (s.byId o.id).filter (fun reg => ¬ reg.expiresAt ≤ t) with _ | reg
      · simp only [List.filterMap_cons, ho]
        exact ih.trans (List.sublist_cons_self ..)
      · simp only [List.filterMap_cons, ho, List.map_cons, (hone o reg ho).1]
        exact ih.cons_cons _
  · intro reg hreg
    obtain ⟨o, -, ho⟩ := List.mem_filterMap.1 hreg
    exact (hone o reg ho).2

/-- Whatever was asked before and after, a listing goes through the manifest, has one registration
of an operator at most and none whose lease is over, and each was made with a nonce issued to its
operator, not expired, used for no other registration, and signed by a key of the operator. -/
theorem live_registrations (cfg : RegistryConfig)
    (recoverPublicKey : String → String → Except String String)
    (verifies : String → String → String → Prop)
    (hrecover : ∀ message sigHex key, recoverPublicKey message sigHex = .ok key →
      verifies key message sigHex)
    (pre post : List RegistryCall) (t : ℤ)
    (hdrawn : ((Runs.run (RegistryRun.step cfg recoverPublicKey) .start
      (pre ++ .live t :: post)).log.filterMap drawn).Nodup) :
    ((live cfg t (Runs.run (RegistryRun.step cfg recoverPublicKey) .start pre).registry).1.map
      (·.operatorId)).Sublist (cfg.operators.map (·.id)) ∧
    (∀ reg ∈ (live cfg t (Runs.run (RegistryRun.step cfg recoverPublicKey) .start pre).registry).1,
      ∀ reg' ∈ (live cfg t (Runs.run (RegistryRun.step cfg recoverPublicKey) .start pre).registry).1,
        reg.operatorId = reg'.operatorId → reg = reg') ∧
    ∀ reg ∈ (live cfg t (Runs.run (RegistryRun.step cfg recoverPublicKey) .start pre).registry).1,
      t < reg.expiresAt ∧ ∃ nonce,
        MadeWith cfg verifies (Runs.run (RegistryRun.step cfg recoverPublicKey) .start pre).log reg
          nonce ∧
        (Runs.run (RegistryRun.step cfg recoverPublicKey) .start
          (pre ++ .live t :: post)).log.countP (registeredWith nonce) = 1 := by
  have hstart : Accounted cfg verifies .start := accounted_start
  have hwhole := accounted_run hrecover hstart _ hdrawn
  have hsplit := Runs.run_append (RegistryRun.step cfg recoverPublicKey) .start pre (.live t :: post)
  rw [hsplit] at hdrawn hwhole ⊢
  obtain ⟨more, hmore⟩ :
      ∃ more, (Runs.run (RegistryRun.step cfg recoverPublicKey)
        (Runs.run (RegistryRun.step cfg recoverPublicKey) .start pre) (.live t :: post)).log =
          (Runs.run (RegistryRun.step cfg recoverPublicKey) .start pre).log ++ more :=
    log_run (.live t :: post)
  rw [hmore, List.filterMap_append] at hdrawn
  have hpre := accounted_run hrecover hstart pre
    (List.nodup_append.1 hdrawn).1
  obtain ⟨hsub, hlive⟩ := live_eq t (Runs.run (RegistryRun.step cfg recoverPublicKey) .start pre).registry fun id reg h =>
    (hpre.held id reg h).1
  refine ⟨hsub, fun reg hreg reg' hreg' hid => ?_, fun reg hreg => ?_⟩
  · have h := (hlive reg hreg).1
    rw [hid, (hlive reg' hreg').1] at h
    exact (Option.some.inj h).symm
  · obtain ⟨-, nonce, hmade⟩ := hpre.held _ _ (hlive reg hreg).1
    refine ⟨(hlive reg hreg).2, nonce, hmade, Nat.le_antisymm (hwhole.once nonce) ?_⟩
    obtain ⟨sigHex, t₁, t₂, issuedAt, key, earlier, later, hlog, -⟩ := hmade
    rw [Nat.succ_le_iff, List.countP_pos_iff, hmore, hlog]
    exact ⟨_, List.mem_append_left _ (List.mem_append_right _ List.mem_cons_self),
      by simp [registeredWith]⟩

/-! One operator of two registers, and tries its nonce again. -/

private def sampleRegistryConfig : RegistryConfig where
  operators := [⟨"op-1", "VIZ81beKM3eDPMdQwNm1Nd65Pi9df5NY2MXbUypddhHg1TJM5gRBB", "aa", ""⟩,
    ⟨"op-2", "VIZ6bA3EYLcYUW4MqBnuStZr9mtifbsPu2sB8uEZmXFxzVdWZzyLa", "bb", ""⟩]
  leaseMs := 60000
  nonceTtlMs := 30000

/-- Recovery from the one signature there is. -/
private def sampleRecover (message sigHex : String) : Except String String :=
  if message = challengeMessage "op-2" "https://s2" "7c0e" ∧ sigHex = "20ab" then
    .ok "VIZ6bA3EYLcYUW4MqBnuStZr9mtifbsPu2sB8uEZmXFxzVdWZzyLa"
  else .error "invalid signature"

private def sampleRegistryCalls : List RegistryCall :=
  [.issueChallenge "op-2" "7c0e" 0, .register "op-2" "https://s2" "7c0e" "20ab" 30000 30001]

theorem live_registrations_sample : ∃ nonce,
    MadeWith sampleRegistryConfig (fun key message sigHex => sampleRecover message sigHex = .ok key)
      (Runs.run (RegistryRun.step sampleRegistryConfig sampleRecover) .start sampleRegistryCalls).log
      ⟨"op-2", "https://s2", 90001⟩ nonce ∧
    (Runs.run (RegistryRun.step sampleRegistryConfig sampleRecover) .start (sampleRegistryCalls ++
      .live 90000 :: [.register "op-2" "https://s2" "7c0e" "20ab" 90001 90001])).log.countP
        (registeredWith nonce) = 1 :=
  ((live_registrations sampleRegistryConfig sampleRecover
    (fun key message sigHex => sampleRecover message sigHex = .ok key) (fun _ _ _ h => h)
    sampleRegistryCalls [.register "op-2" "https://s2" "7c0e" "20ab" 90001 90001] 90000
    (by decide +kernel)).2.2 ⟨"op-2", "https://s2", 90001⟩ (by decide +kernel)).2

end VizGateway
