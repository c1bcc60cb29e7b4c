import VizGateway.TonRing

/-!
# When a held balance of zero counts

Within one read the index does not move, so the other endpoints the loops ask are all those of the
ring but the one asked first. A read that comes to a zero has gone through a loop to its end, and a
loop ends only when everyone agreed.
-/

namespace VizGateway

open Prog TonOp

abbrev SupplyEvent := Event (TonOp SupplyQuery) (TonOp.Ans SupplyQuery.Ans) String

/-- The endpoint was asked and answered so. -/
def Heard (es : List SupplyEvent) (endpoint : ℕ) (q : SupplyQuery) (a : q.Ans) : Prop :=
  (⟨.request endpoint q, .ok a⟩ : SupplyEvent) ∈ es

/-- What a read knows of the held balance when it computes with it: `i` read one other than zero, or
it read zero as every other endpoint did, or it could not read it and saw no active wallet, as
every other endpoint. -/
inductive HeldAt (clients i : ℕ) (es : List SupplyEvent) : ℤ → Prop
  | read {held : ℤ} (hne : held ≠ 0) (h : Heard es i .getBalance held) : HeldAt clients i es held
  | zero (h : Heard es i .getBalance (0 : ℤ))
    (hothers : ∀ j < clients, j ≠ i → Heard es j .getBalance (0 : ℤ)) : HeldAt clients i es 0
  | inactive {err state : String} (herr : isTransientTonError err = false)
    (hread : (⟨.request i .getBalance, .error err⟩ : SupplyEvent) ∈ es)
    (h : Heard es i .getContractState state) (hstate : state ≠ "active")
    (hothers : ∀ j < clients, j ≠ i →
      ∃ second, second ≠ "active" ∧ Heard es j .getContractState second) :
    HeldAt clients i es 0

section

variable {E : Type} {net : TonEndpoints SupplyQuery SupplyQuery.Ans E} {clients i : ℕ}
  {s t : ℕ × E}

/-- The endpoints the loops ask are all but the current one. -/
theorem exists_other {j : ℕ} (hi : i < clients) (hj : j < clients) (hne : j ≠ i) :
    ∃ k ∈ List.range' 1 (clients - 1), (i + k) % clients = j := by
  rcases lt_or_gt_of_ne hne with hlt | hlt
  · refine ⟨j + clients - i, List.mem_range'_1.2 (by omega), ?_⟩
    rw [show i + (j + clients - i) = j + clients by omega, Nat.add_mod_right, Nat.mod_eq_of_lt hj]
  · exact ⟨j - i, List.mem_range'_1.2 (by omega), by
      rw [Nat.add_sub_of_le hlt.le, Nat.mod_eq_of_lt hj]⟩

@[simp] theorem eval_client :
    (client : SupplyProg ℕ).eval (net.exec clients) s = (s, .ok s.1) := rfl

@[simp] theorem events_client :
    (client : SupplyProg ℕ).events (net.exec clients) s = [⟨.index, .ok s.1⟩] := rfl

@[simp] theorem eval_otherClient {k : ℕ} :
    (otherClient clients k).eval (net.exec clients) s = (s, .ok ((s.1 + k) % clients)) := rfl

theorem eval_request {endpoint : ℕ} {q : SupplyQuery} :
    (TonOp.ask endpoint q : SupplyProg q.Ans).eval (net.exec clients) s =
      ((s.1, (net.answer s.2 endpoint q).1), (net.answer s.2 endpoint q).2) :=
  eval_ask (net.exec clients) (.request endpoint q) s

theorem events_request {endpoint : ℕ} {q : SupplyQuery} :
    (TonOp.ask endpoint q : SupplyProg q.Ans).events (net.exec clients) s =
      [⟨.request endpoint q, (net.answer s.2 endpoint q).2⟩] :=
  events_ask (net.exec clients) (.request endpoint q) s

/-- One turn of a loop over the other endpoints: it asks the endpoint and goes on if the answer is
as it should be. -/
theorem turn_eq_ok {q : SupplyQuery} {bad : q.Ans → Prop} [DecidablePred bad] {k : ℕ}
    {complaint : q.Ans → SupplyProg Unit}
    (hthrows : ∀ a u v, (complaint a).eval (net.exec clients) u ≠ (v, .ok ()))
    {turn : SupplyProg Unit}
    (hturn : turn = otherClient clients k >>= fun other => TonOp.ask other q >>= fun second =>
      if bad second then complaint second else pure ())
    (h : turn.eval (net.exec clients) s = (t, .ok ())) :
    t.1 = s.1 ∧ ∃ a, ¬ bad a ∧
      (⟨.request ((s.1 + k) % clients) q, .ok a⟩ : SupplyEvent) ∈ turn.events (net.exec clients) s := by
  subst hturn
  obtain ⟨u, other, hother, h, hevents⟩ := eval_bind_eq_ok h
  rw [hevents]
  cases hother
  obtain ⟨u, a, hask, h, hevents⟩ := eval_bind_eq_ok h
  rw [hevents, events_request]
  rw [eval_request] at hask
  have ha : (net.answer s.2 ((s.1 + k) % clients) q).2 = .ok a := congrArg Prod.snd hask
  have hu : u.1 = s.1 := (congrArg (fun x => x.1.1) hask).symm
  by_cases hbad : bad a
  · rw [if_pos hbad] at h
    exact absurd h (hthrows a u t)
  · rw [if_neg hbad] at h
    cases h
    exact ⟨hu, a, hbad, List.mem_append_right _ (List.mem_append_left _ (ha ▸ List.mem_cons_self))⟩

/-- A loop over the other endpoints that came to its end has heard each of them. -/
theorem loop_eq_ok (q : SupplyQuery) (bad : q.Ans → Prop) [DecidablePred bad]
    {complaint : q.Ans → SupplyProg Unit}
    (hthrows : ∀ a u v, (complaint a).eval (net.exec clients) u ≠ (v, .ok ()))
    {turn : ℕ → SupplyProg Unit}
    (hturn : ∀ k, turn k = otherClient clients k >>= fun other => TonOp.ask other q >>= fun second =>
      if bad second then complaint second else pure ())
    (hi : s.1 < clients)
    (h : (forEach turn (List.range' 1 (clients - 1))).eval (net.exec clients) s = (t, .ok ())) :
    t.1 = s.1 ∧ ∀ j < clients, j ≠ s.1 → ∃ a, ¬ bad a ∧ Heard
      ((forEach turn (List.range' 1 (clients - 1))).events (net.exec clients) s) j q a := by
  obtain ⟨ht, hall⟩ := eval_forEach_eq_ok (P := fun u => u.1 = s.1)
    (fun k u v hu hv => (turn_eq_ok hthrows (hturn k) hv).1.trans hu) rfl h
  refine ⟨ht, fun j hj hne => ?_⟩
  obtain ⟨k, hk, rfl⟩ := exists_other hi hj hne
  obtain ⟨u, v, hu, hv, hin⟩ := hall k hk
  obtain ⟨-, a, ha, hmem⟩ := turn_eq_ok hthrows (hturn k) hv
  rw [hu] at hmem
  exact ⟨a, ha, hin _ hmem⟩

theorem confirmZeroHeld_eq_ok {wallet : String} (hi : s.1 < clients)
    (h : (confirmZeroHeld clients wallet).eval (net.exec clients) s = (t, .ok ())) :
    t.1 = s.1 ∧ ∀ j < clients, j ≠ s.1 →
      Heard ((confirmZeroHeld clients wallet).events (net.exec clients) s) j .getBalance
        (0 : ℤ) := by
  obtain ⟨ht, hall⟩ := loop_eq_ok .getBalance (fun second : ℤ => second ≠ 0)
    (fun a u v hthrow => by cases hthrow) (fun k => rfl) hi h
  refine ⟨ht, fun j hj hne => ?_⟩
  obtain ⟨a, ha, hmem⟩ := hall j hj hne
  rwa [not_not.1 ha] at hmem

theorem confirmInactive_eq_ok {err : String} (hi : s.1 < clients)
    (h : (confirmInactive clients err).eval (net.exec clients) s = (t, .ok ())) :
    t.1 = s.1 ∧ ∃ state, state ≠ "active" ∧
      Heard ((confirmInactive clients err).events (net.exec clients) s) s.1 .getContractState
        state ∧
      ∀ j < clients, j ≠ s.1 → ∃ second, second ≠ "active" ∧
        Heard ((confirmInactive clients err).events (net.exec clients) s) j .getContractState
          second := by
  obtain ⟨u, current, hcurrent, h, hevents⟩ := eval_bind_eq_ok h
  cases hcurrent
  obtain ⟨u, state, hask, h, hevents'⟩ := eval_bind_eq_ok h
  rw [eval_request] at hask
  have hstate : (net.answer s.2 s.1 .getContractState).2 = .ok state := congrArg Prod.snd hask
  have hu : u.1 = s.1 := (congrArg (fun x => x.1.1) hask).symm
  have hself : (confirmInactive clients err).events (net.exec clients) s = _ :=
    hevents.trans (congrArg _ hevents')
  rw [hself, events_request]
  split_ifs at h with hactive
  · cases h
  · obtain ⟨ht, hall⟩ := loop_eq_ok .getContractState (fun second => second = "active")
      (fun a u v hthrow => by cases hthrow) (fun k => rfl) (hu ▸ hi) h
    rw [hu] at ht hall
    rw [if_neg hactive]
    refine ⟨ht, state, hactive, ?_, fun j hj hne => ?_⟩
    · exact List.mem_append_right _ (List.mem_append_left _ (hstate ▸ List.mem_cons_self))
    · obtain ⟨a, ha, hmem⟩ := hall j hj hne
      exact ⟨a, ha, List.mem_append_right _ (List.mem_append_right _ hmem)⟩

/-! ## One read -/

theorem HeldAt.mono {es fs : List SupplyEvent} {held : ℤ} (h : HeldAt clients i es held)
    (hsub : ∀ e ∈ es, e ∈ fs) : HeldAt clients i fs held := by
  cases h with
  | read hne h => exact .read hne (hsub _ h)
  | zero h hothers => exact .zero (hsub _ h) fun j hj hne => hsub _ (hothers j hj hne)
  | inactive herr hread h hstate hothers =>
    refine .inactive herr (hsub _ hread) (hsub _ h) hstate fun j hj hne => ?_
    obtain ⟨second, hsecond, hj⟩ := hothers j hj hne
    exact ⟨second, hsecond, hsub _ hj⟩

theorem uses_turn {q : SupplyQuery} {k : ℕ} {f : q.Ans → SupplyProg Unit}
    (hf : ∀ a, Uses (· ≠ TonOp.rotate) (f a)) :
    Uses (· ≠ TonOp.rotate) (otherClient clients k >>= fun other => TonOp.ask other q >>= f) :=
  uses_bind (uses_bind (uses_ask (by simp)) fun _ => uses_ofExcept (.ok _)) fun _ =>
    uses_bind (uses_ask (by simp)) hf

theorem uses_confirmInactive {err : String} :
    Uses (· ≠ TonOp.rotate) (confirmInactive clients err) := by
  refine uses_bind (uses_ask (by simp)) fun _ => uses_bind (uses_ask (by simp)) fun state => ?_
  refine uses_ite trivial (uses_forEach (fun k => ?_) _)
  exact uses_turn (q := .getContractState) fun a => uses_ite (c := a = "active") trivial trivial

theorem uses_confirmZeroHeld {wallet : String} :
    Uses (· ≠ TonOp.rotate) (confirmZeroHeld clients wallet) := by
  refine uses_forEach (fun k => ?_) _
  refine uses_turn (q := .getBalance) fun a => ?_
  exact uses_ite (uses_bind (uses_ask (by simp)) fun _ => trivial) trivial

/-- A read leaves the index alone. -/
theorem uses_readSupply {frozenMilliViz : ℤ} {wallet : Option String} :
    Uses (· ≠ TonOp.rotate) (readSupply clients frozenMilliViz wallet) := by
  refine uses_bind (uses_ask (by simp)) fun _ => uses_bind (uses_ask (by simp)) fun totalSupply => ?_
  cases wallet with
  | none => exact uses_ofExcept (.ok _)
  | some wallet =>
    refine uses_bind (uses_ask (by simp)) fun _ => uses_handle (uses_ask (by simp)) fun r => ?_
    cases r with
    | error err => exact uses_ite trivial (uses_bind uses_confirmInactive fun _ => trivial)
    | ok held => exact uses_bind (uses_ite uses_confirmZeroHeld trivial) fun _ => trivial

/-- What follows the read of the held balance at `i`. -/
theorem supplyFromHeld_eq_ok {total v : ℤ} {wallet : String} {r : Except String ℤ} (hs : s.1 < clients)
    {es : List SupplyEvent} (hr : (⟨.request s.1 .getBalance, r⟩ : SupplyEvent) ∈ es)
    (hes : ∀ e ∈ (supplyFromHeld clients wallet total r).events (net.exec clients) s, e ∈ es)
    (h : (supplyFromHeld clients wallet total r).eval (net.exec clients) s = (t, .ok v)) :
    ∃ held, HeldAt clients s.1 es held ∧ v = max (total - held) 0 := by
  cases r with
  | error err =>
    simp only [supplyFromHeld] at h hes
    split_ifs at h with htransient
    · cases h
    · rw [if_neg htransient] at hes
      obtain ⟨w, ⟨⟩, hconfirm, h, hevents⟩ := eval_bind_eq_ok h
      cases h
      obtain ⟨-, state, hstate, hown, hothers⟩ := confirmInactive_eq_ok hs hconfirm
      have hin : ∀ e ∈ (confirmInactive clients err).events (net.exec clients) s, e ∈ es :=
        fun e he => hes e (hevents ▸ List.mem_append_left _ he)
      refine ⟨0, .inactive (by simpa using htransient) hr (hin _ hown) hstate fun j hj hne => ?_,
        by rw [sub_zero]⟩
      obtain ⟨second, hsecond, hmem⟩ := hothers j hj hne
      exact ⟨second, hsecond, hin _ hmem⟩
  | ok held =>
    obtain ⟨w, ⟨⟩, hconfirm, h, hevents⟩ := eval_bind_eq_ok h
    cases h
    refine ⟨held, ?_, rfl⟩
    by_cases hzero : held = 0
    · subst hzero
      rw [if_pos rfl] at hconfirm
      refine .zero hr fun j hj hne => hes _ ?_
      rw [supplyFromHeld, hevents, if_pos rfl]
      exact List.mem_append_left _ ((confirmZeroHeld_eq_ok hs hconfirm).2 j hj hne)
    · exact .read hzero hr

theorem readSupply_eq_ok {frozenMilliViz v : ℤ} {wallet : String} (hs : s.1 < clients)
    (h : (readSupply clients frozenMilliViz (some wallet)).eval (net.exec clients) s = (t, .ok v)) :
    ∃ totalSupply held,
      Heard ((readSupply clients frozenMilliViz (some wallet)).events (net.exec clients) s) s.1
        .getJettonData totalSupply ∧
      HeldAt clients s.1
        ((readSupply clients frozenMilliViz (some wallet)).events (net.exec clients) s) held ∧
      v = max (totalSupply - frozenMilliViz - held) 0 := by
  obtain ⟨u, master, hmaster, h, hevents⟩ := eval_bind_eq_ok h
  cases hmaster
  obtain ⟨u, totalSupply, hask, h, hevents₂⟩ := eval_bind_eq_ok h
  rw [eval_request] at hask
  have htotal : (net.answer s.2 s.1 .getJettonData).2 = .ok totalSupply := congrArg Prod.snd hask
  have hu : u.1 = s.1 := (congrArg (fun x => x.1.1) hask).symm
  obtain ⟨_, current, hcurrent, h, hevents₃⟩ := eval_bind_eq_ok h
  cases hcurrent
  have hself : (readSupply clients frozenMilliViz (some wallet)).events (net.exec clients) s = _ :=
    hevents.trans (congrArg _ (hevents₂.trans (congrArg _ (hevents₃.trans (congrArg _
      (events_handle _ _ _))))))
  rw [eval_handle] at h
  rw [events_request, events_request] at hself
  rw [eval_request] at h hself
  obtain ⟨held, hheld, hv⟩ := supplyFromHeld_eq_ok (s := (u.1, _)) (hu ▸ hs)
    (hself ▸ List.mem_append_right _ (List.mem_append_right _ (List.mem_append_right _
      (List.mem_append_left _ List.mem_cons_self))))
    (fun e he => hself ▸ List.mem_append_right _ (List.mem_append_right _ (List.mem_append_right _
      (List.mem_append_right _ he)))) h
  rw [hu] at hheld
  refine ⟨totalSupply, held, hself ▸ List.mem_append_right _ (List.mem_append_left _ ?_), hheld, hv⟩
  exact htotal ▸ List.mem_cons_self

/-! ## All attempts -/

/-- A value comes from the last attempt, at an endpoint of the ring. -/
theorem tonAttempts_eq_ok {α : Type} {fn : SupplyProg α} {v : α} {left : ℕ} (hs : s.1 < clients)
    (hfn : Uses (· ≠ TonOp.rotate) fn)
    (h : (tonAttempts clients fn left).eval (net.exec clients) s = (t, .ok v)) :
    ∃ pre u, u.1 < clients ∧ (tonAttempts clients fn left).events (net.exec clients) s =
      pre ++ fn.events (net.exec clients) u ∧ fn.eval (net.exec clients) u = (t, .ok v) := by
  induction left generalizing s with
  | zero => cases h
  | succ left ih =>
    have hkeep : (fn.eval (net.exec clients) s).1.1 = s.1 := by
      have htrans : ∀ {a b c : ℕ × E}, b.1 = a.1 → c.1 = b.1 → c.1 = a.1 := fun h h' => h'.trans h
      refine eval_of_uses (R := fun u v => v.1 = u.1) (fun _ => rfl) htrans (fun o u ho => ?_) hfn s
      cases o with
      | rotate => exact absurd rfl ho
      | index | sleep ms | request endpoint q => rfl
    rw [tonAttempts, eval_handle] at h
    rw [tonAttempts, events_handle]
    rcases hself : fn.eval (net.exec clients) s with ⟨u, err | a⟩
    · rw [hself] at h hkeep
      simp only [afterAttempt] at h hkeep ⊢
      split_ifs at h with hlast
      · cases h
      · rw [if_neg hlast]
        obtain ⟨w, ⟨⟩, hrotate, h, hevents⟩ := eval_bind_eq_ok h
        obtain ⟨x, ⟨⟩, hsleep, h, hevents₂⟩ := eval_bind_eq_ok h
        cases hrotate
        cases hsleep
        obtain ⟨pre, y, hy, hpre, hfinal⟩ := ih (Nat.mod_lt _ (by omega)) h
        rw [hevents, hevents₂, hpre, ← List.append_assoc, ← List.append_assoc, ← List.append_assoc]
        exact ⟨_, y, hy, rfl, hfinal⟩
    · rw [hself] at h
      cases h
      exact ⟨[], s, hs, List.append_nil _, hself⟩

/-- However the endpoints answer, a supply is computed from the total and the held balance that one
pass of reads at one endpoint came to; and the held balance is zero only if every other endpoint of
the ring was asked in the same pass and agreed. -/
theorem circulatingSupplyMilliViz_held {E : Type}
    (net : TonEndpoints SupplyQuery SupplyQuery.Ans E) (clients : ℕ) (frozenMilliViz : ℤ)
    (wallet : String) (s t : ℕ × E) (hs : s.1 < clients) (v : ℤ)
    (h : (circulatingSupplyMilliViz clients frozenMilliViz (some wallet)).eval (net.exec clients) s =
      (t, .ok v)) :
    ∃ pre last i totalSupply held,
      (circulatingSupplyMilliViz clients frozenMilliViz (some wallet)).events (net.exec clients) s =
        pre ++ last ∧
      (∀ e ∈ last, e.op ≠ .rotate) ∧ i < clients ∧ Heard last i .getJettonData totalSupply ∧
      HeldAt clients i last held ∧ v = max (totalSupply - frozenMilliViz - held) 0 := by
  obtain ⟨pre, u, hu, hevents, hread⟩ := tonAttempts_eq_ok hs uses_readSupply h
  obtain ⟨totalSupply, held, htotal, hheld, hv⟩ := readSupply_eq_ok hu hread
  exact ⟨pre, _, u.1, totalSupply, held, hevents, events_of_uses uses_readSupply, hu, htotal, hheld,
    hv⟩

/-! Three endpoints: the first is down for the supply, the others and it read zero. -/

private def sampleEndpoints : TonEndpoints SupplyQuery SupplyQuery.Ans ℕ where
  answer time endpoint
    | .getJettonData =>
      (time + 1, if endpoint = 0 then .error "Request failed with status code 502" else .ok (5000 : ℤ))
    | .getBalance => (time + 1, .ok (0 : ℤ))
    | .getContractState => (time + 1, .ok "active")

theorem circulatingSupplyMilliViz_held_sample :
    ∃ pre last i totalSupply held,
      (circulatingSupplyMilliViz 3 1213 (some "EQBQ2m5Z")).events (sampleEndpoints.exec 3) (0, 0) =
        pre ++ last ∧
      (∀ e ∈ last, e.op ≠ .rotate) ∧ i < 3 ∧ Heard last i .getJettonData totalSupply ∧
      HeldAt 3 i last held ∧ (3787 : ℤ) = max (totalSupply - 1213 - held) 0 :=
  circulatingSupplyMilliViz_held sampleEndpoints 3 1213 "EQBQ2m5Z" (0, 0) (1, 5) (by decide) 3787
    (by decide +kernel)

end

end VizGateway
