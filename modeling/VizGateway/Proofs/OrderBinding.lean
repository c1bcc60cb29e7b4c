import VizGateway.GramApprove
import VizGateway.Sample

/-!
# Which body an approved order holds

An approval of an order that exists is bound to its deployed body. A call that opens the order is
bound to it only while nobody takes the number between its look at the multisig and the landing of
its message.
-/

namespace VizGateway

namespace OrderBinding

variable {ms : MultisigV2} {s s' : MultisigState} {a : TonAddress} {order : PinnedOrder}

/-! ## Orders on the multisig -/

theorem orderAt_eq_some {o : DeployedOrder} :
    s.orderAt ms a = some o ↔ ∃ n, s.orders[n]? = some o ∧ ms.orderAddress n = a := by
  unfold MultisigState.orderAt
  constructor
  · intro h
    obtain ⟨⟨o', n⟩, hmem, ho⟩ := List.exists_of_findSome?_eq_some h
    simp only at ho
    split_ifs at ho with hn
    cases ho
    exact ⟨n, List.mk_mem_zipIdx_iff_getElem?.1 hmem, hn⟩
  · rintro ⟨n, hn, rfl⟩
    have hmem : (o, n) ∈ s.orders.zipIdx := List.mk_mem_zipIdx_iff_getElem?.2 hn
    cases hf : s.orders.zipIdx.findSome? fun x =>
        if ms.orderAddress x.2 = ms.orderAddress n then some x.1 else none with
    | none => simpa using List.findSome?_eq_none_iff.1 hf _ hmem
    | some o' =>
      obtain ⟨⟨o'', m⟩, hmem', ho⟩ := List.exists_of_findSome?_eq_some hf
      simp only at ho
      split_ifs at ho with hm
      cases ho
      have hnm : m = n := ms.orderAddress_inj hm
      subst hnm
      rw [← hn, ← List.mk_mem_zipIdx_iff_getElem?.1 hmem']

theorem orderAt_nextAddr : s.orderAt ms (s.nextAddr ms) = none := by
  cases h : s.orderAt ms (s.nextAddr ms) with
  | none => rfl
  | some o =>
    obtain ⟨n, hn, ha⟩ := orderAt_eq_some.1 h
    have hlt := (List.getElem?_eq_some_iff.1 hn).1
    rw [ms.orderAddress_inj ha] at hlt
    exact absurd hlt (Nat.lt_irrefl _)

/-- Opening an order leaves every other address alone. -/
theorem orderAt_openOrder_of_ne {hash : String} {idx : ℕ} (ha : a ≠ s.nextAddr ms) :
    (s.openOrder hash idx).orderAt ms a = s.orderAt ms a := by
  refine Option.ext fun o => ?_
  rw [orderAt_eq_some, orderAt_eq_some]
  refine exists_congr fun n => and_congr_left fun hn => ?_
  unfold MultisigState.openOrder
  by_cases hlen : n = s.orders.length
  · subst hlen
    exact absurd hn.symm ha
  · simp only [List.getElem?_append]
    split_ifs with hlt
    · rfl
    · rw [List.getElem?_eq_none (by simp; omega), List.getElem?_eq_none (by omega)]

theorem orderAt_openOrder {hash : String} {idx : ℕ} :
    (s.openOrder hash idx).orderAt ms (s.nextAddr ms) = some ⟨hash, [idx]⟩ :=
  orderAt_eq_some.2 ⟨s.orders.length, by unfold MultisigState.openOrder; simp, rfl⟩

/-- The hash of the order at an address. -/
def hashAt (ms : MultisigV2) (s : MultisigState) (a : TonAddress) : Option String :=
  (s.orderAt ms a).map (·.hash)

theorem hashAt_eq_some {h : String} : hashAt ms s a = some h
    ↔ ∃ n, (s.orders.map (·.hash))[n]? = some h ∧ ms.orderAddress n = a := by
  unfold hashAt
  simp only [Option.map_eq_some_iff, orderAt_eq_some, List.getElem?_map]
  constructor
  · rintro ⟨o, ⟨n, hn, ha⟩, rfl⟩
    exact ⟨n, ⟨o, hn, rfl⟩, ha⟩
  · rintro ⟨n, ⟨o, hn, rfl⟩, ha⟩
    exact ⟨o, ⟨n, hn, ha⟩, rfl⟩

theorem hashAt_approve {a' : TonAddress} {idx : ℕ} :
    hashAt ms (s.approve ms a' idx) a = hashAt ms s a := by
  have hsame : (s.approve ms a' idx).orders.map (·.hash) = s.orders.map (·.hash) := by
    refine List.ext_getElem? fun n => ?_
    simp only [MultisigState.approve, List.getElem?_map, List.getElem?_mapIdx, Option.map_map]
    congr 1
    funext o
    simp only [Function.comp_apply]
    split_ifs <;> rfl
  refine Option.ext fun h => ?_
  rw [hashAt_eq_some, hashAt_eq_some, hsame]

theorem nextAddr_approve {a' : TonAddress} {idx : ℕ} :
    (s.approve ms a' idx).nextAddr ms = s.nextAddr ms := by
  simp [MultisigState.nextAddr, MultisigState.approve]

/-! ## What a call counts on -/

/-- No other body is deployed at the pinned address. -/
def Unspoilt (ms : MultisigV2) (s : MultisigState) (order : PinnedOrder) : Prop :=
  ∀ h, hashAt ms s order.addr = some h → h = order.hash

/-- An order is deployed there. -/
def Deployed (ms : MultisigV2) (s : MultisigState) (order : PinnedOrder) : Prop :=
  hashAt ms s order.addr ≠ none

/-- The awaits of a call after it sent its own `new_order` or saw the deployed body. -/
def Bound : ApproveOp → Prop
  | .beforeDeadline _ .opened => True
  | .isInited _ .opened => True
  | .beforeDeadline _ .approving => True
  | .getOrderData _ .approving => True
  | .sendApprove .. => True
  | .receipt .. => True
  | _ => False

/-- The awaits of a call after it saw the order deployed. -/
def Seen : ApproveOp → Prop
  | .beforeDeadline _ .approving => True
  | .getOrderData _ .approving => True
  | .sendApprove .. => True
  | .receipt .. => True
  | _ => False

/-- The answers after which a call is bound to the body at its address. -/
def Binds (order : PinnedOrder) : (o : ApproveOp) → Except String o.Ans → Prop
  | .sendNewOrder .., _ => True
  | .getOrderData _ .first, .ok (od : OrderData) => od.orderHash = some order.hash
  | o, _ => Bound o

/-- The answers after which the order is deployed. -/
def Shows : (o : ApproveOp) → Except String o.Ans → Prop
  | .isInited _ .opened, .ok (inited : Bool) => inited = true
  | .getOrderData _ .first, .ok _ => True
  | o, _ => Seen o

/-- The operations of a call for this order. -/
def AsksFor (order : PinnedOrder) : ApproveOp → Prop
  | .isInited o _ => o = order
  | .sendNewOrder o _ => o = order
  | .beforeDeadline o _ => o = order
  | .getOrderData o _ => o = order
  | .sendApprove o _ => o = order
  | .receipt o _ _ => o = order
  | _ => True

/-- A program for this order, whose places are bound to it and see it as they say; `b` and `d`
speak for the place it stands at. -/
structure Fits {α : Type} (order : PinnedOrder) (b d : Prop) (p : ApproveM α) : Prop where
  asks : Prog.Uses (AsksFor order) p
  bound : Prog.Gated Bound (Binds order) b p
  seen : Prog.Gated Seen Shows d p

section

variable {α β : Type} {b d b' d' : Prop}

theorem Fits.mono {p : ApproveM α} (h : Fits order b d p) (hb : b → b') (hd : d → d') :
    Fits order b' d' p := ⟨h.asks, h.bound.mono hb, h.seen.mono hd⟩

theorem fits_pure (x : α) : Fits order b d (pure x : ApproveM α) := ⟨trivial, trivial, trivial⟩

theorem fits_assoc {γ : Type} {p : ApproveM α} {f : α → ApproveM β} {g : β → ApproveM γ}
    (h : Fits order b d (p >>= fun a => f a >>= g)) : Fits order b d ((p >>= f) >>= g) := by
  rw [Prog.bind_bind]
  exact h

theorem fits_throw (e : String) : Fits order b d (throw e : ApproveM α) :=
  ⟨trivial, trivial, trivial⟩

theorem fits_ask {o : ApproveOp} {f : o.Ans → ApproveM α} (ha : AsksFor order o) (hb : Bound o → b)
    (hd : Seen o → d) (hf : ∀ x, Fits order (Binds order o (.ok x)) (Shows o (.ok x)) (f x)) :
    Fits order b d (Prog.ask o >>= f) := by
  refine ⟨⟨ha, fun r => ?_⟩, ⟨hb, fun r => ?_⟩, ⟨hd, fun r => ?_⟩⟩
  · cases r with
    | error e => trivial
    | ok x => exact (hf x).asks
  · cases r with
    | error e => trivial
    | ok x => exact (hf x).bound
  · cases r with
    | error e => trivial
    | ok x => exact (hf x).seen

/-- After the call's own `new_order`. -/
theorem fits_waitOpened {f : Unit → ApproveM α} (hf : Fits order True True (f ())) :
    ∀ (polls : ℕ) (d : Prop),
      Fits order True d (GramApprover.waitForOrderInited order .opened polls >>= f)
  | 0, _ => fits_throw _
  | polls + 1, d => by
    unfold GramApprover.waitForOrderInited
    refine fits_assoc (fits_ask rfl (fun _ => trivial) False.elim fun (waiting : Bool) => ?_)
    split
    · refine fits_assoc (fits_ask rfl (fun _ => trivial) False.elim fun (inited : Bool) => ?_)
      split
      · next hinited => exact hf.mono (fun _ => trivial) fun _ => hinited
      · exact (fits_waitOpened hf polls _).mono (fun _ => trivial) id
    · exact fits_throw _

theorem fits_waitLagging {f : Unit → ApproveM α} (hf : Fits order False False (f ())) :
    ∀ (polls : ℕ) (b d : Prop),
      Fits order b d (GramApprover.waitForOrderInited order .lagging polls >>= f)
  | 0, _, _ => fits_throw _
  | polls + 1, b, d => by
    unfold GramApprover.waitForOrderInited
    refine fits_assoc (fits_ask rfl False.elim False.elim fun (waiting : Bool) => ?_)
    split
    · refine fits_assoc (fits_ask rfl False.elim False.elim fun (inited : Bool) => ?_)
      split
      · exact hf.mono False.elim False.elim
      · exact fits_waitLagging hf polls _ _
    · exact fits_throw _

theorem fits_waitForApproval {f : Unit → ApproveM α} {myIdx : ℕ} (hf : Fits order True True (f ())) :
    ∀ polls : ℕ, Fits order True True (GramApprover.waitForApproval order myIdx polls >>= f)
  | 0 => fits_throw _
  | polls + 1 => by
    unfold GramApprover.waitForApproval
    refine fits_assoc (fits_ask rfl (fun _ => trivial) (fun _ => trivial)
      fun (waiting : Bool) => ?_)
    split
    · refine fits_assoc (fits_ask rfl (fun _ => trivial) (fun _ => trivial)
        fun (od : OrderData) => ?_)
      split
      · exact hf
      · exact fits_waitForApproval hf polls
    · exact fits_throw _

theorem fits_approveDeployed {opts : GramApproverOpts} {myIdx : ℕ} {f : TonApprovalRole → ApproveM α}
    (hf : ∀ role, Fits order True True (f role)) :
    Fits order b d (GramApprover.approveDeployed opts order myIdx >>= f) := by
  unfold GramApprover.approveDeployed
  refine fits_assoc (fits_ask rfl False.elim False.elim fun (od : OrderData) => ?_)
  split
  · next hhash =>
    refine Fits.mono (b := True) (d := True) ?_ (fun _ => hhash) fun _ => trivial
    split
    · exact hf _
    · split
      · exact hf _
      · refine fits_assoc (fits_ask (o := .sendApprove order myIdx) rfl (fun _ => trivial)
          (fun _ => trivial) fun _ => ?_)
        exact fits_assoc (fits_waitForApproval (hf _) _)
  · exact fits_throw _

theorem fits_sendOrApprove (opts : GramApproverOpts) (order : PinnedOrder) :
    Fits order False False (GramApprover.sendOrApprove opts order) := by
  refine fits_ask trivial False.elim False.elim fun (md : MultisigData) => ?_
  dsimp only
  split
  · exact fits_throw _
  · next myIdx _ =>
    refine fits_ask rfl False.elim False.elim fun (inited : Bool) => ?_
    have hreceipt : ∀ role,
        Fits order True True (Prog.ask (ApproveOp.receipt order myIdx role) : ApproveM Unit) :=
      fun role => ⟨Prog.uses_ask rfl, ⟨fun _ => trivial, fun r => by cases r <;> trivial⟩,
        ⟨fun _ => trivial, fun r => by cases r <;> trivial⟩⟩
    split
    · exact fits_approveDeployed hreceipt
    · unfold GramApprover.openOrWait
      refine fits_assoc (fits_ask trivial False.elim False.elim fun (liveNext : TonAddress) => ?_)
      split
      · refine fits_assoc (fits_ask (o := .sendNewOrder order myIdx) rfl False.elim False.elim
          fun _ => ?_)
        exact fits_assoc ((fits_waitOpened (hreceipt _) _ _).mono (fun _ => trivial) id)
      · exact fits_assoc (fits_waitLagging (fits_approveDeployed hreceipt) _ _ _)

end

/-! ## One orderly step -/

/-- What the multisig state keeps: each order this wallet opened is where it was pinned, and its
message under way is alone and for the next order. -/
structure OwnOrders (ms : MultisigV2) (s : MultisigState) : Prop where
  created : ∀ c ∈ s.created, c.2 = c.1
  inFlight : s.inFlight = [] ∨ ∃ m, s.inFlight = [m] ∧ m.order.addr = s.nextAddr ms

/-- A call of this wallet, for some order. -/
def CallOk (ms : MultisigV2) (s : MultisigState) (p : ApproveM Unit) : Prop :=
  ∃ order, Fits order (Unspoilt ms s order) (Deployed ms s order) p

variable {L : Libs} {opts : GramApproverOpts}

theorem callOk_body (c : ApproveCall) : CallOk ms s ((approveSystem L ms opts).body c) := by
  have horder : ∀ (p : GramMintProposal) body,
      CallOk ms s (GramApprover.approveOrder L opts p body) := by
    intro p body
    unfold GramApprover.approveOrder
    split
    · exact ⟨⟨⟨0, []⟩, ""⟩, fits_throw _⟩
    · split_ifs
      · split
        · exact ⟨⟨⟨0, []⟩, ""⟩, fits_throw _⟩
        · exact ⟨_, (fits_sendOrApprove opts _).mono False.elim False.elim⟩
      · exact ⟨⟨⟨0, []⟩, ""⟩, fits_throw _⟩
  cases c with
  | mint p => exact horder p _
  | giveBack p => exact horder p _

/-- The deployed bodies and the numbers do not change under an await of this wallet. -/
theorem exec_frame (ms : MultisigV2) (o : ApproveOp) (i : ApproveInput) (s : MultisigState) :
    (∀ a, hashAt ms (o.exec ms i s).1 a = hashAt ms s a)
      ∧ (o.exec ms i s).1.nextAddr ms = s.nextAddr ms
      ∧ (o.exec ms i s).1.created = s.created := by
  cases o with
  | sendNewOrder order myIdx =>
    unfold ApproveOp.exec
    dsimp only
    split_ifs <;> exact ⟨fun a => rfl, rfl, rfl⟩
  | sendApprove order myIdx =>
    unfold ApproveOp.exec
    dsimp only
    split_ifs
    · exact ⟨fun a => hashAt_approve, nextAddr_approve, rfl⟩
    · exact ⟨fun a => rfl, rfl, rfl⟩
  | _ => exact ⟨fun a => rfl, rfl, rfl⟩

theorem exec_inFlight (ms : MultisigV2) {o : ApproveOp} (i : ApproveInput) (s : MultisigState)
    (h : ∀ order myIdx, o ≠ .sendNewOrder order myIdx) :
    (o.exec ms i s).1.inFlight = s.inFlight := by
  cases o with
  | sendNewOrder order myIdx => exact absurd rfl (h order myIdx)
  | sendApprove order myIdx =>
    unfold ApproveOp.exec
    dsimp only
    split_ifs <;> rfl
  | _ => rfl

theorem Unspoilt.congr (h : Unspoilt ms s order) (hs : ∀ a, hashAt ms s' a = hashAt ms s a) :
    Unspoilt ms s' order := fun x hx => h x (by rw [← hs]; exact hx)

theorem Deployed.congr (h : Deployed ms s order) (hs : ∀ a, hashAt ms s' a = hashAt ms s a) :
    Deployed ms s' order := by
  unfold Deployed
  rw [hs]
  exact h

theorem initedAnswer_true {i : ApproveInput} (h : initedAnswer ms i s a = .ok true) :
    hashAt ms s a ≠ none := by
  unfold initedAnswer at h
  split at h
  · cases h
  · rw [Except.ok.injEq] at h
    unfold hashAt
    rw [Ne, Option.map_eq_none_iff]
    rintro hnone
    rw [hnone] at h
    cases h

theorem orderDataAnswer_ok {i : ApproveInput} {od : OrderData}
    (h : orderDataAnswer ms i s a = .ok od) : hashAt ms s a ≠ none ∧ hashAt ms s a = od.orderHash := by
  unfold orderDataAnswer at h
  split at h
  · cases h
  · next o ho =>
    cases h
    unfold hashAt
    rw [ho]
    exact ⟨(Option.some_ne_none _), rfl⟩
  · cases h

/-- A call bound to the body at its address finds no other body there. -/
theorem unspoilt_of_binds {o : ApproveOp} {i : ApproveInput} (ha : AsksFor order o)
    (hbound : Bound o → Unspoilt ms s order)
    (hnext : ∀ myIdx, o = .sendNewOrder order myIdx → order.addr = s.nextAddr ms)
    (h : Binds order o (o.exec ms i s).2) : Unspoilt ms (o.exec ms i s).1 order := by
  have hframe := (exec_frame ms o i s).1
  by_cases hb : Bound o
  · exact (hbound hb).congr hframe
  · refine Unspoilt.congr (s := s) (fun x hx => ?_) hframe
    cases o with
    | sendNewOrder order' myIdx =>
      obtain rfl : order' = order := ha
      rw [hnext myIdx rfl] at hx
      unfold hashAt at hx
      rw [orderAt_nextAddr] at hx
      cases hx
    | getOrderData order' stage =>
      obtain rfl : order' = order := ha
      cases stage with
      | first =>
        change Binds order' (.getOrderData order' .first) (orderDataAnswer ms i s order'.addr) at h
        cases hod : orderDataAnswer ms i s order'.addr with
        | error e =>
          rw [hod] at h
          exact absurd h hb
        | ok od =>
          rw [hod] at h
          rw [(orderDataAnswer_ok hod).2, show od.orderHash = some order'.hash from h] at hx
          exact (Option.some.inj hx).symm
      | approving => exact absurd trivial hb
      | opened => exact absurd h hb
      | lagging => exact absurd h hb
    | _ => exact absurd h hb

/-- A call that was shown its order finds it deployed. -/
theorem deployed_of_shows {o : ApproveOp} {i : ApproveInput} (ha : AsksFor order o)
    (hseen : Seen o → Deployed ms s order) (h : Shows o (o.exec ms i s).2) :
    Deployed ms (o.exec ms i s).1 order := by
  have hframe := (exec_frame ms o i s).1
  by_cases hs : Seen o
  · exact (hseen hs).congr hframe
  · refine Deployed.congr (s := s) ?_ hframe
    cases o with
    | isInited order' stage =>
      obtain rfl : order' = order := ha
      cases stage with
      | opened =>
        change Shows (.isInited order' .opened) (initedAnswer ms i s order'.addr) at h
        cases hin : initedAnswer ms i s order'.addr with
        | error e =>
          rw [hin] at h
          exact absurd h hs
        | ok inited =>
          rw [hin] at h
          obtain rfl : inited = true := h
          exact initedAnswer_true hin
      | first => exact absurd h hs
      | lagging => exact absurd h hs
      | approving => exact absurd h hs
    | getOrderData order' stage =>
      obtain rfl : order' = order := ha
      cases stage with
      | first =>
        change Shows (.getOrderData order' .first) (orderDataAnswer ms i s order'.addr) at h
        cases hod : orderDataAnswer ms i s order'.addr with
        | error e =>
          rw [hod] at h
          exact absurd h hs
        | ok od => exact (orderDataAnswer_ok hod).1
      | approving => exact absurd trivial hs
      | opened => exact absurd h hs
      | lagging => exact absurd h hs
    | _ => exact absurd h hs

theorem CallOk.congr {p : ApproveM Unit} (h : CallOk ms s p)
    (hs : ∀ a, hashAt ms s' a = hashAt ms s a) : CallOk ms s' p := by
  obtain ⟨order, hfits⟩ := h
  exact ⟨order, hfits.mono (fun hu => hu.congr hs) fun hd => hd.congr hs⟩

theorem hashAt_openOrder_of_ne {hash : String} {idx : ℕ} (ha : a ≠ s.nextAddr ms) :
    hashAt ms (s.openOrder hash idx) a = hashAt ms s a := by
  unfold hashAt
  rw [orderAt_openOrder_of_ne ha]

theorem hashAt_openOrder {hash : String} {idx : ℕ} :
    hashAt ms (s.openOrder hash idx) (s.nextAddr ms) = some hash := by
  unfold hashAt
  rw [orderAt_openOrder]
  rfl

theorem hashAt_nextAddr : hashAt ms s (s.nextAddr ms) = none := by
  unfold hashAt
  rw [orderAt_nextAddr]
  rfl

/-- An opened order harms no call that does not wait for another body there. -/
theorem CallOk.opened {p : ApproveM Unit} {hash : String} {idx : ℕ} (h : CallOk ms s p)
    (hawait : ∀ o k order, p = .call o k → o.awaited = some order → order.addr = s.nextAddr ms →
      order.hash = hash) : CallOk ms (s.openOrder hash idx) p := by
  obtain ⟨order, hfits⟩ := h
  by_cases hnext : order.addr = s.nextAddr ms
  · refine ⟨order, hfits.asks, ?_, hfits.seen.mono fun hd => ?_⟩
    · cases p with
      | ret x => trivial
      | throw e => trivial
      | call o k =>
        by_cases hb : Bound o
        · have hsame : order.hash = hash := by
            have hunseen : ¬ Seen o := fun hs => hfits.seen.1 hs (by rw [hnext]; exact hashAt_nextAddr)
            have hmine := hfits.asks.1
            cases o with
            | beforeDeadline order' stage =>
              obtain rfl : order' = order := hmine
              cases stage with
              | opened => exact hawait _ k _ rfl rfl hnext
              | approving => exact absurd trivial hunseen
              | first => exact hb.elim
              | lagging => exact hb.elim
            | isInited order' stage =>
              obtain rfl : order' = order := hmine
              cases stage with
              | opened => exact hawait _ k _ rfl rfl hnext
              | approving => exact hb.elim
              | first => exact hb.elim
              | lagging => exact hb.elim
            | getOrderData order' stage =>
              cases stage with
              | approving => exact absurd trivial hunseen
              | opened => exact hb.elim
              | first => exact hb.elim
              | lagging => exact hb.elim
            | sendApprove order' myIdx => exact absurd trivial hunseen
            | receipt order' myIdx role => exact absurd trivial hunseen
            | _ => exact hb.elim
          refine hfits.bound.mono fun _ x hx => ?_
          rw [hnext, hashAt_openOrder] at hx
          rw [hsame]
          exact (Option.some.inj hx).symm
        · exact (hfits.bound.disarm hb).mono False.elim
    · exact absurd (by rw [hnext]; exact hashAt_nextAddr) hd
  · have hs : hashAt ms (s.openOrder hash idx) order.addr = hashAt ms s order.addr :=
      hashAt_openOrder_of_ne hnext
    refine ⟨order, hfits.mono (fun hu x hx => hu x (by rw [← hs]; exact hx)) fun hd => ?_⟩
    unfold Deployed
    rw [hs]
    exact hd

theorem Unawaited.of_thread {w : ApproveWorld} {hash : String} (h : Unawaited ms w hash)
    {p : ApproveM Unit} (hp : p ∈ w.threads) : ∀ o k order, p = .call o k →
      o.awaited = some order → order.addr = w.shared.nextAddr ms → order.hash = hash := by
  rintro o k order rfl hawait haddr
  obtain ⟨n, hn⟩ := List.getElem?_of_mem hp
  exact h n o order (Pool.standsAt_eq_some.2 ⟨k, hn⟩) hawait haddr

theorem step_inv {w : ApproveWorld} {e : ApproveEvent} (h : Pool.Inv (OwnOrders ms) (CallOk ms) w)
    (hc : ApproveOrderly ms w e) :
    Pool.Inv (OwnOrders ms) (CallOk ms) (w.step (approveSystem L ms opts) e) := by
  cases e with
  | start c => exact Pool.inv_start h (callOk_body c)
  | die n => exact Pool.inv_die h
  | act m =>
    cases m with
    | land n =>
      cases hn : w.shared.inFlight[n]? with
      | none =>
        have hs : (approveSystem L ms opts).act (.land n) w.shared = w.shared := by
          simp [approveSystem, MultisigEvent.act, hn]
        exact Pool.inv_act h (by rw [hs]; exact h.state) fun p _ hp => by rw [hs]; exact hp
      | some m =>
        have hs : (approveSystem L ms opts).act (.land n) w.shared
            = { w.shared.openOrder m.order.hash m.myIdx with
                inFlight := w.shared.inFlight.eraseIdx n
                created := (m.order.addr, w.shared.nextAddr ms) :: w.shared.created } := by
          simp [approveSystem, MultisigEvent.act, hn]
        obtain ⟨hcreated, hempty | ⟨m', hone, haddr⟩⟩ := h.state
        · rw [hempty] at hn
          cases hn
        · rw [hone] at hn
          obtain ⟨rfl, rfl⟩ : n = 0 ∧ m' = m := by
            cases n with
            | zero => exact ⟨rfl, Option.some.inj hn⟩
            | succ n => cases hn
          refine Pool.inv_act h ?_ fun p hp hok => ?_
          · rw [hs]
            refine ⟨?_, .inl (by rw [hone]; rfl)⟩
            rintro c (_ | ⟨_, hc⟩)
            · exact haddr.symm
            · exact hcreated c hc
          · rw [hs]
            have hun : Unawaited ms w m'.order.hash := hc m' (by rw [hone]; rfl)
            exact (hok.opened (Unawaited.of_thread hun hp)).congr fun a => rfl
    | expire n =>
      refine Pool.inv_act h ⟨h.state.created, ?_⟩ fun p _ hp => hp.congr fun a => rfl
      rcases h.state.inFlight with hempty | ⟨m, hone, haddr⟩
      · exact .inl (by simp [approveSystem, MultisigEvent.act, hempty])
      · cases n with
        | zero => exact .inl (by simp [approveSystem, MultisigEvent.act, hone])
        | succ n => exact .inr ⟨m, by simp [approveSystem, MultisigEvent.act, hone], haddr⟩
    | openOrder hash idx =>
      exact Pool.inv_act h ⟨h.state.created, .inl hc.1⟩ fun p hp hok =>
        hok.opened (Unawaited.of_thread hc.2 hp)
    | approve a idx =>
      refine Pool.inv_act h ⟨h.state.created, ?_⟩ fun p _ hp => hp.congr fun a' => hashAt_approve
      rcases h.state.inFlight with hempty | ⟨m, hone, haddr⟩
      · exact .inl hempty
      · exact .inr ⟨m, hone, haddr.trans nextAddr_approve.symm⟩
  | step n i =>
    refine Pool.inv_step h fun o k hn hself => ?_
    have hframe := exec_frame ms o i w.shared
    have hat : ∀ order myIdx, o = .sendNewOrder order myIdx →
        w.shared.inFlight = [] ∧ order.addr = w.shared.nextAddr ms := by
      rintro order myIdx rfl
      exact hc order myIdx (Pool.standsAt_eq_some.2 ⟨k, hn⟩)
    refine ⟨⟨?_, ?_⟩, ?_, fun m p _ _ hok => hok.congr hframe.1⟩
    · rw [show ((approveSystem L ms opts).exec o i w.shared).1.created = _ from hframe.2.2]
      exact h.state.created
    · by_cases hsend : ∃ order myIdx, o = .sendNewOrder order myIdx
      · obtain ⟨order, myIdx, rfl⟩ := hsend
        obtain ⟨hempty, haddr⟩ := hat order myIdx rfl
        by_cases hout : (i.fails.isNone || i.sentAnyway) = true
        · refine .inr ⟨⟨order, myIdx⟩, ?_, haddr.trans hframe.2.1.symm⟩
          change (if (i.fails.isNone || i.sentAnyway) = true then _ else w.shared).inFlight = _
          rw [if_pos hout, hempty]
          rfl
        · refine .inl ?_
          change (if (i.fails.isNone || i.sentAnyway) = true then _ else w.shared).inFlight = _
          rw [if_neg hout, hempty]
      · have hsame := exec_inFlight ms i w.shared
          fun order myIdx ho => hsend ⟨order, myIdx, ho⟩
        rcases h.state.inFlight with hempty | ⟨m, hone, haddr⟩
        · exact .inl (hsame.trans hempty)
        · exact .inr ⟨m, hsame.trans hone, haddr.trans hframe.2.1.symm⟩
    · obtain ⟨order, hfits⟩ := hself
      refine ⟨order, hfits.asks.2 _, (hfits.bound.2 _).mono fun hbinds => ?_,
        (hfits.seen.2 _).mono fun hshows => ?_⟩
      · exact unspoilt_of_binds hfits.asks.1 hfits.bound.1 (fun myIdx ho => (hat order myIdx ho).2) hbinds
      · exact deployed_of_shows hfits.asks.1 hfits.seen.1 hshows

end OrderBinding

open OrderBinding

/-- In every orderly run each receipt is handed out over the validated body, and each order this
wallet opened is at the address it was pinned to. -/
theorem approved_order_holds_validated_body (L : Libs) (ms : MultisigV2) (opts : GramApproverOpts)
    (orders : List DeployedOrder) {es : List ApproveEvent}
    (h : Runs.Meets (Pool.step (approveSystem L ms opts)) (ApproveOrderly ms)
      (ApproveWorld.init orders) es) :
    (∀ pre e post, es = pre ++ e :: post → ¬ WrongReceipt ms
        (Runs.run (Pool.step (approveSystem L ms opts)) (ApproveWorld.init orders) pre) e)
      ∧ ∀ c ∈ (Runs.run (Pool.step (approveSystem L ms opts)) (ApproveWorld.init orders)
          es).shared.created, c.2 = c.1 := by
  have hinit : Pool.Inv (OwnOrders ms) (CallOk ms) (ApproveWorld.init orders) := {
    state := ⟨fun c (hc : c ∈ []) => absurd hc List.not_mem_nil, .inl rfl⟩
    threads := fun p hp => by cases hp }
  refine ⟨?_, (Runs.run_inv (fun _ _ hw hc => step_inv hw hc) hinit h).state.created⟩
  rintro pre e post rfl
  obtain ⟨hinv, -⟩ := Runs.run_inv_at (fun _ _ hw hc => step_inv hw hc) hinit h
  cases e with
  | step n i =>
    rintro ⟨order, myIdx, role, hat, hwrong⟩
    obtain ⟨k, hk⟩ := Pool.standsAt_eq_some.1 hat
    obtain ⟨order', hfits⟩ := hinv.threads _ (List.mem_of_getElem? hk)
    obtain rfl : order = order' := hfits.asks.1
    obtain ⟨x, hx⟩ := Option.ne_none_iff_exists'.1 (hfits.seen.1 trivial)
    exact hwrong (hx.trans (congrArg some (hfits.bound.1 trivial x hx)))
  | start c => exact id
  | die n => exact id
  | act m => exact id

/-! ## Runs -/

/-- Two operators; the sample order is the first the multisig will create. -/
def sampleMultisig : MultisigV2 where
  orderAddress n := ⟨n, sampleOrderHash⟩
  orderAddress_inj := fun _ _ h => Int.ofNat_inj.1 (congrArg TonAddress.workchain h)
  threshold := 2
  signers := [⟨0, [true]⟩, ⟨0, [false]⟩]

def sampleApprover : GramApproverOpts where
  candidates := [⟨0, [true]⟩]
  maxPolls := 20

/-- The hashes of the two sample orders. -/
def orderLibs : Libs :=
  { sampleLibs with
    orderHash := fun body => match body with
      | .mint .. => some "6d696e74"
      | .giveBack .. => some "6261636b" }

def sampleMintProposal : GramMintProposal where
  actionId := sampleDeposit.id
  toAddress := sampleRecipient
  amountMilliViz := 240000
  orderAddr := sampleOrder
  orderHashHex := "6d696e74"

/-- The call reads the multisig and stands before its `new_order`. -/
def lookRun : List ApproveEvent :=
  .start (.mint sampleMintProposal) :: List.replicate 3 (.step 0 {})

/-- Its message is sent, lands, and is seen; the call returns its receipt. -/
def openRun : List ApproveEvent :=
  lookRun ++ [.step 0 {}, .act (.land 0), .step 0 {}, .step 0 {}, .step 0 {}]

/-- Another operator opens the order first; the call sees that order, and its own message takes the
next number. -/
def takenRun : List ApproveEvent :=
  lookRun ++ [.act (.openOrder "drain" 1), .step 0 {}, .step 0 {}, .step 0 {}]

def samplePinned : PinnedOrder := ⟨⟨0, sampleOrderHash⟩, sampleMintProposal.orderHashHex⟩

theorem foreign_order_gets_receipt :
    WrongReceipt sampleMultisig
        (Runs.run (Pool.step (approveSystem orderLibs sampleMultisig sampleApprover))
          (ApproveWorld.init []) takenRun) (.step 0 {})
      ∧ (samplePinned.addr, ⟨1, sampleOrderHash⟩)
        ∈ (Runs.run (Pool.step (approveSystem orderLibs sampleMultisig sampleApprover))
          (ApproveWorld.init []) (takenRun ++ [.act (.land 0)])).shared.created :=
  ⟨⟨samplePinned, 0, .propose, by decide +kernel, by decide +kernel⟩, by decide +kernel⟩

theorem approve_orderly_step {ms : MultisigV2} {w : ApproveWorld} {n : ℕ} {i : ApproveInput}
    (o : ApproveOp) (h : w.standsAt n = some o)
    (hsend : ∀ order myIdx, o = .sendNewOrder order myIdx →
      w.shared.inFlight = [] ∧ order.addr = w.shared.nextAddr ms) :
    ApproveOrderly ms w (.step n i) := by
  intro order myIdx h'
  rw [h] at h'
  exact hsend order myIdx (Option.some.inj h')

theorem openRun_orderly :
    Runs.Meets (Pool.step (approveSystem orderLibs sampleMultisig sampleApprover))
      (ApproveOrderly sampleMultisig) (ApproveWorld.init []) openRun := by
  refine ⟨trivial, approve_orderly_step .getMultisigData (by decide +kernel) nofun,
    approve_orderly_step (.isInited samplePinned .first) (by decide +kernel) nofun,
    approve_orderly_step (.getOrderAddress 0) (by decide +kernel) nofun,
    approve_orderly_step (.sendNewOrder samplePinned 0) (by decide +kernel) ?_, ?_,
    approve_orderly_step (.beforeDeadline samplePinned .opened) (by decide +kernel) nofun,
    approve_orderly_step (.isInited samplePinned .opened) (by decide +kernel) nofun,
    approve_orderly_step (.receipt samplePinned 0 .propose) (by decide +kernel) nofun, trivial⟩
  · rintro order myIdx h
    cases h
    exact ⟨by decide +kernel, by decide +kernel⟩
  · rintro m hm n o order hat hawait -
    cases hm.symm.trans (show _ = some ⟨samplePinned, 0⟩ by decide +kernel)
    cases n with
    | zero =>
      cases hat.symm.trans (show _ = some (.beforeDeadline samplePinned .opened) by decide +kernel)
      cases hawait
      rfl
    | succ n =>
      refine absurd (hat.symm.trans (Pool.standsAt_of_length_le (Nat.le_trans (m := 1) ?_
        (Nat.le_add_left 1 n)))) (Option.some_ne_none _)
      decide +kernel

theorem approved_order_holds_validated_body_sample :
    (∀ pre e post, openRun = pre ++ e :: post → ¬ WrongReceipt sampleMultisig
        (Runs.run (Pool.step (approveSystem orderLibs sampleMultisig sampleApprover))
          (ApproveWorld.init []) pre) e)
      ∧ ∀ c ∈ (Runs.run (Pool.step (approveSystem orderLibs sampleMultisig sampleApprover))
          (ApproveWorld.init []) openRun).shared.created, c.2 = c.1 :=
  approved_order_holds_validated_body orderLibs sampleMultisig sampleApprover [] openRun_orderly

end VizGateway
