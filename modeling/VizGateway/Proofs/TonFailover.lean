import VizGateway.TonRing

/-!
# Whether one pass finds a healthy endpoint

How far the index is from a healthy endpoint is at most the number of attempts a read has left. A
failed attempt uses one up and moves the index one on, which keeps the bound while the index rests
on an endpoint that is down; a read that fails after another has moved the index to a healthy one
moves it past.
-/

namespace VizGateway

open Prog TonOp

/-- A read that asks only the endpoint the index names, passes a transient error on and does not
throw otherwise. -/
def ReadsClient {Q : Type} {A : Q → Type} {α : Type} : List ℕ → TonProg Q A α → Prop
  | _, .ret _ => True
  | _, .throw _ => False
  | known, .call .index k => ∀ idx, ReadsClient (idx :: known) (k (.ok idx))
  | _, .call .rotate _ | _, .call (.sleep _) _ => False
  | known, .call (.request endpoint _) k => endpoint ∈ known ∧
    (∀ a, ReadsClient known (k (.ok a))) ∧
    ∀ err, isTransientTonError err = true → k (.error err) = .throw err

theorem readsClient_readHeight : ReadsClient [] readHeight :=
  fun _ => ⟨List.mem_cons_self, fun _ => trivial, fun _ _ => rfl⟩

section

variable (clients : ℕ) (up : ℕ → Prop)

/-- A healthy endpoint so many steps from the index at most. -/
def Near (idx k : ℕ) : Prop := ∃ d ≤ k, up ((idx + d) % clients)

variable {clients up} {idx k : ℕ}

theorem near_of_up {h : ℕ} (hidx : idx < clients) (hh : h < clients) (hup : up h) :
    Near clients up idx (clients - 1) := by
  rcases le_or_gt idx h with hle | hlt
  · refine ⟨h - idx, by omega, ?_⟩
    rwa [Nat.add_sub_of_le hle, Nat.mod_eq_of_lt hh]
  · refine ⟨h + clients - idx, by omega, ?_⟩
    rwa [show idx + (h + clients - idx) = h + clients by omega, Nat.add_mod_right,
      Nat.mod_eq_of_lt hh]

theorem up_of_near (hidx : idx < clients) (h : Near clients up idx 0) : up idx := by
  obtain ⟨d, hd, hup⟩ := h
  rwa [Nat.le_zero.1 hd, add_zero, Nat.mod_eq_of_lt hidx] at hup

/-- Off an endpoint that is down the index comes nearer. -/
theorem near_rotate (hidx : idx < clients) (hdown : ¬ up idx) (h : Near clients up idx (k + 1)) :
    Near clients up ((idx + 1) % clients) k := by
  obtain ⟨d, hd, hup⟩ := h
  cases d with
  | zero =>
    rw [add_zero, Nat.mod_eq_of_lt hidx] at hup
    exact absurd hup hdown
  | succ d =>
    refine ⟨d, by omega, ?_⟩
    rwa [Nat.mod_add_mod, show idx + 1 + d = idx + (d + 1) by omega]

theorem Near.mono {k' : ℕ} (h : Near clients up idx k) (hle : k ≤ k') : Near clients up idx k' := by
  obtain ⟨d, hd, hup⟩ := h
  exact ⟨d, hd.trans hle, hup⟩

theorem Near.rotate (hidx : idx < clients) (hdown : ¬ up idx) (h : Near clients up idx k) :
    Near clients up ((idx + 1) % clients) k :=
  (near_rotate hidx hdown (h.mono (Nat.le_succ k)))

end

section

variable {Q : Type} {A : Q → Type} {α : Type} (clients : ℕ) (up : ℕ → Prop) (fn : TonProg Q A α)

/-- Where a read stands that can still succeed, the index being at `idx`. -/
inductive OnPass (idx : ℕ) : TonProg Q A α → Prop
  | returned (a : α) : OnPass idx (.ret a)
  | reading {left : ℕ} {known : List ℕ} {p : TonProg Q A α} (hreads : ReadsClient known p)
    (hnear : Near clients up idx left) (hknown : left = 0 → ∀ e ∈ known, up e) :
    OnPass idx (p.handle (afterAttempt clients left (tonAttempts clients fn left)))
  | rotating {left : ℕ} {p : TonProg Q A α} (hnear : Near clients up idx (left + 1))
    (hp : p = askRotate >>= fun _ =>
      askSleep (TON_RETRY_BASE_MS * 2 ^ (clients - (left + 1) - 1)) >>= fun _ =>
        tonAttempts clients fn (left + 1)) : OnPass idx p
  | sleeping {left ms : ℕ} {p : TonProg Q A α} (hnear : Near clients up idx left)
    (hp : p = askSleep ms >>= fun _ => tonAttempts clients fn (left + 1)) : OnPass idx p

variable {clients up fn} {idx : ℕ} {p : TonProg Q A α}

/-- The index moves nearer under a read that waits. -/
theorem OnPass.rotate (hidx : idx < clients) (hdown : ¬ up idx) (h : OnPass clients up fn idx p) :
    OnPass clients up fn ((idx + 1) % clients) p := by
  cases h with
  | returned a => exact .returned a
  | reading hreads hnear hknown => exact .reading hreads (hnear.rotate hidx hdown) hknown
  | rotating hnear hp => exact .rotating (hnear.rotate hidx hdown) hp
  | sleeping hnear hp => exact .sleeping (hnear.rotate hidx hdown) hp

theorem onPass_tonAttempts {left : ℕ} (hfn : ReadsClient [] fn) (hnear : Near clients up idx left) :
    OnPass clients up fn idx (tonAttempts clients fn (left + 1)) :=
  .reading hfn hnear fun _ e he => absurd he List.not_mem_nil

theorem OnPass.ne_throw (h : OnPass clients up fn idx p) (err : String) : p ≠ .throw err := by
  intro hp
  cases h with
  | returned a => cases hp
  | @reading left known p hreads hnear hknown =>
    cases p with
    | ret a => cases hp
    | throw e => exact hreads
    | call o k => cases hp
  | rotating hnear hself =>
    rw [hself] at hp
    cases hp
  | sleeping hnear hself =>
    rw [hself] at hp
    cases hp

variable [DecidablePred up]

/-- One operation of a read in the middle of an attempt. -/
theorem onPass_reading (hidx : idx < clients) {left : ℕ} {known : List ℕ} {o : TonOp Q}
    {k : Except String (TonOp.Ans A o) → TonProg Q A α}
    (hreads : ReadsClient known (.call o k)) (hnear : Near clients up idx left)
    (hknown : left = 0 → ∀ e ∈ known, up e) (i : TonInput Q A) :
    OnPass clients up fn (ringExec clients up o i idx).1
      ((k (ringExec clients up o i idx).2).handle
        (afterAttempt clients left (tonAttempts clients fn left))) := by
  cases o with
  | index =>
    refine .reading (hreads idx) hnear fun hlast e he => ?_
    rcases List.mem_cons.1 he with rfl | he
    · exact up_of_near hidx (hlast ▸ hnear)
    · exact hknown hlast e he
  | rotate => exact hreads.elim
  | sleep ms => exact hreads.elim
  | request endpoint q =>
    obtain ⟨hmem, hok, herror⟩ := hreads
    simp only [ringExec]
    split_ifs with hup
    · exact .reading (hok _) hnear hknown
    · rw [herror _ i.transient]
      cases left with
      | zero => exact absurd (hknown rfl endpoint hmem) hup
      | succ left =>
        refine .rotating hnear ?_
        simp only [handle, afterAttempt, i.transient]
        rw [if_neg (by simp)]

/-- One operation of a read; the index moves only off an endpoint that is down. -/
theorem onPass_step (hfn : ReadsClient [] fn) (hidx : idx < clients) {o : TonOp Q}
    {k : Except String (TonOp.Ans A o) → TonProg Q A α} (h : OnPass clients up fn idx (.call o k))
    (hdown : o = .rotate → ¬ up idx) (i : TonInput Q A) :
    OnPass clients up fn (ringExec clients up o i idx).1 (k (ringExec clients up o i idx).2) := by
  generalize hp : Prog.call o k = p at h
  cases h with
  | returned a => cases hp
  | @reading left known p hreads hnear hknown =>
    cases p with
    | ret a => cases hp
    | throw e => exact False.elim hreads
    | call o' k' =>
      cases hp
      exact onPass_reading hidx hreads hnear hknown i
  | rotating hnear hself =>
    rw [hself] at hp
    cases hp
    exact .sleeping (near_rotate hidx (hdown rfl) hnear) rfl
  | sleeping hnear hself =>
    rw [hself] at hp
    cases hp
    exact onPass_tonAttempts hfn hnear

end

/-! ## Reads side by side -/

section

variable {Q : Type} {A : Q → Type} {ρ : Type} {Out : ρ → Type}

abbrev TonReads (Q : Type) (A : Q → Type) (ρ : Type) (Out : ρ → Type) :=
  Sessions (TonOp Q) (TonOp.Ans A) String ℕ ρ Out

/-- The read is about to move the index. -/
def movesIndex (w : TonReads Q A ρ Out) (n : ℕ) : Bool :=
  match w.live n with
  | some ⟨_, .call .rotate _⟩ => true
  | _ => false

/-- A read moves the index only while it rests on an endpoint that is down. -/
def LeavesDown (up : ℕ → Prop) (w : TonReads Q A ρ Out) : SessionEvent ρ (TonInput Q A) → Prop
  | .step n _ => movesIndex w n = true → ¬ up w.shared
  | _ => True

instance (up : ℕ → Prop) [DecidablePred up] (w : TonReads Q A ρ Out)
    (e : SessionEvent ρ (TonInput Q A)) : Decidable (LeavesDown up w e) := by
  unfold LeavesDown
  split <;> infer_instance

variable {clients : ℕ} {up : ℕ → Prop} [DecidablePred up] {fn : (r : ρ) → TonProg Q A (Out r)}

/-- Every read can still succeed. -/
def AllOnPass (clients : ℕ) (up : ℕ → Prop) (fn : (r : ρ) → TonProg Q A (Out r))
    (w : TonReads Q A ρ Out) : Prop :=
  w.shared < clients ∧ ∀ n r p, w.live n = some ⟨r, p⟩ → OnPass clients up (fn r) w.shared p

theorem allOnPass_step (hup : ∃ h < clients, up h) (hfn : ∀ r, ReadsClient [] (fn r))
    {w : TonReads Q A ρ Out} (h : AllOnPass clients up fn w) {e : SessionEvent ρ (TonInput Q A)}
    (hc : LeavesDown up w e) : AllOnPass clients up fn (w.step (tonReads clients up fn) e) := by
  obtain ⟨hidx, hcalls⟩ := h
  rcases Sessions.step_cases (S := tonReads clients up fn) w e with
    ⟨n, i, r, o, k, rfl, hn⟩ | ⟨hshared, hlive⟩
  · have hdown : o = .rotate → ¬ up w.shared := by
      rintro rfl
      exact hc (by rw [movesIndex, hn])
    rw [Sessions.step_at hn]
    refine ⟨?_, fun m r' p hm => ?_⟩
    · cases o with
      | rotate => exact Nat.mod_lt _ (by omega)
      | index | sleep ms | request endpoint q => exact hidx
    · simp only [Sessions.live, List.getElem?_set] at hm
      split_ifs at hm with hmn hlt
      · cases hm
        exact onPass_step (hfn r) hidx (hcalls n r _ hn) hdown i
      · cases hm
      · have hm := hcalls m r' p hm
        cases o with
        | rotate => exact hm.rotate hidx (hdown rfl)
        | index | sleep ms | request endpoint q => exact hm
  · refine ⟨hshared ▸ hidx, fun n r p hn => ?_⟩
    rw [hshared]
    rcases hlive n r p hn with hn | ⟨-, -, rfl⟩
    · exact hcalls n r p hn
    · obtain ⟨c, rfl⟩ : ∃ c, clients = c + 1 := ⟨clients - 1, by omega⟩
      obtain ⟨h, hlt, hh⟩ := hup
      exact onPass_tonAttempts (hfn r) (near_of_up hidx hlt hh)

theorem allOnPass_run (hup : ∃ h < clients, up h) (hfn : ∀ r, ReadsClient [] (fn r)) {idx : ℕ}
    (hidx : idx < clients) {es : List (SessionEvent ρ (TonInput Q A))}
    (hm : Runs.Meets (Sessions.step (tonReads clients up fn)) (LeavesDown up) ⟨idx, []⟩ es) :
    AllOnPass clients up fn (Runs.run (Sessions.step (tonReads clients up fn)) ⟨idx, []⟩ es) :=
  Runs.run_inv (fun _ _ h hc => allOnPass_step hup hfn h hc) ⟨hidx, nofun⟩ hm

/-- While the index is moved only off endpoints that are down, no read throws, and a read that is
always scheduled again returns. -/
theorem tonCall_failover (hup : ∃ h < clients, up h) (hfn : ∀ r, ReadsClient [] (fn r)) {idx : ℕ}
    (hidx : idx < clients) :
    (∀ es, Runs.Meets (Sessions.step (tonReads clients up fn)) (LeavesDown up) ⟨idx, []⟩ es →
      ∀ n r p, (Runs.run (Sessions.step (tonReads clients up fn)) ⟨idx, []⟩ es).live n = some ⟨r, p⟩ →
        ∀ err, p ≠ .throw err) ∧
    ∀ es : ℕ → SessionEvent ρ (TonInput Q A),
      (∀ t, Runs.Meets (Sessions.step (tonReads clients up fn)) (LeavesDown up) ⟨idx, []⟩
        ((List.range t).map es)) →
      ∀ n, (∀ t, ∃ u ≥ t, ∃ i, es u = .step n i) → (∀ t, es t ≠ .die n) →
        ∀ t r p, (Sessions.after (tonReads clients up fn) ⟨idx, []⟩ es t).live n = some ⟨r, p⟩ →
          ∃ u ≥ t, ∃ a, (Sessions.after (tonReads clients up fn) ⟨idx, []⟩ es u).live n =
            some ⟨r, .ret a⟩ := by
  have hsafe : ∀ es, Runs.Meets (Sessions.step (tonReads clients up fn)) (LeavesDown up) ⟨idx, []⟩ es →
      ∀ n r p, (Runs.run (Sessions.step (tonReads clients up fn)) ⟨idx, []⟩ es).live n = some ⟨r, p⟩ →
        ∀ err, p ≠ .throw err := fun es hm n r p hn err =>
    ((allOnPass_run hup hfn hidx hm).2 n r p hn).ne_throw err
  refine ⟨hsafe, fun es hm n hfair hdie t r p hn => ?_⟩
  obtain ⟨u, hu, q, hq, hended⟩ := Sessions.ends hfair hdie hn
  refine ⟨u, hu, ?_⟩
  cases q with
  | ret a => exact ⟨a, hq⟩
  | throw err => exact absurd rfl (hsafe _ (hm u) n r _ hq err)
  | call o k => cases hended

end

/-! Two endpoints, the first down, and two reads of the height that fail at it one after the other:
the second failure takes the index past the endpoint the first had brought it to. -/

private def sampleHeight : TonInput Unit fun _ => ℕ where
  answer _ := 49500123
  err := "Request failed with status code 502"
  transient := by decide +kernel

private def sampleStep (n : ℕ) : SessionEvent Unit (TonInput Unit fun _ => ℕ) := .step n sampleHeight

private def sampleHeights : SessionSystem (TonOp Unit) (TonOp.Ans fun _ => ℕ) String ℕ Unit
    (fun _ => ℕ) (TonInput Unit fun _ => ℕ) :=
  tonReads 2 (· = 1) fun _ => readHeight

theorem both_rotate :
    ((Runs.run (Sessions.step sampleHeights) ⟨0, []⟩ ([.call (), .call ()] ++
      [0, 1, 0, 0, 1, 1, 0, 0, 0].map sampleStep)).live 0).map (·.2.thrown) =
        some (some "Request failed with status code 502") := by
  decide +kernel

/-- One read, scheduled again for ever. -/
private def sampleSchedule : ℕ → SessionEvent Unit (TonInput Unit fun _ => ℕ)
  | 0 => .call ()
  | _ + 1 => sampleStep 0

private theorem sample_over (d : ℕ) :
    Sessions.after sampleHeights ⟨0, []⟩ sampleSchedule (d + 7) =
      Sessions.after sampleHeights ⟨0, []⟩ sampleSchedule 7 := by
  induction d with
  | zero => rfl
  | succ d ih =>
    rw [Nat.add_right_comm, Sessions.after_succ, ih]
    rfl

theorem tonCall_failover_sample :
    ∃ u ≥ 1, ∃ a, (Sessions.after sampleHeights ⟨0, []⟩ sampleSchedule u).live 0 =
      some ⟨(), .ret a⟩ := by
  have hmeets : ∀ t, LeavesDown (· = 1)
      (Sessions.after sampleHeights ⟨0, []⟩ sampleSchedule t) (sampleSchedule t) := by
    intro t
    rcases Nat.lt_or_ge t 7 with hlt | hge
    · revert t
      decide +kernel
    · obtain ⟨d, rfl⟩ := Nat.exists_eq_add_of_le' hge
      rw [sample_over]
      exact nofun
  have hup : ∃ h < 2, h = 1 := ⟨1, by decide, rfl⟩
  have hidx : 0 < 2 := by decide
  have hfn : ∀ _ : Unit, ReadsClient [] readHeight := fun _ => readsClient_readHeight
  exact (tonCall_failover hup hfn hidx).2 sampleSchedule (Runs.meets_range hmeets) 0
    (fun t => ⟨t + 1, by omega, sampleHeight, rfl⟩) (fun t => by cases t <;> nofun) 1 () _ rfl

end VizGateway
