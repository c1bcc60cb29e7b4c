import VizGateway.Watchers

/-!
# What a watcher's calls keep

But for the write of its cursor, nothing a watcher calls moves the cursor back or takes a row away;
of the others only a deletion takes one.
-/

namespace VizGateway

open Watch ActionStatus

namespace WatchSteps

/-- What everyone keeps, the write of the cursor apart: the cursor, the blocks read, and the rows of
the ids in `K`. -/
structure Grows (K : String → Prop) (s t : WatchState) : Prop where
  cursor : t.cursor = s.cursor
  scanned : s.scanned ⊆ t.scanned
  rows : ∀ id, K id → (s.outbox.get id).isSome = true → (t.outbox.get id).isSome = true

variable {K : String → Prop}

theorem Grows.refl (s : WatchState) : Grows K s s := ⟨rfl, fun _ => id, fun _ _ => id⟩

theorem Grows.trans {s t u : WatchState} (h : Grows K s t) (h' : Grows K t u) : Grows K s u :=
  ⟨h'.cursor.trans h.cursor, fun _ hb => h'.scanned (h.scanned hb),
    fun id hid hs => h'.rows id hid (h.rows id hid hs)⟩

/-- No call but a deletion takes a row away. -/
theorem isSome_exec (clock : ℤ) (o : StoreOp) {s : Outbox} {id : String}
    (ho : ∀ d, o = .delete d → d ≠ id) (h : (s.get id).isSome = true) :
    ((o.exec clock s).1.get id).isSome = true := by
  cases o with
  | enqueue input =>
    simp only [StoreOp.exec, Outbox.get_enqueue]
    split_ifs
    · rfl
    · exact h
  | setStatus id' status patch =>
    simp only [StoreOp.exec, Outbox.get_setStatus]
    split_ifs <;> simpa using h
  | setFee id' fee =>
    simp only [StoreOp.exec, Outbox.setFee, Outbox.get_modify]
    split_ifs <;> simpa using h
  | delete d =>
    simp only [StoreOp.exec, Outbox.get_delete]
    rw [if_neg (Ne.symm (ho d rfl))]
    exact h
  | _ => exact h

theorem grows_act {m : OutsideAct} (hm : ∀ clock id, m = .store clock (.delete id) → ¬ K id)
    (s : WatchState) : Grows K s (m.apply s) := by
  cases m with
  | store clock o =>
    refine ⟨rfl, fun _ => id, fun id hid => isSome_exec clock o ?_⟩
    rintro d rfl rfl
    exact hm clock d rfl hid
  | cap clock o => exact ⟨rfl, fun _ => id, fun _ _ => id⟩
  | unpause => exact ⟨rfl, fun _ => id, fun _ _ => id⟩

/-- Neither a write of the cursor nor a deletion. -/
def Plain : WatchOp → Prop
  | .setCursor _ | .store (.delete _) => False
  | _ => True

theorem grows_exec {o : WatchOp} (ho : Plain o) (i : WatchInput) (s : WatchState) :
    Grows K s (o.exec i s).1 := by
  unfold WatchOp.exec
  split
  · exact Grows.refl s
  · cases o with
    | store o =>
      refine ⟨rfl, fun _ => id, fun id _ => isSome_exec i.clock o ?_⟩
      rintro d rfl
      exact ho.elim
    | setCursor value => exact ho.elim
    | tryReserveSenderRate sender maxPerWindow windowMs now =>
      simp only [WatchOp.run, WatchState.tryReserveSenderRate]
      split <;> exact ⟨rfl, fun _ => id, fun _ _ => id⟩
    | getOpsInBlock b => exact ⟨rfl, List.subset_cons_self _ _, fun _ _ => id⟩
    | _ => exact ⟨rfl, fun _ => id, fun _ _ => id⟩

/-- A claim that answers has its row. -/
theorem claimed_enqueue (input : EnqueueInput) {i : WatchInput} {s : WatchState} {first : Bool}
    (h : (WatchOp.exec (.store (.enqueue input)) i s).2 = .ok first) :
    ((WatchOp.exec (.store (.enqueue input)) i s).1.outbox.get input.id).isSome = true := by
  unfold WatchOp.exec at h ⊢
  split at h
  · cases h
  · simp [WatchOp.run, StoreOp.exec, Outbox.get_enqueue]

/-! ## The calls of the shared programs -/

section Uses

variable {A : WatchOp → Prop}

theorem uses_capDecision (hcap : ∀ o, A (.cap o))
    (hset : ∀ id status patch, A (.store (.setStatus id status patch)))
    (hpause : ∀ reason, A (.store (.pause reason))) (policy : CapPolicy) (reason id : String)
    (amount : ℤ) : Prog.Uses A (capDecision policy reason id amount) := by
  refine Prog.uses_bind (Prog.uses_translate (fun o => Prog.uses_ask (hcap o)) _) fun decision => ?_
  cases decision with
  | none => exact Prog.uses_ask (hset ..)
  | some rejection =>
    refine Prog.uses_bind (Prog.uses_ask (hset ..)) fun _ => ?_
    exact Prog.uses_ite (Prog.uses_ask (hpause _)) trivial

theorem uses_recoverStaleSeen (hcap : ∀ o, A (.cap o))
    (hset : ∀ id status patch, A (.store (.setStatus id status patch)))
    (hpause : ∀ reason, A (.store (.pause reason)))
    (hstale : ∀ now ageMs statuses, A (.store (.stale now ageMs statuses))) (policy : CapPolicy)
    (now : ℤ) (isMine : OutboxRecord → Bool) (reason : String) :
    Prog.Uses A (recoverStaleSeen policy now isMine reason) :=
  Prog.uses_bind (Prog.uses_ask (hstale ..)) fun _ =>
    Prog.uses_forEach (fun _ => uses_capDecision hcap hset hpause ..) _

end Uses

end WatchSteps

end VizGateway
