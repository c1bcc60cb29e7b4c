import VizGateway.Lib.Runs

/-!
# Cursors with several writers

`setCursor` reads the stored cursor, returns if it is not below the new value, and else writes the
value: two operations, with other calls between them. A call whose guard was passed before another
one wrote a larger value writes the cursor back (`stale_writer_moves_cursor_back`), and no other
call does (`cursor_monotone_iff`).
-/

namespace VizGateway

open Runs

/-- How far a call of `setCursor` has come: before its read, or past its guard with what had been
written at its read, or returned. -/
inductive CursorPhase
  | reading
  | writing (mark : ℕ)
  | returned
  deriving DecidableEq, Repr

structure CursorCall where
  name : String
  value : ℤ
  phase : CursorPhase
  deriving DecidableEq, Repr

/-- The cursors of a store, the calls made on it, and the writes carried out so far. -/
structure CursorStore where
  gatewayState : String → Option ℤ
  calls : List CursorCall
  writes : List (String × ℤ)

/-- A process calls `setCursor`, a call carries out its next operation, or its process dies. -/
inductive CursorEvent
  | call (name : String) (value : ℤ)
  | step (n : ℕ)
  | die (n : ℕ)
  deriving DecidableEq, Repr

namespace CursorStore

/-- No cursor is moved yet by any call. -/
def ofState (gatewayState : String → Option ℤ) : CursorStore := ⟨gatewayState, [], []⟩

/-- `getCursor`. -/
def getCursor (s : CursorStore) (name : String) : ℤ := (s.gatewayState name).getD 0

/-- `setKey`, the unconditional upsert. -/
def setKey (s : CursorStore) (name : String) (value : ℤ) : CursorStore :=
  { s with
    gatewayState := Function.update s.gatewayState name (some value)
    writes := s.writes ++ [(name, value)] }

/-- The call at `n` goes on to a phase. -/
def goOn (s : CursorStore) (n : ℕ) (c : CursorCall) (phase : CursorPhase) : CursorStore :=
  { s with calls := s.calls.set n { c with phase } }

def step (s : CursorStore) : CursorEvent → CursorStore
  | .call name value => { s with calls := s.calls ++ [⟨name, value, .reading⟩] }
  | .die n => { s with calls := s.calls.eraseIdx n }
  | .step n =>
    match s.calls[n]? with
    | none => s
    | some c =>
      match c.phase with
      | .reading =>
        if c.value ≤ s.getCursor c.name then s.goOn n c .returned
        else s.goOn n c (.writing s.writes.length)
      | .writing _ => (s.setKey c.name c.value).goOn n c .returned
      | .returned => s

/-- The step moves no cursor back. -/
def Forward (s : CursorStore) (e : CursorEvent) : Prop :=
  ∀ name, s.getCursor name ≤ (s.step e).getCursor name

/-- A call at its write has not been overtaken: no larger value was written to its cursor since its
read. -/
def NotOvertaken (s : CursorStore) : CursorEvent → Prop
  | .step n => ∀ c mark, s.calls[n]? = some c → c.phase = .writing mark →
      ∀ w ∈ s.writes.drop mark, w.1 = c.name → w.2 ≤ c.value
  | _ => True

/-- A call past its guard that was not overtaken is still ahead of its cursor, and no write is
ahead of the cursor it went to. -/
structure Inv (s : CursorStore) : Prop where
  guard : ∀ c ∈ s.calls, ∀ mark, c.phase = .writing mark → mark ≤ s.writes.length ∧
    ((∀ w ∈ s.writes.drop mark, w.1 = c.name → w.2 ≤ c.value) → s.getCursor c.name ≤ c.value)
  written : ∀ w ∈ s.writes, w.2 ≤ s.getCursor w.1

/-! ## One step -/

variable {s : CursorStore}

@[simp] theorem getCursor_goOn (n : ℕ) (c : CursorCall) (phase : CursorPhase) (name : String) :
    (s.goOn n c phase).getCursor name = s.getCursor name := rfl

@[simp] theorem writes_goOn (n : ℕ) (c : CursorCall) (phase : CursorPhase) :
    (s.goOn n c phase).writes = s.writes := rfl

theorem getCursor_setKey (name : String) (value : ℤ) (name' : String) :
    (s.setKey name value).getCursor name' = if name' = name then value else s.getCursor name' := by
  unfold getCursor setKey
  by_cases h : name' = name
  · subst h
    simp
  · simp [h]

theorem mem_goOn {n : ℕ} {c d : CursorCall} {phase : CursorPhase}
    (h : d ∈ (s.goOn n c phase).calls) : d ∈ s.calls ∨ d = { c with phase } :=
  List.mem_or_eq_of_mem_set h

/-- What a step does. -/
theorem step_cases (s : CursorStore) (e : CursorEvent) :
    ((∀ n c mark, e = .step n → s.calls[n]? = some c → c.phase ≠ .writing mark) ∧
      (s.step e).gatewayState = s.gatewayState ∧ (s.step e).writes = s.writes ∧
      ∀ d ∈ (s.step e).calls, d ∈ s.calls ∨ (∀ mark, d.phase ≠ .writing mark) ∨
        d.phase = .writing s.writes.length ∧ s.getCursor d.name < d.value) ∨
    ∃ n c mark, e = .step n ∧ s.calls[n]? = some c ∧ c.phase = .writing mark ∧
      s.step e = (s.setKey c.name c.value).goOn n c .returned := by
  rcases e with ⟨name, value⟩ | n | n
  · refine .inl ⟨by simp, rfl, rfl, fun d hd => ?_⟩
    rcases List.mem_append.1 hd with hd | hd
    · exact .inl hd
    · rw [List.mem_singleton.1 hd]
      exact .inr (.inl (by simp))
  · rcases hc : s.calls[n]? with _ | c
    · have hs : s.step (.step n) = s := by simp [step, hc]
      rw [hs]
      refine .inl ⟨?_, rfl, rfl, fun d hd => .inl hd⟩
      rintro m d mark ⟨⟩ hd
      simp [hc] at hd
    have hphase : ∀ m d mark, CursorEvent.step n = .step m → s.calls[m]? = some d →
        d.phase = .writing mark → c.phase = .writing mark := by
      rintro m d mark ⟨⟩ hd hp
      rw [hc, Option.some.injEq] at hd
      rwa [hd]
    rcases hp : c.phase with _ | mark | _
    · left
      have hnot : ∀ m d mark, CursorEvent.step n = .step m → s.calls[m]? = some d →
          d.phase ≠ .writing mark := fun m d mark he hd hw => by
        simpa [hp] using hphase m d mark he hd hw
      by_cases hle : c.value ≤ s.getCursor c.name
      · have hs : s.step (.step n) = s.goOn n c .returned := by simp [step, hc, hp, hle]
        rw [hs]
        refine ⟨hnot, rfl, rfl, fun d hd => ?_⟩
        rcases mem_goOn hd with hd | rfl
        · exact .inl hd
        · exact .inr (.inl (by simp))
      · have hs : s.step (.step n) = s.goOn n c (.writing s.writes.length) := by
          simp [step, hc, hp, hle]
        rw [hs]
        refine ⟨hnot, rfl, rfl, fun d hd => ?_⟩
        rcases mem_goOn hd with hd | rfl
        · exact .inl hd
        · exact .inr (.inr ⟨rfl, by simpa using hle⟩)
    · exact .inr ⟨n, c, mark, rfl, hc, hp, by simp [step, hc, hp]⟩
    · have hs : s.step (.step n) = s := by simp [step, hc, hp]
      rw [hs]
      refine .inl ⟨fun m d mark he hd hw => ?_, rfl, rfl, fun d hd => .inl hd⟩
      simpa [hp] using hphase m d mark he hd hw
  · exact .inl ⟨by simp, rfl, rfl, fun d hd => .inl (List.mem_of_mem_eraseIdx hd)⟩

theorem inv_ofState (gatewayState : String → Option ℤ) : (ofState gatewayState).Inv :=
  ⟨by simp [ofState], by simp [ofState]⟩

/-- Only the write of an overtaken call moves a cursor back. -/
theorem forward_iff (h : s.Inv) (e : CursorEvent) : s.Forward e ↔ s.NotOvertaken e := by
  rcases step_cases s e with ⟨hnot, hstate, -, -⟩ | ⟨n, c, mark, rfl, hc, hp, hs⟩
  · have hforward : s.Forward e := fun name => by simp [getCursor, hstate]
    refine iff_of_true hforward ?_
    rcases e with _ | n | _
    · trivial
    · exact fun c mark hc hp => absurd hp (hnot n c mark rfl hc)
    · trivial
  · obtain ⟨hmark, hguard⟩ := h.guard c (List.mem_of_getElem? hc) mark hp
    constructor
    · intro hf c' mark' hc' hp' w hw hname
      rw [hc, Option.some.injEq] at hc'
      subst hc'
      have hle := hf c.name
      rw [hs, getCursor_goOn, getCursor_setKey, if_pos rfl] at hle
      have := h.written w (List.mem_of_mem_drop hw)
      rw [hname] at this
      omega
    · intro hn name
      have hle := hguard (hn c mark hc hp)
      rw [hs, getCursor_goOn, getCursor_setKey]
      by_cases hname : name = c.name
      · rw [if_pos hname, hname]
        exact hle
      · rw [if_neg hname]

theorem inv_step (h : s.Inv) {e : CursorEvent} (hf : s.Forward e) : (s.step e).Inv := by
  have hwritten : ∀ w ∈ s.writes, w.2 ≤ (s.step e).getCursor w.1 :=
    fun w hw => (h.written w hw).trans (hf w.1)
  rcases step_cases s e with ⟨-, hstate, hwrites, hcalls⟩ | ⟨n, c, mark, rfl, hc, hp, hs⟩
  · have hcursor : ∀ name, (s.step e).getCursor name = s.getCursor name := fun name => by
      simp [getCursor, hstate]
    refine ⟨fun d hd m hm => ?_, by rwa [hwrites]⟩
    rw [hwrites, hcursor]
    rcases hcalls d hd with hd | hd | ⟨hd, hlt⟩
    · exact h.guard d hd m hm
    · exact absurd hm (hd m)
    · rw [hd, CursorPhase.writing.injEq] at hm
      subst hm
      exact ⟨le_rfl, fun _ => hlt.le⟩
  · rw [hs] at hwritten ⊢
    refine ⟨fun d hd m hm => ?_, fun w hw => ?_⟩
    · rw [writes_goOn, getCursor_goOn, getCursor_setKey]
      rcases mem_goOn hd with hd | rfl
      · obtain ⟨hlen, hguard⟩ := h.guard d hd m hm
        have hdrop : (s.setKey c.name c.value).writes.drop m =
            s.writes.drop m ++ [(c.name, c.value)] :=
          List.drop_append_of_le_length hlen
        refine ⟨by simp [setKey]; omega, fun hw => ?_⟩
        rw [hdrop] at hw
        by_cases hname : d.name = c.name
        · rw [if_pos hname]
          exact hw (c.name, c.value) (by simp) hname.symm
        · rw [if_neg hname]
          exact hguard fun w hmem => hw w (List.mem_append_left _ hmem)
      · simp at hm
    · rw [writes_goOn] at hw
      rcases List.mem_append.1 hw with hw | hw
      · exact hwritten w hw
      · rw [List.mem_singleton.1 hw, getCursor_goOn, getCursor_setKey, if_pos rfl]

/-! ## Runs -/

/-- Along a run no cursor moves back exactly when no call writes after it was overtaken. -/
theorem cursor_monotone_iff (gatewayState : String → Option ℤ) (es : List CursorEvent) :
    Meets step Forward (ofState gatewayState) es ↔
      Meets step NotOvertaken (ofState gatewayState) es :=
  meets_congr_of_inv (fun _ e h => forward_iff h e) (fun _ _ h hf => inv_step h hf)
    (inv_ofState gatewayState)

/-- Two calls read the unset cursor; the one with the smaller value writes last. -/
def overtaken : List CursorEvent :=
  [.call "cursor:viz" 5, .call "cursor:viz" 9, .step 0, .step 1, .step 1, .step 0]

theorem stale_writer_moves_cursor_back :
    (run step (ofState fun _ => none) (overtaken.take 5)).getCursor "cursor:viz" = 9 ∧
      (run step (ofState fun _ => none) overtaken).getCursor "cursor:viz" = 5 ∧
      ¬ Meets step Forward (ofState fun _ => none) overtaken := by
  have h9 : (run step (ofState fun _ => none) (overtaken.take 5)).getCursor "cursor:viz" = 9 := by
    decide +kernel
  have h5 : (run step (ofState fun _ => none) overtaken).getCursor "cursor:viz" = 5 := by
    decide +kernel
  refine ⟨h9, h5, fun h => ?_⟩
  have hsplit : overtaken = overtaken.take 5 ++ [.step 0] := rfl
  rw [hsplit, meets_append] at h
  have := h.2.1 "cursor:viz"
  rw [h9] at this
  rw [hsplit, run_append, run_cons, run_nil] at h5
  omega

end CursorStore

end VizGateway
