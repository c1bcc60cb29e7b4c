import VizGateway.HttpBody

/-!
# Bodies in chunks

A body that is stopped before its end, or is too large, is refused whatever its chunks were. One
that is read to its end comes out as decoded whole exactly if no chunk ends inside a character that
the next one continues.
-/

namespace VizGateway

open Utf8

variable {maxBytes : ℕ} {s : BodyRead}

theorem step_settled {r : Except BodyError String} (h : s.settled = some r) (e : BodyEvent) :
    (s.step maxBytes e).settled = some r := by
  cases e with
  | data chunk =>
    unfold BodyRead.step
    simp only
    split_ifs
    · simp [BodyRead.settle, h]
    · exact h
  | stop how => simp [BodyRead.step, BodyRead.settle, h]

theorem foldl_settled {r : Except BodyError String} (h : s.settled = some r)
    (events : List BodyEvent) : (events.foldl (BodyRead.step maxBytes) s).settled = some r := by
  induction events generalizing s with
  | nil => exact h
  | cons e events ih => exact ih (step_settled h e)

/-- Chunks within the limit are appended, each decoded on its own. -/
theorem foldl_data_le (chunks : List (List UInt8)) (hs : s.settled = none)
    (h : s.size + chunks.flatten.length ≤ maxBytes) :
    (chunks.map BodyEvent.data).foldl (BodyRead.step maxBytes) s =
      { s with
        body := s.body ++ String.ofList (chunks.flatMap decode)
        size := s.size + chunks.flatten.length } := by
  induction chunks generalizing s with
  | nil => simp
  | cons c chunks ih =>
    rw [List.flatten_cons, List.length_append] at h
    have hstep : s.step maxBytes (.data c) =
        { s with body := s.body ++ String.ofList (decode c), size := s.size + c.length } := by
      unfold BodyRead.step
      simp only
      rw [if_neg (by omega)]
    have hrest : s.size + c.length + chunks.flatten.length ≤ maxBytes := by omega
    rw [List.map_cons, List.foldl_cons, hstep,
      ih (s := ⟨s.body ++ String.ofList (decode c), s.size + c.length, s.settled⟩) hs hrest]
    simp only [List.flatMap_cons, List.flatten_cons, List.length_append, String.ofList_append,
      String.append_assoc, Nat.add_assoc]

/-- Chunks over the limit settle the read. -/
theorem foldl_data_gt (chunks : List (List UInt8)) (hs : s.settled = none)
    (hsize : s.size ≤ maxBytes) (h : maxBytes < s.size + chunks.flatten.length) :
    ((chunks.map BodyEvent.data).foldl (BodyRead.step maxBytes) s).settled =
      some (.error (bodyTooLarge maxBytes)) := by
  induction chunks generalizing s with
  | nil =>
    simp at h
    omega
  | cons c chunks ih =>
    rw [List.flatten_cons, List.length_append] at h
    rw [List.map_cons, List.foldl_cons]
    by_cases hc : maxBytes < s.size + c.length
    · refine foldl_settled ?_ _
      simp [BodyRead.step, BodyRead.settle, hc, hs]
    · have hstep : s.step maxBytes (.data c) =
          { s with body := s.body ++ String.ofList (decode c), size := s.size + c.length } := by
        unfold BodyRead.step
        simp only
        rw [if_neg hc]
      rw [hstep]
      exact ih hs (by simp only; omega) (by simp only; omega)

/-- What a body is read as, were it one piece. -/
def bodyOutcome (maxBytes : ℕ) (body : List UInt8) (how : BodyStop) : Except BodyError String :=
  if body.length ≤ maxBytes then how.outcome (String.ofList (decode body))
  else .error (bodyTooLarge maxBytes)

theorem readLimitedBody_le (chunks : List (List UInt8)) (how : BodyStop) (rest : List BodyEvent)
    (h : chunks.flatten.length ≤ maxBytes) :
    readLimitedBody maxBytes (chunks.map .data ++ .stop how :: rest) =
      some (how.outcome (String.ofList (chunks.flatMap decode))) := by
  unfold readLimitedBody
  rw [List.foldl_append, foldl_data_le chunks rfl (by simpa using h), List.foldl_cons]
  refine foldl_settled ?_ rest
  simp [BodyRead.step, BodyRead.settle]

theorem readLimitedBody_gt (chunks : List (List UInt8)) (how : BodyStop) (rest : List BodyEvent)
    (h : maxBytes < chunks.flatten.length) :
    readLimitedBody maxBytes (chunks.map .data ++ .stop how :: rest) =
      some (.error (bodyTooLarge maxBytes)) := by
  unfold readLimitedBody
  rw [List.foldl_append]
  exact foldl_settled (foldl_data_gt chunks rfl (Nat.zero_le _) (by simpa using h)) _

/-- A body is read as in one piece, whatever its chunks, unless it is read to its end and a chunk
ends inside a character. -/
theorem readLimitedBody_iff (maxBytes : ℕ) (chunks : List (List UInt8)) (how : BodyStop)
    (rest : List BodyEvent) :
    readLimitedBody maxBytes (chunks.map .data ++ .stop how :: rest) =
        some (bodyOutcome maxBytes chunks.flatten how) ↔
      (chunks.flatten.length ≤ maxBytes → how = .ended → WholeCharacters chunks) := by
  unfold bodyOutcome
  by_cases h : chunks.flatten.length ≤ maxBytes
  · rw [readLimitedBody_le chunks how rest h, if_pos h, Option.some.injEq]
    cases how with
    | ended =>
      simp only [BodyStop.outcome, Except.ok.injEq, String.ofList_inj, flatMap_decode_iff]
      exact ⟨fun hw _ _ => hw, fun hw => hw h trivial⟩
    | errored e => exact iff_of_true rfl (by rintro - ⟨⟩)
    | aborted => exact iff_of_true rfl (by rintro - ⟨⟩)
    | timeout => exact iff_of_true rfl (by rintro - ⟨⟩)
  · rw [readLimitedBody_gt chunks how rest (not_le.1 h), if_neg h]
    exact iff_of_true rfl fun hle => absurd hle h

/-- The two bytes of an accented letter, each in a chunk of its own. -/
theorem letter_in_two_chunks :
    readLimitedBody 1048576 [.data [0xC3], .data [0xA9], .stop .ended] = some (.ok "\uFFFD\uFFFD") ∧
      bodyOutcome 1048576 [0xC3, 0xA9] .ended = .ok "é" := by
  decide +kernel

end VizGateway
