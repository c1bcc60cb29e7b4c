import Mathlib

/-!
# Handing an authority over by signatures

An authority is handed on by a message that enough of its keys have signed. The honest keys sign only
messages that hand it to an accepted authority, and every accepted one takes an honest key to act. So
the authority is accepted in every state, whatever the other keys sign.
-/

namespace Handover

/-- Where `t` of the members are needed and fewer are not honest, one that took part is honest. -/
theorem exists_honest {Key : Type} {members : List Key} {honest p : Key → Bool} {t : ℕ}
    (hfew : members.countP (fun k => !honest k) < t) (hmany : t ≤ members.countP p) :
    ∃ k ∈ members, honest k = true ∧ p k = true := by
  by_contra hnone
  have hle : members.countP p ≤ members.countP fun k => !honest k := by
    refine List.countP_mono_left fun k hk hp => ?_
    by_contra hhonest
    exact hnone ⟨k, hk, by simpa using hhonest, hp⟩
  omega

/-- The weight of the members that are as `p` says. -/
def weight {Key : Type} (members : List (Key × ℕ)) (p : Key → Bool) : ℕ :=
  ((members.filter fun m => p m.1).map Prod.snd).sum

section Weight

variable {Key : Type} {members : List (Key × ℕ)} {p q honest : Key → Bool} {t : ℕ}

theorem weight_mono (h : ∀ m ∈ members, p m.1 = true → q m.1 = true) :
    weight members p ≤ weight members q := by
  induction members with
  | nil => exact le_rfl
  | cons m ms ih =>
    have htail := ih fun m' hm' => h m' (List.mem_cons_of_mem _ hm')
    have hhead := h m List.mem_cons_self
    unfold weight at htail ⊢
    simp only [List.filter_cons]
    split_ifs with hp hq
    · simpa using htail
    · exact absurd (hhead hp) hq
    · exact htail.trans (by simp)
    · exact htail

theorem weight_perm {members' : List (Key × ℕ)} (h : members.Perm members') :
    weight members p = weight members' p := ((h.filter _).map _).sum_nat

/-- With one weight each, it is their number. -/
theorem weight_ones (keys : List Key) : weight (keys.map fun k => (k, 1)) p = keys.countP p := by
  induction keys with
  | nil => rfl
  | cons k keys ih =>
    unfold weight at ih ⊢
    rw [List.map_cons, List.filter_cons, List.countP_cons]
    split_ifs
    · simp [ih, Nat.add_comm]
    · simpa using ih

/-- `exists_honest` where the members have weights. -/
theorem exists_honest_of_weight (hfew : weight members (fun k => !honest k) < t)
    (hmany : t ≤ weight members p) : ∃ k, honest k = true ∧ p k = true := by
  by_contra hnone
  have hle : weight members p ≤ weight members fun k => !honest k :=
    weight_mono fun m _ hp => by
      by_contra hhonest
      exact hnone ⟨m.1, by simpa using hhonest, hp⟩
  omega

end Weight

variable {σ ε Key Msg Auth : Type}

/-- Who holds the authority, who has signed what, and what the honest keys answer for. -/
structure System (σ ε Key Msg Auth : Type) where
  step : σ → ε → σ
  /-- The events the rule is about. -/
  allowed : σ → ε → Prop
  authority : σ → Auth
  signed : σ → Key → Msg → Prop
  honest : Key → Prop
  /-- The keys that are enough to act under an authority. -/
  enough : σ → Auth → (Key → Prop) → Prop
  accepted : σ → Auth → Prop
  sanctioned : σ → Msg → Prop

variable (S : System σ ε Key Msg Auth)

structure Inv (s : σ) : Prop where
  accepted : S.accepted s (S.authority s)
  signed : ∀ k m, S.honest k → S.signed s k m → S.sanctioned s m

/-- What one event does. -/
structure Rules : Prop where
  /-- Whoever can act under an accepted authority has an honest key with them. -/
  honest : ∀ s a P, S.accepted s a → S.enough s a P → ∃ k, S.honest k ∧ P k
  accepted : ∀ s e a, S.allowed s e → S.accepted s a → S.accepted (S.step s e) a
  sanctioned : ∀ s e m, S.allowed s e → S.sanctioned s m → S.sanctioned (S.step s e) m
  signed : ∀ s e k m, S.allowed s e → S.honest k → S.signed (S.step s e) k m →
    S.signed s k m ∨ S.sanctioned (S.step s e) m
  /-- The authority changes by a message under it. -/
  authority : ∀ s e, S.allowed s e → S.accepted s (S.authority s) →
    S.authority (S.step s e) = S.authority s ∨
      ∃ m, S.enough s (S.authority s) (S.signed s · m) ∧
        (S.sanctioned s m → S.accepted (S.step s e) (S.authority (S.step s e)))

variable {S} {s : σ} {e : ε}

theorem inv_step (hS : Rules S) (h : Inv S s) (he : S.allowed s e) : Inv S (S.step s e) where
  accepted := by
    rcases hS.authority s e he h.accepted with hsame | ⟨m, henough, hnew⟩
    · rw [hsame]
      exact hS.accepted s e _ he h.accepted
    · obtain ⟨k, hk, hsigned⟩ := hS.honest s _ _ h.accepted henough
      exact hnew (h.signed k m hk hsigned)
  signed k m hk hsigned := by
    rcases hS.signed s e k m he hk hsigned with hold | hnew
    · exact hS.sanctioned s e m he (h.signed k m hk hold)
    · exact hnew

end Handover
