import Mathlib
import VizGateway.SignerWorld

/-!
# The federation

Every signer runs its own handlers on its own ledger, each handler suspended at the awaits of the
gate and again before it signs. The chain is a list of blocks, newest first, with rising times; a
node sees a part of it that only grows, and a release can enter a block only while the head time
before has not passed its expiration.
-/

namespace VizGateway

open Checks Text GateStep

/-! ## The chain -/

structure Block where
  timeMs : ℤ
  txs : List (List UInt8)
  deriving DecidableEq, Repr

abbrev Chain := List Block

def Chain.headMs : Chain → ℤ
  | [] => 0
  | b :: _ => b.timeMs

def Chain.Landed (c : Chain) (bytes : List UInt8) : Prop := ∃ b ∈ c, bytes ∈ b.txs

section

variable {L : Libs} (R : ReleaseChain L)

/-- What may follow on a chain. -/
def Chain.Extends (c : Chain) (b : Block) : Prop :=
  c.headMs < b.timeMs ∧ ∀ bytes ∈ b.txs, c.headMs ≤ R.expiryOf bytes

instance (c : Chain) (b : Block) : Decidable (c.Extends R b) :=
  inferInstanceAs (Decidable (_ ∧ _))

/-- A chain built block by block. -/
def Chain.Valid : Chain → Prop
  | [] => True
  | b :: c => Chain.Extends R c b ∧ Chain.Valid c

/-- Not on the chain, and past its expiration there. -/
def Chain.Dead (c : Chain) (bytes : List UInt8) : Prop :=
  ¬ c.Landed bytes ∧ R.expiryOf bytes < c.headMs

variable {R} {c v : Chain} {bytes : List UInt8}

theorem Chain.headMs_le (hc : c.Valid R) (hv : v <:+ c) : v.headMs ≤ c.headMs := by
  induction c with
  | nil => rw [List.suffix_nil.1 hv]
  | cons b c ih =>
    obtain ⟨⟨htime, -⟩, hvalid⟩ := hc
    rcases List.suffix_cons_iff.1 hv with rfl | hv
    · exact le_rfl
    · exact (ih hvalid hv).trans htime.le

theorem Chain.Valid.suffix (hc : c.Valid R) (hv : v <:+ c) : v.Valid R := by
  induction c with
  | nil =>
    rw [List.suffix_nil.1 hv]
    trivial
  | cons b c ih =>
    rcases List.suffix_cons_iff.1 hv with rfl | hv
    · exact hc
    · exact ih hc.2 hv

/-- What is dead on a part of a valid chain is dead on the whole. -/
theorem Chain.Dead.mono (hc : c.Valid R) (hv : v <:+ c) (h : v.Dead R bytes) : c.Dead R bytes := by
  induction c with
  | nil =>
    rw [List.suffix_nil.1 hv] at h
    exact h
  | cons b c ih =>
    obtain ⟨⟨htime, htxs⟩, hvalid⟩ := hc
    rcases List.suffix_cons_iff.1 hv with rfl | hv
    · exact h
    · obtain ⟨hland, hexp⟩ := ih hvalid hv
      refine ⟨?_, hexp.trans htime⟩
      rintro ⟨x, hx, hb⟩
      rcases List.mem_cons.1 hx with rfl | hx
      · exact absurd (htxs bytes hb) (Int.not_le.2 hexp)
      · exact hland ⟨x, hx, hb⟩

end

/-! ## Signers and their handlers -/

/-- A handler of a well-formed release proposal, before its first await or at a later one. -/
structure Task where
  action : CanonicalAction
  proposal : VizReleaseProposal
  row : SignedProposal
  hint : Option ℕ
  next : Option GateStep

structure SignerState where
  ledger : SignedProposals
  tasks : ℕ → Option Task
  /-- The blocks the signer's node has. -/
  node : Chain
  /-- The releases it signed, by action id. -/
  signed : List (String × List UInt8)

structure Federation (n : ℕ) where
  chain : Chain
  signer : Fin n → SignerState

inductive FederationEvent (n : ℕ)
  | produce (b : Block)
  | observe (i : Fin n) (c : Chain)
  | receive (i : Fin n) (task : ℕ) (action : WireAction) (proposal : VizReleaseProposal)
      (hint : Option ℕ)
  | resume (i : Fin n) (task : ℕ) (view : RequestView)
  | crash (i : Fin n)

section

variable {L : Libs} (R : ReleaseChain L) {n : ℕ} (cfg : Fin n → SignerConfig)

def SignerState.init : SignerState where
  ledger := fun _ => none
  tasks := fun _ => none
  node := []
  signed := []

def Federation.init (n : ℕ) : Federation n where
  chain := []
  signer := fun _ => .init

/-- A request arrives: its proposal is keyed before the first await. -/
def SignerState.receive (L : Libs) (st : SignerState) (task : ℕ) (wire : WireAction)
    (proposal : VizReleaseProposal) (hint : Option ℕ) : SignerState :=
  match st.tasks task, actionFromWire wire, proposalKey L proposal.toJson with
  | none, some action, .ok row =>
    let t : Task := { action, proposal, row, hint, next := none }
    { st with tasks := Function.update st.tasks task (some t) }
  | _, _, _ => st

/-- The effect of a passed gate: validation, and the signature on what it accepts. -/
def SignerState.sign (L : Libs) (cfg : SignerConfig) (st : SignerState) (t : Task)
    (view : RequestView) : List (String × List UInt8) :=
  match routeApproval L cfg view t.action t.proposal.toJson t.hint with
  | .ok (.vizRelease bytes) => (t.action.id, bytes) :: st.signed
  | _ => st.signed

/-- One move of a handler inside the gate. -/
def SignerState.move (L : Libs) (st : SignerState) (task : ℕ) (t : Task) (node : VizNode) :
    SignerState :=
  let r := gateMove L node st.ledger t.action.id t.row t.next
  let t' : Task := { t with next := some r.1 }
  { st with ledger := r.2, tasks := Function.update st.tasks task (some t') }

/-- A handler runs to its next await. -/
def SignerState.resume (L : Libs) (cfg : SignerConfig) (st : SignerState) (task : ℕ)
    (view : RequestView) : SignerState :=
  match st.tasks task with
  | none => st
  | some t =>
    match t.next with
    | some .pass => { st with
        tasks := Function.update st.tasks task none
        signed := st.sign L cfg t view }
    | some (refuse _) => { st with tasks := Function.update st.tasks task none }
    | _ => st.move L task t view.nodes.viz

def Federation.set (s : Federation n) (i : Fin n) (st : SignerState) : Federation n :=
  { s with signer := Function.update s.signer i st }

def Federation.step (s : Federation n) : FederationEvent n → Federation n
  | .produce b => if s.chain.Extends R b then { s with chain := b :: s.chain } else s
  | .observe i c =>
    if (s.signer i).node <:+ c ∧ c <:+ s.chain then s.set i { s.signer i with node := c } else s
  | .receive i task wire proposal hint =>
    s.set i ((s.signer i).receive L task wire proposal hint)
  | .resume i task view => s.set i ((s.signer i).resume L (cfg i) task view)
  | .crash i => s.set i { s.signer i with tasks := fun _ => none }

/-- A node answers from the blocks it has, and proposals carry chain times. -/
def TruthfulNode (L : Libs) (s : Federation n) : FederationEvent n → Prop
  | .receive _ _ _ proposal _ => isGrapheneTime proposal.expiration = true
  | .resume i _ view =>
    (∀ ms, headBlockTimeMs L view.nodes.viz = .ok ms → ms = (s.signer i).node.headMs)
      ∧ ∀ bytes, (s.signer i).node.Landed bytes →
          releaseLanded view.nodes.viz (L.trxHash bytes) = true
  | _ => True

/-! ## Quorums -/

/-- A quorum of signers signed the release for the action. -/
def Federation.Quorum (T : ℕ) (s : Federation n) (id : String) (bytes : List UInt8) : Prop :=
  T ≤ (Finset.univ.filter fun i => (id, bytes) ∈ (s.signer i).signed).card

end

end VizGateway
