import VizGateway.Lib.Runs
import VizGateway.Sample

/-!
# What a rejected request leaves in the ledger

The gate claims before anything is validated. A request rejected after it leaves its own key
behind, for its own action id only, and only where the gate had found the id free or replaceable.
-/

namespace VizGateway

open Checks

namespace RejectedRequests

variable {L : Libs} {m : SignedProposals}

/-- The entry a claim may be written over. -/
def Free (L : Libs) (node : VizNode) (entry : Option SignedProposal) (row : SignedProposal) : Prop :=
  entry = none ∨ ∃ prev, entry = some prev ∧ Replaceable L node prev row

/-- The request claimed its key for its action id. -/
def Claims (L : Libs) (node : VizNode) (m : SignedProposals) (req : ApproveRequest)
    (m' : SignedProposals) : Prop :=
  ∃ action row, actionFromWire req.action = some action ∧ proposalKey L req.proposal = .ok row
    ∧ Free L node (m action.id) row ∧ m' = Function.update m action.id (some row)

/-- Whatever comes of a request, the ledger is as it was or holds the request's own claim. -/
theorem unchanged_or_claims (L : Libs) (cfg : SignerConfig) (view : RequestView)
    (m : SignedProposals) (req : ApproveRequest) :
    (approve L cfg view m req).2 = m
      ∨ Claims L view.nodes.viz m req (approve L cfg view m req).2 := by
  rcases approve_ledger L cfg view m req with ⟨hm, -⟩ | ⟨action, row, haction, hrow, hrun⟩
  · exact .inl hm
  · rcases runGate_eq_ok hrun with ⟨hm, hm'⟩ | ⟨prev, -, -, hm'⟩ | ⟨prev, hm, hrep, hm'⟩
    · exact .inr ⟨action, row, haction, hrow, .inl hm, hm'⟩
    · exact .inl hm'
    · exact .inr ⟨action, row, haction, hrow, .inr ⟨prev, hm, hrep⟩, hm'⟩

/-- The gate lets a proposal pass over no entry, over its own key, and over a replaceable one. -/
theorem gate_passes {node : VizNode} {id : String} {proposal : JsonObject} {row : SignedProposal}
    (hrow : proposalKey L proposal = .ok row)
    (h : (∃ prev, m id = some prev ∧ prev.key = row.key) ∨ Free L node (m id) row) :
    ∃ m', assertNotReplay L node m id proposal = .ok m' := by
  have hgate : ∃ m', runGate L node m id row = .ok m' := by
    unfold runGate
    rcases h with ⟨prev, hm, hk⟩ | hm | ⟨prev, hm, hrep⟩
    · exact ⟨m, by simp [afterGet, hm, hk]⟩
    · exact ⟨_, by simp only [afterGet, hm]; rfl⟩
    · obtain ⟨headMs, hhead, hexp⟩ := hrep.expired
      refine ⟨(putSignedProposal m id row (some prev.key)).2, ?_⟩
      simp only [afterGet, hm, if_neg hrep.ne, hrep.viz, hrep.prevViz, Bool.true_eq_false, or_self,
        if_false, afterHead, hhead, if_neg (Int.not_le.2 hexp), afterLanded, hrep.notLanded,
        Bool.false_eq_true]
  obtain ⟨m', hm'⟩ := hgate
  exact ⟨m', bind_eq_ok.2 ⟨row, hrow, hm'⟩⟩

/-- The ledger after a request that came at `x.1`. -/
def ledgerStep (L : Libs) (cfg : SignerConfig) (m : SignedProposals)
    (x : RequestView × ApproveRequest) : SignedProposals := (approve L cfg x.1 m x.2).2

/-- After any requests an entry is as it was or the key one of them claimed. -/
theorem run_entry (L : Libs) (cfg : SignerConfig) (reqs : List (RequestView × ApproveRequest))
    (m : SignedProposals) (id : String) :
    Runs.run (ledgerStep L cfg) m reqs id = m id
      ∨ ∃ x ∈ reqs, ∃ action row, actionFromWire x.2.action = some action ∧ action.id = id
        ∧ proposalKey L x.2.proposal = .ok row
        ∧ Runs.run (ledgerStep L cfg) m reqs id = some row := by
  induction reqs generalizing m with
  | nil => exact .inl rfl
  | cons x reqs ih =>
    rw [Runs.run_cons]
    rcases ih (ledgerStep L cfg m x) with hsame | ⟨y, hy, hclaim⟩
    · rw [hsame]
      rcases unchanged_or_claims L cfg x.1 m x.2 with hm | ⟨action, row, haction, hrow, -, hm⟩
      · exact .inl (congrFun hm id)
      · by_cases hid : action.id = id
        · refine .inr ⟨x, List.mem_cons_self, action, row, haction, hid, hrow, ?_⟩
          rw [ledgerStep, hm, hid, Function.update_self]
        · refine .inl ?_
          rw [ledgerStep, hm, Function.update_of_ne (Ne.symm hid)]
    · exact .inr ⟨y, List.mem_cons_of_mem _ hy, hclaim⟩

end RejectedRequests

open RejectedRequests

/-- A request, rejected or not, leaves the ledger as it was or at its own claim. After a sequence of
them each entry is as it was or the claim of one of them, and the gate still passes the recorded
key, every key where there is none, and a release over a release that expired and never landed. -/
theorem rejected_requests_leave_claims (L : Libs) (cfg : SignerConfig) (m : SignedProposals)
    (reqs : List (RequestView × ApproveRequest)) :
    (∀ view req, (approve L cfg view m req).2 = m
        ∨ Claims L view.nodes.viz m req (approve L cfg view m req).2)
      ∧ ∀ id, (Runs.run (ledgerStep L cfg) m reqs id = m id
          ∨ ∃ x ∈ reqs, ∃ action row, actionFromWire x.2.action = some action ∧ action.id = id
            ∧ proposalKey L x.2.proposal = .ok row
            ∧ Runs.run (ledgerStep L cfg) m reqs id = some row)
        ∧ ∀ node proposal row, proposalKey L proposal = .ok row →
          (∃ prev, Runs.run (ledgerStep L cfg) m reqs id = some prev ∧ prev.key = row.key)
            ∨ Free L node (Runs.run (ledgerStep L cfg) m reqs id) row →
          ∃ m', assertNotReplay L node (Runs.run (ledgerStep L cfg) m reqs) id proposal = .ok m' :=
  ⟨fun view req => unchanged_or_claims L cfg view m req, fun id =>
    ⟨run_entry L cfg reqs m id, fun _ _ _ hrow hfree => gate_passes hrow hfree⟩⟩

/-! ## On the sample deposit -/

/-- The mint of the sample deposit in a made-up order. -/
def bogusMintRequest : ApproveRequest where
  action := sampleMintRequest.action
  proposal :=
    [("toAddress", .str sampleRecipient), ("amountMilliViz", .str "240000"),
      ("destProvisioned", .bool true), ("orderAddr", .str "made-up order"),
      ("orderHashHex", .str "00")]
  sourceBlockNum := none

/-- Rejected, it writes the entry, and the mint approved before it is refused after it. -/
theorem bogus_mint_blocks_mint :
    (approve sampleLibs sampleConfig (sampleRequestView []) (fun _ => none) bogusMintRequest).1.isOk
        = false
      ∧ (approve sampleLibs sampleConfig (sampleRequestView []) (fun _ => none)
          bogusMintRequest).2 sampleDeposit.id = some ⟨"gram-order:made-up order", 0⟩
      ∧ (approve sampleLibs sampleConfig (sampleRequestView []) (fun _ => none)
          sampleMintRequest).1.isOk = true
      ∧ (approve sampleLibs sampleConfig (sampleRequestView [])
          (approve sampleLibs sampleConfig (sampleRequestView []) (fun _ => none)
            bogusMintRequest).2 sampleMintRequest).1.isOk = false := by
  decide +kernel

end VizGateway
