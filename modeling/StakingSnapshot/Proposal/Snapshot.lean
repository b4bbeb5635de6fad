import StakingSnapshot.Contract.Proposal
import StakingSnapshot.Proposal.Record
import StakingSnapshot.Snapshot

/-!
# Snapshots of proposals

`Proposal.one` reads one proposal and `Proposal.every` all there are, by their numbers from 1 on.
-/

namespace StakingSnapshot

namespace Proposal

open Contract

/-- The calls for what the contract tells about a proposal. -/
def detailsCalls (contract : Address) (id : UInt64) : List (Call Proposal) :=
  let i : Word := BitVec.ofNat 256 id.toNat
  [.typed Proposals.getProposer contract i fun v p => { p with proposer := v },
    .typed Proposals.getProposalBlock contract i fun v p => { p with targetBlock := .ofRaw v },
    .typed Proposals.getMessage contract i fun v p => { p with message := v },
    .typed Proposals.getStart contract i fun v p => { p with votingStart := .ofRaw v },
    .typed Proposals.getPhase1End contract i fun v p => { p with phase1End := .ofRaw v },
    .typed Proposals.getPhase2End contract i fun v p => { p with phase2End := .ofRaw v },
    .typed Proposals.getExpires contract i fun v p => { p with expiry := .ofRaw v },
    .typed Proposals.getCreated contract i fun v p => { p with created := .ofRaw v },
    .typed Proposals.getVotingPowerRequired contract i
      fun v p => { p with powerRequired := .ofRaw v },
    .typed Proposals.getVotingPowerFor contract i fun v p => { p with powerFor := .ofRaw v },
    .typed Proposals.getVotingPowerAgainst contract i
      fun v p => { p with powerAgainst := .ofRaw v },
    .typed Proposals.getVotingPowerAbstained contract i
      fun v p => { p with powerAbstained := .ofRaw v },
    .typed Proposals.getVotingPowerVeto contract i fun v p => { p with powerToVeto := .ofRaw v },
    .typed Proposals.getDestroyed contract i fun v p => { p with isDestroyed := v },
    .typed Proposals.getFinalised contract i fun v p => { p with isFinalised := v },
    .typed Proposals.getExecuted contract i fun v p => { p with isExecuted := v },
    .typed Proposals.getVetoed contract i fun v p => { p with isVetoed := v },
    .typed Proposals.getProposalVetoQuorum contract i fun v p => { p with vetoQuorum := .ofRaw v },
    .typed Proposals.getPayload contract i fun v p => { p with payload := v },
    .typed Proposals.getState contract i fun v p => { p with stateCode := .ofRaw v }]

/-- How a proposal registers the calls for what the contract tells about it. -/
def detailsPlan (contract : Address) : Plan Proposal :=
  fun _ p => .ok (p, detailsCalls contract p.id)

variable {σ : Type}

/-- The number of proposals. -/
def count (o : Observer σ) (r : Registry) : Read σ Nat := do
  let contract := r.address .daoProtocolProposal
  let raw ← (Snapshot.wordOf o r.block contract Proposals.getTotal ()).context
    "error getting proposal count"
  Read.ofExcept (itemCount raw contract Proposals.getTotal.name)

/-- Reads proposals. -/
def ofIds (o : Observer σ) (r : Registry) (ids : List UInt64) : Read σ (List Proposal) := do
  let proposals ← (o.scheduler.batchQuery r.block o.config.batchSizes.proposalDetails
    (detailsPlan (r.address .daoProtocolProposal)) (ids.map ofId)).context
    "error getting Protocol DAO proposal details"
  return proposals.map interpretCode

/-- Reads one proposal. -/
def one (o : Observer σ) (r : Registry) (id : UInt64) : Read σ Proposal := do
  let proposals ← ofIds o r [id]
  return proposals.getLastD (ofId id)

/-- Reads all proposals. -/
def every (o : Observer σ) (r : Registry) : Read σ (List Proposal) :=
  Snapshot.logged "pdao_proposal" r.blockNumber List.length do
    let total ← count o r
    ofIds o r ((List.range' 1 total).map UInt64.ofNat)

end Proposal

end StakingSnapshot
