import StakingSnapshot.Parameter.Formats

/-!
# Proposals

What a snapshot tells about a proposal of the protocol's members. `state` is the code `stateCode`
with a meaning.
-/

namespace StakingSnapshot

/-- A proposal at one block. -/
structure Proposal where
  /-- Proposals are numbered from 1. -/
  id : UInt64 := 0
  proposer : Address := .zero
  targetBlock : CountParameter := .ofRaw 0
  message : String := ""
  votingStart : TimestampParameter := .ofRaw 0
  phase1End : TimestampParameter := .ofRaw 0
  phase2End : TimestampParameter := .ofRaw 0
  expiry : TimestampParameter := .ofRaw 0
  created : TimestampParameter := .ofRaw 0
  powerRequired : RatioParameter := .ofRaw 0
  powerFor : RatioParameter := .ofRaw 0
  powerAgainst : RatioParameter := .ofRaw 0
  powerAbstained : RatioParameter := .ofRaw 0
  powerToVeto : RatioParameter := .ofRaw 0
  isDestroyed : Bool := false
  isFinalised : Bool := false
  isExecuted : Bool := false
  isVetoed : Bool := false
  vetoQuorum : RatioParameter := .ofRaw 0
  /-- What the proposal would call, as it stands. -/
  payload : Bytes := []
  stateCode : ProposalStateParameter := .ofRaw 0
  state : ProposalState := .pending

namespace Proposal

instance : Inhabited Proposal := ⟨{}⟩

/-- A proposal of which only the number is known. -/
def ofId (id : UInt64) : Proposal := { id := id }

/-- Gives the code that was read its meaning. -/
def interpretCode (p : Proposal) : Proposal :=
  let (state, stateCode) := p.stateCode.formatted
  { p with state := state, stateCode := stateCode }

/-- The written form. -/
def toJson (p : Proposal) : Json :=
  .obj [
    ("id", .ofNat p.id.toNat),
    ("proposer_address", .ofAddress p.proposer),
    ("target_block", p.targetBlock.toJson),
    ("message", .str p.message),
    ("voting_start_time", p.votingStart.toJson),
    ("phase1_end_time", p.phase1End.toJson),
    ("phase2_end_time", p.phase2End.toJson),
    ("expiry_time", p.expiry.toJson),
    ("created_time", p.created.toJson),
    ("voting_power_required", p.powerRequired.toJson),
    ("voting_power_for", p.powerFor.toJson),
    ("voting_power_against", p.powerAgainst.toJson),
    ("voting_power_abstained", p.powerAbstained.toJson),
    ("voting_power_to_veto", p.powerToVeto.toJson),
    ("is_destroyed", .bool p.isDestroyed),
    ("is_finalized", .bool p.isFinalised),
    ("is_executed", .bool p.isExecuted),
    ("is_vetoed", .bool p.isVetoed),
    ("veto_quorum", p.vetoQuorum.toJson),
    ("payload", .ofBytes p.payload),
    ("state_raw", p.stateCode.toJson),
    ("state", .str p.state.name)]

end Proposal

end StakingSnapshot
