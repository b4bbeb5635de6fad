import StakingSnapshot.Abi.Method

/-!
# Methods about proposals

The contract that keeps the proposals of the protocol's members.
-/

namespace StakingSnapshot

namespace Contract

open Abi

/-! ## The proposals -/

namespace Proposals

def getTotal : Method Unit .uint256 := ⟨"getTotal", 0x775a25e3⟩

def getProposer : Method Word .address := ⟨"getProposer", 0xe14bd874⟩

def getProposalBlock : Method Word .uint256 := ⟨"getProposalBlock", 0x74f6c650⟩

def getMessage : Method Word .string := ⟨"getMessage", 0x86f79edb⟩

def getStart : Method Word .uint256 := ⟨"getStart", 0x5bc22d1b⟩

def getPhase1End : Method Word .uint256 := ⟨"getPhase1End", 0x92d4d1de⟩

def getPhase2End : Method Word .uint256 := ⟨"getPhase2End", 0xaeb9be7e⟩

def getExpires : Method Word .uint256 := ⟨"getExpires", 0x3dca885d⟩

def getCreated : Method Word .uint256 := ⟨"getCreated", 0x9cb2b69b⟩

def getVotingPowerRequired : Method Word .uint256 := ⟨"getVotingPowerRequired", 0x9eb07575⟩

def getVotingPowerFor : Method Word .uint256 := ⟨"getVotingPowerFor", 0x80a6cdd4⟩

def getVotingPowerAgainst : Method Word .uint256 := ⟨"getVotingPowerAgainst", 0x2cb9186f⟩

def getVotingPowerAbstained : Method Word .uint256 := ⟨"getVotingPowerAbstained", 0x716c3f32⟩

def getVotingPowerVeto : Method Word .uint256 := ⟨"getVotingPowerVeto", 0xeb86e7c0⟩

def getDestroyed : Method Word .bool := ⟨"getDestroyed", 0x44ff2d99⟩

def getFinalised : Method Word .bool := ⟨"getFinalised", 0xe641455e⟩

def getExecuted : Method Word .bool := ⟨"getExecuted", 0x21947507⟩

def getVetoed : Method Word .bool := ⟨"getVetoed", 0x9de1c862⟩

def getProposalVetoQuorum : Method Word .uint256 := ⟨"getProposalVetoQuorum", 0x7960ee02⟩

def getPayload : Method Word .bytes := ⟨"getPayload", 0x1d2db6c8⟩

def getState : Method Word .uint8 := ⟨"getState", 0x44c9af28⟩

end Proposals

end Contract

end StakingSnapshot
