import StakingSnapshot.Abi.Method

/-!
# Methods about nodes

The contracts that know a node: its manager, its fee distributor, its stake and its deposits.
-/

namespace StakingSnapshot

namespace Contract

open Abi

/-! ## The register of nodes -/

namespace NodeManager

def getNodeCount : Method Unit .uint256 := ⟨"getNodeCount", 0x39bf397e⟩

def getNodeAt : Method Word .address := ⟨"getNodeAt", 0xba75d806⟩

def getNodeExists : Method Address .bool := ⟨"getNodeExists", 0x65d4176f⟩

def getNodeRegistrationTime : Method Address .uint256 := ⟨"getNodeRegistrationTime", 0x02d8a732⟩

def getNodeTimezoneLocation : Method Address .string := ⟨"getNodeTimezoneLocation", 0xb018f026⟩

def getFeeDistributorInitialised : Method Address .bool :=
  ⟨"getFeeDistributorInitialised", 0x927ece4f⟩

def getRewardNetwork : Method Address .uint256 := ⟨"getRewardNetwork", 0x43f88981⟩

def getSmoothingPoolRegistrationState : Method Address .bool :=
  ⟨"getSmoothingPoolRegistrationState", 0xa4cef9dd⟩

def getSmoothingPoolRegistrationChanged : Method Address .uint256 :=
  ⟨"getSmoothingPoolRegistrationChanged", 0x4d99f633⟩

end NodeManager

/-! ## The factory of fee distributors -/

namespace DistributorFactory

def getProxyAddress : Method Address .address := ⟨"getProxyAddress", 0xfa2a5b01⟩

end DistributorFactory

/-! ## The stakes of nodes -/

namespace NodeStaking

def getTotalRPLStake : Method Unit .uint256 := ⟨"getTotalRPLStake", 0x9a206c8e⟩

def getNodeRPLStake : Method Address .uint256 := ⟨"getNodeRPLStake", 0x9961cee4⟩

def getNodeEffectiveRPLStake : Method Address .uint256 := ⟨"getNodeEffectiveRPLStake", 0xf0d19b89⟩

def getNodeMinimumRPLStake : Method Address .uint256 := ⟨"getNodeMinimumRPLStake", 0x03fa87b4⟩

def getNodeMaximumRPLStake : Method Address .uint256 := ⟨"getNodeMaximumRPLStake", 0x4e58ff6e⟩

def getNodeETHMatched : Method Address .uint256 := ⟨"getNodeETHMatched", 0xa493e6a2⟩

def getNodeETHMatchedLimit : Method Address .uint256 := ⟨"getNodeETHMatchedLimit", 0x48aeedf5⟩

def getNodeETHCollateralisationRatio : Method Address .uint256 :=
  ⟨"getNodeETHCollateralisationRatio", 0x97be2143⟩

end NodeStaking

/-! ## The deposits of nodes -/

namespace NodeDeposit

def getNodeDepositCredit : Method Address .uint256 := ⟨"getNodeDepositCredit", 0x493c9467⟩

end NodeDeposit

end Contract

end StakingSnapshot
