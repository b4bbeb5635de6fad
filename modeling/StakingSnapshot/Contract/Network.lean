import StakingSnapshot.Abi.Method

/-!
# Methods about the network as a whole

Prices, balances, fees, rewards, the deposit pool with its queue, the tokens of the network, and the
settings of its members.
-/

namespace StakingSnapshot

namespace Contract

open Abi

/-! ## Prices that the members report -/

namespace Prices

def getRPLPrice : Method Unit .uint256 := ⟨"getRPLPrice", 0x724d4a09⟩

def getPricesBlock : Method Unit .uint256 := ⟨"getPricesBlock", 0x0fe40bcd⟩

def getLatestReportableBlock : Method Unit .uint256 := ⟨"getLatestReportableBlock", 0xa9bb16ed⟩

end Prices

/-! ## Balances that the members report -/

namespace Balances

def getETHUtilizationRate : Method Unit .uint256 := ⟨"getETHUtilizationRate", 0x9dba66af⟩

def getStakingETHBalance : Method Unit .uint256 := ⟨"getStakingETHBalance", 0xf1eda634⟩

def getTotalETHBalance : Method Unit .uint256 := ⟨"getTotalETHBalance", 0x964d042c⟩

def getBalancesBlock : Method Unit .uint256 := ⟨"getBalancesBlock", 0x9100c13d⟩

def getLatestReportableBlock : Method Unit .uint256 := ⟨"getLatestReportableBlock", 0xa9bb16ed⟩

end Balances

/-! ## The commission -/

namespace Fees

def getNodeFee : Method Unit .uint256 := ⟨"getNodeFee", 0xe7150134⟩

end Fees

/-! ## The rewards pool -/

namespace Rewards

def getRewardIndex : Method Unit .uint256 := ⟨"getRewardIndex", 0xf21c150c⟩

def getClaimIntervalTimeStart : Method Unit .uint256 := ⟨"getClaimIntervalTimeStart", 0xba34cb4b⟩

def getClaimIntervalTime : Method Unit .uint256 := ⟨"getClaimIntervalTime", 0x50a2f7e5⟩

def getClaimingContractPerc : Method String .uint256 := ⟨"getClaimingContractPerc", 0xf6a3f6ef⟩

def getPendingRPLRewards : Method Unit .uint256 := ⟨"getPendingRPLRewards", 0x7425f1e7⟩

end Rewards

/-! ## The deposit pool -/

namespace DepositPool

def getBalance : Method Unit .uint256 := ⟨"getBalance", 0x12065fe0⟩

def getExcessBalance : Method Unit .uint256 := ⟨"getExcessBalance", 0x888b042f⟩

def getUserBalance : Method Unit .int256 := ⟨"getUserBalance", 0xb7013dc1⟩

end DepositPool

/-! ## The queue of minipools -/

namespace MinipoolQueue

def getTotalCapacity : Method Unit .uint256 := ⟨"getTotalCapacity", 0x442c18f3⟩

def getEffectiveCapacity : Method Unit .uint256 := ⟨"getEffectiveCapacity", 0xe60b40bf⟩

def getTotalLength : Method Unit .uint256 := ⟨"getTotalLength", 0x23b9eec0⟩

end MinipoolQueue

/-! ## The token that nodes stake -/

namespace StakeToken

def getInflationIntervalRate : Method Unit .uint256 := ⟨"getInflationIntervalRate", 0xee96d774⟩

end StakeToken

/-! ## The token that stands for deposited ether -/

namespace LiquidToken

def getExchangeRate : Method Unit .uint256 := ⟨"getExchangeRate", 0xe6aa216c⟩

end LiquidToken

/-! ## Settings about nodes -/

namespace NodeSettings

def getMinimumPerMinipoolStake : Method Unit .uint256 := ⟨"getMinimumPerMinipoolStake", 0x6fdbe57b⟩

def getMaximumPerMinipoolStake : Method Unit .uint256 := ⟨"getMaximumPerMinipoolStake", 0x1e72ba86⟩

end NodeSettings

/-! ## Settings about reports -/

namespace NetworkSettings

def getSubmitBalancesEnabled : Method Unit .bool := ⟨"getSubmitBalancesEnabled", 0xfcdb60db⟩

def getSubmitPricesEnabled : Method Unit .bool := ⟨"getSubmitPricesEnabled", 0xd7c8953c⟩

def getSubmitBalancesFrequency : Method Unit .uint256 := ⟨"getSubmitBalancesFrequency", 0x1d5e50ea⟩

def getSubmitPricesFrequency : Method Unit .uint256 := ⟨"getSubmitPricesFrequency", 0x31607418⟩

end NetworkSettings

/-! ## Settings about minipools -/

namespace MinipoolSettings

def getLaunchTimeout : Method Unit .uint256 := ⟨"getLaunchTimeout", 0xd42916c2⟩

end MinipoolSettings

/-! ## Settings about minipools that trusted members decide -/

namespace TrustedSettings

def getScrubPeriod : Method Unit .uint256 := ⟨"getScrubPeriod", 0xf0245dc8⟩

def getPromotionScrubPeriod : Method Unit .uint256 := ⟨"getPromotionScrubPeriod", 0x754b6a73⟩

def getBondReductionWindowStart : Method Unit .uint256 :=
  ⟨"getBondReductionWindowStart", 0x7f22f46d⟩

def getBondReductionWindowLength : Method Unit .uint256 :=
  ⟨"getBondReductionWindowLength", 0x92bbae48⟩

end TrustedSettings

end Contract

end StakingSnapshot
