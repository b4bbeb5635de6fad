import StakingSnapshot.Abi.Method

/-!
# Methods about minipools

The register of minipools, the delegates that minipools run, and the reducer of their bonds.
-/

namespace StakingSnapshot

namespace Contract

open Abi

/-! ## The register of minipools -/

namespace MinipoolManager

def getMinipoolCount : Method Unit .uint256 := ⟨"getMinipoolCount", 0xae4d0bed⟩

def getMinipoolExists : Method Address .bool := ⟨"getMinipoolExists", 0x606bb62e⟩

def getMinipoolAt : Method Word .address := ⟨"getMinipoolAt", 0xeff7319f⟩

def getNodeMinipoolCount : Method Address .uint256 := ⟨"getNodeMinipoolCount", 0x1ce9ec33⟩

def getNodeMinipoolAt : Method (Address × Word) .address := ⟨"getNodeMinipoolAt", 0x8b300029⟩

def getMinipoolPubkey : Method Address .bytes := ⟨"getMinipoolPubkey", 0x3eb535e9⟩

def getMinipoolWithdrawalCredentials : Method Address .bytes :=
  ⟨"getMinipoolWithdrawalCredentials", 0x2cb76c37⟩

def getMinipoolRPLSlashed : Method Address .bool := ⟨"getMinipoolRPLSlashed", 0x0c21b8a7⟩

def getMinipoolDepositType : Method Address .uint8 := ⟨"getMinipoolDepositType", 0x5ea1a6e2⟩

end MinipoolManager

/-! ## What every delegate of a minipool answers -/

namespace Delegate

def getStatus : Method Unit .uint8 := ⟨"getStatus", 0x4e69d560⟩

def getStatusBlock : Method Unit .uint256 := ⟨"getStatusBlock", 0xe67cd5b0⟩

def getStatusTime : Method Unit .uint256 := ⟨"getStatusTime", 0x3e0a56b0⟩

def getFinalised : Method Unit .bool := ⟨"getFinalised", 0xa129a5ee⟩

def getNodeFee : Method Unit .uint256 := ⟨"getNodeFee", 0xe7150134⟩

def getNodeDepositBalance : Method Unit .uint256 := ⟨"getNodeDepositBalance", 0x74ca6bf2⟩

def getNodeRefundBalance : Method Unit .uint256 := ⟨"getNodeRefundBalance", 0xfbc02c42⟩

def getNodeDepositAssigned : Method Unit .bool := ⟨"getNodeDepositAssigned", 0x69c089ea⟩

def getUserDepositBalance : Method Unit .uint256 := ⟨"getUserDepositBalance", 0xe7e04aba⟩

def getUserDepositAssigned : Method Unit .bool := ⟨"getUserDepositAssigned", 0xd91eda62⟩

def getUserDepositAssignedTime : Method Unit .uint256 := ⟨"getUserDepositAssignedTime", 0xa2940a90⟩

def getUseLatestDelegate : Method Unit .bool := ⟨"getUseLatestDelegate", 0x8ee7d0cb⟩

def getDelegate : Method Unit .address := ⟨"getDelegate", 0xbc7f3b50⟩

def getPreviousDelegate : Method Unit .address := ⟨"getPreviousDelegate", 0xbe1d1d32⟩

def getEffectiveDelegate : Method Unit .address := ⟨"getEffectiveDelegate", 0x1dcef0bf⟩

def getNodeAddress : Method Unit .address := ⟨"getNodeAddress", 0x70dabc9e⟩

def calculateNodeShare : Method Word .uint256 := ⟨"calculateNodeShare", 0x1a69d18f⟩

def calculateUserShare : Method Word .uint256 := ⟨"calculateUserShare", 0x19f18b1f⟩

end Delegate

/-! ## What only the delegates from version 3 on answer -/

namespace AtlasDelegate

def getUserDistributed : Method Unit .bool := ⟨"getUserDistributed", 0x7bfaef7d⟩

def getVacant : Method Unit .bool := ⟨"getVacant", 0xbbe38fe1⟩

def getPreMigrationBalance : Method Unit .uint256 := ⟨"getPreMigrationBalance", 0x49b42321⟩

end AtlasDelegate

/-! ## The reducer of bonds -/

namespace BondReducer

def getReduceBondTime : Method Address .uint256 := ⟨"getReduceBondTime", 0xb3b4c656⟩

def getReduceBondCancelled : Method Address .bool := ⟨"getReduceBondCancelled", 0x46505530⟩

def getReduceBondValue : Method Address .uint256 := ⟨"getReduceBondValue", 0xcb98f793⟩

def getLastBondReductionTime : Method Address .uint256 := ⟨"getLastBondReductionTime", 0x138f3d0d⟩

def getLastBondReductionPrevValue : Method Address .uint256 :=
  ⟨"getLastBondReductionPrevValue", 0x81037f20⟩

def getLastBondReductionPrevNodeFee : Method Address .uint256 :=
  ⟨"getLastBondReductionPrevNodeFee", 0x179e5279⟩

end BondReducer

end Contract

end StakingSnapshot
