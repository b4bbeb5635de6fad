import StakingSnapshot.Abi.Method

/-!
# Methods that many reads use

The hub that aggregates calls, the version of a contract, the storage that knows every other
contract, and tokens.
-/

namespace StakingSnapshot

namespace Contract

open Abi

/-! ## The contract that makes the calls of an aggregate -/

namespace Hub

def getEthBalance : Method Address .uint256 := ⟨"getEthBalance", 0x4d2301cc⟩

end Hub

/-! ## Contracts that tell their version -/

namespace Versioned

def version : Method Unit .uint8 := ⟨"version", 0x54fd4d50⟩

end Versioned

/-! ## The storage of the network -/

namespace Storage

def getAddress : Method Key .address := ⟨"getAddress", 0x21f8a721⟩

def getString : Method Key .string := ⟨"getString", 0x986e791a⟩

def getUint : Method Key .uint256 := ⟨"getUint", 0xbd02d0f5⟩

def getNodeWithdrawalAddress : Method Address .address := ⟨"getNodeWithdrawalAddress", 0x5b49ff62⟩

def getNodePendingWithdrawalAddress : Method Address .address :=
  ⟨"getNodePendingWithdrawalAddress", 0xfd412513⟩

end Storage

/-! ## Tokens -/

namespace Token

def balanceOf : Method Address .uint256 := ⟨"balanceOf", 0x70a08231⟩

def totalSupply : Method Unit .uint256 := ⟨"totalSupply", 0x18160ddd⟩

end Token

end Contract

end StakingSnapshot
