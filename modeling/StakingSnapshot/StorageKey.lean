import StakingSnapshot.Abi.Method
import StakingSnapshot.Keccak

/-!
# Keys of the storage contract

The storage contract keeps each value under the digest of a namespace and a suffix that follow each
other without anything between them.

* `StorageKey.contractAddress`, `StorageKey.contractAbi`: where a contract is, and its interface.
* `StorageKey.penaltyCount`, `StorageKey.penaltyRate`: the penalties of a minipool.
-/

namespace StakingSnapshot

namespace StorageKey

/-- What is digested: the namespace, then the suffix. -/
def preimage (space : String) (suffix : Bytes) : Bytes := Bytes.ofText space ++ suffix

/-- The key of a suffix in a namespace. -/
def make (space : String) (suffix : Bytes) : Abi.Key :=
  .ofBytes (Keccak.digest (preimage space suffix))

/-- The namespace of the addresses of contracts. -/
def addressSpace : String := "contract.address"

/-- The namespace of the interfaces of contracts. -/
def abiSpace : String := "contract.abi"

/-- The namespace of the numbers of penalties. -/
def penaltyCountSpace : String := "network.penalties.penalty"

/-- The namespace of the rates of penalties. -/
def penaltyRateSpace : String := "minipool.penalty.rate"

/-- The key of a contract's address. -/
def contractAddress (name : String) : Abi.Key := make addressSpace (Bytes.ofText name)

/-- The key of a contract's interface. -/
def contractAbi (name : String) : Abi.Key := make abiSpace (Bytes.ofText name)

/-- The key of the number of penalties of a minipool. -/
def penaltyCount (minipool : Address) : Abi.Key := make penaltyCountSpace minipool.toBytes

/-- The key of the rate at which a minipool is penalised. -/
def penaltyRate (minipool : Address) : Abi.Key := make penaltyRateSpace minipool.toBytes

end StorageKey

end StakingSnapshot
