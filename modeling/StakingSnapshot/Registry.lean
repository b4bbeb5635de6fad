import StakingSnapshot.Contract.Basic
import StakingSnapshot.Observer
import StakingSnapshot.StorageKey

/-!
# The registry of contracts

The storage contract knows where each contract of the network is. `Registry.load` asks it for all
of them at one block, and every later read is pinned to that block.
-/

namespace StakingSnapshot

/-- The contracts of the network. -/
inductive ContractName where
  | daoNodeTrusted
  | daoNodeTrustedSettingsMinipool
  | daoProtocolSettingsMinipool
  | daoProtocolSettingsNetwork
  | daoProtocolSettingsNode
  | depositPool
  | minipoolManager
  | minipoolQueue
  | networkBalances
  | networkFees
  | networkPrices
  | nodeDeposit
  | nodeDistributorFactory
  | nodeManager
  | nodeStaking
  | rewardsPool
  | smoothingPool
  | tokenRETH
  | tokenRPL
  | tokenRPLFixedSupply
  | minipoolBondReducer
  | daoProtocolProposal
  deriving DecidableEq, Inhabited

namespace ContractName

/-- All contracts, in the order in which they are asked for. -/
def all : List ContractName :=
  [daoNodeTrusted, daoNodeTrustedSettingsMinipool, daoProtocolSettingsMinipool,
    daoProtocolSettingsNetwork, daoProtocolSettingsNode, depositPool, minipoolManager,
    minipoolQueue, networkBalances, networkFees, networkPrices, nodeDeposit,
    nodeDistributorFactory, nodeManager, nodeStaking, rewardsPool, smoothingPool, tokenRETH,
    tokenRPL, tokenRPLFixedSupply, minipoolBondReducer, daoProtocolProposal]

/-- The name of a contract without the word that all names share. -/
def stem : ContractName → String
  | daoNodeTrusted => "DAONodeTrusted"
  | daoNodeTrustedSettingsMinipool => "DAONodeTrustedSettingsMinipool"
  | daoProtocolSettingsMinipool => "DAOProtocolSettingsMinipool"
  | daoProtocolSettingsNetwork => "DAOProtocolSettingsNetwork"
  | daoProtocolSettingsNode => "DAOProtocolSettingsNode"
  | depositPool => "DepositPool"
  | minipoolManager => "MinipoolManager"
  | minipoolQueue => "MinipoolQueue"
  | networkBalances => "NetworkBalances"
  | networkFees => "NetworkFees"
  | networkPrices => "NetworkPrices"
  | nodeDeposit => "NodeDeposit"
  | nodeDistributorFactory => "NodeDistributorFactory"
  | nodeManager => "NodeManager"
  | nodeStaking => "NodeStaking"
  | rewardsPool => "RewardsPool"
  | smoothingPool => "SmoothingPool"
  | tokenRETH => "TokenRETH"
  | tokenRPL => "TokenRPL"
  | tokenRPLFixedSupply => "TokenRPLFixedSupply"
  | minipoolBondReducer => "MinipoolBondReducer"
  | daoProtocolProposal => "DAOProtocolProposal"

/-- The name of a contract as it is shown. -/
def title (n : ContractName) : String := "Rocket" ++ n.stem

/-- The name under which the storage contract knows a contract. -/
def key (n : ContractName) : String := "rocket" ++ n.stem

/-- The contracts are asked for in the order in which they are declared. -/
theorem getElem?_all (n : ContractName) : all[n.ctorIdx]? = some n := by cases n <;> rfl

theorem mem_all (n : ContractName) : n ∈ all := List.mem_of_getElem? (getElem?_all n)

theorem ctorIdx_lt (n : ContractName) : n.ctorIdx < all.length :=
  (List.getElem?_eq_some_iff.1 (getElem?_all n)).1

end ContractName

/-- What the storage contract knows about a contract. -/
structure Deployment where
  /-- Where the contract is. -/
  address : Address := .zero
  /-- Its interface, encoded as it is stored. -/
  abi : String := ""
  deriving DecidableEq, Inhabited

/-- What the storage contract knows about each contract: one entry for each of them, in the order of
`ContractName.all`. -/
structure Deployments where
  entries : List Deployment
  length_entries : entries.length = ContractName.all.length

namespace Deployments

/-- The entries that a function gives. -/
def ofFn (f : ContractName → Deployment) : Deployments :=
  ⟨ContractName.all.map f, List.length_map f⟩

/-- Before anything is known. -/
def empty : Deployments := ofFn fun _ => {}

/-- The entry of a contract stands where its name is declared. -/
def get (d : Deployments) (n : ContractName) : Deployment :=
  d.entries.get ⟨n.ctorIdx, d.length_entries ▸ n.ctorIdx_lt⟩

/-- Entries apply like the function that they stand for. -/
instance : CoeFun Deployments fun _ => ContractName → Deployment := ⟨get⟩

/-- Changes the entry at one place. -/
def modify (i : Nat) (f : Deployment → Deployment) (d : Deployments) : Deployments :=
  ⟨d.entries.modify i f, (List.length_modify ..).trans d.length_entries⟩

/-- The calls that ask for one contract: where it is, and its interface. Its entry is the one at the
given place. -/
def callsFor (storage : Address) (n : ContractName) (i : Nat) : List (Call Deployments) :=
  [.typed Contract.Storage.getAddress storage (StorageKey.contractAddress n.key)
      fun a => modify i fun d => { d with address := a },
    .typed Contract.Storage.getString storage (StorageKey.contractAbi n.key)
      fun s => modify i fun d => { d with abi := s }]

/-- The calls that ask for all contracts, which fill the entries from the first to the last. -/
def calls (storage : Address) : List (Call Deployments) :=
  ContractName.all.zipIdx.flatMap fun (n, i) => callsFor storage n i

end Deployments

/-- The contracts of the network at one block. -/
structure Registry where
  /-- The block that all reads are pinned to. -/
  blockNumber : BlockNumber
  /-- The contract that knows the others. -/
  storage : Address
  /-- The contract that makes the calls of an aggregate. -/
  hub : Address
  /-- The release of the network. -/
  protocol : ProtocolVersion
  /-- What is known about each contract. -/
  deployments : Deployments

namespace Registry

variable {σ : Type}

/-- The block that all reads are pinned to. -/
def block (r : Registry) : BlockRef := .pinned r.blockNumber

/-- Where a contract is. -/
def address (r : Registry) (n : ContractName) : Address := (r.deployments n).address

/-- Each contract with what is known about it. -/
def toList (r : Registry) : List (ContractName × Deployment) :=
  ContractName.all.zip r.deployments.entries

/-- The block to pin reads to: the given one, or else the latest. -/
def chooseBlock (o : Observer σ) : Option BlockNumber → Read σ BlockNumber
  | some n => pure n
  | none => o.latestBlock.context "error getting latest block number"

/-- Asks for all contracts at the block with a number. -/
def loadAt (o : Observer σ) (number : BlockNumber) : Read σ Registry := do
  let block := BlockRef.pinned number
  let storage ← Read.ofExcept o.config.storageAddress
  let deployments ← (o.scheduler.query block (Deployments.calls storage) Deployments.empty).context
    "error executing multicall for contract retrieval"
  let versions ← (o.probe.resolveAll o.scheduler block o.config.batchSizes.versions
    [(deployments .nodeStaking).address, (deployments .nodeManager).address]).context
    "error getting network contract versions"
  return {
    blockNumber := number
    storage := storage
    hub := o.scheduler.hub
    protocol := .detect (versions.getD 0 0) (versions.getD 1 0)
    deployments := deployments }

/-- Asks for all contracts at a block, or at the latest one. -/
def load (o : Observer σ) (block? : Option BlockNumber) : Read σ Registry :=
  chooseBlock o block? >>= loadAt o

/-- The written form. The interfaces are not part of it. -/
def toJson (r : Registry) : Json :=
  .obj [
    ("block_number", .ofNat r.blockNumber.toNat),
    ("storage_address", .ofAddress r.storage),
    ("multicall_address", .ofAddress r.hub),
    ("protocol_version", .str (toString r.protocol)),
    ("entries", .arr (r.deployments.entries.map fun d =>
      .obj [("address", .ofAddress d.address)]))]

end Registry

end StakingSnapshot
