import StakingSnapshot.Minipool.Shares

/-!
# Snapshots of minipools

A minipool is read in rounds: its version, its balance, what its contracts tell about it, and the
shares of its balance, which depend on the refund read before. `Minipool.one` reads one minipool,
`Minipool.ofNode` those of a node, and `Minipool.every` all that the register knows.
-/

namespace StakingSnapshot

namespace Minipool

open Contract

/-- The calls that the register of minipools answers. -/
def registerCalls (r : Registry) (a : Address) : List (Call Minipool) :=
  let manager := r.address .minipoolManager
  [.typed MinipoolManager.getMinipoolExists manager a fun v m => { m with isKnown := v },
    .typed MinipoolManager.getMinipoolPubkey manager a fun v m => { m with pubkey := v },
    .typed MinipoolManager.getMinipoolWithdrawalCredentials manager a
      fun v m => { m with withdrawalCredentials := v },
    .typed MinipoolManager.getMinipoolRPLSlashed manager a fun v m => { m with isSlashed := v },
    .typed MinipoolManager.getMinipoolDepositType manager a
      fun v m => { m with depositCode := .ofRaw v }]

/-- The calls that every delegate answers. -/
def delegateCalls (a : Address) : List (Call Minipool) :=
  [.typed Delegate.getStatus a () fun v m => { m with statusCode := .ofRaw v },
    .typed Delegate.getStatusBlock a () fun v m => { m with statusBlock := v },
    .typed Delegate.getStatusTime a () fun v m => { m with statusTime := .ofRaw v },
    .typed Delegate.getFinalised a () fun v m => { m with isFinalised := v },
    .typed Delegate.getNodeFee a () fun v m => { m with nodeFee := v },
    .typed Delegate.getNodeDepositBalance a () fun v m => { m with nodeDeposit := v },
    .typed Delegate.getNodeDepositAssigned a () fun v m => { m with nodeDepositAssigned := v },
    .typed Delegate.getUserDepositBalance a () fun v m => { m with userDeposit := v },
    .typed Delegate.getUserDepositAssigned a () fun v m => { m with userDepositAssigned := v },
    .typed Delegate.getUserDepositAssignedTime a ()
      fun v m => { m with userDepositAssignedTime := .ofRaw v },
    .typed Delegate.getUseLatestDelegate a () fun v m => { m with usesLatestDelegate := v },
    .typed Delegate.getDelegate a () fun v m => { m with delegate := v },
    .typed Delegate.getPreviousDelegate a () fun v m => { m with previousDelegate := v },
    .typed Delegate.getEffectiveDelegate a () fun v m => { m with effectiveDelegate := v },
    .typed Delegate.getNodeAddress a () fun v m => { m with node := v },
    .typed Delegate.getNodeRefundBalance a () fun v m => { m with refund := v }]

/-- The calls that only the newer delegates answer, and the reducer of bonds beside them. -/
def atlasCalls (r : Registry) (a : Address) : List (Call Minipool) :=
  let reducer := r.address .minipoolBondReducer
  [.typed AtlasDelegate.getUserDistributed a () fun v m => { m with userDistributed := v },
    .typed AtlasDelegate.getVacant a () fun v m => { m with isVacant := v },
    .typed AtlasDelegate.getPreMigrationBalance a ()
      fun v m => { m with preMigrationBalance := v },
    .typed BondReducer.getReduceBondTime reducer a fun v m => { m with reductionTime := .ofRaw v },
    .typed BondReducer.getReduceBondCancelled reducer a
      fun v m => { m with reductionCancelled := v },
    .typed BondReducer.getReduceBondValue reducer a fun v m => { m with reductionBond := v },
    .typed BondReducer.getLastBondReductionTime reducer a
      fun v m => { m with lastReductionTime := .ofRaw v },
    .typed BondReducer.getLastBondReductionPrevValue reducer a
      fun v m => { m with lastReductionPreviousBond := v },
    .typed BondReducer.getLastBondReductionPrevNodeFee reducer a
      fun v m => { m with lastReductionPreviousFee := v }]

/-- The calls for the penalties of a minipool. -/
def penaltyCalls (r : Registry) (a : Address) : List (Call Minipool) :=
  [.typed Storage.getUint r.storage (StorageKey.penaltyCount a)
      fun v m => { m with penaltyCount := v },
    .typed Storage.getUint r.storage (StorageKey.penaltyRate a)
      fun v m => { m with penaltyRate := v }]

/-- The minipool without what only the newer delegates tell. -/
def withoutAtlas (m : Minipool) : Minipool :=
  { m with
    userDistributed := false
    isVacant := false
    preMigrationBalance := 0
    reductionTime := .ofRaw 0
    reductionCancelled := false
    reductionBond := 0
    lastReductionTime := .ofRaw 0
    lastReductionPreviousBond := 0
    lastReductionPreviousFee := 0 }

/-- How a minipool registers the calls for what its contracts tell. -/
def detailsPlan (r : Registry) : Plan Minipool := fun _ m => do
  let front := registerCalls r m.address ++ delegateCalls m.address
  match ← m.binding with
  | .legacy => return (m.withoutAtlas, front ++ penaltyCalls r m.address)
  | .atlas => return (m, front ++ (atlasCalls r m.address ++ penaltyCalls r m.address))

variable {σ : Type}

/-- The addresses of all minipools, in the order of the register. -/
def addresses (o : Observer σ) (r : Registry) : Read σ (List Address) := do
  let manager := r.address .minipoolManager
  let raw ← Snapshot.wordOf o r.block manager MinipoolManager.getMinipoolCount ()
  let count ← Read.ofExcept (itemCount raw manager MinipoolManager.getMinipoolCount.name)
  o.scheduler.batchFetch r.block o.config.batchSizes.addresses
    (Plan.byIndex fun i => [.value MinipoolManager.getMinipoolAt manager (BitVec.ofNat 256 i)])
    .zero count

/-- The addresses of the minipools of a node, in the order of the register. -/
def addressesOfNode (o : Observer σ) (r : Registry) (node : Address) : Read σ (List Address) := do
  let manager := r.address .minipoolManager
  let raw ← Snapshot.wordOf o r.block manager MinipoolManager.getNodeMinipoolCount node
  let count ← Read.ofExcept (itemCount raw manager MinipoolManager.getNodeMinipoolCount.name)
  o.scheduler.batchFetch r.block o.config.batchSizes.addresses
    (Plan.byIndex fun i =>
      [.value MinipoolManager.getNodeMinipoolAt manager (node, BitVec.ofNat 256 i)])
    .zero count

/-- Minipools of which the address, the version and the balance are known. -/
def fresh (addresses : List Address) (versions : List UInt8) (balances : List Word) :
    List Minipool :=
  ((addresses.zip versions).zip balances).map fun ((address, version), balance) =>
    { ofAddress address version with balance := balance }

/-- Reads minipools with known versions. -/
def ofVersions (o : Observer σ) (r : Registry) (addresses : List Address)
    (versions : List UInt8) : Read σ (List Minipool) := do
  let size := o.config.batchSizes.minipoolDetails
  let balances ← (Snapshot.etherBalances o r addresses).context "error getting minipool balances"
  let minipools ← (o.scheduler.batchQuery r.block size (detailsPlan r)
    (fresh addresses versions balances)).context "error getting minipool details r1"
  (o.scheduler.batchQuery r.block size sharesPlan (minipools.map interpretCodes)).context
    "error getting minipool details r2"

/-- Reads minipools. -/
def ofAddresses (o : Observer σ) (r : Registry) (addresses : List Address) :
    Read σ (List Minipool) := do
  let versions ← (o.probe.resolveAll o.scheduler r.block o.config.batchSizes.versions
    addresses).context "error getting minipool versions"
  ofVersions o r addresses versions

/-- Reads one minipool. -/
def one (o : Observer σ) (r : Registry) (address : Address) : Read σ Minipool := do
  let version ← (o.probe.resolve o.scheduler r.block address).context
    "error getting minipool version"
  let minipools ← ofVersions o r [address] [version]
  return minipools.getLastD (ofAddress address version)

/-- Reads the minipools of a node. -/
def ofNode (o : Observer σ) (r : Registry) (node : Address) : Read σ (List Minipool) :=
  Snapshot.logged "node_minipools" r.blockNumber List.length do
    let found ← (addressesOfNode o r node).context
      s!"error getting minipool addresses for node {node}"
    ofAddresses o r found

/-- Reads all minipools. -/
def every (o : Observer σ) (r : Registry) : Read σ (List Minipool) :=
  Snapshot.logged "minipool" r.blockNumber List.length do
    let found ← (addresses o r).context "error getting minipool addresses"
    ofAddresses o r found

end Minipool

end StakingSnapshot
