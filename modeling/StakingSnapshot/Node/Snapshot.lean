import StakingSnapshot.Contract.Minipool
import StakingSnapshot.Contract.Node
import StakingSnapshot.Node.Record
import StakingSnapshot.Snapshot

/-!
# Snapshots of nodes

A node is read in two rounds: what contracts tell about it, and then the balances of the node and of
its fee distributor, whose address was read before. `Node.one` reads one node and `Node.every` all
that the register knows.
-/

namespace StakingSnapshot

namespace Node

open Contract

/-- The calls for what contracts tell about a node. -/
def detailsCalls (r : Registry) (a : Address) : List (Call Node) :=
  let manager := r.address .nodeManager
  let staking := r.address .nodeStaking
  [.typed NodeManager.getNodeExists manager a fun v n => { n with isKnown := v },
    .typed NodeManager.getNodeRegistrationTime manager a
      fun v n => { n with registrationTime := .ofRaw v },
    .typed NodeManager.getNodeTimezoneLocation manager a fun v n => { n with timezone := v },
    .typed NodeManager.getFeeDistributorInitialised manager a
      fun v n => { n with distributorInitialised := v },
    .typed DistributorFactory.getProxyAddress (r.address .nodeDistributorFactory) a
      fun v n => { n with distributor := v },
    .typed NodeManager.getRewardNetwork manager a fun v n => { n with rewardNetwork := v },
    .typed NodeStaking.getNodeRPLStake staking a fun v n => { n with stake := v },
    .typed NodeStaking.getNodeEffectiveRPLStake staking a
      fun v n => { n with effectiveStake := v },
    .typed NodeStaking.getNodeMinimumRPLStake staking a fun v n => { n with minimumStake := v },
    .typed NodeStaking.getNodeMaximumRPLStake staking a fun v n => { n with maximumStake := v },
    .typed NodeStaking.getNodeETHMatched staking a fun v n => { n with ethMatched := v },
    .typed NodeStaking.getNodeETHMatchedLimit staking a
      fun v n => { n with ethMatchedLimit := v },
    .typed MinipoolManager.getNodeMinipoolCount (r.address .minipoolManager) a
      fun v n => { n with minipoolCount := .ofRaw v },
    .typed Token.balanceOf (r.address .tokenRETH) a fun v n => { n with balanceLiquid := v },
    .typed Token.balanceOf (r.address .tokenRPL) a fun v n => { n with balanceStake := v },
    .typed Token.balanceOf (r.address .tokenRPLFixedSupply) a
      fun v n => { n with balanceOldStake := v },
    .typed Storage.getNodeWithdrawalAddress r.storage a
      fun v n => { n with withdrawalAddress := v },
    .typed Storage.getNodePendingWithdrawalAddress r.storage a
      fun v n => { n with pendingWithdrawalAddress := v },
    .typed NodeManager.getSmoothingPoolRegistrationState manager a
      fun v n => { n with inSmoothingPool := v },
    .typed NodeManager.getSmoothingPoolRegistrationChanged manager a
      fun v n => { n with smoothingPoolChanged := .ofRaw v },
    .typed NodeDeposit.getNodeDepositCredit (r.address .nodeDeposit) a
      fun v n => { n with depositCredit := v },
    .typed NodeStaking.getNodeETHCollateralisationRatio staking a
      fun v n => { n with collateralisation := v }]

/-- How a node registers the calls for what contracts tell about it. -/
def detailsPlan (r : Registry) : Plan Node := fun _ n => .ok (n, detailsCalls r n.address)

/-- A stake below the minimum does not count. -/
def countStake (n : Node) : Node :=
  if n.effectiveStake.toNat < n.minimumStake.toNat then { n with effectiveStake := 0 } else n

/-- Nodes with their balances, and with the stakes that count. -/
def withBalances (nodes : List Node) (own distributors : List Word) : List Node :=
  ((nodes.zip own).zip distributors).map fun ((n, balance), distributor) =>
    countStake { n with balanceEther := balance, distributorBalance := distributor }

variable {σ : Type}

/-- The addresses of all nodes, in the order of the register. -/
def addresses (o : Observer σ) (r : Registry) : Read σ (List Address) := do
  let manager := r.address .nodeManager
  let raw ← (Snapshot.wordOf o r.block manager NodeManager.getNodeCount ()).context
    "error getting node count"
  let count ← Read.ofExcept (itemCount raw manager NodeManager.getNodeCount.name)
  (o.scheduler.batchFetch r.block o.config.batchSizes.addresses
    (Plan.byIndex fun i => [.value NodeManager.getNodeAt manager (BitVec.ofNat 256 i)])
    .zero count).context "error getting node addresses"

/-- Reads nodes. -/
def ofAddresses (o : Observer σ) (r : Registry) (addresses : List Address) :
    Read σ (List Node) := do
  let nodes ← (o.scheduler.batchQuery r.block o.config.batchSizes.nodeDetails (detailsPlan r)
    (addresses.map ofAddress)).context "error getting node details"
  let accounts := nodes.map (fun n => n.address) ++ nodes.map fun n => n.distributor
  let balances ← (Snapshot.etherBalances o r accounts).context "error getting node ETH balances"
  return withBalances nodes (balances.take nodes.length) (balances.drop nodes.length)

/-- Reads one node. -/
def one (o : Observer σ) (r : Registry) (address : Address) : Read σ Node := do
  let nodes ← ofAddresses o r [address]
  return nodes.getLastD (ofAddress address)

/-- Reads all nodes. -/
def every (o : Observer σ) (r : Registry) : Read σ (List Node) :=
  Snapshot.logged "node" r.blockNumber List.length do
    ofAddresses o r (← addresses o r)

end Node

end StakingSnapshot
