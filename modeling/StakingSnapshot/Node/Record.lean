import StakingSnapshot.Parameter.Formats

/-!
# Nodes

What a snapshot tells about a node. Most fields are what contracts return for it; the average fee
and the two shares of what the fee distributor holds are computed from its minipools afterwards.
-/

namespace StakingSnapshot

/-- A node at one block. -/
structure Node where
  address : Address := .zero
  /-- The register knows the node. -/
  isKnown : Bool := false
  registrationTime : TimestampParameter := .ofRaw 0
  timezone : String := ""
  distributorInitialised : Bool := false
  distributor : Address := .zero
  rewardNetwork : Word := 0
  stake : Word := 0
  /-- The stake that counts for rewards. -/
  effectiveStake : Word := 0
  minimumStake : Word := 0
  maximumStake : Word := 0
  ethMatched : Word := 0
  ethMatchedLimit : Word := 0
  minipoolCount : CountParameter := .ofRaw 0
  balanceEther : Word := 0
  balanceLiquid : Word := 0
  balanceStake : Word := 0
  balanceOldStake : Word := 0
  depositCredit : Word := 0
  /-- What the fee distributor holds. -/
  distributorBalance : Word := 0
  distributorUserShare : Word := 0
  distributorNodeShare : Word := 0
  withdrawalAddress : Address := .zero
  pendingWithdrawalAddress : Address := .zero
  inSmoothingPool : Bool := false
  smoothingPoolChanged : TimestampParameter := .ofRaw 0
  averageFee : Word := 0
  /-- All ether behind the node's minipools, divided by its own, as a fixed-point number. -/
  collateralisation : Word := 0

namespace Node

instance : Inhabited Node := ⟨{}⟩

/-- A node of which only the address is known. -/
def ofAddress (address : Address) : Node := { address := address }

/-- The written form. -/
def toJson (n : Node) : Json :=
  .obj [
    ("node_address", .ofAddress n.address),
    ("exists", .bool n.isKnown),
    ("registration_time", n.registrationTime.toJson),
    ("timezone_location", .str n.timezone),
    ("fee_distributor_initialised", .bool n.distributorInitialised),
    ("fee_distributor_address", .ofAddress n.distributor),
    ("reward_network", .ofWord n.rewardNetwork),
    ("rpl_stake", .ofWord n.stake),
    ("effective_rpl_stake", .ofWord n.effectiveStake),
    ("minimum_rpl_stake", .ofWord n.minimumStake),
    ("maximum_rpl_stake", .ofWord n.maximumStake),
    ("eth_matched", .ofWord n.ethMatched),
    ("eth_matched_limit", .ofWord n.ethMatchedLimit),
    ("minipool_count", n.minipoolCount.toJson),
    ("balance_eth", .ofWord n.balanceEther),
    ("balance_reth", .ofWord n.balanceLiquid),
    ("balance_rpl", .ofWord n.balanceStake),
    ("balance_old_rpl", .ofWord n.balanceOldStake),
    ("deposit_credit_balance", .ofWord n.depositCredit),
    ("distributor_balance", .ofWord n.distributorBalance),
    ("distributor_balance_user_eth", .ofWord n.distributorUserShare),
    ("distributor_balance_node_eth", .ofWord n.distributorNodeShare),
    ("withdrawal_address", .ofAddress n.withdrawalAddress),
    ("pending_withdrawal_address", .ofAddress n.pendingWithdrawalAddress),
    ("smoothing_pool_registration_state", .bool n.inSmoothingPool),
    ("smoothing_pool_registration_changed", n.smoothingPoolChanged.toJson),
    ("average_node_fee", .ofWord n.averageFee),
    ("collateralisation_ratio", .ofWord n.collateralisation)]

end Node

end StakingSnapshot
