import StakingSnapshot.Parameter.Formats

/-!
# The network as a whole

What a snapshot tells about prices, balances, rewards, queues and settings of the network.
-/

namespace StakingSnapshot

/-- The network at one block. -/
structure Network where
  /-- The price of the token that nodes stake. -/
  stakePrice : Word := 0
  minCollateral : Word := 0
  maxCollateral : Word := 0
  /-- How long one interval of rewards takes, and when the present one began. -/
  intervalDuration : DurationParameter := .ofRaw 0
  intervalStart : TimestampParameter := .ofRaw 0
  /-- The parts of the rewards for nodes, for trusted members and for the protocol. -/
  nodeRewards : Word := 0
  trustedRewards : Word := 0
  protocolRewards : Word := 0
  pendingRewards : Word := 0
  rewardIndex : CountParameter := .ofRaw 0
  scrubPeriod : DurationParameter := .ofRaw 0
  smoothingPool : Address := .zero
  depositPoolBalance : Word := 0
  depositPoolExcess : Word := 0
  queueCapacity : Word := 0
  effectiveQueueCapacity : Word := 0
  queueLength : Word := 0
  inflationRate : Word := 0
  stakeSupply : Word := 0
  pricesBlock : CountParameter := .ofRaw 0
  latestPricesBlock : CountParameter := .ofRaw 0
  utilisation : RatioParameter := .ofRaw 0
  stakingEther : Word := 0
  /-- How much ether the liquid token is worth. -/
  exchangeRate : RatioParameter := .ofRaw 0
  totalEther : Word := 0
  /-- The ether that the liquid token's contract holds. -/
  liquidEther : Word := 0
  liquidSupply : Word := 0
  totalStake : Word := 0
  smoothingPoolBalance : Word := 0
  nodeFee : RatioParameter := .ofRaw 0
  balancesBlock : CountParameter := .ofRaw 0
  latestBalancesBlock : CountParameter := .ofRaw 0
  submitsBalances : Bool := false
  submitsPrices : Bool := false
  launchTimeout : DurationParameter := .ofRaw 0
  promotionScrubPeriod : DurationParameter := .ofRaw 0
  reductionWindowStart : DurationParameter := .ofRaw 0
  reductionWindowLength : DurationParameter := .ofRaw 0
  /-- What users have in the deposit pool, less what the pool owes. -/
  depositPoolUserBalance : SignedWord := ⟨0⟩
  pricesFrequency : CountParameter := .ofRaw 0
  balancesFrequency : CountParameter := .ofRaw 0

namespace Network

instance : Inhabited Network := ⟨{}⟩

/-- The written form. -/
def toJson (n : Network) : Json :=
  .obj [
    ("rpl_price", .ofWord n.stakePrice),
    ("min_collateral_fraction", .ofWord n.minCollateral),
    ("max_collateral_fraction", .ofWord n.maxCollateral),
    ("interval_duration", n.intervalDuration.toJson),
    ("interval_start", n.intervalStart.toJson),
    ("node_operator_rewards_percent", .ofWord n.nodeRewards),
    ("oracle_dao_rewards_percent", .ofWord n.trustedRewards),
    ("protocol_dao_rewards_percent", .ofWord n.protocolRewards),
    ("pending_rpl_rewards", .ofWord n.pendingRewards),
    ("reward_index", n.rewardIndex.toJson),
    ("scrub_period", n.scrubPeriod.toJson),
    ("smoothing_pool_address", .ofAddress n.smoothingPool),
    ("deposit_pool_balance", .ofWord n.depositPoolBalance),
    ("deposit_pool_excess", .ofWord n.depositPoolExcess),
    ("total_queue_capacity", .ofWord n.queueCapacity),
    ("effective_queue_capacity", .ofWord n.effectiveQueueCapacity),
    ("queue_length", .ofWord n.queueLength),
    ("rpl_inflation_interval_rate", .ofWord n.inflationRate),
    ("rpl_total_supply", .ofWord n.stakeSupply),
    ("prices_block", n.pricesBlock.toJson),
    ("latest_reportable_prices_block", n.latestPricesBlock.toJson),
    ("eth_utilization_rate", n.utilisation.toJson),
    ("staking_eth_balance", .ofWord n.stakingEther),
    ("reth_exchange_rate", n.exchangeRate.toJson),
    ("total_eth_balance", .ofWord n.totalEther),
    ("reth_balance", .ofWord n.liquidEther),
    ("total_reth_supply", .ofWord n.liquidSupply),
    ("total_rpl_stake", .ofWord n.totalStake),
    ("smoothing_pool_balance", .ofWord n.smoothingPoolBalance),
    ("node_fee", n.nodeFee.toJson),
    ("balances_block", n.balancesBlock.toJson),
    ("latest_reportable_balances_block", n.latestBalancesBlock.toJson),
    ("submit_balances_enabled", .bool n.submitsBalances),
    ("submit_prices_enabled", .bool n.submitsPrices),
    ("minipool_launch_timeout", n.launchTimeout.toJson),
    ("promotion_scrub_period", n.promotionScrubPeriod.toJson),
    ("bond_reduction_window_start", n.reductionWindowStart.toJson),
    ("bond_reduction_window_length", n.reductionWindowLength.toJson),
    ("deposit_pool_user_balance", .str (toString n.depositPoolUserBalance.toInt)),
    ("prices_submission_frequency", n.pricesFrequency.toJson),
    ("balances_submission_frequency", n.balancesFrequency.toJson)]

end Network

end StakingSnapshot
