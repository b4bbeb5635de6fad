import StakingSnapshot.Contract.Network
import StakingSnapshot.Contract.Node
import StakingSnapshot.Network.Record
import StakingSnapshot.Snapshot

/-!
# Snapshots of the network

`Network.fetch` reads everything in one aggregate, and then the balances of two contracts. A later
release of the network has frequencies in place of reportable blocks, and the caller says which of
the two are read.
-/

namespace StakingSnapshot

namespace Network

open Contract

/-- The calls for prices and rewards. -/
def rewardCalls (r : Registry) : List (Call Network) :=
  let settings := r.address .daoProtocolSettingsNode
  let rewards := r.address .rewardsPool
  [.typed Prices.getRPLPrice (r.address .networkPrices) () fun v n => { n with stakePrice := v },
    .typed NodeSettings.getMinimumPerMinipoolStake settings ()
      fun v n => { n with minCollateral := v },
    .typed NodeSettings.getMaximumPerMinipoolStake settings ()
      fun v n => { n with maxCollateral := v },
    .typed Rewards.getRewardIndex rewards () fun v n => { n with rewardIndex := .ofRaw v },
    .typed Rewards.getClaimIntervalTimeStart rewards ()
      fun v n => { n with intervalStart := .ofRaw v },
    .typed Rewards.getClaimIntervalTime rewards ()
      fun v n => { n with intervalDuration := .ofRaw v },
    .typed Rewards.getClaimingContractPerc rewards "rocketClaimNode"
      fun v n => { n with nodeRewards := v },
    .typed Rewards.getClaimingContractPerc rewards "rocketClaimTrustedNode"
      fun v n => { n with trustedRewards := v },
    .typed Rewards.getClaimingContractPerc rewards "rocketClaimDAO"
      fun v n => { n with protocolRewards := v },
    .typed Rewards.getPendingRPLRewards rewards () fun v n => { n with pendingRewards := v },
    .typed TrustedSettings.getScrubPeriod (r.address .daoNodeTrustedSettingsMinipool) ()
      fun v n => { n with scrubPeriod := .ofRaw v }]

/-- The calls for the deposit pool and the queue. -/
def poolCalls (r : Registry) : List (Call Network) :=
  let pool := r.address .depositPool
  let queue := r.address .minipoolQueue
  [.typed DepositPool.getBalance pool () fun v n => { n with depositPoolBalance := v },
    .typed DepositPool.getExcessBalance pool () fun v n => { n with depositPoolExcess := v },
    .typed MinipoolQueue.getTotalCapacity queue () fun v n => { n with queueCapacity := v },
    .typed MinipoolQueue.getEffectiveCapacity queue ()
      fun v n => { n with effectiveQueueCapacity := v },
    .typed MinipoolQueue.getTotalLength queue () fun v n => { n with queueLength := v }]

/-- The calls for the tokens and for the balances that the members report. -/
def balanceCalls (r : Registry) : List (Call Network) :=
  let balances := r.address .networkBalances
  let stake := r.address .tokenRPL
  let liquid := r.address .tokenRETH
  [.typed StakeToken.getInflationIntervalRate stake () fun v n => { n with inflationRate := v },
    .typed Token.totalSupply stake () fun v n => { n with stakeSupply := v },
    .typed Prices.getPricesBlock (r.address .networkPrices) ()
      fun v n => { n with pricesBlock := .ofRaw v },
    .typed Balances.getETHUtilizationRate balances ()
      fun v n => { n with utilisation := .ofRaw v },
    .typed Balances.getStakingETHBalance balances () fun v n => { n with stakingEther := v },
    .typed LiquidToken.getExchangeRate liquid () fun v n => { n with exchangeRate := .ofRaw v },
    .typed Balances.getTotalETHBalance balances () fun v n => { n with totalEther := v },
    .typed Token.totalSupply liquid () fun v n => { n with liquidSupply := v },
    .typed NodeStaking.getTotalRPLStake (r.address .nodeStaking) ()
      fun v n => { n with totalStake := v },
    .typed Fees.getNodeFee (r.address .networkFees) () fun v n => { n with nodeFee := .ofRaw v },
    .typed Balances.getBalancesBlock balances () fun v n => { n with balancesBlock := .ofRaw v }]

/-- The calls for settings. -/
def settingCalls (r : Registry) : List (Call Network) :=
  let settings := r.address .daoProtocolSettingsNetwork
  let trusted := r.address .daoNodeTrustedSettingsMinipool
  [.typed NetworkSettings.getSubmitBalancesEnabled settings ()
      fun v n => { n with submitsBalances := v },
    .typed NetworkSettings.getSubmitPricesEnabled settings ()
      fun v n => { n with submitsPrices := v },
    .typed MinipoolSettings.getLaunchTimeout (r.address .daoProtocolSettingsMinipool) ()
      fun v n => { n with launchTimeout := .ofRaw v },
    .typed TrustedSettings.getPromotionScrubPeriod trusted ()
      fun v n => { n with promotionScrubPeriod := .ofRaw v },
    .typed TrustedSettings.getBondReductionWindowStart trusted ()
      fun v n => { n with reductionWindowStart := .ofRaw v },
    .typed TrustedSettings.getBondReductionWindowLength trusted ()
      fun v n => { n with reductionWindowLength := .ofRaw v },
    .typed DepositPool.getUserBalance (r.address .depositPool) ()
      fun v n => { n with depositPoolUserBalance := v }]

/-- The calls for how often the members report. -/
def frequencyCalls (r : Registry) : List (Call Network) :=
  let settings := r.address .daoProtocolSettingsNetwork
  [.typed NetworkSettings.getSubmitPricesFrequency settings ()
      fun v n => { n with pricesFrequency := .ofRaw v },
    .typed NetworkSettings.getSubmitBalancesFrequency settings ()
      fun v n => { n with balancesFrequency := .ofRaw v }]

/-- The calls for the last blocks on which the members may report. -/
def reportableCalls (r : Registry) : List (Call Network) :=
  [.typed Prices.getLatestReportableBlock (r.address .networkPrices) ()
      fun v n => { n with latestPricesBlock := .ofRaw v },
    .typed Balances.getLatestReportableBlock (r.address .networkBalances) ()
      fun v n => { n with latestBalancesBlock := .ofRaw v }]

/-- All calls of the snapshot. -/
def detailsCalls (r : Registry) (hasFrequencies : Bool) : List (Call Network) :=
  rewardCalls r ++ (poolCalls r ++ (balanceCalls r ++ (settingCalls r ++
    if hasFrequencies then frequencyCalls r else reportableCalls r)))

variable {σ : Type}

/-- Reads the network, without logging. -/
def read (o : Observer σ) (r : Registry) (hasFrequencies : Bool) : Read σ Network := do
  let pool := r.address .smoothingPool
  let network ← (o.scheduler.query r.block (detailsCalls r hasFrequencies)
    { smoothingPool := pool }).context "error executing multicall for network details"
  let balances ← (Snapshot.etherBalances o r [pool, r.address .tokenRETH]).context
    "error getting contract balances"
  return {
    network with
    smoothingPoolBalance := balances.getD 0 0
    liquidEther := balances.getD 1 0 }

/-- Reads the network. -/
def fetch (o : Observer σ) (r : Registry) (hasFrequencies : Bool) : Read σ Network :=
  Snapshot.logged "network" r.blockNumber (fun _ => 1) (read o r hasFrequencies)

end Network

end StakingSnapshot
