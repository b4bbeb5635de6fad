import StakingSnapshot.Network.Snapshot
import StakingSnapshot.Proofs.Snapshot.Reading

/-!
# What the fields of the network hold

Each list of calls fills its own fields and leaves those of the other lists alone.

* `Network.RewardsTell`, `Network.PoolTells`, `Network.BalancesTell`, `Network.SettingsTell`: the
  fields that are always asked for; `Network.tells_applied` follows the calls.
* `Network.WithFrequencies`, `Network.WithReportables`: the fields that depend on what the caller
  says.
* `Network.Recorded`: the whole record; `Network.recorded_of_observed`.
* `Network.fetch_eq_ok_iff`: what a read that ends well comes to, however the balances are batched.
-/

namespace StakingSnapshot

/-- What a contract tells, as a parameter of which no value has been computed. -/
def toldParameter {A V : Type} [Abi.Arguments A] {k : Abi.Kind} {F : Format k.Value V}
    (answer : SubCall → CallResult) (m : Abi.Method A k) (target : Address) (args : A) :
    Option (Parameter F) :=
  (told answer m target args).map .ofRaw

theorem toldParameter_of_told {A V : Type} [Abi.Arguments A] {k : Abi.Kind} {F : Format k.Value V}
    {answer : SubCall → CallResult} {m : Abi.Method A k} {target : Address} {args : A} {v : k.Value}
    (h : told answer m target args = some v) :
    toldParameter (F := F) answer m target args = some (.ofRaw v) :=
  congrArg (Option.map Parameter.ofRaw) h

namespace Network

open Contract

/-! ## The fields that are always asked for -/

/-- What contracts tell about prices and rewards is in its place. -/
structure RewardsTell (answer : SubCall → CallResult) (r : Registry) (n : Network) : Prop where
  stakePrice : told answer Prices.getRPLPrice (r.address .networkPrices) () = some n.stakePrice
  minCollateral : told answer NodeSettings.getMinimumPerMinipoolStake
    (r.address .daoProtocolSettingsNode) () = some n.minCollateral
  maxCollateral : told answer NodeSettings.getMaximumPerMinipoolStake
    (r.address .daoProtocolSettingsNode) () = some n.maxCollateral
  rewardIndex : toldParameter answer Rewards.getRewardIndex (r.address .rewardsPool) () =
    some n.rewardIndex
  intervalStart : toldParameter answer Rewards.getClaimIntervalTimeStart
    (r.address .rewardsPool) () = some n.intervalStart
  intervalDuration : toldParameter answer Rewards.getClaimIntervalTime
    (r.address .rewardsPool) () = some n.intervalDuration
  nodeRewards : told answer Rewards.getClaimingContractPerc (r.address .rewardsPool)
    "rocketClaimNode" = some n.nodeRewards
  trustedRewards : told answer Rewards.getClaimingContractPerc (r.address .rewardsPool)
    "rocketClaimTrustedNode" = some n.trustedRewards
  protocolRewards : told answer Rewards.getClaimingContractPerc (r.address .rewardsPool)
    "rocketClaimDAO" = some n.protocolRewards
  pendingRewards : told answer Rewards.getPendingRPLRewards (r.address .rewardsPool) () =
    some n.pendingRewards
  scrubPeriod : toldParameter answer TrustedSettings.getScrubPeriod
    (r.address .daoNodeTrustedSettingsMinipool) () = some n.scrubPeriod

/-- What contracts tell about the deposit pool and the queue is in its place. -/
structure PoolTells (answer : SubCall → CallResult) (r : Registry) (n : Network) : Prop where
  depositPoolBalance : told answer DepositPool.getBalance (r.address .depositPool) () =
    some n.depositPoolBalance
  depositPoolExcess : told answer DepositPool.getExcessBalance (r.address .depositPool) () =
    some n.depositPoolExcess
  queueCapacity : told answer MinipoolQueue.getTotalCapacity (r.address .minipoolQueue) () =
    some n.queueCapacity
  effectiveQueueCapacity : told answer MinipoolQueue.getEffectiveCapacity
    (r.address .minipoolQueue) () = some n.effectiveQueueCapacity
  queueLength : told answer MinipoolQueue.getTotalLength (r.address .minipoolQueue) () =
    some n.queueLength

/-- What contracts tell about the tokens and the reported balances is in its place. -/
structure BalancesTell (answer : SubCall → CallResult) (r : Registry) (n : Network) : Prop where
  inflationRate : told answer StakeToken.getInflationIntervalRate (r.address .tokenRPL) () =
    some n.inflationRate
  stakeSupply : told answer Token.totalSupply (r.address .tokenRPL) () = some n.stakeSupply
  pricesBlock : toldParameter answer Prices.getPricesBlock (r.address .networkPrices) () =
    some n.pricesBlock
  utilisation : toldParameter answer Balances.getETHUtilizationRate
    (r.address .networkBalances) () = some n.utilisation
  stakingEther : told answer Balances.getStakingETHBalance (r.address .networkBalances) () =
    some n.stakingEther
  exchangeRate : toldParameter answer LiquidToken.getExchangeRate (r.address .tokenRETH) () =
    some n.exchangeRate
  totalEther : told answer Balances.getTotalETHBalance (r.address .networkBalances) () =
    some n.totalEther
  liquidSupply : told answer Token.totalSupply (r.address .tokenRETH) () = some n.liquidSupply
  totalStake : told answer NodeStaking.getTotalRPLStake (r.address .nodeStaking) () =
    some n.totalStake
  nodeFee : toldParameter answer Fees.getNodeFee (r.address .networkFees) () = some n.nodeFee
  balancesBlock : toldParameter answer Balances.getBalancesBlock (r.address .networkBalances) () =
    some n.balancesBlock

/-- What contracts tell about settings is in its place, with what the deposit pool owes. -/
structure SettingsTell (answer : SubCall → CallResult) (r : Registry) (n : Network) : Prop where
  submitsBalances : told answer NetworkSettings.getSubmitBalancesEnabled
    (r.address .daoProtocolSettingsNetwork) () = some n.submitsBalances
  submitsPrices : told answer NetworkSettings.getSubmitPricesEnabled
    (r.address .daoProtocolSettingsNetwork) () = some n.submitsPrices
  launchTimeout : toldParameter answer MinipoolSettings.getLaunchTimeout
    (r.address .daoProtocolSettingsMinipool) () = some n.launchTimeout
  promotionScrubPeriod : toldParameter answer TrustedSettings.getPromotionScrubPeriod
    (r.address .daoNodeTrustedSettingsMinipool) () = some n.promotionScrubPeriod
  reductionWindowStart : toldParameter answer TrustedSettings.getBondReductionWindowStart
    (r.address .daoNodeTrustedSettingsMinipool) () = some n.reductionWindowStart
  reductionWindowLength : toldParameter answer TrustedSettings.getBondReductionWindowLength
    (r.address .daoNodeTrustedSettingsMinipool) () = some n.reductionWindowLength
  depositPoolUserBalance : told answer DepositPool.getUserBalance (r.address .depositPool) () =
    some n.depositPoolUserBalance

/-- All that is asked for whatever the caller says. -/
structure Tells (answer : SubCall → CallResult) (r : Registry) (n : Network) : Prop extends
  RewardsTell answer r n, PoolTells answer r n, BalancesTell answer r n, SettingsTell answer r n

/-! ## The fields that depend on what the caller says -/

/-- The frequencies are told, and nothing is said about reportable blocks. -/
structure WithFrequencies (answer : SubCall → CallResult) (r : Registry) (n : Network) : Prop where
  pricesFrequency : toldParameter answer NetworkSettings.getSubmitPricesFrequency
    (r.address .daoProtocolSettingsNetwork) () = some n.pricesFrequency
  balancesFrequency : toldParameter answer NetworkSettings.getSubmitBalancesFrequency
    (r.address .daoProtocolSettingsNetwork) () = some n.balancesFrequency
  latestPricesBlock : n.latestPricesBlock = .ofRaw 0
  latestBalancesBlock : n.latestBalancesBlock = .ofRaw 0

/-- The reportable blocks are told, and nothing is said about frequencies. -/
structure WithReportables (answer : SubCall → CallResult) (r : Registry) (n : Network) : Prop where
  latestPricesBlock : toldParameter answer Prices.getLatestReportableBlock
    (r.address .networkPrices) () = some n.latestPricesBlock
  latestBalancesBlock : toldParameter answer Balances.getLatestReportableBlock
    (r.address .networkBalances) () = some n.latestBalancesBlock
  pricesFrequency : n.pricesFrequency = .ofRaw 0
  balancesFrequency : n.balancesFrequency = .ofRaw 0

/-- What is recorded of the network, for what the caller says. -/
structure Recorded (answer : SubCall → CallResult) (r : Registry) (hasFrequencies : Bool)
    (n : Network) : Prop extends Tells answer r n where
  smoothingPool : n.smoothingPool = r.address .smoothingPool
  /-- The balances are those of two contracts of the register. -/
  smoothingPoolBalance : told answer Hub.getEthBalance r.hub (r.address .smoothingPool) =
    some n.smoothingPoolBalance
  liquidEther : told answer Hub.getEthBalance r.hub (r.address .tokenRETH) = some n.liquidEther
  chosen : if hasFrequencies then WithFrequencies answer r n else WithReportables answer r n

/-! ## One list of calls after another -/

/-- The record before any call. -/
def start (r : Registry) : Network := { smoothingPool := r.address .smoothingPool }

/-- The fields that only the calls of the caller's choice fill are as they were before any call, and
so is the address that no call fills. -/
structure Started (r : Registry) (n : Network) : Prop where
  smoothingPool : n.smoothingPool = r.address .smoothingPool
  latestPricesBlock : n.latestPricesBlock = .ofRaw 0
  latestBalancesBlock : n.latestBalancesBlock = .ofRaw 0
  pricesFrequency : n.pricesFrequency = .ofRaw 0
  balancesFrequency : n.balancesFrequency = .ofRaw 0

section Calls

variable {answer : SubCall → CallResult} {r : Registry} {hasFrequencies : Bool} {x n : Network}

theorem started_start : Started r (start r) := by
  constructor <;> rfl

theorem rewardsTell_applied (hall : ∀ c ∈ rewardCalls r, c.Passes true (answer c.sub))
    (h : Started r x) :
    RewardsTell answer r (applied answer (rewardCalls r) x) ∧
      Started r (applied answer (rewardCalls r) x) := by
  simp only [rewardCalls, List.forall_mem_cons, Call.passes_typed_iff] at hall
  obtain ⟨⟨_, hprice⟩, ⟨_, hmin⟩, ⟨_, hmax⟩, ⟨_, hindex⟩, ⟨_, hstart⟩, ⟨_, hduration⟩, ⟨_, hnode⟩,
    ⟨_, htrusted⟩, ⟨_, hprotocol⟩, ⟨_, hpending⟩, ⟨_, hscrub⟩, -⟩ := hall
  simp only [rewardCalls, applied_typed_cons hprice, applied_typed_cons hmin,
    applied_typed_cons hmax, applied_typed_cons hindex, applied_typed_cons hstart,
    applied_typed_cons hduration, applied_typed_cons hnode, applied_typed_cons htrusted,
    applied_typed_cons hprotocol, applied_typed_cons hpending, applied_typed_cons hscrub,
    applied_nil]
  exact ⟨⟨hprice, hmin, hmax, toldParameter_of_told hindex, toldParameter_of_told hstart,
    toldParameter_of_told hduration, hnode, htrusted, hprotocol, hpending,
    toldParameter_of_told hscrub⟩, { h with }⟩

theorem poolTells_applied (hall : ∀ c ∈ poolCalls r, c.Passes true (answer c.sub))
    (hrewards : RewardsTell answer r x) (h : Started r x) :
    PoolTells answer r (applied answer (poolCalls r) x) ∧
      RewardsTell answer r (applied answer (poolCalls r) x) ∧
        Started r (applied answer (poolCalls r) x) := by
  simp only [poolCalls, List.forall_mem_cons, Call.passes_typed_iff] at hall
  obtain ⟨⟨_, hbalance⟩, ⟨_, hexcess⟩, ⟨_, hcapacity⟩, ⟨_, heffective⟩, ⟨_, hlength⟩, -⟩ := hall
  simp only [poolCalls, applied_typed_cons hbalance, applied_typed_cons hexcess,
    applied_typed_cons hcapacity, applied_typed_cons heffective, applied_typed_cons hlength,
    applied_nil]
  exact ⟨⟨hbalance, hexcess, hcapacity, heffective, hlength⟩, { hrewards with }, { h with }⟩

theorem balancesTell_applied (hall : ∀ c ∈ balanceCalls r, c.Passes true (answer c.sub))
    (hpool : PoolTells answer r x) (hrewards : RewardsTell answer r x) (h : Started r x) :
    BalancesTell answer r (applied answer (balanceCalls r) x) ∧
      PoolTells answer r (applied answer (balanceCalls r) x) ∧
        RewardsTell answer r (applied answer (balanceCalls r) x) ∧
          Started r (applied answer (balanceCalls r) x) := by
  simp only [balanceCalls, List.forall_mem_cons, Call.passes_typed_iff] at hall
  obtain ⟨⟨_, hinflation⟩, ⟨_, hsupply⟩, ⟨_, hprices⟩, ⟨_, hutilisation⟩, ⟨_, hstaking⟩,
    ⟨_, hexchange⟩, ⟨_, htotal⟩, ⟨_, hliquid⟩, ⟨_, hstake⟩, ⟨_, hfee⟩, ⟨_, hbalances⟩, -⟩ := hall
  simp only [balanceCalls, applied_typed_cons hinflation, applied_typed_cons hsupply,
    applied_typed_cons hprices, applied_typed_cons hutilisation, applied_typed_cons hstaking,
    applied_typed_cons hexchange, applied_typed_cons htotal, applied_typed_cons hliquid,
    applied_typed_cons hstake, applied_typed_cons hfee, applied_typed_cons hbalances, applied_nil]
  exact ⟨⟨hinflation, hsupply, toldParameter_of_told hprices, toldParameter_of_told hutilisation,
    hstaking, toldParameter_of_told hexchange, htotal, hliquid, hstake, toldParameter_of_told hfee,
    toldParameter_of_told hbalances⟩, { hpool with }, { hrewards with }, { h with }⟩

theorem settingsTell_applied (hall : ∀ c ∈ settingCalls r, c.Passes true (answer c.sub))
    (hbalances : BalancesTell answer r x) (hpool : PoolTells answer r x)
    (hrewards : RewardsTell answer r x) (h : Started r x) :
    Tells answer r (applied answer (settingCalls r) x) ∧
      Started r (applied answer (settingCalls r) x) := by
  simp only [settingCalls, List.forall_mem_cons, Call.passes_typed_iff] at hall
  obtain ⟨⟨_, hreports⟩, ⟨_, hprices⟩, ⟨_, htimeout⟩, ⟨_, hscrub⟩, ⟨_, hstart⟩, ⟨_, hlength⟩,
    ⟨_, huser⟩, -⟩ := hall
  simp only [settingCalls, applied_typed_cons hreports, applied_typed_cons hprices,
    applied_typed_cons htimeout, applied_typed_cons hscrub, applied_typed_cons hstart,
    applied_typed_cons hlength, applied_typed_cons huser, applied_nil]
  exact ⟨{ hbalances, hpool, hrewards with
    toSettingsTell := ⟨hreports, hprices, toldParameter_of_told htimeout,
      toldParameter_of_told hscrub, toldParameter_of_told hstart, toldParameter_of_told hlength,
      huser⟩ }, { h with }⟩

theorem chosen_applied {calls : List (Call Network)}
    (hcalls : calls = if hasFrequencies then frequencyCalls r else reportableCalls r)
    (hall : ∀ c ∈ calls, c.Passes true (answer c.sub)) (htells : Tells answer r x)
    (h : Started r x) :
    Tells answer r (applied answer calls x) ∧
      (applied answer calls x).smoothingPool = r.address .smoothingPool ∧
        if hasFrequencies then WithFrequencies answer r (applied answer calls x)
        else WithReportables answer r (applied answer calls x) := by
  subst hcalls
  cases hasFrequencies
  case true =>
    simp only [if_true, frequencyCalls, List.forall_mem_cons, Call.passes_typed_iff] at hall
    obtain ⟨⟨_, hprices⟩, ⟨_, hbalances⟩, -⟩ := hall
    simp only [if_true, frequencyCalls, applied_typed_cons hprices, applied_typed_cons hbalances,
      applied_nil]
    exact ⟨{ htells with }, h.smoothingPool, toldParameter_of_told hprices,
      toldParameter_of_told hbalances, h.latestPricesBlock, h.latestBalancesBlock⟩
  case false =>
    simp only [Bool.false_eq_true, if_false, reportableCalls, List.forall_mem_cons,
      Call.passes_typed_iff] at hall
    obtain ⟨⟨_, hprices⟩, ⟨_, hbalances⟩, -⟩ := hall
    simp only [Bool.false_eq_true, if_false, reportableCalls, applied_typed_cons hprices,
      applied_typed_cons hbalances, applied_nil]
    exact ⟨{ htells with }, h.smoothingPool, toldParameter_of_told hprices,
      toldParameter_of_told hbalances, h.pricesFrequency, h.balancesFrequency⟩

/-! ## The whole record -/

/-- What becomes of the network: the details, and then the balances of two contracts. -/
def Observed (answer : SubCall → CallResult) (r : Registry) (hasFrequencies : Bool) (n : Network) :
    Prop :=
  (∀ c ∈ detailsCalls r hasFrequencies, c.Passes true (answer c.sub)) ∧
    ∃ pool, told answer Hub.getEthBalance r.hub (r.address .smoothingPool) = some pool ∧
      ∃ liquid, told answer Hub.getEthBalance r.hub (r.address .tokenRETH) = some liquid ∧
        n = { applied answer (detailsCalls r hasFrequencies) (start r) with
          smoothingPoolBalance := pool, liquidEther := liquid }

/-- **What is recorded.** -/
theorem recorded_of_observed (h : Observed answer r hasFrequencies n) :
    Recorded answer r hasFrequencies n := by
  obtain ⟨hall, pool, hpool, liquid, hliquid, rfl⟩ := h
  simp only [detailsCalls, List.forall_mem_append] at hall
  obtain ⟨hrewardCalls, hpoolCalls, hbalanceCalls, hsettingCalls, hchosenCalls⟩ := hall
  simp only [detailsCalls, applied_append]
  -- One list of calls after another, with what the lists before it filled.
  obtain ⟨hrewards, hstarted⟩ := rewardsTell_applied hrewardCalls started_start
  obtain ⟨hpools, hrewards, hstarted⟩ := poolTells_applied hpoolCalls hrewards hstarted
  obtain ⟨hbalances, hpools, hrewards, hstarted⟩ :=
    balancesTell_applied hbalanceCalls hpools hrewards hstarted
  obtain ⟨htells, hstarted⟩ := settingsTell_applied hsettingCalls hbalances hpools hrewards hstarted
  obtain ⟨htells, hsmoothing, hchosen⟩ := chosen_applied rfl hchosenCalls htells hstarted
  refine { htells with
    smoothingPool := hsmoothing, smoothingPoolBalance := hpool, liquidEther := hliquid
    chosen := ?_ }
  cases hasFrequencies
  case true => exact { (show WithFrequencies _ _ _ from hchosen) with }
  case false => exact { (show WithReportables _ _ _ from hchosen) with }

end Calls

section Reads

variable {σ : Type} {o : Observer σ} {chain : Chain} {r : Registry} {hasFrequencies : Bool} {s : σ}
  {n : Network}

/-- The names that the rewards pool is asked about are short. -/
theorem length_callData_claim {name : String} (h : (Bytes.ofText name).length ≤ 32) :
    (Rewards.getClaimingContractPerc.callData name).length ≤ 128 := by
  have hargs : (Abi.Arguments.encode name).length ≤ 96 := by
    change (Abi.word 32 ++ Abi.blob (Bytes.ofText name)).length ≤ 96
    rw [List.length_append, Abi.length_word, Abi.length_blob, Abi.blobSize, Bytes.padding]
    omega
  rw [Abi.Method.callData, List.length_append, Bytes.length_ofNat]
  omega

/-- All calls of the details together fit into a machine. -/
theorem sized_detailsCalls (ho : o.Watches chain) :
    Sized (chain r.block) ((detailsCalls r hasFrequencies).map Call.sub) := by
  refine ho.bounded.sized ?_ ?_
  · have hlength : (detailsCalls r hasFrequencies).length = 36 := by
      cases hasFrequencies <;> rfl
    rw [hlength]
    decide
  · have hclaim : ∀ {name : String} {store : Word → Network → Network},
        (Bytes.ofText name).length ≤ 32 →
        (Call.typed Rewards.getClaimingContractPerc (r.address .rewardsPool) name store).data.length
          ≤ 128 := fun h => length_callData_claim h
    have hchosen : ∀ c ∈ if hasFrequencies then frequencyCalls r else reportableCalls r,
        c.data.length ≤ 128 := by
      cases hasFrequencies
      all_goals simp [frequencyCalls, reportableCalls, Call.length_data_typed_le]
    simp only [detailsCalls, List.forall_mem_append]
    refine ⟨?_, ?_, ?_, ?_, hchosen⟩
    · simp only [rewardCalls, List.forall_mem_cons, Call.length_data_typed_le, true_and,
        List.not_mem_nil, false_imp_iff, implies_true, and_true]
      exact ⟨hclaim (by decide), hclaim (by decide), hclaim (by decide)⟩
    · simp [poolCalls, Call.length_data_typed_le]
    · simp [balanceCalls, Call.length_data_typed_le]
    · simp [settingCalls, Call.length_data_typed_le]

/-- **A read against a chain.** What it comes to does not depend on the observer, and so not on how
many balances are put into an aggregate. -/
theorem fetch_eq_ok_iff (ho : o.Watches chain) :
    (fetch o r hasFrequencies s).value = .ok n ↔ Observed (chain r.block) r hasFrequencies n := by
  rw [fetch, Snapshot.logged_value, read]
  simp only [Read.bind_value_eq_ok_iff, Read.context_value_eq_ok_iff, Read.pure_value_eq_ok_iff,
    Scheduler.query_eq_ok_iff ho.answers (sized_detailsCalls ho),
    Snapshot.etherBalances_eq_ok_iff ho (Snapshot.length_pair_le _ _)]
  constructor
  · rintro ⟨x, ⟨hall, rfl⟩, balances, hbalances, rfl⟩
    obtain ⟨pool, _, hpool, hrest, rfl⟩ := List.forall₂_cons_left_iff.1 hbalances
    obtain ⟨liquid, _, hliquid, hnil, rfl⟩ := List.forall₂_cons_left_iff.1 hrest
    obtain rfl := List.forall₂_nil_left_iff.1 hnil
    exact ⟨hall, pool, hpool, liquid, hliquid, rfl⟩
  · rintro ⟨hall, pool, hpool, liquid, hliquid, rfl⟩
    exact ⟨_, ⟨hall, rfl⟩, [pool, liquid], .cons hpool (.cons hliquid .nil), rfl⟩

end Reads

end Network

end StakingSnapshot
