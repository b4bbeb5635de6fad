import StakingSnapshot.Contract.Basic
import StakingSnapshot.Contract.Minipool
import StakingSnapshot.Contract.Network
import StakingSnapshot.Contract.Node
import StakingSnapshot.Contract.Proposal
import StakingSnapshot.Proofs.Call.Conclusion
import StakingSnapshot.Proofs.Schedule.Unreadable
import StakingSnapshot.Proofs.Session.Transcript
import StakingSnapshot.Proofs.Snapshot.Reading

/-!
# Which answers are failures

Whether the answer to an aggregate is a failure can be told from the aggregate and the answer alone,
since the first four bytes of a call say which method it is for.

* `Contract.interface`: the methods of all contracts. A contract may fail to tell its version; every
  other call must succeed.
* `SubCall.complaint?`: the fault of a success that is not in the layout of its method's kind.
* `Answered.failure?`: the fault of an answer.
* `Call.Conforms`: a call that is registered as the interface demands; `Call.conforms_typed`.
* `failureOf_conclude`: what calls that conform conclude from an answer is its failure, under
  whatever contexts, or else the results.
-/

namespace StakingSnapshot

namespace Abi

/-- What is known of a method without its types. -/
structure Declaration where
  /-- The four bytes by which contracts know it. -/
  selector : UInt32
  /-- The name and the argument types. -/
  signature : String
  /-- The kind of value that it returns. -/
  kind : Kind
  /-- A call of it must succeed. -/
  mustSucceed : Bool
  deriving DecidableEq

namespace Method

variable {α : Type} [Arguments α] {k : Kind}

/-- The method, whose calls must succeed. -/
def required (m : Method α k) : Declaration := ⟨m.selector, m.signature, k, true⟩

/-- The method, whose calls may fail. -/
def tolerated (m : Method α k) : Declaration := ⟨m.selector, m.signature, k, false⟩

end Method

end Abi

open Abi

namespace Contract

/-- The methods that contracts are asked for. Contracts cannot tell methods with the same signature
apart, so that each of these stands here once. -/
def interface : List Declaration :=
  [Versioned.version.tolerated, Hub.getEthBalance.required, Storage.getAddress.required,
    Storage.getString.required, Storage.getUint.required,
    Storage.getNodeWithdrawalAddress.required, Storage.getNodePendingWithdrawalAddress.required,
    Token.balanceOf.required, Token.totalSupply.required,
    MinipoolManager.getMinipoolCount.required, MinipoolManager.getMinipoolExists.required,
    MinipoolManager.getMinipoolAt.required, MinipoolManager.getNodeMinipoolCount.required,
    MinipoolManager.getNodeMinipoolAt.required, MinipoolManager.getMinipoolPubkey.required,
    MinipoolManager.getMinipoolWithdrawalCredentials.required,
    MinipoolManager.getMinipoolRPLSlashed.required,
    MinipoolManager.getMinipoolDepositType.required, Delegate.getStatus.required,
    Delegate.getStatusBlock.required, Delegate.getStatusTime.required,
    Delegate.getFinalised.required, Delegate.getNodeFee.required,
    Delegate.getNodeDepositBalance.required, Delegate.getNodeRefundBalance.required,
    Delegate.getNodeDepositAssigned.required, Delegate.getUserDepositBalance.required,
    Delegate.getUserDepositAssigned.required, Delegate.getUserDepositAssignedTime.required,
    Delegate.getUseLatestDelegate.required, Delegate.getDelegate.required,
    Delegate.getPreviousDelegate.required, Delegate.getEffectiveDelegate.required,
    Delegate.getNodeAddress.required, Delegate.calculateNodeShare.required,
    Delegate.calculateUserShare.required, AtlasDelegate.getUserDistributed.required,
    AtlasDelegate.getVacant.required, AtlasDelegate.getPreMigrationBalance.required,
    BondReducer.getReduceBondTime.required, BondReducer.getReduceBondCancelled.required,
    BondReducer.getReduceBondValue.required, BondReducer.getLastBondReductionTime.required,
    BondReducer.getLastBondReductionPrevValue.required,
    BondReducer.getLastBondReductionPrevNodeFee.required, Prices.getRPLPrice.required,
    Prices.getPricesBlock.required, Prices.getLatestReportableBlock.required,
    Balances.getETHUtilizationRate.required, Balances.getStakingETHBalance.required,
    Balances.getTotalETHBalance.required, Balances.getBalancesBlock.required,
    Rewards.getRewardIndex.required, Rewards.getClaimIntervalTimeStart.required,
    Rewards.getClaimIntervalTime.required, Rewards.getClaimingContractPerc.required,
    Rewards.getPendingRPLRewards.required, DepositPool.getBalance.required,
    DepositPool.getExcessBalance.required, DepositPool.getUserBalance.required,
    MinipoolQueue.getTotalCapacity.required, MinipoolQueue.getEffectiveCapacity.required,
    MinipoolQueue.getTotalLength.required, StakeToken.getInflationIntervalRate.required,
    LiquidToken.getExchangeRate.required, NodeSettings.getMinimumPerMinipoolStake.required,
    NodeSettings.getMaximumPerMinipoolStake.required,
    NetworkSettings.getSubmitBalancesEnabled.required,
    NetworkSettings.getSubmitPricesEnabled.required,
    NetworkSettings.getSubmitBalancesFrequency.required,
    NetworkSettings.getSubmitPricesFrequency.required,
    MinipoolSettings.getLaunchTimeout.required, TrustedSettings.getScrubPeriod.required,
    TrustedSettings.getPromotionScrubPeriod.required,
    TrustedSettings.getBondReductionWindowStart.required,
    TrustedSettings.getBondReductionWindowLength.required, NodeManager.getNodeCount.required,
    NodeManager.getNodeAt.required, NodeManager.getNodeExists.required,
    NodeManager.getNodeRegistrationTime.required, NodeManager.getNodeTimezoneLocation.required,
    NodeManager.getFeeDistributorInitialised.required, NodeManager.getRewardNetwork.required,
    NodeManager.getSmoothingPoolRegistrationState.required,
    NodeManager.getSmoothingPoolRegistrationChanged.required,
    DistributorFactory.getProxyAddress.required, NodeStaking.getTotalRPLStake.required,
    NodeStaking.getNodeRPLStake.required, NodeStaking.getNodeEffectiveRPLStake.required,
    NodeStaking.getNodeMinimumRPLStake.required, NodeStaking.getNodeMaximumRPLStake.required,
    NodeStaking.getNodeETHMatched.required, NodeStaking.getNodeETHMatchedLimit.required,
    NodeStaking.getNodeETHCollateralisationRatio.required,
    NodeDeposit.getNodeDepositCredit.required, Proposals.getTotal.required,
    Proposals.getProposer.required, Proposals.getProposalBlock.required,
    Proposals.getMessage.required, Proposals.getStart.required, Proposals.getPhase1End.required,
    Proposals.getPhase2End.required, Proposals.getExpires.required,
    Proposals.getCreated.required, Proposals.getVotingPowerRequired.required,
    Proposals.getVotingPowerFor.required, Proposals.getVotingPowerAgainst.required,
    Proposals.getVotingPowerAbstained.required, Proposals.getVotingPowerVeto.required,
    Proposals.getDestroyed.required, Proposals.getFinalised.required,
    Proposals.getExecuted.required, Proposals.getVetoed.required,
    Proposals.getProposalVetoQuorum.required, Proposals.getPayload.required,
    Proposals.getState.required]

end Contract

namespace SubCall

/-- The method that the call is for. -/
def declaration? (c : SubCall) : Option Declaration :=
  Contract.interface.find? fun d => c.data.take 4 = Bytes.ofNat 4 d.selector.toNat

/-- The call is for a method whose calls must succeed. -/
def mustSucceed (c : SubCall) : Bool := c.declaration?.all fun d => d.mustSucceed

/-- The fault of a success that cannot be read as what the method returns. What a call for no known
method returns cannot be read at all. -/
def complaint? (c : SubCall) (r : CallResult) : Option Fault :=
  if r.success then
    match c.declaration? with
    | some d =>
      if (d.kind.decode r.data).isNone then some (.decode c.target d.signature malformedText)
      else none
    | none => some (.decode c.target "" malformedText)
  else none

/-- The result is one with which a read goes on: a success that can be read, or a failure that is
tolerated. -/
structure Accepts (c : SubCall) (r : CallResult) : Prop where
  success : c.mustSucceed = true → r.success = true
  readable : r.success = true →
    ∃ d, c.declaration? = some d ∧ ∃ v, d.kind.decode r.data = some v

end SubCall

/-- The fault of a result, without any context. -/
def failureOf {α : Type} : Except Fault α → Option Fault
  | .ok _ => none
  | .error e => some e.root

/-- The fault of an answer, without any context: the client's own, or that of a reply that is
malformed, has not one result for each call, reports the failure of a call that must succeed, or
reports a success that cannot be read. -/
def Answered.failure? : Answered → Option Fault
  | head answer => failureOf answer
  | aggregate _ _ _ (.error e) => some e.root
  | aggregate _ body _ (.ok data) =>
    match Reply.decode? data with
    | none => some (.transport s!"malformed aggregate response: {malformedText}")
    | some results =>
      let pairs := body.calls.zip results
      if results.length ≠ body.calls.length then
        some (.transport
          s!"aggregate returned {results.length} results for {body.calls.length} calls")
      else if pairs.any fun (c, r) => c.mustSucceed && !r.success then
        some (.callsFailed (failedIndices results) body.calls.length)
      else pairs.findSome? fun (c, r) => c.complaint? r

/-- There was an answer, and a read goes on with it. -/
def Answered.IsSound : Answered → Prop
  | head answer => ∃ n, answer = .ok n
  | aggregate _ body _ answer => ∃ data results, answer = .ok data ∧
      Reply.decode? data = some results ∧ List.Forall₂ SubCall.Accepts body.calls results

variable {S α : Type} {k : Kind}

/-! ## Calls that conform to the interface -/

/-- A call for a method is one for the method with the same four bytes. -/
theorem SubCall.Names.declaration?_eq {c : SubCall} {m : Method α k} (h : c.Names m) :
    c.declaration? = Contract.interface.find? fun d => d.selector = m.selector := by
  refine congrArg (Contract.interface.find? ·) (funext fun d => decide_eq_decide.2 ?_)
  constructor
  · intro hd
    have hnames : c.Names (⟨"", d.selector⟩ : Method Unit k) := hd
    exact hnames.selector_eq h
  · intro hd
    rw [hd]
    exact h

namespace Call

/-- The call is registered as the interface demands, for a read in which calls must succeed or for
one in which they need not. -/
structure Conforms (strict : Bool) (c : Call S) : Prop where
  mustSucceed : c.sub.mustSucceed = strict
  complaint : ∀ r, c.fault? r = c.sub.complaint? r

/-- The call of a method in the interface conforms to it. -/
theorem conforms_typed [Arguments α] {strict : Bool} {m : Method α k} {target : Address} {args : α}
    {store : k.Value → S → S}
    (h : (Contract.interface.find? fun d => d.selector = m.selector) =
      some ⟨m.selector, m.signature, k, strict⟩) : (typed m target args store).Conforms strict := by
  have hnames : (typed m target args store).sub.Names m := SubCall.names_callData m target args
  have hd := hnames.declaration?_eq.trans h
  constructor
  · rw [SubCall.mustSucceed, hd]
    rfl
  · intro r
    have hcomplaint : (typed m target args store).sub.complaint? r =
        if r.success then
          if (k.decode r.data).isNone then some (.decode target m.signature malformedText) else none
        else none := by
      rw [SubCall.complaint?, hd]
      rfl
    rw [hcomplaint]
    refine Option.ext fun e => fault?_typed_eq_some_iff.trans ?_
    rw [Option.ite_none_right_eq_some, Option.ite_none_right_eq_some, Option.isNone_iff_eq_none,
      Option.some.injEq, eq_comm (a := e), and_assoc]

theorem Conforms.onItem {strict : Bool} {c : Call S} (h : c.Conforms strict) (i : Nat) :
    (c.onItem i).Conforms strict :=
  ⟨h.mustSucceed, fun r => (fault?_onItem i c r).trans (h.complaint r)⟩

end Call

/-! ## What comes of calls that conform -/

theorem SubCall.root_of_complaint? {c : SubCall} {r : CallResult} {e : Fault}
    (h : c.complaint? r = some e) : e.root = e := by
  rw [complaint?, Option.ite_none_right_eq_some] at h
  obtain ⟨-, h⟩ := h
  split at h
  · rw [Option.ite_none_right_eq_some] at h
    cases h.2
    rfl
  · cases h
    rfl

/-- A success can be read exactly if there is no complaint. -/
theorem SubCall.complaint?_eq_none_iff {c : SubCall} {r : CallResult} :
    c.complaint? r = none ↔
      (r.success = true → ∃ d, c.declaration? = some d ∧ ∃ v, d.kind.decode r.data = some v) := by
  unfold complaint?
  cases r.success with
  | false => simp
  | true =>
    cases c.declaration? with
    | none => simp
    | some d => cases hv : d.kind.decode r.data <;> simp [hv]

/-- **No failure.** An answer is no failure exactly if a read goes on with it. -/
theorem Answered.failure?_eq_none_iff {a : Answered} : a.failure? = none ↔ a.IsSound := by
  cases a with
  | head answer => cases answer <;> simp [failure?, failureOf, IsSound]
  | aggregate target body block answer =>
    cases answer with
    | error e => simp [failure?, IsSound]
    | ok data =>
      cases hd : Reply.decode? data with
      | none => simp [failure?, IsSound, hd]
      | some results =>
        have hsound : (aggregate target body block (.ok data)).IsSound ↔
            List.Forall₂ SubCall.Accepts body.calls results := by
          simp [IsSound, hd]
        rw [hsound, List.forall₂_iff_zip]
        by_cases hlen : results.length = body.calls.length
        case neg => simp [failure?, hd, hlen, Ne.symm hlen]
        case pos =>
          simp only [failure?, hd, ne_eq, hlen, not_true_eq_false, if_false, true_and]
          constructor
          · intro h c r hp
            split at h
            case isTrue => cases h
            case isFalse hany =>
              have hfailed := List.any_eq_false.1 (Bool.eq_false_iff.2 hany) (c, r) hp
              have hread := List.findSome?_eq_none_iff.1 h (c, r) hp
              exact ⟨by simpa using hfailed, SubCall.complaint?_eq_none_iff.1 hread⟩
          · intro h
            rw [if_neg, List.findSome?_eq_none_iff]
            · exact fun p hp => SubCall.complaint?_eq_none_iff.2 (h hp).readable
            · rw [Bool.not_eq_true, List.any_eq_false]
              exact fun p hp => by simpa using (h hp).success

/-- Whether a call of many failed that must succeed is whether any failed, if all must succeed. -/
theorem any_failed_eq {strict : Bool} {calls : List (Call S)} (h : ∀ c ∈ calls, c.Conforms strict)
    {results : List CallResult} (hlen : results.length = calls.length) :
    ((calls.zip results).any fun p => p.1.sub.mustSucceed && !p.2.success) =
      (strict && !(failedIndices results).isEmpty) := by
  have hstrict : ((calls.zip results).any fun p => p.1.sub.mustSucceed && !p.2.success) =
      (calls.zip results).any fun p => strict && !p.2.success := by
    rw [Bool.eq_iff_iff, List.any_eq_true, List.any_eq_true]
    refine exists_congr fun p => and_congr_right fun hp => ?_
    rw [(h p.1 (List.of_mem_zip hp).1).mustSucceed]
  have hresults : (calls.zip results).map Prod.snd = results :=
    List.map_snd_zip (Nat.le_of_eq hlen)
  rw [hstrict, isEmpty_failedIndices]
  conv_rhs => rw [← hresults]
  cases strict with
  | false => simp
  | true => simp [List.all_map, List.not_all_eq_any_not]

/-- Settlement fails with the first success that cannot be read. -/
theorem failureOf_settle {strict : Bool} {pairs : List (Call S × CallResult)}
    (h : ∀ p ∈ pairs, p.1.Conforms strict) (slots : S) :
    failureOf (settle pairs slots).2 = pairs.findSome? fun p => p.1.sub.complaint? p.2 := by
  have hfault : (pairs.findSome? fun p => p.1.fault? p.2) =
      pairs.findSome? fun p => p.1.sub.complaint? p.2 := by
    induction pairs with
    | nil => rfl
    | cons p pairs ih =>
      obtain ⟨hp, hpairs⟩ := List.forall_mem_cons.1 h
      rw [List.findSome?_cons, List.findSome?_cons, hp.complaint, ih hpairs]
  rw [settle_result, hfault]
  cases hfirst : pairs.findSome? fun p => p.1.sub.complaint? p.2 with
  | none => rfl
  | some e =>
    obtain ⟨p, -, hp⟩ := List.exists_of_findSome?_eq_some hfirst
    exact congrArg some (SubCall.root_of_complaint? hp)

theorem failureOf_map {α β : Type} (f : α → β) (result : Except Fault α) :
    failureOf (result.map f) = failureOf result := by
  cases result <;> rfl

/-- **The failure of an answer.** What calls that conform conclude from an answer is its failure, or
there is none and they conclude the results. -/
theorem failureOf_conclude {strict : Bool} {calls : List (Call S)}
    (h : ∀ c ∈ calls, c.Conforms strict) (hub : Address) (block : BlockRef) (slots : S)
    (answer : Except Fault Bytes) :
    failureOf (conclude strict calls slots answer).2 =
      (Answered.aggregate hub (aggregateOf calls) block answer).failure? := by
  cases answer with
  | error e =>
    rw [conclude_of_error rfl]
    rfl
  | ok data =>
    cases hd : Reply.decode? data with
    | none =>
      have hresults : resultsOf calls.length strict (.ok data) =
          .error (.transport s!"malformed aggregate response: {malformedText}") := by
        simp only [resultsOf, bind, Except.bind, hd]
      rw [conclude_of_error hresults, Answered.failure?, hd]
      rfl
    | some results =>
      by_cases hlen : results.length = calls.length
      case neg =>
        have hresults : resultsOf calls.length strict (.ok data) = .error (.transport
            s!"aggregate returned {results.length} results for {calls.length} calls") := by
          simp only [resultsOf, bind, Except.bind, hd, ne_eq, hlen, not_false_eq_true, if_true]
        rw [conclude_of_error hresults]
        simp only [Answered.failure?, hd, aggregateOf, List.length_map, ne_eq, hlen,
          not_false_eq_true, if_true]
        rfl
      case pos =>
        rw [conclude_of_decode? hd hlen, settleAll, ← any_failed_eq h hlen]
        simp only [Answered.failure?, hd, aggregateOf, List.length_map, ne_eq, hlen,
          not_true_eq_false, if_false, List.zip_map_left, List.any_map, Function.comp_def,
          Prod.map_fst, Prod.map_snd, id]
        split
        · rfl
        · rw [failureOf_map, failureOf_settle fun p hp => h p.1 (List.of_mem_zip hp).1,
            List.findSome?_map]
          rfl

end StakingSnapshot
