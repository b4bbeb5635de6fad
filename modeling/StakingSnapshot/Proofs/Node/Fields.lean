import StakingSnapshot.Proofs.Node.Rounds

/-!
# What the fields of a node hold

* `Node.ContractsTell`: the fields that one call each fills; `Node.described_of_outcome` follows the
  calls.
* `Node.Recorded`: the node at the end; `Node.recorded_of_observed?`.
* `Node.every_recorded`: the nodes of the register, and each of them alone.
-/

namespace StakingSnapshot

namespace Node

open Contract

/-! ## The round for the details -/

/-- What contracts tell about the node at an address is in its place. -/
structure ContractsTell (answer : SubCall → CallResult) (r : Registry) (a : Address) (n : Node) :
    Prop where
  isKnown : told answer NodeManager.getNodeExists (r.address .nodeManager) a = some n.isKnown
  registrationTime : told answer NodeManager.getNodeRegistrationTime (r.address .nodeManager) a =
    some n.registrationTime.raw
  timezone : told answer NodeManager.getNodeTimezoneLocation (r.address .nodeManager) a =
    some n.timezone
  distributorInitialised : told answer NodeManager.getFeeDistributorInitialised
    (r.address .nodeManager) a = some n.distributorInitialised
  distributor : told answer DistributorFactory.getProxyAddress
    (r.address .nodeDistributorFactory) a = some n.distributor
  rewardNetwork : told answer NodeManager.getRewardNetwork (r.address .nodeManager) a =
    some n.rewardNetwork
  stake : told answer NodeStaking.getNodeRPLStake (r.address .nodeStaking) a = some n.stake
  minimumStake : told answer NodeStaking.getNodeMinimumRPLStake (r.address .nodeStaking) a =
    some n.minimumStake
  maximumStake : told answer NodeStaking.getNodeMaximumRPLStake (r.address .nodeStaking) a =
    some n.maximumStake
  ethMatched : told answer NodeStaking.getNodeETHMatched (r.address .nodeStaking) a =
    some n.ethMatched
  ethMatchedLimit : told answer NodeStaking.getNodeETHMatchedLimit (r.address .nodeStaking) a =
    some n.ethMatchedLimit
  minipoolCount : told answer MinipoolManager.getNodeMinipoolCount (r.address .minipoolManager) a =
    some n.minipoolCount.raw
  balanceLiquid : told answer Token.balanceOf (r.address .tokenRETH) a = some n.balanceLiquid
  balanceStake : told answer Token.balanceOf (r.address .tokenRPL) a = some n.balanceStake
  balanceOldStake : told answer Token.balanceOf (r.address .tokenRPLFixedSupply) a =
    some n.balanceOldStake
  withdrawalAddress : told answer Storage.getNodeWithdrawalAddress r.storage a =
    some n.withdrawalAddress
  pendingWithdrawalAddress : told answer Storage.getNodePendingWithdrawalAddress r.storage a =
    some n.pendingWithdrawalAddress
  inSmoothingPool : told answer NodeManager.getSmoothingPoolRegistrationState
    (r.address .nodeManager) a = some n.inSmoothingPool
  smoothingPoolChanged : told answer NodeManager.getSmoothingPoolRegistrationChanged
    (r.address .nodeManager) a = some n.smoothingPoolChanged.raw
  depositCredit : told answer NodeDeposit.getNodeDepositCredit (r.address .nodeDeposit) a =
    some n.depositCredit
  collateralisation : told answer NodeStaking.getNodeETHCollateralisationRatio
    (r.address .nodeStaking) a = some n.collateralisation

/-- Nothing is said yet about what only the minipools of a node tell. -/
structure Unshared (n : Node) : Prop where
  averageFee : n.averageFee = 0
  distributorUserShare : n.distributorUserShare = 0
  distributorNodeShare : n.distributorNodeShare = 0

variable {answer : SubCall → CallResult} {r : Registry} {a : Address} {n x : Node}

/-- **The round for the details.** -/
theorem described_of_outcome
    (h : (detailsPlan r).outcome? answer true 0 (ofAddress a) = some x) :
    x.address = a ∧ ContractsTell answer r a x ∧ Unshared x ∧
      told answer NodeStaking.getNodeEffectiveRPLStake (r.address .nodeStaking) a =
        some x.effectiveStake := by
  obtain ⟨_, _, hplan, hall, rfl⟩ := Plan.outcome?_eq_some_iff.1 h
  cases hplan
  simp only [detailsCalls, ofAddress, List.forall_mem_cons, Call.passes_typed_iff] at hall
  obtain ⟨⟨_, hknown⟩, ⟨_, htime⟩, ⟨_, hzone⟩, ⟨_, hinitialised⟩, ⟨_, hdistributor⟩, ⟨_, hnetwork⟩,
    ⟨_, hstake⟩, ⟨_, heffective⟩, ⟨_, hminimum⟩, ⟨_, hmaximum⟩, ⟨_, hmatched⟩, ⟨_, hlimit⟩,
    ⟨_, hcount⟩, ⟨_, hliquid⟩, ⟨_, hown⟩, ⟨_, hold⟩, ⟨_, hwithdrawal⟩, ⟨_, hpending⟩, ⟨_, hpool⟩,
    ⟨_, hchanged⟩, ⟨_, hcredit⟩, ⟨_, hratio⟩, -⟩ := hall
  simp only [detailsCalls, ofAddress, applied_typed_cons hknown, applied_typed_cons htime,
    applied_typed_cons hzone, applied_typed_cons hinitialised, applied_typed_cons hdistributor,
    applied_typed_cons hnetwork, applied_typed_cons hstake, applied_typed_cons heffective,
    applied_typed_cons hminimum, applied_typed_cons hmaximum, applied_typed_cons hmatched,
    applied_typed_cons hlimit, applied_typed_cons hcount, applied_typed_cons hliquid,
    applied_typed_cons hown, applied_typed_cons hold, applied_typed_cons hwithdrawal,
    applied_typed_cons hpending, applied_typed_cons hpool, applied_typed_cons hchanged,
    applied_typed_cons hcredit, applied_typed_cons hratio, applied_nil]
  exact ⟨trivial, ⟨hknown, htime, hzone, hinitialised, hdistributor, hnetwork, hstake, hminimum,
    hmaximum, hmatched, hlimit, hcount, hliquid, hown, hold, hwithdrawal, hpending, hpool, hchanged,
    hcredit, hratio⟩, ⟨rfl, rfl, rfl⟩, heffective⟩

/-! ## The whole record -/

/-- What is recorded of an address. -/
structure Recorded (answer : SubCall → CallResult) (r : Registry) (a : Address) (n : Node) :
    Prop extends ContractsTell answer r a n, Unshared n where
  address : n.address = a
  balanceEther : told answer Hub.getEthBalance r.hub a = some n.balanceEther
  /-- The balance is that of the distributor that was told before. -/
  distributorBalance : told answer Hub.getEthBalance r.hub n.distributor = some n.distributorBalance
  /-- A stake of the minimum counts, a smaller one does not. -/
  effectiveStake : ∃ chainStake,
    told answer NodeStaking.getNodeEffectiveRPLStake (r.address .nodeStaking) a = some chainStake ∧
      n.effectiveStake = if n.minimumStake.toNat ≤ chainStake.toNat then chainStake else 0

/-- **Both rounds.** -/
theorem recorded_of_observed? (h : observed? answer r a = some n) : Recorded answer r a n := by
  obtain ⟨x, hdetails, own, hown, distributor, hdistributor, rfl⟩ := observed?_eq_some_iff.1 h
  obtain ⟨rfl, htold, hunshared, heffective⟩ := described_of_outcome hdetails
  unfold countStake
  split
  case isTrue hlt =>
    exact { htold, hunshared with
      address := rfl, balanceEther := hown, distributorBalance := hdistributor
      effectiveStake := ⟨_, heffective, (if_neg (Nat.not_le_of_lt hlt)).symm⟩ }
  case isFalse hle =>
    exact { htold, hunshared with
      address := rfl, balanceEther := hown, distributorBalance := hdistributor
      effectiveStake := ⟨_, heffective, (if_pos (Nat.le_of_not_lt hle)).symm⟩ }

variable {σ τ : Type} {o : Observer σ} {o' : Observer τ} {chain : Chain} {s : σ}

/-- **The nodes of the register.** A read of all nodes that ends well has as many as the register
counts, each at its index, and each field holds what the contracts tell. Each node is also what is
read of its address alone, by an observer that may put other numbers of items into an aggregate and
may ask another client. -/
theorem every_recorded (ho : o.Watches chain) (ho' : o'.Watches chain) (r : Registry)
    {ns : List Node} (h : (every o r s).value = .ok ns) :
    (∃ count, told (chain r.block) NodeManager.getNodeCount (r.address .nodeManager) () =
        some count ∧ ns.length = count.toNat) ∧
      ∀ i n, ns[i]? = some n →
        told (chain r.block) NodeManager.getNodeAt (r.address .nodeManager) (BitVec.ofNat 256 i) =
            some n.address ∧
          Recorded (chain r.block) r n.address n ∧ ∀ s', (one o' r n.address s').value = .ok n := by
  obtain ⟨as, has, hns⟩ := (every_eq_ok_iff ho).1 h
  obtain ⟨-, ⟨count, hcount, hlen⟩, hat⟩ := (addresses_eq_ok_iff ho).1 has
  refine ⟨⟨count, hcount, hns.length_eq ▸ hlen⟩, fun i n hn => ?_⟩
  obtain ⟨hi, rfl⟩ := List.getElem?_eq_some_iff.1 hn
  have hi' : i < as.length := hns.length_eq ▸ hi
  have hobserved := (List.forall₂_iff_get.1 hns).2 i hi' hi
  simp only [List.get_eq_getElem] at hobserved
  have hrecorded := recorded_of_observed? hobserved
  have haddress := hrecorded.address
  rw [← haddress] at hobserved hrecorded
  exact ⟨haddress ▸ hat i _ (List.getElem?_eq_getElem hi'), hrecorded,
    fun s' => (one_eq_ok_iff ho').2 hobserved⟩

end Node

/-! ## A chain with two nodes -/

namespace Chain

open Contract

/-- A chain with two nodes, at the addresses 0 and 1. Their stakes are 4 and 5, of which 5 are the
least that counts, and their fee distributors are at the addresses 20 and 21. -/
def twoNodes : Chain := fun _ c =>
  let asked := Bytes.toNat (c.data.drop 4)
  let data :=
    if c.Names NodeManager.getNodeCount then Abi.word 2
    else if c.Names NodeManager.getNodeAt then Abi.word asked
    else if c.Names NodeManager.getNodeTimezoneLocation then Abi.word 32 ++ Abi.word 0
    else if c.Names DistributorFactory.getProxyAddress then Abi.word (20 + asked)
    else if c.Names Hub.getEthBalance then Abi.word (100 + asked)
    else if c.Names NodeStaking.getNodeMinimumRPLStake then Abi.word 5
    else if c.Names NodeStaking.getNodeEffectiveRPLStake then Abi.word (4 + asked)
    else Abi.word 1
  ⟨true, data⟩

namespace twoNodes

/-- The contracts of the chain. -/
def registry : Registry where
  blockNumber := 7
  storage := ⟨8⟩
  hub := ⟨9⟩
  protocol := ⟨1, 2, 0⟩
  deployments := .ofFn fun _ => { address := ⟨10⟩ }

/-- An observer of the chain with the given sizes of batches. -/
def observer (sizes : BatchSizes) : Observer Unit :=
  ⟨{ batchSizes := sizes }, .ofChain twoNodes ⟨9⟩ 1, ⟨1⟩⟩

theorem watches {sizes : BatchSizes} (h : ∀ size ∈ sizes.toList, 1 ≤ size) :
    (observer sizes).Watches twoNodes where
  answers := client_answersFor _ _
  bounded := bounded_of_short fun block c => by
    have hempty : (Abi.word 32 ++ Abi.word 0).length ≤ 64 := by decide
    simp only [twoNodes]
    repeat' split
    all_goals first | exact Abi.length_word_le _ | exact hempty
  sizes := h

/-- What is read of all nodes. -/
theorem exists_every {sizes : BatchSizes} (h : ∀ size ∈ sizes.toList, 1 ≤ size) :
    ∃ ns, (Node.every (observer sizes) registry ()).value = .ok ns ∧
      ns.map (fun n => (n.effectiveStake, n.distributorBalance)) = [(0, 120), (5, 121)] := by
  let observe (a : Address) : Option Node := Node.observed? (twoNodes registry.block) registry a
  obtain ⟨n, hn, hfirst⟩ := Option.map_eq_some_iff.1
    (show (observe ⟨0⟩).map (fun n => (n.effectiveStake, n.distributorBalance)) = some (0, 120) by
      decide +kernel)
  obtain ⟨n', hn', hsecond⟩ := Option.map_eq_some_iff.1
    (show (observe ⟨1⟩).map (fun n => (n.effectiveStake, n.distributorBalance)) = some (5, 121) by
      decide +kernel)
  refine ⟨[n, n'], (Node.every_eq_ok_iff (watches h)).2 ⟨[⟨0⟩, ⟨1⟩], ?_, ?_⟩, ?_⟩
  · refine (Node.addresses_eq_ok_iff (watches h)).2
      ⟨by decide, ⟨2, by decide +kernel, rfl⟩, fun i a ha => ?_⟩
    match i with
    | 0 => cases ha; decide +kernel
    | 1 => cases ha; decide +kernel
    | _ + 2 => cases ha
  · exact .cons hn (.cons hn' .nil)
  · rw [List.map_cons, List.map_cons, List.map_nil, hfirst, hsecond]

end twoNodes

end Chain

namespace Node

open Contract Chain.twoNodes

/-- Both nodes in one aggregate, and each of them alone. -/
theorem every_recorded_twoNodes :
    ∃ ns, (every (observer {}) registry ()).value = .ok ns ∧ ns.length = 2 ∧
      ∀ n ∈ ns, told (Chain.twoNodes registry.block) Hub.getEthBalance ⟨9⟩ n.distributor =
          some n.distributorBalance ∧
        (one (observer ⟨1, 1, 1, 1, 1, 1, 1, 1⟩) registry n.address ()).value = .ok n := by
  have ho : (observer {}).Watches .twoNodes := watches (by decide)
  have ho' : (observer ⟨1, 1, 1, 1, 1, 1, 1, 1⟩).Watches .twoNodes := watches (by decide)
  obtain ⟨ns, hns, -⟩ := exists_every (show ∀ size ∈ BatchSizes.toList {}, 1 ≤ size by decide)
  obtain ⟨⟨count, hcount, hlen⟩, hat⟩ := every_recorded ho ho' registry hns
  have htwo : told (Chain.twoNodes registry.block) NodeManager.getNodeCount
      (registry.address .nodeManager) () = some 2 := by decide +kernel
  obtain rfl := Option.some.inj (htwo.symm.trans hcount)
  refine ⟨ns, hns, hlen, fun n hn => ?_⟩
  obtain ⟨i, hi⟩ := List.mem_iff_getElem?.1 hn
  obtain ⟨-, hrecorded, hone⟩ := hat i n hi
  exact ⟨hrecorded.distributorBalance, hone ()⟩

end Node

end StakingSnapshot
