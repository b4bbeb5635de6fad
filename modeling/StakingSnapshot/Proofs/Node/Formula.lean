import Mathlib.Algebra.Ring.Nat
import StakingSnapshot.Proofs.Node.Distributor

/-!
# The split of a fee distributor as a formula

The split of words is a function of numbers, in which each product stops at the largest word. Where
no product is that large, the shares are those of the formula over natural numbers.

* `Word.toNat_foldl_satAdd`: a sum that stops at the largest word.
* `Node.eligible`: the minipools whose fees count; `Node.countedFees_eq`.
* `Node.toNat_averageOf`: the average fee as a number.
* `Node.Split.part`, `Node.Split.commission`, `Node.Split.share`: the split on numbers;
  `Node.toNat_distributorNodeShare`.
* `Node.splitDistributor_formula`: the formula.
-/

namespace StakingSnapshot

/-- Adding up words one after another stops at the largest word, as adding up the numbers and then
stopping does. -/
theorem Word.toNat_foldl_satAdd (ws : List Word) (start : Word) :
    (ws.foldl satAdd start).toNat = min (start.toNat + (ws.map BitVec.toNat).sum) maxNat := by
  induction ws generalizing start with
  | nil =>
    have hmax := start.toNat_le_maxNat
    rw [List.foldl_nil, List.map_nil, List.sum_nil]
    omega
  | cons w ws ih =>
    rw [List.foldl_cons, ih, List.map_cons, List.sum_cons, toNat_satAdd]
    omega

namespace Node

/-! ## The fees that count -/

/-- The minipools whose fees count: they stake, and they are not over. A status that is not known
does not count as staking, whatever its code is. -/
def eligible (minipools : List Minipool) : List Minipool :=
  minipools.filter fun m => m.status = .staking ∧ m.isFinalised = false

/-- Those whose fees count count among themselves. -/
@[simp] theorem eligible_eligible (minipools : List Minipool) :
    eligible (eligible minipools) = eligible minipools := by
  simp [eligible]

theorem countedFees_eq (minipools : List Minipool) :
    countedFees minipools = (eligible minipools).map fun m => m.nodeFee := by
  have hearns : ∀ m : Minipool,
      m.earnsFee = decide (m.status = .staking ∧ m.isFinalised = false) := fun m => by
    rw [Minipool.earnsFee, Bool.decide_and, Bool.decide_eq_false]
  simp only [countedFees, eligible, funext hearns]

/-- The average of fees, whose sum stops at the largest word. It is zero if there are none. -/
theorem toNat_averageOf {fees : List Word} (h : fees.length ≤ Word.maxNat) :
    (averageOf fees).toNat = min (fees.map BitVec.toNat).sum Word.maxNat / fees.length := by
  unfold averageOf
  split
  case isTrue hnil =>
    rw [List.isEmpty_iff.1 hnil]
    rfl
  case isFalse =>
    have hlength : (BitVec.ofNat 256 fees.length : Word).toNat = fees.length := by
      rw [BitVec.toNat_ofNat]
      exact Nat.mod_eq_of_lt (Nat.lt_succ_of_le h)
    rw [BitVec.toNat_udiv, Word.toNat_foldl_satAdd, hlength,
      show (0 : Word).toNat = 0 from rfl, Nat.zero_add]

/-! ## The split on numbers -/

namespace Split

/-- The node's part of a balance by its collateral. Without a ratio it is nothing, as a quotient by
zero is. -/
def part (balance ratio : Nat) : Nat :=
  min balance (min (balance * Amount.weiPerEther) Word.maxNat / ratio)

/-- The fee on an amount. -/
def commission (amount fee : Nat) : Nat := min (amount * fee) Word.maxNat / Amount.weiPerEther

/-- The node's share of a balance. -/
def share (balance ratio fee : Nat) : Nat :=
  min balance (part balance ratio + commission (balance - part balance ratio) fee)

variable {balance ratio amount fee : Nat}

theorem part_le : part balance ratio ≤ balance := Nat.min_le_left _ _

@[simp] theorem commission_zero : commission amount 0 = 0 := by
  rw [commission, Nat.mul_zero, Nat.zero_min, Nat.zero_div]

@[simp] theorem share_zero : share 0 ratio fee = 0 := Nat.zero_min _

/-- Without a fee the node has its part. -/
@[simp] theorem share_without_fee : share balance ratio 0 = part balance ratio := by
  rw [share, commission_zero, Nat.add_zero]
  exact Nat.min_eq_right part_le

/-- The part, where the product is a word. -/
theorem part_of_le (h : balance * Amount.weiPerEther ≤ Word.maxNat) :
    part balance ratio =
      if ratio = 0 then 0 else min balance (balance * Amount.weiPerEther / ratio) := by
  rw [part, Nat.min_eq_left h]
  split
  case isTrue hzero => rw [hzero, Nat.div_zero, Nat.min_zero]
  case isFalse => rfl

/-- The fee, where the product is a word. -/
theorem commission_of_le (h : amount * fee ≤ Word.maxNat) :
    commission amount fee = amount * fee / Amount.weiPerEther := by
  rw [commission, Nat.min_eq_left h]

/-- A fee of one or less takes no more than there is. -/
theorem commission_le (h : fee ≤ Amount.weiPerEther) : commission amount fee ≤ amount :=
  calc commission amount fee
    _ ≤ amount * fee / Amount.weiPerEther := Nat.div_le_div_right (Nat.min_le_left _ _)
    _ ≤ amount * Amount.weiPerEther / Amount.weiPerEther :=
      Nat.div_le_div_right (Nat.mul_le_mul_left _ h)
    _ = amount := Nat.mul_div_cancel _ (by decide)

end Split

variable {balance ratio amount fee : Word}

theorem toNat_collateralPart :
    (collateralPart balance ratio).toNat = Split.part balance.toNat ratio.toNat := by
  have hether : Amount.oneEther.toNat = Amount.weiPerEther := by decide
  rw [collateralPart, Word.toNat_least, Word.toNat_getD_div?, Word.toNat_satMul, hether,
    Nat.min_comm]
  rfl

theorem toNat_commission :
    (commission amount fee).toNat = Split.commission amount.toNat fee.toNat := by
  have hether : Amount.oneEther.toNat = Amount.weiPerEther := by decide
  rw [commission, BitVec.toNat_udiv, Word.toNat_satMul, hether]
  rfl

/-- The share depends on the average of the fees only. That there are none shows in an average of
zero. -/
theorem toNat_nodeShare (fees : List Word) :
    (nodeShare balance ratio fees).toNat =
      Split.share balance.toNat ratio.toNat (averageOf fees).toNat := by
  unfold nodeShare
  split
  case isTrue hnil =>
    have haverage : (averageOf fees).toNat = 0 := by
      rw [List.isEmpty_iff.1 hnil]
      rfl
    rw [haverage, Split.share_without_fee, toNat_collateralPart]
  case isFalse =>
    have hrest : (balance - collateralPart balance ratio).toNat =
        balance.toNat - Split.part balance.toNat ratio.toNat := by
      rw [BitVec.toNat_sub_of_le collateralPart_le, toNat_collateralPart]
    have hsum : (collateralPart balance ratio).toNat +
        (commission (balance - collateralPart balance ratio) (averageOf fees)).toNat ≤
          Word.maxNat := collateralPart_add_commission_le
    rw [Word.toNat_least, BitVec.toNat_add_of_lt (Nat.lt_succ_of_le hsum), toNat_collateralPart,
      toNat_commission, hrest, Nat.min_comm]
    rfl

/-- The average fee, as long as the sum of the fees is a word and minipools can be counted by
one. -/
theorem toNat_averageFee (n : Node) {minipools : List Minipool}
    (hlength : minipools.length ≤ Word.maxNat)
    (hsum : ((eligible minipools).map fun m => m.nodeFee.toNat).sum ≤ Word.maxNat) :
    (n.splitDistributor minipools).averageFee.toNat =
      ((eligible minipools).map fun m => m.nodeFee.toNat).sum / (eligible minipools).length := by
  have hfees : (countedFees minipools).map BitVec.toNat =
      (eligible minipools).map fun m => m.nodeFee.toNat := by
    rw [countedFees_eq, List.map_map]
    rfl
  have hcount : (countedFees minipools).length = (eligible minipools).length := by
    rw [countedFees_eq, List.length_map]
  have hfits := Nat.le_trans (length_countedFees_le minipools) hlength
  have haverage : (n.splitDistributor minipools).averageFee = averageOf (countedFees minipools) :=
    rfl
  rw [haverage, toNat_averageOf hfits, hfees, hcount, Nat.min_eq_left hsum]

/-- **The node's share as a number.** -/
theorem toNat_distributorNodeShare (n : Node) (minipools : List Minipool) :
    (n.splitDistributor minipools).distributorNodeShare.toNat =
      Split.share n.distributorBalance.toNat n.collateralisation.toNat
        (n.splitDistributor minipools).averageFee.toNat := by
  simp only [splitDistributor]
  split
  case isTrue hzero =>
    rw [hzero, Split.share_zero]
    rfl
  case isFalse => exact toNat_nodeShare _

/-- The users have the rest. -/
theorem toNat_distributorUserShare (n : Node) (minipools : List Minipool) :
    (n.splitDistributor minipools).distributorUserShare.toNat =
      n.distributorBalance.toNat - (n.splitDistributor minipools).distributorNodeShare.toNat :=
  BitVec.toNat_sub_of_le (n.distributorNodeShare_le minipools)

/-- **The formula.** The average fee is the sum of the fees of the eligible minipools over their
number, rounded down, as long as the sum is a word and minipools can be counted by one. If the two
products of the split are words as well, the node has its part by the collateral and, if there are
eligible minipools, the average fee on the rest, but not more than the whole balance; the users have
what is left. A fee of one or less is never cut off, and is what the users pay. -/
theorem splitDistributor_formula (n : Node) (minipools : List Minipool)
    (hlength : minipools.length ≤ Word.maxNat)
    (hsum : ((eligible minipools).map fun m => m.nodeFee.toNat).sum ≤ Word.maxNat) :
    let after := n.splitDistributor minipools
    let fees := (eligible minipools).map fun m => m.nodeFee.toNat
    let balance := n.distributorBalance.toNat
    let ratio := n.collateralisation.toNat
    let fee := after.averageFee.toNat
    let own := if ratio = 0 then 0 else min balance (balance * Amount.weiPerEther / ratio)
    let commission := (balance - own) * fee / Amount.weiPerEther
    fee = (if fees = [] then 0 else fees.sum / fees.length) ∧
      (balance * Amount.weiPerEther ≤ Word.maxNat → (balance - own) * fee ≤ Word.maxNat →
        after.distributorNodeShare.toNat =
            (if fees = [] then own else min balance (own + commission)) ∧
          after.distributorUserShare.toNat = balance - after.distributorNodeShare.toNat ∧
          (fee ≤ Amount.weiPerEther → own + commission ≤ balance ∧
            after.distributorUserShare.toNat = balance - own - commission)) := by
  intro after fees balance ratio fee own commission
  have hfee : fee = fees.sum / fees.length := by
    rw [List.length_map]
    exact n.toNat_averageFee hlength hsum
  have hnofee : fees = [] → fee = 0 := fun hnil => by
    rw [hfee, hnil, List.length_nil, Nat.div_zero]
  refine ⟨?_, fun hbalance hproduct => ?_⟩
  · split
    case isTrue hnil => exact hnofee hnil
    case isFalse => exact hfee
  -- No product is cut off, so the split on numbers is the formula.
  have hown : Split.part balance ratio = own := Split.part_of_le hbalance
  have hcommission : Split.commission (balance - own) fee = commission :=
    Split.commission_of_le hproduct
  have hle : own ≤ balance := hown ▸ Split.part_le
  have hnode : after.distributorNodeShare.toNat = min balance (own + commission) := by
    rw [← hcommission, ← hown]
    exact n.toNat_distributorNodeShare minipools
  have husers : after.distributorUserShare.toNat = balance - after.distributorNodeShare.toNat :=
    n.toNat_distributorUserShare minipools
  refine ⟨?_, husers, fun hrate => ?_⟩
  · split
    case isTrue hnil =>
      have hnone : commission = 0 := by
        rw [← hcommission, hnofee hnil, Split.commission_zero]
      omega
    case isFalse => exact hnode
  · have hpaid : commission ≤ balance - own := hcommission ▸ Split.commission_le hrate
    omega

/-- Four ether, of which half is the node's. Of four minipools two count, with fees of 10 and 20 in
a hundred; one is over, and one has an unknown status with the code of staking. The node gets 2 ether
and 15 in a hundred of the other 2. -/
theorem splitDistributor_formula_fourEther :
    let n : Node :=
      { distributorBalance := 4000000000000000000, collateralisation := 2000000000000000000 }
    let minipools : List Minipool :=
      [{ status := .staking, nodeFee := 100000000000000000 },
        { status := .staking, nodeFee := 50000000000000000, isFinalised := true },
        { status := .unknown 2, nodeFee := 500000000000000000 },
        { status := .staking, nodeFee := 200000000000000000 }]
    (n.splitDistributor minipools).averageFee.toNat = 150000000000000000 ∧
      (n.splitDistributor minipools).distributorNodeShare.toNat = 2300000000000000000 ∧
      (n.splitDistributor minipools).distributorUserShare.toNat = 1700000000000000000 := by
  intro n minipools
  obtain ⟨hfee, hshares⟩ := splitDistributor_formula n minipools (by decide) (by decide)
  have haverage : (n.splitDistributor minipools).averageFee.toNat = 150000000000000000 :=
    hfee.trans (by decide)
  rw [haverage] at hshares
  obtain ⟨hnode, -, hpaid⟩ := hshares (by decide) (by decide)
  exact ⟨haverage, hnode.trans (by decide), (hpaid (by decide)).2.trans (by decide)⟩

end Node

end StakingSnapshot
