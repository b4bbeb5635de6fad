import Mathlib.Algebra.BigOperators.Group.List.Basic
import StakingSnapshot.Proofs.Node.Formula

/-!
# What moves the split of a fee distributor, and in which direction

The split depends on which fees count, not on the order of the minipools. Quotients are rounded down
and products stop at the largest word, and still no share moves in the wrong direction: one part of
the node's share may get smaller, but never by more than the other part gets larger.

* `Node.averageOf_perm`: the order of fees does not matter.
* `Node.Split.commission_add_le`: of a larger part by collateral, what is lost in fees is at
  most the difference.
* `Node.Split.part_le_add`: a part grows by no more than the balance.
* `Node.Split.share_le_of_fee`, `Node.Split.share_le_of_ratio`, `Node.Split.share_le_of_balance`: the
  share on numbers, by what it depends on.
* `Node.splitDistributor_monotone`: the same of nodes and minipools.
-/

namespace StakingSnapshot

namespace Node

/-! ## The order of minipools -/

theorem averageOf_perm {fees fees' : List Word} (h : fees.Perm fees') :
    averageOf fees = averageOf fees' := by
  have hsum : fees.foldl Word.satAdd 0 = fees'.foldl Word.satAdd 0 := by
    apply BitVec.eq_of_toNat_eq
    rw [Word.toNat_foldl_satAdd, Word.toNat_foldl_satAdd, (h.map BitVec.toNat).sum_eq]
  rw [averageOf, averageOf, hsum, h.length_eq, h.isEmpty_eq]

/-- The split depends on the fees that count, in whatever order. -/
theorem splitDistributor_congr (n : Node) {minipools minipools' : List Minipool}
    (h : ((eligible minipools).map fun m => m.nodeFee).Perm
      ((eligible minipools').map fun m => m.nodeFee)) :
    n.splitDistributor minipools = n.splitDistributor minipools' := by
  rw [← countedFees_eq, ← countedFees_eq] at h
  simp only [splitDistributor, nodeShare, averageOf_perm h, h.isEmpty_eq]

/-! ## The share on numbers -/

namespace Split

variable {balance balance' ratio ratio' amount amount' fee fee' : Nat}

theorem commission_mono (hamount : amount ≤ amount') (hfee : fee ≤ fee') :
    commission amount fee ≤ commission amount' fee' := by
  have hproduct : amount * fee ≤ amount' * fee' := Nat.mul_le_mul hamount hfee
  refine Nat.div_le_div_right ?_
  omega

/-- What a fee of one or less takes of an amount and more is at most what it takes of the amount,
and all of the rest. -/
theorem commission_add_le (hfee : fee ≤ Amount.weiPerEther) (extra : Nat) :
    commission (amount + extra) fee ≤ commission amount fee + extra := by
  have hproduct : (amount + extra) * fee ≤ amount * fee + extra * Amount.weiPerEther := by
    rw [Nat.add_mul]
    exact Nat.add_le_add_left (Nat.mul_le_mul_left extra hfee) _
  have hcut : min ((amount + extra) * fee) Word.maxNat ≤
      min (amount * fee) Word.maxNat + extra * Amount.weiPerEther := by
    omega
  calc commission (amount + extra) fee
    _ ≤ (min (amount * fee) Word.maxNat + extra * Amount.weiPerEther) / Amount.weiPerEther :=
      Nat.div_le_div_right hcut
    _ = commission amount fee + extra := Nat.add_mul_div_right _ _ (by decide)

theorem part_mono (h : balance ≤ balance') : part balance ratio ≤ part balance' ratio := by
  have hproduct : balance * Amount.weiPerEther ≤ balance' * Amount.weiPerEther :=
    Nat.mul_le_mul_right _ h
  have hquotient : min (balance * Amount.weiPerEther) Word.maxNat / ratio ≤
      min (balance' * Amount.weiPerEther) Word.maxNat / ratio := by
    refine Nat.div_le_div_right ?_
    omega
  unfold part
  omega

/-- The part grows by no more than the balance. Where the ratio is less than one the part is the
whole balance, or what the largest word allows. -/
theorem part_le_add (h : balance ≤ balance') :
    part balance' ratio ≤ part balance ratio + (balance' - balance) := by
  obtain ⟨extra, rfl⟩ := Nat.exists_eq_add_of_le h
  rw [Nat.add_sub_cancel_left]
  have hproduct := Nat.add_mul balance extra Amount.weiPerEther
  unfold part
  rcases Nat.lt_or_ge ratio Amount.weiPerEther with hsmall | hlarge
  case inr =>
    have hstep : extra * Amount.weiPerEther ≤ extra * ratio := Nat.mul_le_mul_left extra hlarge
    have hpositive : 0 < ratio := Nat.lt_of_lt_of_le (by decide) hlarge
    have hquotient : min ((balance + extra) * Amount.weiPerEther) Word.maxNat / ratio ≤
        min (balance * Amount.weiPerEther) Word.maxNat / ratio + extra := by
      rw [← Nat.add_mul_div_right _ _ hpositive]
      refine Nat.div_le_div_right ?_
      omega
    omega
  case inl =>
    rcases Nat.eq_zero_or_pos ratio with rfl | hpositive
    · rw [Nat.div_zero]
      omega
    rcases Nat.le_total (balance * Amount.weiPerEther) Word.maxNat with hfits | hcut
    · have hwhole : balance ≤ min (balance * Amount.weiPerEther) Word.maxNat / ratio := by
        rw [Nat.min_eq_left hfits, Nat.le_div_iff_mul_le hpositive]
        exact Nat.mul_le_mul_left balance (Nat.le_of_lt hsmall)
      omega
    · have hcut' : Word.maxNat ≤ (balance + extra) * Amount.weiPerEther := by omega
      rw [Nat.min_eq_right hcut, Nat.min_eq_right hcut']
      omega

theorem part_anti (hpositive : 1 ≤ ratio) (h : ratio ≤ ratio') :
    part balance ratio' ≤ part balance ratio := by
  have hquotient : min (balance * Amount.weiPerEther) Word.maxNat / ratio' ≤
      min (balance * Amount.weiPerEther) Word.maxNat / ratio :=
    Nat.div_le_div_left h hpositive
  unfold part
  omega

/-- A larger fee. -/
theorem share_le_of_fee (h : fee ≤ fee') : share balance ratio fee ≤ share balance ratio fee' := by
  have hcommission := commission_mono (Nat.le_refl (balance - part balance ratio)) h
  unfold share
  omega

/-- A larger ratio. The node has less by its collateral, and the fee on the difference does not make
up for it. -/
theorem share_le_of_ratio (hfee : fee ≤ Amount.weiPerEther) (hpositive : 1 ≤ ratio)
    (h : ratio ≤ ratio') : share balance ratio' fee ≤ share balance ratio fee := by
  have hpart : part balance ratio' ≤ part balance ratio := part_anti hpositive h
  have hle : part balance ratio ≤ balance := part_le
  have hrest : balance - part balance ratio' =
      balance - part balance ratio + (part balance ratio - part balance ratio') := by
    omega
  have hcommission : commission (balance - part balance ratio') fee ≤
      commission (balance - part balance ratio) fee +
        (part balance ratio - part balance ratio') := by
    rw [hrest]
    exact commission_add_le hfee _
  unfold share
  omega

/-- A larger balance. The node has no less by its collateral, and neither is the rest smaller. -/
theorem share_le_of_balance (h : balance ≤ balance') :
    share balance ratio fee ≤ share balance' ratio fee := by
  have hpart : part balance ratio ≤ part balance' ratio := part_mono h
  have hgrowth : part balance' ratio ≤ part balance ratio + (balance' - balance) := part_le_add h
  have hrest : balance - part balance ratio ≤ balance' - part balance' ratio := by
    have hle : part balance ratio ≤ balance := part_le
    omega
  have hcommission := commission_mono hrest (Nat.le_refl fee)
  unfold share
  omega

end Split

/-! ## Nodes and minipools -/

/-- **The split is fair.** The order of the minipools does not matter, nor do those whose fees do not
count: if the same fees count, the shares and the average fee are the same. With the same balance and
ratio, a larger average fee never leaves the node less. With the same balance and an average fee of
one or less, a larger ratio, which is not zero, never gives the node more. With the same ratio and
average fee, a larger balance never gives the node less. All of this is so for all words, also where
a product stops at the largest one. -/
theorem splitDistributor_monotone (n n' : Node) (minipools minipools' : List Minipool) :
    let after := n.splitDistributor minipools
    let after' := n'.splitDistributor minipools'
    (((eligible minipools).map fun m => m.nodeFee).Perm
        ((eligible minipools').map fun m => m.nodeFee) →
      n.splitDistributor minipools' = after) ∧
    (minipools.Perm minipools' → n.splitDistributor minipools' = after) ∧
    n.splitDistributor (eligible minipools) = after ∧
    (n.distributorBalance = n'.distributorBalance → n.collateralisation = n'.collateralisation →
      after.averageFee.toNat ≤ after'.averageFee.toNat →
        after.distributorNodeShare.toNat ≤ after'.distributorNodeShare.toNat) ∧
    (n.distributorBalance = n'.distributorBalance → after.averageFee = after'.averageFee →
      after.averageFee.toNat ≤ Amount.weiPerEther → 1 ≤ n.collateralisation.toNat →
        n.collateralisation.toNat ≤ n'.collateralisation.toNat →
          after'.distributorNodeShare.toNat ≤ after.distributorNodeShare.toNat) ∧
    (n.collateralisation = n'.collateralisation → after.averageFee = after'.averageFee →
      n.distributorBalance.toNat ≤ n'.distributorBalance.toNat →
        after.distributorNodeShare.toNat ≤ after'.distributorNodeShare.toNat) := by
  intro after after'
  have hnode : after.distributorNodeShare.toNat = _ := n.toNat_distributorNodeShare minipools
  have hnode' : after'.distributorNodeShare.toNat = _ := n'.toNat_distributorNodeShare minipools'
  rw [hnode, hnode']
  refine ⟨fun h => (n.splitDistributor_congr h).symm,
    fun h => (n.splitDistributor_congr ((h.filter _).map _)).symm, ?_, ?_, ?_, ?_⟩
  · refine n.splitDistributor_congr (.of_eq ?_)
    rw [eligible_eligible]
  · intro hbalance hratio hfee
    rw [← hbalance, ← hratio]
    exact Split.share_le_of_fee hfee
  · intro hbalance hfee hone hpositive hratio
    rw [← hbalance]
    exact hfee ▸ Split.share_le_of_ratio hone hpositive hratio
  · intro hratio hfee hbalance
    rw [← hratio]
    exact hfee ▸ Split.share_le_of_balance hbalance

/-- Two minipools in either order leave a node the same, and so does one that is over between them.
Neither a higher fee nor, with the largest of balances, a lower ratio leaves the node less, nor does
this balance in place of 4 ether. -/
theorem splitDistributor_monotone_fourEther :
    let n : Node := { distributorBalance := 4000000000000000000, collateralisation := 2 }
    let rich : Node := { distributorBalance := Word.clamp Word.maxNat, collateralisation := 2 }
    let alone : Node := { distributorBalance := Word.clamp Word.maxNat, collateralisation := 1 }
    let low : Minipool := { status := .staking, nodeFee := 50000000000000000 }
    let high : Minipool := { status := .staking, nodeFee := 150000000000000000 }
    let gone : Minipool := { status := .staking, nodeFee := 1, isFinalised := true }
    let share (n : Node) (m : Minipool) : Nat := (n.splitDistributor [m]).distributorNodeShare.toNat
    n.splitDistributor [high, gone, low] = n.splitDistributor [low, high] ∧
      share rich low ≤ share rich high ∧ share rich low ≤ share alone low ∧
        share n low ≤ share rich low := by
  intro n rich alone low high gone share
  obtain ⟨hfees, -⟩ := splitDistributor_monotone n n [low, high] [high, gone, low]
  obtain ⟨-, -, -, hfee, -⟩ := splitDistributor_monotone rich rich [low] [high]
  obtain ⟨-, -, -, -, hratio, -⟩ := splitDistributor_monotone alone rich [low] [low]
  obtain ⟨-, -, -, -, -, hbalance⟩ := splitDistributor_monotone n rich [low] [low]
  refine ⟨hfees (.swap _ _ _), hfee rfl rfl ?_, hratio rfl rfl ?_ ?_ ?_, hbalance rfl rfl ?_⟩
  all_goals decide +kernel

end Node

end StakingSnapshot
