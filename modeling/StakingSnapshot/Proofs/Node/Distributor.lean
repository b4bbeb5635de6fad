import StakingSnapshot.Node.Distributor

/-!
# The split of a fee distributor is exact

Sums, differences and quotients of words wrap or have a value that means nothing where the exact
result is no word. The split never comes to such a place; where its products are too large they
stop at the largest word, which the split is made for.

* `Word.add?`: a sum that is refused if it is no word, as `Word.sub?` and `Word.div?` refuse.
* `Node.splitDistributor?`: the split with every sum, difference and quotient checked.
* `Node.collateralPart_add_commission_le`: why the sum of the node's two parts is a word.
* `Node.splitDistributor_exact`: the shares are the whole balance, no check fails, and the split
  neither reads nor writes anything else.
-/

namespace StakingSnapshot

namespace Word

/-- The sum, if it is a word. -/
def add? (a b : Word) : Option Word := ofNat? (a.toNat + b.toNat)

theorem add?_eq_some {a b : Word} (h : a.toNat + b.toNat ≤ maxNat) : a.add? b = some (a + b) := by
  rw [add?, ofNat?, if_pos h]
  rfl

theorem div?_eq_some {a b : Word} (h : b.toNat ≠ 0) : a.div? b = some (a / b) := if_neg h

end Word

namespace Node

/-! ## The split with checks -/

/-- The average of fees. The number of fees must be a word, and not zero. -/
def averageOf? (fees : List Word) : Option Word :=
  if fees.isEmpty then some 0
  else (Word.ofNat? fees.length).bind (fees.foldl Word.satAdd 0).div?

/-- The fee on an amount. -/
def commission? (amount fee : Word) : Option Word := (amount.satMul fee).div? Amount.oneEther

/-- The node's share of a balance. The node's part by its collateral is a quotient that is checked
as it is. -/
def nodeShare? (balance ratio : Word) (fees : List Word) : Option Word := do
  let own := collateralPart balance ratio
  let users ← balance.sub? own
  if fees.isEmpty then return own
  let fee ← commission? users (← averageOf? fees)
  let sum ← own.add? fee
  return sum.least balance

/-- The split, if no sum, difference or quotient is refused. -/
def splitDistributor? (n : Node) (minipools : List Minipool) : Option Node := do
  let fees := countedFees minipools
  let average ← averageOf? fees
  let share ←
    if n.distributorBalance.toNat = 0 then some 0
    else nodeShare? n.distributorBalance n.collateralisation fees
  let rest ← n.distributorBalance.sub? share
  return { n with
    averageFee := average
    distributorNodeShare := share
    distributorUserShare := rest }

/-! ## The parts as numbers -/

variable {balance ratio amount fee : Word}

theorem collateralPart_le : (collateralPart balance ratio).toNat ≤ balance.toNat := by
  rw [collateralPart, Word.toNat_least]
  exact Nat.min_le_right _ _

/-- Without a ratio nothing is the node's own. -/
theorem collateralPart_of_zero (h : ratio.toNat = 0) : collateralPart balance ratio = 0 := by
  have hle : (collateralPart balance ratio).toNat ≤ 0 := by
    rw [collateralPart, Word.toNat_least, Word.div?, if_pos h]
    exact Nat.min_le_left _ _
  exact BitVec.eq_of_toNat_eq (Nat.le_zero.1 hle)

/-- The node's part is at most the quotient, which is half of the largest word or less where the
ratio is at least two. -/
theorem collateralPart_le_half (h : 2 ≤ ratio.toNat) :
    (collateralPart balance ratio).toNat ≤ Word.maxNat / 2 := by
  have hquotient : ((balance.satMul Amount.oneEther) / ratio).toNat ≤ Word.maxNat / 2 := by
    rw [BitVec.toNat_udiv, Word.toNat_satMul]
    exact Nat.div_le_div (Nat.min_le_right _ _) h (by decide)
  rw [collateralPart, Word.toNat_least, Word.div?_eq_some (by omega), Option.getD_some]
  exact Nat.le_trans (Nat.min_le_left _ _) hquotient

/-- A ratio of one, which is one wei, makes the whole balance the node's. -/
theorem collateralPart_of_one (h : ratio.toNat = 1) : collateralPart balance ratio = balance := by
  have hether : Amount.oneEther.toNat = Amount.weiPerEther := by decide
  have hproduct : balance.toNat ≤ (balance.satMul Amount.oneEther).toNat := by
    rw [Word.toNat_satMul, hether]
    exact Nat.le_min.2 ⟨Nat.le_mul_of_pos_right _ (by decide), balance.toNat_le_maxNat⟩
  apply BitVec.eq_of_toNat_eq
  rw [collateralPart, Word.toNat_least, Word.div?_eq_some (by omega), Option.getD_some,
    BitVec.toNat_udiv, h, Nat.div_one]
  exact Nat.min_eq_right hproduct

/-- A fee is a small part of what a word can hold, whatever the rate is. -/
theorem commission_le : (commission amount fee).toNat ≤ Word.maxNat / Amount.weiPerEther := by
  rw [commission, BitVec.toNat_udiv, Word.toNat_satMul]
  exact Nat.div_le_div_right (Nat.min_le_right _ _)

theorem commission_of_zero (h : amount.toNat = 0) : (commission amount fee).toNat = 0 := by
  rw [commission, BitVec.toNat_udiv, Word.toNat_satMul, h, Nat.zero_mul, Nat.zero_min,
    Nat.zero_div]

/-- **The sum of the node's parts is a word.** The part by collateral is at most half of the largest
word, unless it is nothing or leaves nothing to take a fee on. -/
theorem collateralPart_add_commission_le :
    (collateralPart balance ratio).toNat +
      (commission (balance - collateralPart balance ratio) fee).toNat ≤ Word.maxNat := by
  have hfee : (commission (balance - collateralPart balance ratio) fee).toNat ≤ _ := commission_le
  have hroom : Word.maxNat / 2 + Word.maxNat / Amount.weiPerEther ≤ Word.maxNat := by decide
  by_cases hzero : ratio.toNat = 0
  · rw [collateralPart_of_zero hzero] at hfee ⊢
    have hnone : (0 : Word).toNat = 0 := rfl
    omega
  by_cases hone : ratio.toNat = 1
  · have hrest : (balance - collateralPart balance ratio).toNat = 0 := by
      rw [collateralPart_of_one hone, BitVec.sub_self]
      rfl
    rw [commission_of_zero hrest]
    exact Word.toNat_le_maxNat _
  · have hown : (collateralPart balance ratio).toNat ≤ Word.maxNat / 2 :=
      collateralPart_le_half (by omega)
    omega

theorem nodeShare_le (fees : List Word) :
    (nodeShare balance ratio fees).toNat ≤ balance.toNat := by
  rw [nodeShare]
  split
  · exact collateralPart_le
  · rw [Word.toNat_least]
    exact Nat.min_le_right _ _

/-! ## No check fails -/

theorem length_countedFees_le (minipools : List Minipool) :
    (countedFees minipools).length ≤ minipools.length := by
  rw [countedFees, List.length_map]
  exact List.length_filter_le _ _

theorem averageOf?_eq_some {fees : List Word} (h : fees.length ≤ Word.maxNat) :
    averageOf? fees = some (averageOf fees) := by
  unfold averageOf? averageOf
  split
  case isTrue => rfl
  case isFalse hne =>
    have hpos : 0 < fees.length := List.length_pos_iff.2 fun hnil => hne (List.isEmpty_iff.2 hnil)
    have hdivisor : (BitVec.ofNat 256 fees.length : Word).toNat = fees.length := by
      rw [BitVec.toNat_ofNat]
      exact Nat.mod_eq_of_lt (Nat.lt_succ_of_le h)
    rw [Word.ofNat?, if_pos h, Option.bind_some, Word.div?_eq_some (by omega)]

theorem nodeShare?_eq_some {fees : List Word} (h : fees.length ≤ Word.maxNat) :
    nodeShare? balance ratio fees = some (nodeShare balance ratio fees) := by
  have hfee : ∀ users average, commission? users average = some (commission users average) :=
    fun users average => Word.div?_eq_some (by decide)
  unfold nodeShare? nodeShare
  simp only [Word.sub?_eq_some collateralPart_le, averageOf?_eq_some h, hfee,
    Word.add?_eq_some collateralPart_add_commission_le, Option.bind_eq_bind, Option.bind_some]
  split
  · rfl
  · rfl

/-- What goes to the node is part of the balance. -/
theorem distributorNodeShare_le (n : Node) (minipools : List Minipool) :
    (n.splitDistributor minipools).distributorNodeShare.toNat ≤ n.distributorBalance.toNat := by
  simp only [splitDistributor]
  split
  · exact Nat.zero_le _
  · exact nodeShare_le _

theorem splitDistributor?_eq_some {n : Node} {minipools : List Minipool}
    (h : minipools.length ≤ Word.maxNat) :
    n.splitDistributor? minipools = some (n.splitDistributor minipools) := by
  have hlen := Nat.le_trans (length_countedFees_le minipools) h
  have hnone : n.distributorBalance.sub? 0 = some (n.distributorBalance - 0) :=
    Word.sub?_eq_some (Nat.zero_le _)
  simp only [splitDistributor?, splitDistributor, averageOf?_eq_some hlen,
    nodeShare?_eq_some hlen, Option.bind_eq_bind, Option.bind_some]
  split
  · rw [hnone]
    rfl
  · rw [Word.sub?_eq_some (nodeShare_le _)]
    rfl

/-- **The split is exact.** The two shares make up the balance. No sum, difference or quotient in
between is refused, as far as minipools can be counted by a word. Only the average fee and the
shares change, and what they were before does not matter. -/
theorem splitDistributor_exact (n : Node) (minipools : List Minipool) :
    let after := n.splitDistributor minipools
    after.distributorNodeShare.toNat + after.distributorUserShare.toNat =
        n.distributorBalance.toNat ∧
      (minipools.length ≤ Word.maxNat → n.splitDistributor? minipools = some after) ∧
      after = { n with
        averageFee := after.averageFee
        distributorNodeShare := after.distributorNodeShare
        distributorUserShare := after.distributorUserShare } ∧
      ∀ average node users,
        splitDistributor { n with
          averageFee := average
          distributorNodeShare := node
          distributorUserShare := users } minipools = after := by
  refine ⟨?_, splitDistributor?_eq_some, rfl, fun _ _ _ => rfl⟩
  have hshare := n.distributorNodeShare_le minipools
  have hrest : (n.splitDistributor minipools).distributorUserShare.toNat =
      n.distributorBalance.toNat - (n.splitDistributor minipools).distributorNodeShare.toNat :=
    BitVec.toNat_sub_of_le hshare
  omega

/-- The balance and the fee are as large as words get, and the ratio is two wei. The products stop
at the largest word, and the node gets half of it and a fee. -/
theorem splitDistributor_of_largest :
    let largest := Word.clamp Word.maxNat
    let n : Node := { distributorBalance := largest, collateralisation := 2 }
    let minipools : List Minipool := [{ status := .staking, nodeFee := largest }]
    minipools.length ≤ Word.maxNat ∧
      n.splitDistributor? minipools = some (n.splitDistributor minipools) ∧
      (n.splitDistributor minipools).distributorNodeShare.toNat =
        Word.maxNat / 2 + Word.maxNat / Amount.weiPerEther :=
  ⟨by decide, (splitDistributor_exact _ _).2.1 (by decide), by decide +kernel⟩

end Node

end StakingSnapshot
