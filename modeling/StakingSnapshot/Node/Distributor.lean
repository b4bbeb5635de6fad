import StakingSnapshot.Amount
import StakingSnapshot.Minipool.Record
import StakingSnapshot.Node.Record

/-!
# The split of a fee distributor

What the fee distributor of a node holds is split between the node and the users of its minipools
(`Node.splitDistributor`): the node gets its part of the collateral, and its average fee on what is
left.
-/

namespace StakingSnapshot

namespace Minipool

/-- The minipool stakes and is not over, so that its fee counts. -/
def earnsFee (m : Minipool) : Bool := m.status = .staking && !m.isFinalised

end Minipool

namespace Node

/-- The fees that count. -/
def countedFees (minipools : List Minipool) : List Word :=
  (minipools.filter Minipool.earnsFee).map fun m => m.nodeFee

/-- The average of fees, rounded down, whose sum stops at the largest word. Without fees it is
zero. -/
def averageOf (fees : List Word) : Word :=
  if fees.isEmpty then 0 else fees.foldl Word.satAdd 0 / BitVec.ofNat 256 fees.length

/-- The node's part of a balance by its collateral alone; `ratio` is all collateral over its own. -/
def collateralPart (balance ratio : Word) : Word :=
  (((balance.satMul Amount.oneEther).div? ratio).getD 0).least balance

/-- The fee on an amount. -/
def commission (amount fee : Word) : Word := amount.satMul fee / Amount.oneEther

/-- The node's share of a balance, with the fees that count. -/
def nodeShare (balance ratio : Word) (fees : List Word) : Word :=
  let own := collateralPart balance ratio
  if fees.isEmpty then own
  else (own + commission (balance - own) (averageOf fees)).least balance

/-- Fills in the average fee and both shares of what the fee distributor holds. -/
def splitDistributor (n : Node) (minipools : List Minipool) : Node :=
  let fees := countedFees minipools
  let share :=
    if n.distributorBalance.toNat = 0 then 0
    else nodeShare n.distributorBalance n.collateralisation fees
  { n with
    averageFee := averageOf fees
    distributorNodeShare := share
    distributorUserShare := n.distributorBalance - share }

end Node

end StakingSnapshot
