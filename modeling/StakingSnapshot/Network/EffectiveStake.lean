import StakingSnapshot.Node.Snapshot

/-!
# The effective stake of the network

The stakes of all nodes together, where a stake below its node's minimum does not count.
-/

namespace StakingSnapshot

/-- The stake of a node and the least that counts. -/
structure StakePair where
  minimum : Word := 0
  effective : Word := 0
  deriving DecidableEq, Inhabited

namespace StakePair

/-- The calls for the stake of a node, the minimum first. -/
def calls (r : Registry) (node : Address) : List (Call StakePair) :=
  let staking := r.address .nodeStaking
  [.typed Contract.NodeStaking.getNodeMinimumRPLStake staking node
      fun v p => { p with minimum := v },
    .typed Contract.NodeStaking.getNodeEffectiveRPLStake staking node
      fun v p => { p with effective := v }]

/-- The sum of the stakes that count; it stops at the largest word. -/
def total (pairs : List StakePair) : Word :=
  (pairs.filter fun p => p.minimum.toNat ≤ p.effective.toNat).foldl
    (fun sum p => sum.satAdd p.effective) 0

end StakePair

variable {σ : Type}

/-- Reads the effective stake of the network. -/
def Network.effectiveStake (o : Observer σ) (r : Registry) : Read σ Word := do
  let nodes ← (Node.addresses o r).context "error getting node addresses"
  let pairs ← (o.scheduler.batchFetch r.block o.config.batchSizes.effectiveStake
    (Plan.byKey nodes (StakePair.calls r)) {} nodes.length).context
    "error getting effective stakes for all nodes"
  return StakePair.total pairs

end StakingSnapshot
