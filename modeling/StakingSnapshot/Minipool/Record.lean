import StakingSnapshot.Parameter.Formats
import StakingSnapshot.Version

/-!
# Minipools

What a snapshot tells about a minipool. Most fields are what contracts return for it; `status` and
`deposit` are the codes among them with a meaning; the shares of balances are what the delegate of
the minipool computes.
-/

namespace StakingSnapshot

/-- A minipool at one block. -/
structure Minipool where
  /-- The register knows the minipool. -/
  isKnown : Bool := false
  address : Address := .zero
  pubkey : Bytes := []
  statusCode : StatusParameter := .ofRaw 0
  statusBlock : Word := 0
  statusTime : TimestampParameter := .ofRaw 0
  isFinalised : Bool := false
  depositCode : DepositParameter := .ofRaw 0
  nodeFee : Word := 0
  nodeDeposit : Word := 0
  nodeDepositAssigned : Bool := false
  userDeposit : Word := 0
  userDepositAssigned : Bool := false
  userDepositAssignedTime : TimestampParameter := .ofRaw 0
  usesLatestDelegate : Bool := false
  delegate : Address := .zero
  previousDelegate : Address := .zero
  effectiveDelegate : Address := .zero
  penaltyCount : Word := 0
  penaltyRate : Word := 0
  /-- The node that runs the minipool. -/
  node : Address := .zero
  version : UInt8 := 0
  /-- What the minipool itself holds. -/
  balance : Word := 0
  /-- The balance without the refund, or nothing if the refund is larger. -/
  distributable : Word := 0
  nodeShare : Word := 0
  userShare : Word := 0
  /-- What the node gets back before anything is shared. -/
  refund : Word := 0
  withdrawalCredentials : Bytes := []
  status : MinipoolStatus := .initialized
  deposit : DepositType := .none
  /-- The shares of what the minipool holds here and on the beacon chain. -/
  nodeShareOfTotal : Word := 0
  userShareOfTotal : Word := 0
  /-- The shares of what it holds on the beacon chain. -/
  nodeShareOfBeacon : Word := 0
  userShareOfBeacon : Word := 0
  userDistributed : Bool := false
  isSlashed : Bool := false
  isVacant : Bool := false
  lastReductionTime : TimestampParameter := .ofRaw 0
  lastReductionPreviousBond : Word := 0
  lastReductionPreviousFee : Word := 0
  reductionTime : TimestampParameter := .ofRaw 0
  reductionCancelled : Bool := false
  reductionBond : Word := 0
  preMigrationBalance : Word := 0

namespace Minipool

instance : Inhabited Minipool := ⟨{}⟩

/-- A minipool of which only the address and the version are known. -/
def ofAddress (address : Address) (version : UInt8) : Minipool :=
  { address := address, version := version }

/-- How the minipool is read. -/
def binding (m : Minipool) : Except Fault Binding := Binding.ofVersion m.address m.version

/-- Gives the codes that were read their meaning. -/
def interpretCodes (m : Minipool) : Minipool :=
  let (status, statusCode) := m.statusCode.formatted
  let (deposit, depositCode) := m.depositCode.formatted
  { m with
    status := status
    statusCode := statusCode
    deposit := deposit
    depositCode := depositCode }

/-- The written form. -/
def toJson (m : Minipool) : Json :=
  .obj [
    ("exists", .bool m.isKnown),
    ("minipool_address", .ofAddress m.address),
    ("pubkey", .ofBytes m.pubkey),
    ("status_raw", m.statusCode.toJson),
    ("status_block", .ofWord m.statusBlock),
    ("status_time", m.statusTime.toJson),
    ("finalised", .bool m.isFinalised),
    ("deposit_type_raw", m.depositCode.toJson),
    ("node_fee", .ofWord m.nodeFee),
    ("node_deposit_balance", .ofWord m.nodeDeposit),
    ("node_deposit_assigned", .bool m.nodeDepositAssigned),
    ("user_deposit_balance", .ofWord m.userDeposit),
    ("user_deposit_assigned", .bool m.userDepositAssigned),
    ("user_deposit_assigned_time", m.userDepositAssignedTime.toJson),
    ("use_latest_delegate", .bool m.usesLatestDelegate),
    ("delegate", .ofAddress m.delegate),
    ("previous_delegate", .ofAddress m.previousDelegate),
    ("effective_delegate", .ofAddress m.effectiveDelegate),
    ("penalty_count", .ofWord m.penaltyCount),
    ("penalty_rate", .ofWord m.penaltyRate),
    ("node_address", .ofAddress m.node),
    ("version", .ofNat m.version.toNat),
    ("balance", .ofWord m.balance),
    ("distributable_balance", .ofWord m.distributable),
    ("node_share_of_balance", .ofWord m.nodeShare),
    ("user_share_of_balance", .ofWord m.userShare),
    ("node_refund_balance", .ofWord m.refund),
    ("withdrawal_credentials", .ofBytes m.withdrawalCredentials),
    ("status", .str m.status.name),
    ("deposit_type", .str m.deposit.name),
    ("node_share_of_balance_including_beacon", .ofWord m.nodeShareOfTotal),
    ("user_share_of_balance_including_beacon", .ofWord m.userShareOfTotal),
    ("node_share_of_beacon_balance", .ofWord m.nodeShareOfBeacon),
    ("user_share_of_beacon_balance", .ofWord m.userShareOfBeacon),
    ("user_distributed", .bool m.userDistributed),
    ("slashed", .bool m.isSlashed),
    ("is_vacant", .bool m.isVacant),
    ("last_bond_reduction_time", m.lastReductionTime.toJson),
    ("last_bond_reduction_prev_value", .ofWord m.lastReductionPreviousBond),
    ("last_bond_reduction_prev_node_fee", .ofWord m.lastReductionPreviousFee),
    ("reduce_bond_time", m.reductionTime.toJson),
    ("reduce_bond_cancelled", .bool m.reductionCancelled),
    ("reduce_bond_value", .ofWord m.reductionBond),
    ("pre_migration_balance", .ofWord m.preMigrationBalance)]

end Minipool

end StakingSnapshot
