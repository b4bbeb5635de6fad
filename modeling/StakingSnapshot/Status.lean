/-!
# Codes that contracts keep

The states of minipools, deposits and proposals, which contracts keep as one byte. A code without a
meaning is kept as it is, so that no code is lost (`MinipoolStatus.code_ofCode` and its kin).
-/

namespace StakingSnapshot

/-- Where a minipool stands in its life. -/
inductive MinipoolStatus where
  | initialized
  | prelaunch
  | staking
  | withdrawable
  | dissolved
  | unknown (code : UInt8)
  deriving DecidableEq

namespace MinipoolStatus

instance : Inhabited MinipoolStatus := ⟨initialized⟩

/-- The status with a code. -/
def ofCode (code : UInt8) : MinipoolStatus :=
  match code.toNat with
  | 0 => initialized
  | 1 => prelaunch
  | 2 => staking
  | 3 => withdrawable
  | 4 => dissolved
  | _ => unknown code

/-- The code of a status. -/
def code : MinipoolStatus → UInt8
  | initialized => 0
  | prelaunch => 1
  | staking => 2
  | withdrawable => 3
  | dissolved => 4
  | unknown code => code

/-- The name of a status. -/
def name : MinipoolStatus → String
  | initialized => "Initialized"
  | prelaunch => "Prelaunch"
  | staking => "Staking"
  | withdrawable => "Withdrawable"
  | dissolved => "Dissolved"
  | unknown _ => "Unknown"

/-- The status has a code without a meaning. -/
def isUnknown : MinipoolStatus → Bool
  | unknown _ => true
  | _ => false

end MinipoolStatus

/-- The kind of deposit that a minipool was created with. -/
inductive DepositType where
  | none
  | full
  | half
  | empty
  | variable
  | unknown (code : UInt8)
  deriving DecidableEq

namespace DepositType

instance : Inhabited DepositType := ⟨none⟩

/-- The kind with a code. -/
def ofCode (code : UInt8) : DepositType :=
  match code.toNat with
  | 0 => none
  | 1 => full
  | 2 => half
  | 3 => empty
  | 4 => .variable
  | _ => unknown code

/-- The code of a kind. -/
def code : DepositType → UInt8
  | none => 0
  | full => 1
  | half => 2
  | empty => 3
  | .variable => 4
  | unknown code => code

/-- The name of a kind. -/
def name : DepositType → String
  | none => "None"
  | full => "Full"
  | half => "Half"
  | empty => "Empty"
  | .variable => "Variable"
  | unknown _ => "Unknown"

/-- The kind has a code without a meaning. -/
def isUnknown : DepositType → Bool
  | unknown _ => true
  | _ => false

end DepositType

/-- Where a proposal stands. -/
inductive ProposalState where
  | pending
  | activePhase1
  | activePhase2
  | destroyed
  | vetoed
  | quorumNotMet
  | defeated
  | succeeded
  | expired
  | executed
  | unknown (code : UInt8)
  deriving DecidableEq

namespace ProposalState

instance : Inhabited ProposalState := ⟨pending⟩

/-- The state with a code. -/
def ofCode (code : UInt8) : ProposalState :=
  match code.toNat with
  | 0 => pending
  | 1 => activePhase1
  | 2 => activePhase2
  | 3 => destroyed
  | 4 => vetoed
  | 5 => quorumNotMet
  | 6 => defeated
  | 7 => succeeded
  | 8 => expired
  | 9 => executed
  | _ => unknown code

/-- The code of a state. -/
def code : ProposalState → UInt8
  | pending => 0
  | activePhase1 => 1
  | activePhase2 => 2
  | destroyed => 3
  | vetoed => 4
  | quorumNotMet => 5
  | defeated => 6
  | succeeded => 7
  | expired => 8
  | executed => 9
  | unknown code => code

/-- The name of a state. -/
def name : ProposalState → String
  | pending => "Pending"
  | activePhase1 => "ActivePhase1"
  | activePhase2 => "ActivePhase2"
  | destroyed => "Destroyed"
  | vetoed => "Vetoed"
  | quorumNotMet => "QuorumNotMet"
  | defeated => "Defeated"
  | succeeded => "Succeeded"
  | expired => "Expired"
  | executed => "Executed"
  | unknown _ => "Unknown"

/-- The state has a code without a meaning. -/
def isUnknown : ProposalState → Bool
  | unknown _ => true
  | _ => false

end ProposalState

theorem MinipoolStatus.code_ofCode (c : UInt8) : (MinipoolStatus.ofCode c).code = c := by
  unfold MinipoolStatus.ofCode
  split <;> first | rfl | (apply UInt8.toNat_inj.1; simp_all [MinipoolStatus.code])

theorem DepositType.code_ofCode (c : UInt8) : (DepositType.ofCode c).code = c := by
  unfold DepositType.ofCode
  split <;> first | rfl | (apply UInt8.toNat_inj.1; simp_all [DepositType.code])

theorem ProposalState.code_ofCode (c : UInt8) : (ProposalState.ofCode c).code = c := by
  unfold ProposalState.ofCode
  split <;> first | rfl | (apply UInt8.toNat_inj.1; simp_all [ProposalState.code])

end StakingSnapshot
