import StakingSnapshot.Minipool.Snapshot
import StakingSnapshot.Network.EffectiveStake
import StakingSnapshot.Network.Snapshot
import StakingSnapshot.Proposal.Snapshot

/-!
# The reads of a registry's contracts

`Getter α` lists the reads that return an `α`, and `Getter.read` is each of them. Complete shares are
no getter: they fill in what is there, and give it back also when they fail.

Some getters are bulk snapshots, which log how they ended: `Getter.bulk?` says under which name, and
`Getter.unlogged` is what is read before (`Getter.read_eq`).
-/

namespace StakingSnapshot

namespace Snapshot

/-- A read of the contracts of a registry, by what it returns. -/
inductive Getter : Type → Type where
  | etherBalances (accounts : List Address) : Getter (List Word)
  | minipoolAddresses : Getter (List Address)
  | minipoolAddressesOfNode (node : Address) : Getter (List Address)
  | minipool (address : Address) : Getter Minipool
  | minipoolsOfNode (node : Address) : Getter (List Minipool)
  | minipools : Getter (List Minipool)
  | nodeAddresses : Getter (List Address)
  | node (address : Address) : Getter Node
  | nodes : Getter (List Node)
  | network (hasFrequencies : Bool) : Getter Network
  | effectiveStake : Getter Word
  | proposalCount : Getter Nat
  | proposal (id : UInt64) : Getter Proposal
  | proposals : Getter (List Proposal)

/-- The read that a getter stands for. -/
def Getter.read {σ : Type} (o : Observer σ) (r : Registry) : {α : Type} → Getter α → Read σ α
  | _, etherBalances accounts => Snapshot.etherBalances o r accounts
  | _, minipoolAddresses => Minipool.addresses o r
  | _, minipoolAddressesOfNode a => Minipool.addressesOfNode o r a
  | _, minipool a => Minipool.one o r a
  | _, minipoolsOfNode a => Minipool.ofNode o r a
  | _, minipools => Minipool.every o r
  | _, nodeAddresses => Node.addresses o r
  | _, node a => Node.one o r a
  | _, nodes => Node.every o r
  | _, network hasFrequencies => Network.fetch o r hasFrequencies
  | _, effectiveStake => Network.effectiveStake o r
  | _, proposalCount => Proposal.count o r
  | _, proposal id => Proposal.one o r id
  | _, proposals => Proposal.every o r

/-- What the log says of a bulk snapshot that is complete. -/
structure Bulk (α : Type) where
  /-- What was read. -/
  entity : String
  /-- How many there are of it. -/
  records : α → Nat

/-- The getters that are bulk snapshots. -/
def Getter.bulk? : {α : Type} → Getter α → Option (Bulk α)
  | _, minipoolsOfNode _ => some ⟨"node_minipools", List.length⟩
  | _, minipools => some ⟨"minipool", List.length⟩
  | _, nodes => some ⟨"node", List.length⟩
  | _, network _ => some ⟨"network", fun _ => 1⟩
  | _, proposals => some ⟨"pdao_proposal", List.length⟩
  | _, _ => none

/-- What a getter reads before it logs anything. -/
def Getter.unlogged {σ : Type} (o : Observer σ) (r : Registry) :
    {α : Type} → Getter α → Read σ α
  | _, minipoolsOfNode a => do
    let found ← (Minipool.addressesOfNode o r a).context
      s!"error getting minipool addresses for node {a}"
    Minipool.ofAddresses o r found
  | _, minipools => do
    let found ← (Minipool.addresses o r).context "error getting minipool addresses"
    Minipool.ofAddresses o r found
  | _, nodes => do Node.ofAddresses o r (← Node.addresses o r)
  | _, network hasFrequencies => Network.read o r hasFrequencies
  | _, proposals => do
    let total ← Proposal.count o r
    Proposal.ofIds o r ((List.range' 1 total).map UInt64.ofNat)
  | _, g => g.read o r

/-- A bulk snapshot logs once, in the end. -/
theorem Getter.read_eq {σ α : Type} (o : Observer σ) (r : Registry) (g : Getter α) :
    g.read o r = match g.bulk? with
      | some b => logged b.entity r.blockNumber b.records (g.unlogged o r)
      | none => g.unlogged o r := by
  cases g <;> rfl

end Snapshot

end StakingSnapshot
