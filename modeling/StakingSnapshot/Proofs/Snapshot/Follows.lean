import StakingSnapshot.Proofs.Session.Conduct
import StakingSnapshot.Proofs.Snapshot.Getter

/-!
# What reads of a registry do

Where aggregates through the hub at the block of the registry are in order, every read of it follows
the conduct up to what it logs: whatever the client answers, whatever the sizes of the batches, and
whether or not it fails.

* `Minipool.follows_ofVersions` and its kin: reads, from the rounds up.
* `Snapshot.Getter.follows_unlogged`: every getter without its event; `Snapshot.Getter.follows_read`:
  with it, where events are in order too.
-/

namespace StakingSnapshot

variable {σ : Type} {o : Observer σ} {r : Registry} {c : Conduct}

theorem Snapshot.follows_wordOf {A : Type} [Abi.Arguments A] {block : BlockRef}
    (hc : c.AllowsCalls o.scheduler.hub block) (target : Address) (method : Abi.Method A .uint256)
    (args : A) : (wordOf o block target method args).Follows c :=
  Scheduler.follows_query hc _ _

namespace VersionProbe

variable {p : VersionProbe} {q : Scheduler σ} {block : BlockRef}

theorem follows_resolve (hc : c.AllowsCalls q.hub block) (target : Address) :
    (p.resolve q block target).Follows c :=
  (Scheduler.follows_flexQuery hc _ _).bind fun _ => Read.follows_pure _

theorem follows_resolveAll (hc : c.AllowsCalls q.hub block) (size : Nat) (targets : List Address) :
    (p.resolveAll q block size targets).Follows c :=
  (Scheduler.follows_flexBatchQuery hc _).bind fun _ => Read.follows_pure _

end VersionProbe

variable (hc : c.AllowsCalls o.scheduler.hub r.block)

include hc

theorem Snapshot.follows_etherBalances (accounts : List Address) :
    (etherBalances o r accounts).Follows c :=
  Scheduler.follows_batchQuery hc _

namespace Minipool

theorem follows_addresses : (addresses o r).Follows c :=
  (Snapshot.follows_wordOf hc _ _ _).bind fun _ => (Read.follows_ofExcept _).bind fun _ =>
    Scheduler.follows_batchQuery hc _

theorem follows_addressesOfNode (node : Address) : (addressesOfNode o r node).Follows c :=
  (Snapshot.follows_wordOf hc _ _ _).bind fun _ => (Read.follows_ofExcept _).bind fun _ =>
    Scheduler.follows_batchQuery hc _

/-- Balances, details and shares. -/
theorem follows_ofVersions (as : List Address) (versions : List UInt8) :
    (ofVersions o r as versions).Follows c :=
  (Snapshot.follows_etherBalances hc as).context.bind fun _ =>
    (Scheduler.follows_batchQuery hc _).context.bind fun _ =>
      (Scheduler.follows_batchQuery hc _).context

theorem follows_ofAddresses (as : List Address) : (ofAddresses o r as).Follows c :=
  (VersionProbe.follows_resolveAll hc _ as).context.bind fun versions =>
    follows_ofVersions hc as versions

theorem follows_one (a : Address) : (one o r a).Follows c :=
  (VersionProbe.follows_resolve hc a).context.bind fun version =>
    (follows_ofVersions hc [a] [version]).bind fun _ => Read.follows_pure _

theorem follows_completeShares (beacons : List Word) (minipools : List Minipool) :
    (completeShares o r beacons minipools).Follows c := by
  unfold completeShares
  split
  · exact Session.follows_pure _
  · exact (Scheduler.follows_fill hc _).bind fun _ => Session.follows_pure _

end Minipool

namespace Node

theorem follows_addresses : (addresses o r).Follows c :=
  (Snapshot.follows_wordOf hc _ _ _).context.bind fun _ => (Read.follows_ofExcept _).bind fun _ =>
    (Scheduler.follows_batchQuery hc _).context

theorem follows_ofAddresses (as : List Address) : (ofAddresses o r as).Follows c :=
  (Scheduler.follows_batchQuery hc _).context.bind fun _ =>
    (Snapshot.follows_etherBalances hc _).context.bind fun _ => Read.follows_pure _

theorem follows_one (a : Address) : (one o r a).Follows c :=
  (follows_ofAddresses hc [a]).bind fun _ => Read.follows_pure _

end Node

namespace Network

theorem follows_read (hasFrequencies : Bool) : (read o r hasFrequencies).Follows c :=
  (Scheduler.follows_query hc _ _).context.bind fun _ =>
    (Snapshot.follows_etherBalances hc _).context.bind fun _ => Read.follows_pure _

theorem follows_effectiveStake : (effectiveStake o r).Follows c :=
  (Node.follows_addresses hc).context.bind fun _ =>
    (Scheduler.follows_batchQuery hc _).context.bind fun _ => Read.follows_pure _

end Network

namespace Proposal

theorem follows_count : (count o r).Follows c :=
  (Snapshot.follows_wordOf hc _ _ _).context.bind fun _ => Read.follows_ofExcept _

theorem follows_ofIds (ids : List UInt64) : (ofIds o r ids).Follows c :=
  (Scheduler.follows_batchQuery hc _).context.bind fun _ => Read.follows_pure _

theorem follows_one (id : UInt64) : (one o r id).Follows c :=
  (follows_ofIds hc [id]).bind fun _ => Read.follows_pure _

end Proposal

namespace Snapshot.Getter

variable {α : Type}

/-- The events are left out here, so that one walk serves conducts that forbid them, too. -/
theorem follows_unlogged (g : Getter α) : (g.unlogged o r).Follows c := by
  cases g with
  | etherBalances accounts => exact follows_etherBalances hc accounts
  | minipoolAddresses => exact Minipool.follows_addresses hc
  | minipoolAddressesOfNode node => exact Minipool.follows_addressesOfNode hc node
  | minipool a => exact Minipool.follows_one hc a
  | minipoolsOfNode node =>
    exact (Minipool.follows_addressesOfNode hc node).context.bind fun found =>
      Minipool.follows_ofAddresses hc found
  | minipools =>
    exact (Minipool.follows_addresses hc).context.bind fun found =>
      Minipool.follows_ofAddresses hc found
  | nodeAddresses => exact Node.follows_addresses hc
  | node a => exact Node.follows_one hc a
  | nodes =>
    exact (Node.follows_addresses hc).bind fun found => Node.follows_ofAddresses hc found
  | network hasFrequencies => exact Network.follows_read hc hasFrequencies
  | effectiveStake => exact Network.follows_effectiveStake hc
  | proposalCount => exact Proposal.follows_count hc
  | proposal id => exact Proposal.follows_one hc id
  | proposals => exact (Proposal.follows_count hc).bind fun _ => Proposal.follows_ofIds hc _

theorem follows_read (hlog : ∀ e, c.allows [] [e]) (g : Getter α) : (g.read o r).Follows c := by
  rw [g.read_eq]
  split
  · exact follows_logged (g.follows_unlogged hc) hlog
  · exact g.follows_unlogged hc

end Snapshot.Getter

end StakingSnapshot
