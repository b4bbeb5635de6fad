import StakingSnapshot.Contract.Basic
import StakingSnapshot.Schedule

/-!
# Versions

* `VersionProbe.resolve`, `VersionProbe.resolveAll`: the versions that contracts tell; one that
  tells none has the version that the probe falls back to.
* `Binding.ofVersion`: how a minipool of a version is read.
* `ProtocolVersion.detect`: the release of the network, by the versions of two of its contracts.
-/

namespace StakingSnapshot

/-- Asks contracts for their version. -/
structure VersionProbe where
  /-- The version of a contract that does not tell one. -/
  fallback : UInt8
  deriving DecidableEq, Inhabited

namespace VersionProbe

variable {σ : Type}

/-- What is sent to ask for a version. -/
def callData : Bytes := Contract.Versioned.version.callData ()

/-- The call that asks a contract. -/
def call (target : Address) : Call UInt8 := .value Contract.Versioned.version target ()

/-- The version of one contract. -/
def resolve (p : VersionProbe) (q : Scheduler σ) (block : BlockRef) (target : Address) :
    Read σ UInt8 := do
  let (version, flags) ← q.flexQuery block [call target] 0
  return if flags.headD false then version else p.fallback

/-- The versions of contracts, in batches of `size`. -/
def resolveAll (p : VersionProbe) (q : Scheduler σ) (block : BlockRef) (size : Nat)
    (targets : List Address) : Read σ (List UInt8) := do
  let (versions, flags) ← q.flexBatchFetch block size
    (Plan.byKey targets fun a => [call a]) 0 targets.length
  return versions.zipWith (fun version ok => if ok then version else p.fallback) flags

end VersionProbe

/-- How a minipool is read. -/
inductive Binding where
  /-- It answers what all versions answer. -/
  | legacy
  /-- It also tells about vacancy, early distribution and the reduction of its bond. -/
  | atlas
  deriving DecidableEq, Inhabited

namespace Binding

/-- The name of a binding. -/
def name : Binding → String
  | legacy => "Legacy"
  | atlas => "Atlas"

/-- The bond of the minipool can be reduced. -/
def hasBondReduction : Binding → Bool
  | legacy => false
  | atlas => true

/-- The binding of the minipool at an address with a version. -/
def ofVersion (address : Address) (version : UInt8) : Except Fault Binding :=
  match version.toNat with
  | 1 | 2 => .ok legacy
  | 3 => .ok atlas
  | _ => .error (.unsupportedVersion address version)

end Binding

/-- The version of a release of the network. -/
structure ProtocolVersion where
  major : UInt8
  minor : UInt8
  patch : UInt8
  deriving DecidableEq, Inhabited

namespace ProtocolVersion

instance : ToString ProtocolVersion :=
  ⟨fun v => s!"{v.major.toNat}.{v.minor.toNat}.{v.patch.toNat}"⟩

/-- The version as one number, by which versions are ordered. -/
def rank (v : ProtocolVersion) : Nat :=
  (v.major.toNat * 256 + v.minor.toNat) * 256 + v.patch.toNat

instance : LE ProtocolVersion := ⟨fun a b => a.rank ≤ b.rank⟩

instance (a b : ProtocolVersion) : Decidable (a ≤ b) :=
  inferInstanceAs (Decidable (a.rank ≤ b.rank))

/-- The release whose contracts for stakes and for nodes have these versions. -/
def detect (staking manager : UInt8) : ProtocolVersion :=
  if 3 < staking.toNat then ⟨1, 2, 0⟩
  else if 1 < manager.toNat then ⟨1, 1, 0⟩
  else ⟨1, 0, 0⟩

end ProtocolVersion

end StakingSnapshot
