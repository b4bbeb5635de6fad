import StakingSnapshot.Registry

/-!
# What snapshots have in common

* `Snapshot.logged`: a snapshot of many things ends with one event that says how it went.
* `Snapshot.wordOf`: what one method of one contract returns.
* `Snapshot.etherBalances`: the balances of accounts, which the hub tells.
-/

namespace StakingSnapshot

namespace Snapshot

variable {σ α : Type}

/-- What is logged when a snapshot is complete. -/
def completeEvent (entity : String) (block : BlockNumber) (items : Nat) : Log.Event where
  level := .info
  message := "snapshot_complete"
  entity := some entity
  block := some block
  itemCount := some items

/-- What is logged when a snapshot failed. -/
def errorEvent (entity : String) (block : BlockNumber) (f : Fault) : Log.Event where
  level := .error
  message := "snapshot_error"
  entity := some entity
  block := some block
  errorMessage := some f.message

/-- What is logged when a snapshot ends. -/
def event (entity : String) (block : BlockNumber) (count : α → Nat) : Except Fault α → Log.Event
  | .ok v => completeEvent entity block (count v)
  | .error f => errorEvent entity block f

/-- The snapshot, which logs how it ended. -/
def logged (entity : String) (block : BlockNumber) (count : α → Nat) (m : Read σ α) : Read σ α :=
  ExceptT.mk do
    let result ← m.run
    Session.emit (event entity block count result)
    return result

/-- The word that a method returns. -/
def wordOf {A : Type} [Abi.Arguments A] (o : Observer σ) (block : BlockRef) (target : Address)
    (method : Abi.Method A .uint256) (args : A) : Read σ Word :=
  o.scheduler.query block [Call.value method target args] 0

/-- The balances of accounts. -/
def etherBalances (o : Observer σ) (r : Registry) (accounts : List Address) :
    Read σ (List Word) :=
  o.scheduler.batchFetch r.block o.config.batchSizes.balances
    (Plan.byKey accounts fun a => [.value Contract.Hub.getEthBalance r.hub a]) 0 accounts.length

end Snapshot

end StakingSnapshot
