import StakingSnapshot.Contract.Minipool
import StakingSnapshot.Minipool.Record
import StakingSnapshot.Snapshot

/-!
# Shares of a minipool's balance

The delegate of a minipool splits a balance between the node and the users.

* `Minipool.sharesPlan`: the shares of what the minipool holds.
* `Minipool.completeShares`: the shares of what it holds on the beacon chain, and of both together.
-/

namespace StakingSnapshot

namespace Minipool

/-- What the minipool holds without the refund, if the refund is not larger. -/
def distributable? (m : Minipool) : Option Word := m.balance.sub? m.refund

/-- The calls for the shares of an amount, the node's first. -/
def shareCalls (m : Minipool) (amount : Word) (storeNode storeUser : Word → Minipool → Minipool) :
    List (Call Minipool) :=
  [.typed Contract.Delegate.calculateNodeShare m.address amount storeNode,
    .typed Contract.Delegate.calculateUserShare m.address amount storeUser]

/-- How a minipool registers the calls for the shares of its balance. -/
def sharesPlan : Plan Minipool := fun _ m => do
  let _ ← m.binding
  match m.distributable? with
  | some amount =>
    return ({ m with distributable := amount },
      m.shareCalls amount (fun v m => { m with nodeShare := v })
        fun v m => { m with userShare := v })
  | none => return ({ m with distributable := 0, nodeShare := 0, userShare := 0 }, [])

/-- What the minipool holds together with a balance on the beacon chain, without the refund, if
anything is left. -/
def total? (m : Minipool) (beacon : Word) : Option Word :=
  ((beacon.satAdd m.balance).sub? m.refund).filter fun w => w.toNat ≠ 0

/-- Registers the calls for the shares of a balance on the beacon chain. -/
def beaconShares (m : Minipool) (beacon : Word) : Minipool × List (Call Minipool) :=
  if beacon.toNat = 0 then ({ m with nodeShareOfBeacon := 0, userShareOfBeacon := 0 }, [])
  else
    (m, m.shareCalls beacon (fun v m => { m with nodeShareOfBeacon := v })
      fun v m => { m with userShareOfBeacon := v })

/-- Registers the calls for the shares of everything the minipool holds. -/
def totalShares (m : Minipool) (beacon : Word) : Minipool × List (Call Minipool) :=
  match m.total? beacon with
  | none => ({ m with nodeShareOfTotal := 0, userShareOfTotal := 0 }, [])
  | some total =>
    (m, m.shareCalls total (fun v m => { m with nodeShareOfTotal := v })
      fun v m => { m with userShareOfTotal := v })

/-- How the minipool at an index registers the calls for its complete shares. -/
def completeSharesPlan (beacons : List Word) : Plan Minipool := fun i m => do
  let _ ← m.binding
  let beacon := beacons.getD i 0
  let (m, first) := m.beaconShares beacon
  let (m, second) := m.totalShares beacon
  return (m, first ++ second)

variable {σ : Type}

/-- Fills in the shares that count the balances on the beacon chain. The minipools are given back
also when this fails, with what was filled in until then. -/
def completeShares (o : Observer σ) (r : Registry) (beacons : List Word)
    (minipools : List Minipool) : Session σ (List Minipool × Except Fault Unit) :=
  if minipools.length ≠ beacons.length then
    pure (minipools, .error (.config
      s!"got {beacons.length} beacon balances for {minipools.length} minipools"))
  else do
    let (minipools', result) ← o.scheduler.fill true r.block o.config.batchSizes.completeShares
      (completeSharesPlan beacons) minipools
    return (minipools',
      withContext "error calculating minipool shares" (result.map fun _ => ()))

end Minipool

end StakingSnapshot
