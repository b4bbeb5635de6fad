import StakingSnapshot.Pool

/-!
# The schedule of batched reads

A scheduler sends aggregates for a client through one contract, the hub. Reads about many items are
cut into batches, each of them one aggregate.

* `batchRanges`, `chunks`: the batches, by index and by item.
* `Scheduler.fill`: runs the batches in order, up to the first that fails, whose fault gets the
  number and the range of the batch as context.
* `Scheduler.query`, `batchFetch` and their kin: the reads that snapshots are made of. The strict
  ones fail when a call reverts, the flexible ones (`flex…`) report which items were affected.
* `itemCount`: a count that a contract reports, as long as it is sane.
-/

namespace StakingSnapshot

/-- The most items that a contract may report. -/
def maxItemCount : Nat := 16777216

/-- A count returned by `method`, as the number of items to read. -/
def itemCount (raw : Word) (target : Address) (method : String) : Except Fault Nat :=
  if raw.toNat ≤ maxItemCount then .ok raw.toNat
  else
    .error (.decode target method
      s!"count {raw.toNat} exceeds the limit of {maxItemCount} items")

/-- The batches of `count` items, each as its first index and the first index behind it. -/
def batchRanges (count size : Nat) : List (Nat × Nat) :=
  if size = 0 then []
  else
    (List.range ((count + size - 1) / size)).map fun k => (k * size, min (k * size + size) count)

/-- The items in batches of `size`; the last one may be smaller. -/
def chunks {ι : Type} (size : Nat) (items : List ι) : List (List ι) :=
  if size = 0 ∨ items.isEmpty then []
  else items.take size :: chunks size (items.drop size)
termination_by items.length
decreasing_by
  simp only [List.isEmpty_iff, not_or] at *
  rename_i h
  have := List.length_pos_iff.2 h.2
  simp only [List.length_drop]
  omega

/-- Sends aggregates for a client through a hub. -/
structure Scheduler (σ : Type) where
  /-- Who answers. -/
  client : Client σ
  /-- The contract that makes the calls. -/
  hub : Address
  /-- The most aggregates that may be open at once. -/
  limit : Nat

namespace Scheduler

variable {σ S ι : Type}

/-- A scheduler. It needs at least one permit. -/
def make? (client : Client σ) (hub : Address) (limit : Nat) : Except Fault (Scheduler σ) :=
  if limit = 0 then .error (.config "concurrency limit must be at least 1")
  else .ok ⟨client, hub, limit⟩

/-- Runs one job. -/
def run (q : Scheduler σ) (job : Job S) (slots : S) : Session σ (S × Except Fault (List Bool)) :=
  job.run q.client q.hub slots

/-- What a fault of a batch is put into. -/
def batchContext (number start finish : Nat) : String := s!"batch {number} [{start}, {finish})"

/-- Runs batches in order, of which the first has the given number and starts at the given index.
The items of a failed batch are as it left them; those behind it are untouched. -/
def runChunks (q : Scheduler σ) (strict : Bool) (block : BlockRef) (plan : Plan ι) :
    Nat → Nat → List (List ι) → Session σ (List ι × Except Fault (List Bool))
  | _, _, [] => pure ([], .ok [])
  | number, start, c :: cs => do
    let finish := start + c.length
    let (c', r) ← q.run (Job.ofItems strict block plan start) c
    match r with
    | .error e =>
      return (c' ++ cs.flatten, .error (.context (batchContext number start finish) e))
    | .ok flags =>
      let (rest, r') ← runChunks q strict block plan (number + 1) finish cs
      return (c' ++ rest, r'.map (flags ++ ·))

/-- What is said to batches that have no room for an item. -/
def noRoom : Fault := .config "batch size must be at least 1"

/-- Fills the items in batches of `size`. -/
def fill (q : Scheduler σ) (strict : Bool) (block : BlockRef) (size : Nat) (plan : Plan ι)
    (items : List ι) : Session σ (List ι × Except Fault (List Bool)) :=
  if size = 0 then pure (items, .error noRoom)
  else q.runChunks strict block plan 0 0 (chunks size items)

/-- One aggregate whose calls must all succeed: the slots with the answers in them. -/
def query (q : Scheduler σ) (block : BlockRef) (calls : List (Call S)) (slots : S) : Read σ S :=
  ExceptT.mk do
    let (slots', r) ← q.run (Job.ofCalls true block (.ok calls)) slots
    return r.map fun _ => slots'

/-- One aggregate whose calls may fail: the slots, and for each call whether it succeeded. -/
def flexQuery (q : Scheduler σ) (block : BlockRef) (calls : List (Call S)) (slots : S) :
    Read σ (S × List Bool) := ExceptT.mk do
  let (slots', r) ← q.run (Job.ofCalls false block (.ok calls)) slots
  return r.map fun flags => (slots', flags)

/-- Fills given items; every call must succeed. -/
def batchQuery (q : Scheduler σ) (block : BlockRef) (size : Nat) (plan : Plan ι)
    (items : List ι) : Read σ (List ι) := ExceptT.mk do
  let (items', r) ← q.fill true block size plan items
  return r.map fun _ => items'

/-- Fills given items; for each of them the flag says whether all its calls succeeded. -/
def flexBatchQuery (q : Scheduler σ) (block : BlockRef) (size : Nat) (plan : Plan ι)
    (items : List ι) : Read σ (List ι × List Bool) := ExceptT.mk do
  let (items', r) ← q.fill false block size plan items
  return r.map fun flags => (items', flags)

/-- Fills `count` items that start out as `initial`; every call must succeed. -/
def batchFetch (q : Scheduler σ) (block : BlockRef) (size : Nat) (plan : Plan ι) (initial : ι)
    (count : Nat) : Read σ (List ι) :=
  q.batchQuery block size plan (List.replicate count initial)

/-- Fills `count` items that start out as `initial`; for each of them the flag says whether all
its calls succeeded. -/
def flexBatchFetch (q : Scheduler σ) (block : BlockRef) (size : Nat) (plan : Plan ι) (initial : ι)
    (count : Nat) : Read σ (List ι × List Bool) :=
  q.flexBatchQuery block size plan (List.replicate count initial)

/-- The jobs of the batches, none of which has started. -/
def seats (strict : Bool) (block : BlockRef) (plan : Plan ι) : Nat → List (List ι) →
    List (Seat (List ι))
  | _, [] => []
  | start, c :: cs =>
    Seat.ofJob (Job.ofItems strict block plan start) c ::
      seats strict block plan (start + c.length) cs

/-- The batches as jobs that run side by side. -/
def pool (q : Scheduler σ) (strict : Bool) (block : BlockRef) (size : Nat) (plan : Plan ι)
    (items : List ι) : Pool fun _ : Unit => List ι :=
  Pool.ofSeats q.limit ((seats strict block plan 0 (chunks size items)).map (Sigma.mk ()))

end Scheduler

end StakingSnapshot
