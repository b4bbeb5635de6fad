import StakingSnapshot.Call

/-!
# Jobs

A job is one aggregate's worth of work: it prepares its slots and its calls, sends the calls, and
lets the answers act on the slots. Its calls come in groups, one for each item that the job is
about, and its result says for each group whether all of it succeeded.

* `Job.ofCalls`: the job of given calls, each of them a group of its own.
* `Job.ofItems`: the job of a stretch of items, each of which registers calls of its own by a
  `Plan`.
* `Job.run`: the whole job.
-/

namespace StakingSnapshot

/-- What a job sends, and how the calls are grouped. -/
structure Prepared (S : Type) where
  /-- The calls, group after group. -/
  calls : List (Call S)
  /-- The number of calls of each group. -/
  groups : List Nat

/-- For each group whether all its calls succeeded. -/
def groupFlags : List Nat → List CallResult → List Bool
  | [], _ => []
  | n :: ns, results =>
    (results.take n).all (fun r => r.success) :: groupFlags ns (results.drop n)

/-- One aggregate's worth of work on slots `S`. -/
structure Job (S : Type) where
  /-- Each call must succeed. -/
  strict : Bool
  /-- The block at which the calls are evaluated. -/
  block : BlockRef
  /-- Registers the calls. The slots may change already here. -/
  prepare : S → S × Except Fault (Prepared S)

/-- How the item at an index registers its calls: the item as it stands before the answers come,
and the calls. -/
abbrev Plan (ι : Type) : Type := Nat → ι → Except Fault (ι × List (Call ι))

namespace Plan

variable {ι : Type}

/-- Registers the calls of items that start at an index, up to the first item that fails. -/
def register (plan : Plan ι) : Nat → List ι → List ι × Except Fault (List (List (Call ι)))
  | _, [] => ([], .ok [])
  | i, item :: items =>
    match plan i item with
    | .error e => (item :: items, .error e)
    | .ok (item', calls) =>
      let (items', rest) := register plan (i + 1) items
      (item' :: items', rest.map (calls :: ·))

/-- Every item stays as it is, and its index alone says which calls fill it. -/
def byIndex (calls : Nat → List (Call ι)) : Plan ι := fun i item => .ok (item, calls i)

/-- Every item is filled by the calls for the key at its index. -/
def byKey {κ : Type} (keys : List κ) (calls : κ → List (Call ι)) : Plan ι :=
  byIndex fun i => (keys[i]?.map calls).getD []

/-- The calls of all items, each acting on its own item of the list. -/
def spread (calls : List (List (Call ι))) : List (Call (List ι)) :=
  calls.zipIdx.flatMap fun (cs, i) => cs.map (Call.onItem i)

end Plan

namespace Job

variable {σ S ι : Type}

/-- The job of calls that are registered at once. -/
def ofCalls (strict : Bool) (block : BlockRef) (calls : Except Fault (List (Call S))) : Job S :=
  ⟨strict, block, fun slots => (slots, calls.map fun cs => ⟨cs, cs.map fun _ => 1⟩)⟩

/-- The job of the items from index `start` on. -/
def ofItems (strict : Bool) (block : BlockRef) (plan : Plan ι) (start : Nat) : Job (List ι) :=
  ⟨strict, block, fun items =>
    let (items', calls) := plan.register start items
    (items', calls.map fun css => ⟨Plan.spread css, css.map List.length⟩)⟩

/-- Does the whole job: registers, sends, and lets the answers act. -/
def run (client : Client σ) (hub : Address) (job : Job S) (slots : S) :
    Session σ (S × Except Fault (List Bool)) :=
  match job.prepare slots with
  | (slots', .error e) => pure (slots', .error e)
  | (slots', .ok prepared) => do
    let (slots'', r) ← execute client hub job.strict job.block prepared.calls slots'
    return (slots'', r.map (groupFlags prepared.groups))

end Job

end StakingSnapshot
