import StakingSnapshot.Job

/-!
# The pool of permits

Jobs that run side by side share a number of permits. A job takes one, registers its calls and
sends them, lets the answer act on its slots, and hands the permit back. The jobs of a pool may
belong to several reads, each with slots of its own type.

* `Move`, `Seat.move`: what a job may do, and what becomes of it.
* `Pool.move`: a move of one job, for which there must be a permit if it takes one.
* `Pool.startAll`: every job that can start does so, in order.
* `Pool.inFlight`, `Pool.held`: the number of open aggregates and of permits in use.
-/

namespace StakingSnapshot

/-- Where a job stands. -/
inductive Phase (S : Type) where
  /-- It waits for a permit. -/
  | waiting
  /-- It holds a permit and has not registered its calls. -/
  | admitted
  /-- It holds a permit, and its aggregate is open. -/
  | inFlight (prepared : Prepared S)
  /-- It holds a permit, and its result is there. -/
  | settled (result : Except Fault (List Bool))
  /-- It is over. -/
  | finished (result : Except Fault (List Bool))
  /-- Nobody waits for it any more. -/
  | abandoned

/-- What a job may do. -/
inductive Move where
  /-- It takes a permit. -/
  | acquire
  /-- It registers its calls and sends them, if there are any. -/
  | send
  /-- The answer to its calls comes and acts on its slots. -/
  | receive (answer : Except Fault Bytes)
  /-- It hands its permit back. -/
  | release
  /-- It is given up at whatever point it is, for instance since another job failed. -/
  | abandon

/-- The free permits after a move of a job that holds a permit or does not, if they suffice. -/
def Move.permits? (m : Move) (holds : Bool) (free : Nat) : Option Nat :=
  match m with
  | .acquire => if free = 0 then none else some (free - 1)
  | .send => some free
  | .receive _ => some free
  | .release => some (free + 1)
  | .abandon => some (if holds then free + 1 else free)

/-- A job with its slots and where it stands. -/
structure Seat (S : Type) where
  job : Job S
  slots : S
  phase : Phase S

namespace Seat

variable {S : Type}

/-- A job that has not started. -/
def ofJob (job : Job S) (slots : S) : Seat S := ⟨job, slots, .waiting⟩

/-- The aggregate is open. -/
def isInFlight (s : Seat S) : Bool :=
  match s.phase with
  | .inFlight _ => true
  | _ => false

/-- The job holds a permit. -/
def holdsPermit (s : Seat S) : Bool :=
  match s.phase with
  | .admitted => true
  | .inFlight _ => true
  | .settled _ => true
  | _ => false

/-- The job is over or given up. -/
def isOver (s : Seat S) : Bool :=
  match s.phase with
  | .finished _ => true
  | .abandoned => true
  | _ => false

/-- The job after it registered its calls and sent them, if there are any. -/
def started (s : Seat S) : Seat S :=
  match s.job.prepare s.slots with
  | (slots, .error e) => ⟨s.job, slots, .settled (.error e)⟩
  | (slots, .ok prepared) =>
    if prepared.calls.isEmpty then
      ⟨s.job, slots, .settled (.ok (groupFlags prepared.groups []))⟩
    else ⟨s.job, slots, .inFlight prepared⟩

/-- The job after the answer to its calls came. -/
def answered (s : Seat S) (prepared : Prepared S) (answer : Except Fault Bytes) : Seat S :=
  let (slots, r) := conclude s.job.strict prepared.calls s.slots answer
  ⟨s.job, slots, .settled (r.map (groupFlags prepared.groups))⟩

/-- The job after a move, if it can make it. -/
def move (s : Seat S) (m : Move) : Option (Seat S) :=
  match m, s.phase with
  | .acquire, .waiting => some ⟨s.job, s.slots, .admitted⟩
  | .send, .admitted => some s.started
  | .receive answer, .inFlight prepared => some (s.answered prepared answer)
  | .release, .settled result => some ⟨s.job, s.slots, .finished result⟩
  | .abandon, _ => if s.isOver then none else some ⟨s.job, s.slots, .abandoned⟩
  | _, _ => none

end Seat

/-- Jobs and the permits that are left. Each job is tagged with the read that it belongs to. -/
structure Pool {J : Type} (S : J → Type) where
  free : Nat
  seats : List ((j : J) × Seat (S j))

namespace Pool

variable {J : Type} {S : J → Type}

/-- A pool of jobs none of which has started. -/
def ofSeats (limit : Nat) (seats : List ((j : J) × Seat (S j))) : Pool S := ⟨limit, seats⟩

/-- The number of open aggregates. -/
def inFlight (p : Pool S) : Nat := p.seats.countP fun s => s.2.isInFlight

/-- The number of permits in use. -/
def held (p : Pool S) : Nat := p.seats.countP fun s => s.2.holdsPermit

/-- The pool after a move of the job at an index, if the job can make it. -/
def move (i : Nat) (m : Move) (p : Pool S) : Option (Pool S) :=
  match p.seats[i]? with
  | some ⟨j, s⟩ =>
    match s.move m, m.permits? s.holdsPermit p.free with
    | some s', some free => some ⟨free, p.seats.set i ⟨j, s'⟩⟩
    | _, _ => none
  | none => none

/-- The job at an index takes a permit and starts. If it has nothing to send, it is over. -/
def start (i : Nat) (p : Pool S) : Option (Pool S) := do
  let admitted ← p.move i .acquire
  let started ← admitted.move i .send
  return (started.move i .release).getD started

/-- Every job that can start does so, in order. -/
def startAll (p : Pool S) : Pool S :=
  (List.range p.seats.length).foldl (fun q i => (q.start i).getD q) p

end Pool

end StakingSnapshot
