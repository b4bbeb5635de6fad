import StakingSnapshot.Pool

/-!
# Permits are neither lost nor made

The jobs of a pool move in any order, and an adversary chooses the answers that they get.

* `Pool.Reaches`: the pools that a pool can come to, for answers of a given kind.
* `Seat.move_cases`: everything that a move does to a job; what follows about moves follows from it.
* `Pool.held_add_free`: the permits in use and the free ones always are as many as in the
  beginning. An open aggregate has a permit (`Pool.inFlight_le_held`), so the limit caps the
  aggregates that are open at once.
* `Pool.runOrder`: the jobs go on in a given order, which is one of the ways that the pool may go
  (`Pool.reaches_runOrder`).
* `Pool.exists_advance`: as long as some job is not over, some job can go on.
-/

namespace StakingSnapshot

/-- Which raw answers may come to an aggregate at a block. -/
abbrev Replies : Type := BlockRef → Aggregate → Except Fault Bytes → Prop

namespace Seat

variable {S : Type}

/-- If the move brings an answer to the job's aggregate, it is one that may come. -/
def Expects (replies : Replies) (s : Seat S) : Move → Prop
  | .receive answer =>
    ∀ prepared, s.phase = .inFlight prepared →
      replies s.job.block (aggregateOf prepared.calls) answer
  | _ => True

/-- What a move does to a job. -/
theorem move_cases {s s' : Seat S} {m : Move} (h : s.move m = some s') :
    (m = .acquire ∧ s.phase = .waiting ∧ s' = ⟨s.job, s.slots, .admitted⟩) ∨
    (m = .send ∧ s.phase = .admitted ∧ s' = s.started) ∨
    (∃ answer prepared, m = .receive answer ∧ s.phase = .inFlight prepared ∧
      s' = s.answered prepared answer) ∨
    (∃ result, m = .release ∧ s.phase = .settled result ∧
      s' = ⟨s.job, s.slots, .finished result⟩) ∨
    (m = .abandon ∧ s' = ⟨s.job, s.slots, .abandoned⟩) := by
  obtain ⟨job, slots, phase⟩ := s
  cases m with
  | acquire => cases phase <;> simp_all [move]
  | send => cases phase <;> simp_all [move]
  | receive answer => cases phase <;> simp_all [move]
  | release => cases phase <;> simp_all [move]
  | abandon =>
    refine .inr (.inr (.inr (.inr ⟨rfl, ?_⟩)))
    simp only [move] at h
    split at h
    · cases h
    · cases h
      rfl

theorem holdsPermit_started (s : Seat S) : s.started.holdsPermit = true := by
  unfold started
  split
  · rfl
  · split <;> rfl

theorem holdsPermit_answered (s : Seat S) (prepared : Prepared S)
    (answer : Except Fault Bytes) : (s.answered prepared answer).holdsPermit = true := rfl

/-- **One move.** A permit that a job takes is one less that is free, and one that it hands back is
one more. -/
theorem permits_move {s s' : Seat S} {m : Move} {free free' : Nat} (h : s.move m = some s')
    (hp : m.permits? s.holdsPermit free = some free') :
    s'.holdsPermit.toNat + free' = s.holdsPermit.toNat + free := by
  rcases move_cases h with ⟨rfl, hphase, rfl⟩ | ⟨rfl, hphase, rfl⟩ |
    ⟨answer, prepared, rfl, hphase, rfl⟩ | ⟨result, rfl, hphase, rfl⟩ | ⟨rfl, rfl⟩
  · simp only [Move.permits?] at hp
    split at hp
    · cases hp
    · cases hp
      simp only [holdsPermit, hphase, Bool.toNat_true, Bool.toNat_false]
      omega
  · cases hp
    rw [holdsPermit_started]
    simp only [holdsPermit, hphase]
  · cases hp
    rw [holdsPermit_answered]
    simp only [holdsPermit, hphase]
  · cases hp
    simp only [holdsPermit, hphase, Bool.toNat_true, Bool.toNat_false]
    omega
  · cases hp
    cases s.holdsPermit
    · rfl
    · simp only [holdsPermit, Bool.toNat_true, Bool.toNat_false, if_true]
      omega

theorem holdsPermit_of_isInFlight {s : Seat S} (h : s.isInFlight = true) :
    s.holdsPermit = true := by
  unfold isInFlight at h
  unfold holdsPermit
  split at h
  · rename_i prepared hphase
    rw [hphase]
  · cases h

theorem isOver_of_holdsPermit {s : Seat S} (h : s.holdsPermit = true) : s.isOver = false := by
  obtain ⟨job, slots, phase⟩ := s
  cases phase with
  | waiting => cases h
  | admitted => rfl
  | inFlight => rfl
  | settled => rfl
  | finished => cases h
  | abandoned => cases h

/-- What a job does next, when its aggregates are answered by a function. -/
def next (answer : BlockRef → Aggregate → Except Fault Bytes) (s : Seat S) : Move :=
  match s.phase with
  | .waiting => .acquire
  | .admitted => .send
  | .inFlight prepared => .receive (answer s.job.block (aggregateOf prepared.calls))
  | .settled _ => .release
  | _ => .abandon

variable {answer : BlockRef → Aggregate → Except Fault Bytes}

theorem expects_next {replies : Replies}
    (hanswer : ∀ block body, replies block body (answer block body)) (s : Seat S) :
    s.Expects replies (s.next answer) := by
  unfold next Expects
  split
  case h_1 hmove =>
    intro prepared hphase
    simp only [hphase, Move.receive.injEq] at hmove
    rw [← hmove]
    exact hanswer _ _
  case h_2 => trivial

theorem exists_next (answer : BlockRef → Aggregate → Except Fault Bytes) (s : Seat S)
    (h : s.isOver = false) : ∃ s', s.move (s.next answer) = some s' := by
  obtain ⟨job, slots, phase⟩ := s
  cases phase with
  | waiting => exact ⟨_, rfl⟩
  | admitted => exact ⟨_, rfl⟩
  | inFlight => exact ⟨_, rfl⟩
  | settled => exact ⟨_, rfl⟩
  | finished => cases h
  | abandoned => cases h

theorem permits_next (answer : BlockRef → Aggregate → Except Fault Bytes) (s : Seat S)
    (h : s.isOver = false) {free : Nat} (hfree : s.holdsPermit = true ∨ 0 < free) :
    ∃ free', (s.next answer).permits? s.holdsPermit free = some free' := by
  obtain ⟨job, slots, phase⟩ := s
  cases phase with
  | waiting =>
    have : free ≠ 0 := by
      rcases hfree with hholds | hpos
      · cases hholds
      · omega
    exact ⟨_, if_neg this⟩
  | admitted => exact ⟨_, rfl⟩
  | inFlight => exact ⟨_, rfl⟩
  | settled => exact ⟨_, rfl⟩
  | finished => cases h
  | abandoned => cases h

end Seat

/-- How a count changes when one entry does. -/
theorem countP_set_add {α : Type} (p : α → Bool) {l : List α} {i : Nat} (hi : i < l.length)
    (a : α) : (l.set i a).countP p + (p l[i]).toNat = l.countP p + (p a).toNat := by
  have hpos : p l[i] = true → 0 < l.countP p := fun h =>
    List.countP_pos_iff.2 ⟨_, List.getElem_mem hi, h⟩
  rw [List.countP_set hi]
  cases hl : p l[i] <;> cases ha : p a
  · rfl
  · rfl
  · have := hpos hl
    simp only [if_true, Bool.false_eq_true, if_false, Bool.toNat_true, Bool.toNat_false]
    omega
  · have := hpos hl
    simp only [if_true, Bool.toNat_true]
    omega

namespace Pool

variable {J : Type} {S : J → Type}

/-- What a move of a pool is: a move of one job for which there is a permit if it takes one. -/
theorem move_eq_some {p p' : Pool S} {i : Nat} {m : Move} (h : p.move i m = some p') :
    ∃ j s s' free, p.seats[i]? = some ⟨j, s⟩ ∧ s.move m = some s' ∧
      m.permits? s.holdsPermit p.free = some free ∧ p' = ⟨free, p.seats.set i ⟨j, s'⟩⟩ := by
  unfold move at h
  split at h
  case h_1 j s hseat =>
    split at h
    case h_1 s' free hmove hfree =>
      cases h
      exact ⟨j, s, s', free, hseat, hmove, hfree, rfl⟩
    case h_2 => cases h
  case h_2 => cases h

/-- A job that can make a move, with a permit if it takes one, moves the pool. -/
theorem move_of_seat {p : Pool S} {i : Nat} {m : Move} {j : J} {s s' : Seat (S j)} {free : Nat}
    (hseat : p.seats[i]? = some ⟨j, s⟩) (hmove : s.move m = some s')
    (hfree : m.permits? s.holdsPermit p.free = some free) :
    p.move i m = some ⟨free, p.seats.set i ⟨j, s'⟩⟩ := by
  unfold move
  rw [hseat]
  simp only [hmove, hfree]

/-- The pools that moves lead to, where the answers that come are of a given kind. -/
inductive Reaches (replies : Replies) (p₀ : Pool S) : Pool S → Prop where
  | refl : Reaches replies p₀ p₀
  | step {p p' : Pool S} {i : Nat} {m : Move} {j : J} {s : Seat (S j)} :
    Reaches replies p₀ p → p.seats[i]? = some ⟨j, s⟩ → s.Expects replies m →
    p.move i m = some p' → Reaches replies p₀ p'

theorem permits_move {p p' : Pool S} {i : Nat} {m : Move} (h : p.move i m = some p') :
    p'.held + p'.free = p.held + p.free := by
  obtain ⟨j, s, s', free, hseat, hmove, hfree, rfl⟩ := move_eq_some h
  obtain ⟨hi, hget⟩ := List.getElem?_eq_some_iff.1 hseat
  have hpermits := Seat.permits_move hmove hfree
  have hcount := countP_set_add (fun s => s.2.holdsPermit) hi ⟨j, s'⟩
  rw [hget] at hcount
  simp only [held]
  simp only [] at hcount
  omega

theorem Reaches.permits {replies : Replies} {p₀ p : Pool S} (h : Reaches replies p₀ p) :
    p.held + p.free = p₀.held + p₀.free := by
  induction h with
  | refl => rfl
  | step _ _ _ hmove ih => rw [permits_move hmove, ih]

/-- **Permits are neither lost nor made.** -/
theorem held_add_free {replies : Replies} {limit : Nat} {seats : List ((j : J) × Seat (S j))}
    {p : Pool S} (hwaiting : ∀ s ∈ seats, s.2.phase = .waiting)
    (h : Reaches replies (Pool.ofSeats limit seats) p) : p.held + p.free = limit := by
  have hnone : (Pool.ofSeats limit seats).held = 0 := by
    rw [held, List.countP_eq_zero]
    intro s hs
    have := hwaiting s hs
    simp [Seat.holdsPermit, this]
  rw [h.permits, hnone, Nat.zero_add]
  rfl

/-- An open aggregate has a permit. -/
theorem inFlight_le_held (p : Pool S) : p.inFlight ≤ p.held :=
  List.countP_mono_left fun _ _ => Seat.holdsPermit_of_isInFlight

/-- The pool after the next move of the job at an index, if it can make it. -/
def advance (answer : BlockRef → Aggregate → Except Fault Bytes) (i : Nat) (p : Pool S) :
    Option (Pool S) :=
  match p.seats[i]? with
  | some ⟨_, s⟩ => p.move i (s.next answer)
  | none => none

/-- The pool after jobs moved in the given order. A job whose turn comes while it cannot move lets
it pass. -/
def runOrder (answer : BlockRef → Aggregate → Except Fault Bytes) (order : List Nat)
    (p : Pool S) : Pool S :=
  order.foldl (fun p i => (p.advance answer i).getD p) p

theorem reaches_advance {replies : Replies}
    {answer : BlockRef → Aggregate → Except Fault Bytes}
    (hanswer : ∀ block body, replies block body (answer block body)) {p₀ p p' : Pool S} {i : Nat}
    (h : Reaches replies p₀ p) (hstep : p.advance answer i = some p') :
    Reaches replies p₀ p' := by
  unfold advance at hstep
  split at hstep
  case h_1 j s hseat => exact .step h hseat (s.expects_next hanswer) hstep
  case h_2 => cases hstep

/-- Every order of moves is one of the ways that the pool may go. -/
theorem reaches_runOrder {replies : Replies} {answer : BlockRef → Aggregate → Except Fault Bytes}
    (hanswer : ∀ block body, replies block body (answer block body)) {p₀ p : Pool S}
    (h : Reaches replies p₀ p) (order : List Nat) :
    Reaches replies p₀ (p.runOrder answer order) := by
  induction order generalizing p with
  | nil => exact h
  | cons i order ih =>
    have hstep : Reaches replies p₀ ((p.advance answer i).getD p) := by
      cases hadvance : p.advance answer i with
      | none => exact h
      | some p' => exact reaches_advance hanswer h hadvance
    exact ih hstep

/-- **Nothing gets stuck.** If there is a permit at all, some job can go on as long as one is not
over. -/
theorem exists_advance (answer : BlockRef → Aggregate → Except Fault Bytes) {p : Pool S}
    (hpermit : 0 < p.held + p.free) (hrest : ∃ t ∈ p.seats, t.2.isOver = false) :
    ∃ i p', p.advance answer i = some p' := by
  have hgo : ∀ t ∈ p.seats, t.2.isOver = false → (t.2.holdsPermit = true ∨ 0 < p.free) →
      ∃ i p', p.advance answer i = some p' := by
    rintro ⟨j, s⟩ ht hover hfree
    obtain ⟨i, hi⟩ := List.getElem?_of_mem ht
    obtain ⟨s', hmove⟩ := s.exists_next answer hover
    obtain ⟨free, hpermits⟩ := s.permits_next answer hover hfree
    refine ⟨i, ⟨free, p.seats.set i ⟨j, s'⟩⟩, ?_⟩
    unfold advance
    rw [hi]
    exact move_of_seat hi hmove hpermits
  by_cases hheld : p.held = 0
  · -- All permits are free, so the job that is not over can take one.
    obtain ⟨t, ht, hover⟩ := hrest
    exact hgo t ht hover (.inr (by omega))
  · -- A job that holds a permit can go on.
    obtain ⟨t, ht, hholds⟩ := List.countP_pos_iff.1 (Nat.pos_of_ne_zero hheld)
    exact hgo t ht (Seat.isOver_of_holdsPermit hholds) (.inl hholds)

end Pool

end StakingSnapshot
