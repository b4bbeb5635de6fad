import StakingSnapshot.Proofs.Schedule.Kept
import StakingSnapshot.Proofs.Schedule.Withheld

/-!
# What is left of the items when a batch fails

Items are filled in place, and a caller keeps them also when the read fails. What no call changes is
then as it was, at every moment, and so are the items whose turn had not come.

* `Seat.Framed`: what one sees in the slots of a job is as it was. Every move keeps it
  (`Seat.framed_move`), so it holds of every job of every pool that moves lead to (`Pool.framed`).
* `Scheduler.map_slots`: the items of a read whose batches go side by side.
* `Scheduler.drop_fill_of_firstFault`: the items behind the batch that failed, when the batches go
  one after another.
-/

namespace StakingSnapshot

variable {σ ι κ : Type}

/-! ## Side by side -/

namespace Seat

variable {S : Type} {look : S → κ} {s₀ s s' : Seat S}

/-- The job that started out as `s₀` has sent nothing that it did not register, and one sees in its
slots what was there before. -/
structure Framed (look : S → κ) (s₀ s : Seat S) : Prop extends Began s₀ s where
  look : look s.slots = look s₀.slots

theorem framed_of_waiting (h : s.phase = .waiting) : Framed look s s :=
  ⟨began_of_waiting h, rfl⟩

theorem look_started (hspares : s₀.job.Spares look s₀.slots) (h : Began s₀ s)
    (hphase : s.phase = .admitted) : look s.started.slots = look s₀.slots := by
  rw [← hspares.prepare, started, h.job, h.slots (.inr hphase)]
  rcases s₀.job.prepare s₀.slots with ⟨slots, e | prepared⟩
  · rfl
  · dsimp only
    split
    · rfl
    · rfl

/-- **One move.** -/
theorem framed_move (hspares : s₀.job.Spares look s₀.slots) (h : Framed look s₀ s) {m : Move}
    (hmove : s.move m = some s') : Framed look s₀ s' := by
  refine ⟨began_move h.toBegan hmove, ?_⟩
  rcases move_cases hmove with ⟨rfl, hphase, rfl⟩ | ⟨rfl, hphase, rfl⟩ |
    ⟨answer, prepared, rfl, hphase, rfl⟩ | ⟨result, rfl, hphase, rfl⟩ | ⟨rfl, rfl⟩
  · exact h.look
  · exact look_started hspares h.toBegan hphase
  · have hcalls := hspares.calls prepared (h.sent prepared hphase)
    exact conclude_of_keeps (P := fun x => look x = look s₀.slots)
      (fun c hc => (hcalls c hc).keeps _) s.job.strict h.look answer
  · exact h.look
  · exact h.look

end Seat

/-- **Every interleaving.** Whatever is answered and whichever jobs have failed or were given up,
one sees in the slots of each job what was there before. -/
theorem Pool.framed {J : Type} {S K : J → Type} {look : ∀ j, S j → K j} {replies : Replies}
    {p₀ p : Pool S} (hwaiting : ∀ t ∈ p₀.seats, t.2.phase = .waiting)
    (hspares : ∀ t ∈ p₀.seats, t.2.job.Spares (look t.1) t.2.slots)
    (h : Reaches replies p₀ p) :
    List.Forall₂ (SameRead fun j => Seat.Framed (look j)) p₀.seats p.seats := by
  induction h with
  | refl =>
    rw [List.forall₂_same]
    exact fun t ht => .mk (Seat.framed_of_waiting (hwaiting t ht))
  | step _ hseat _ hmove ih =>
    obtain ⟨j, s, s', free, hseat', hstep, _, rfl⟩ := move_eq_some hmove
    rw [hseat] at hseat'
    cases hseat'
    refine forall₂_set ih hseat ?_
    rintro t₀ ht₀ ⟨hframed⟩
    exact .mk (Seat.framed_move (hspares _ ht₀) hframed hstep)

namespace Scheduler

variable {q : Scheduler σ} {strict : Bool} {block : BlockRef} {size : Nat} {plan : Plan ι}
  {items : List ι} {look : ι → κ}

/-- The batches start out with all items. -/
theorem flatMap_slots_seats (start : Nat) (cs : List (List ι)) :
    (seats strict block plan start cs).flatMap Seat.slots = cs.flatten := by
  induction cs generalizing start with
  | nil => rfl
  | cons c cs ih =>
    rw [seats, List.flatMap_cons, ih, List.flatten_cons]
    rfl

theorem spares_of_mem_seats (h : plan.Spares look) {start : Nat} {cs : List (List ι)}
    {s : Seat (List ι)} (hs : s ∈ seats strict block plan start cs) :
    s.job.Spares (List.map look) s.slots := by
  induction cs generalizing start with
  | nil => cases hs
  | cons c cs ih =>
    rcases List.mem_cons.1 hs with rfl | hs
    · exact Job.spares_ofItems h
    · exact ih hs

/-- **Batches side by side**, at every moment. -/
theorem map_slots (h : plan.Spares look) (hsize : 0 < size) {replies : Replies}
    {p : Pool fun _ : Unit => List ι}
    (hp : (q.pool strict block size plan items).Reaches replies p) :
    (p.seats.flatMap fun t => t.2.slots).map look = items.map look := by
  have hframed : List.Forall₂ (SameRead fun _ => Seat.Framed (List.map look))
      (q.pool strict block size plan items).seats p.seats := by
    refine Pool.framed (fun t ht => ?_) (fun t ht => ?_) hp
    · obtain ⟨s, hs, rfl⟩ := List.mem_map.1 ht
      exact phase_of_mem_seats hs
    · obtain ⟨s, hs, rfl⟩ := List.mem_map.1 ht
      exact spares_of_mem_seats h hs
  have hslots : (p.seats.flatMap fun t => t.2.slots).map look =
      ((q.pool strict block size plan items).seats.flatMap fun t => t.2.slots).map look := by
    clear hp
    generalize (q.pool strict block size plan items).seats = seats₀ at hframed ⊢
    generalize p.seats = seats at hframed ⊢
    induction hframed with
    | nil => rfl
    | cons hseat _ ih =>
      obtain ⟨hseat⟩ := hseat
      rw [List.flatMap_cons, List.flatMap_cons, List.map_append, List.map_append, hseat.look, ih]
  have hstart : ((q.pool strict block size plan items).seats.flatMap fun t => t.2.slots) =
      items := by
    rw [pool, Pool.ofSeats, List.flatMap_map]
    exact (flatMap_slots_seats 0 _).trans (chunks_flatten hsize items)
  rw [hslots, hstart]

/-! ## One after another -/

variable {s : σ} {k : Nat}

theorem length_runBatch :
    (q.runBatch strict block size plan items k s).value.1.length =
      min size (items.length - k * size) := by
  have hspares : (Job.ofItems strict block plan (k * size)).Spares (List.map fun _ => ())
      (batchItems size items k) :=
    Job.spares_ofItems fun _ _ _ _ _ => ⟨rfl, fun _ _ _ _ _ _ _ _ => rfl⟩
  have hlength := congrArg List.length (hspares.run q.client q.hub s)
  rw [List.length_map, List.length_map, length_batchItems] at hlength
  exact hlength

/-- What becomes of the items from a batch on, if this batch succeeds. -/
theorem slots_runFrom_of_ok (hsize : 0 < size) (hk : k * size < items.length)
    {flags : List Bool}
    (h : (q.runBatch strict block size plan items k s).value.2 = .ok flags) :
    (q.runFrom strict block size plan items k s).value.1 =
      (q.runBatch strict block size plan items k s).value.1 ++
        (q.runFrom strict block size plan items (k + 1)
          (q.runBatch strict block size plan items k s).chain).value.1 := by
  have hvalue : (q.run (Job.ofItems strict block plan (k * size)) (batchItems size items k)
      s).value = ((q.runBatch strict block size plan items k s).value.1, .ok flags) :=
    Prod.ext rfl h
  rw [runFrom, chunks_drop hsize hk, runChunks_cons_of_ok hvalue, runChunks_behind hk]
  rfl

/-- The items behind a batch that fails stay as they are. -/
theorem slots_runFrom_of_error (hsize : 0 < size) (hk : k * size < items.length) {e : Fault}
    (h : (q.runBatch strict block size plan items k s).value.2 = .error e) :
    (q.runFrom strict block size plan items k s).value.1 =
      (q.runBatch strict block size plan items k s).value.1 ++ items.drop ((k + 1) * size) := by
  have hvalue : (q.run (Job.ofItems strict block plan (k * size)) (batchItems size items k)
      s).value = ((q.runBatch strict block size plan items k s).value.1, .error e) :=
    Prod.ext rfl h
  rw [runFrom, chunks_drop hsize hk, runChunks_cons_of_error hvalue, chunks_flatten hsize]

/-- If the batches before one succeed, the items from it on are what it and those behind it make of
them. -/
theorem drop_fill_after (hsize : 0 < size) (hk : k * size < items.length)
    (hok : ∀ j < k, q.Succeeds strict block size plan items s j) :
    (q.fill strict block size plan items s).value.1.drop (k * size) =
      (q.runFrom strict block size plan items k
        (q.stateBefore strict block size plan items s k)).value.1 := by
  induction k with
  | zero =>
    rw [fill, if_neg (Nat.ne_of_gt hsize), runFrom, Nat.zero_mul, List.drop_zero, List.drop_zero]
    rfl
  | succ k ih =>
    rw [Nat.succ_mul] at hk
    obtain ⟨flags, hflags⟩ := hok k (Nat.lt_succ_self k)
    have hfront := ih (by omega) fun j hj => hok j (Nat.lt_succ_of_lt hj)
    rw [slots_runFrom_of_ok hsize (by omega) hflags] at hfront
    rw [Nat.succ_mul, ← List.drop_drop, hfront, List.drop_left']
    · rfl
    · rw [length_runBatch]
      omega

/-- **One after another.** The items behind the first batch that fails stay as they are. -/
theorem drop_fill_of_firstFault (hsize : 0 < size) {e : Fault}
    (h : q.FirstFault strict block size plan items s k e) :
    (q.fill strict block size plan items s).value.1.drop ((k + 1) * size) =
      items.drop ((k + 1) * size) := by
  have hfront := drop_fill_after hsize h.exists_batch h.before
  rw [slots_runFrom_of_error hsize h.exists_batch h.fault] at hfront
  have hbatch : (q.runBatch strict block size plan items k
      (q.stateBefore strict block size plan items s k)).value.1.length =
        min size (items.length - k * size) := length_runBatch
  by_cases hfull : k * size + size ≤ items.length
  · rw [Nat.succ_mul, ← List.drop_drop, hfront, List.drop_left']
    · rw [Nat.succ_mul]
    · omega
  · -- The batch is the last one.
    have hnone : items.drop ((k + 1) * size) = [] :=
      List.drop_eq_nil_of_le (by rw [Nat.succ_mul]; omega)
    rw [hnone, List.append_nil] at hfront
    rw [hnone, Nat.succ_mul, ← List.drop_drop, hfront]
    exact List.drop_eq_nil_of_le (by omega)

/-- A read that fails has a batch that fails first. -/
theorem exists_firstFault (hsize : 0 < size) {e : Fault}
    (h : (q.fill strict block size plan items s).value.2 = .error e) :
    ∃ k cause, q.FirstFault strict block size plan items s k cause := by
  by_contra hnone
  obtain ⟨⟨flags, hok⟩, -⟩ := fill_of_no_fault hsize fun k cause hfirst => hnone ⟨k, cause, hfirst⟩
  rw [hok] at h
  cases h

end Scheduler

end StakingSnapshot
