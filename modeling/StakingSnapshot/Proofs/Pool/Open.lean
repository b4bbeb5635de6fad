import Mathlib.Data.List.Forall2
import StakingSnapshot.Proofs.Pool.Outcome

/-!
# What jobs send side by side

A job sends what it registers from the slots that it started out with, whatever the other jobs of
its pool do and whatever is answered to any of them.

* `Seat.Began`: how far a job can have come. Every move keeps it (`Seat.began_move`), so it holds of
  every job of every pool that moves lead to (`Pool.began`).
* `Pool.reaches_of_alike`: answers with the same effects lead to the same pools.
-/

namespace StakingSnapshot

namespace Seat

variable {S : Type} {s₀ s s' : Seat S}

/-- The job that started out as `s₀` has sent nothing that it did not register. -/
structure Began (s₀ s : Seat S) : Prop where
  job : s.job = s₀.job
  /-- Before it registers its calls, the slots are those that it started out with. -/
  slots : s.phase = .waiting ∨ s.phase = .admitted → s.slots = s₀.slots
  /-- Its open aggregate is what it registered. -/
  sent : ∀ prepared, s.phase = .inFlight prepared →
    (s₀.job.prepare s₀.slots).2 = .ok prepared
  /-- It ends well only if it could register its calls. -/
  ended : ∀ flags, s.phase = .settled (.ok flags) ∨ s.phase = .finished (.ok flags) →
    ∃ prepared, (s₀.job.prepare s₀.slots).2 = .ok prepared

theorem began_of_waiting (h : s.phase = .waiting) : Began s s where
  job := rfl
  slots _ := rfl
  sent _ hphase := by
    rw [h] at hphase
    cases hphase
  ended _ hphase := by
    rw [h] at hphase
    rcases hphase with hphase | hphase <;> cases hphase

theorem began_started (h : Began s₀ s) (hphase : s.phase = .admitted) : Began s₀ s.started := by
  have hjob := h.job
  have hslots := h.slots (.inr hphase)
  unfold started
  rw [hjob, hslots]
  rcases hp : s₀.job.prepare s₀.slots with ⟨slots, r⟩
  have hprepare : (s₀.job.prepare s₀.slots).2 = r := by rw [hp]
  cases r with
  | error e => exact ⟨rfl, nofun, nofun, nofun⟩
  | ok prepared =>
    by_cases hcalls : prepared.calls.isEmpty = true
    · simp only [hcalls, if_true]
      exact ⟨rfl, nofun, nofun, fun _ _ => ⟨prepared, hprepare⟩⟩
    · simp only [hcalls]
      refine ⟨rfl, nofun, fun prepared' hsent => ?_, nofun⟩
      cases hsent
      exact hprepare

/-- **One move.** -/
theorem began_move (h : Began s₀ s) {m : Move} (hmove : s.move m = some s') : Began s₀ s' := by
  rcases move_cases hmove with ⟨rfl, hphase, rfl⟩ | ⟨rfl, hphase, rfl⟩ |
    ⟨answer, prepared, rfl, hphase, rfl⟩ | ⟨result, rfl, hphase, rfl⟩ | ⟨rfl, rfl⟩
  · exact ⟨h.job, fun _ => h.slots (.inl hphase), nofun, nofun⟩
  · exact began_started h hphase
  · exact ⟨h.job, nofun, nofun, fun _ _ => ⟨prepared, h.sent prepared hphase⟩⟩
  · refine ⟨h.job, nofun, nofun, fun flags hended => ?_⟩
    obtain hended | hended := hended <;> cases hended
    exact h.ended flags (.inl hphase)
  · exact ⟨h.job, nofun, nofun, nofun⟩

end Seat

namespace Pool

variable {J : Type} {S : J → Type} {replies replies' : Replies} {p₀ p : Pool S}

/-- **Every interleaving.** Whatever is answered, each job of a pool that moves lead to has sent
nothing that it did not register. -/
theorem began (hwaiting : ∀ t ∈ p₀.seats, t.2.phase = .waiting) (h : Reaches replies p₀ p) :
    List.Forall₂ (SameRead fun _ => Seat.Began) p₀.seats p.seats := by
  induction h with
  | refl =>
    rw [List.forall₂_same]
    exact fun t ht => .mk (Seat.began_of_waiting (hwaiting t ht))
  | step _ hseat _ hmove ih =>
    obtain ⟨j, s, s', free, hseat', hstep, _, rfl⟩ := move_eq_some hmove
    rw [hseat] at hseat'
    cases hseat'
    refine forall₂_set ih hseat ?_
    rintro t₀ - ⟨hbegan⟩
    exact .mk (Seat.began_move hbegan hstep)

/-- If for every answer that may come to an open aggregate another one may come that has the same
effect, the other answers lead to the same pools. -/
theorem reaches_of_alike
    (halike : ∀ p, Reaches replies p₀ p → ∀ t ∈ p.seats, ∀ prepared,
      t.2.phase = .inFlight prepared →
        ∀ answer, replies t.2.job.block (aggregateOf prepared.calls) answer →
          ∃ answer', replies' t.2.job.block (aggregateOf prepared.calls) answer' ∧
            t.2.answered prepared answer' = t.2.answered prepared answer)
    (h : Reaches replies p₀ p) : Reaches replies' p₀ p := by
  induction h with
  | refl => exact .refl
  | @step p _ i m j s hreach hseat hexpects hmove ih =>
    obtain ⟨_, _, s', free, hseat', hstep, hfree, rfl⟩ := move_eq_some hmove
    rw [hseat] at hseat'
    cases hseat'
    -- Only the move that brings an answer depends on the answers.
    rcases Seat.move_cases hstep with ⟨rfl, -, -⟩ | ⟨rfl, -, -⟩ |
      ⟨answer, prepared, rfl, hphase, rfl⟩ | ⟨_, rfl, -, -⟩ | ⟨rfl, -⟩
    case inr.inr.inl =>
      obtain ⟨answer', hreply, hsame⟩ :=
        halike p hreach _ (List.mem_of_getElem? hseat) prepared hphase answer
          (hexpects prepared hphase)
      have hother : s.move (.receive answer') = some (s.answered prepared answer) := by
        simp only [Seat.move, hphase, hsame]
      have hexpects' : s.Expects replies' (.receive answer') := by
        intro prepared' hphase'
        rw [hphase] at hphase'
        cases hphase'
        exact hreply
      exact .step ih hseat hexpects' (move_of_seat hseat hother hfree)
    all_goals
      refine .step ih hseat ?_ hmove
      trivial

end Pool

end StakingSnapshot
