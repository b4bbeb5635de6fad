import StakingSnapshot.Proofs.Call.Slots
import StakingSnapshot.Proofs.Schedule.Visits

/-!
# What batches leave alone

If no call of an item changes what one sees in a part of it, one sees there after the batches what
was there before, whatever is answered and however the batches end.

* `Plan.Spares`: a plan whose calls leave a part of an item alone; `Plan.map_register`.
* `Job.Spares`: a job that leaves a part of its slots alone; `Job.Spares.run`.
* `Scheduler.map_fill`: batches in order; `Scheduler.map_batchQuery`: a read that ends well.
-/

namespace StakingSnapshot

variable {σ ι κ : Type} {look : ι → κ}

/-- A call that spares a part of an item spares these parts of a list. -/
theorem Call.Spares.onItem {c : Call ι} (h : c.Spares look) (i : Nat) :
    (c.onItem i).Spares (List.map look) := by
  intro d hd data f hf xs
  obtain ⟨d, hd', rfl⟩ := Option.map_eq_some_iff.1 hd
  cases hdata : d data with
  | error e => simp only [hdata, Except.map, reduceCtorEq] at hf
  | ok g =>
    simp only [hdata, Except.map, Except.ok.injEq] at hf
    subst hf
    have hmodify := map_modify look g id (h d hd' data g hdata) i xs
    rwa [List.modify_id] at hmodify

namespace Plan

variable {plan : Plan ι}

/-- Neither the registration nor a registered call changes what one sees in an item. -/
def Spares (plan : Plan ι) (look : ι → κ) : Prop :=
  ∀ i x x' calls, plan i x = .ok (x', calls) → look x' = look x ∧ ∀ c ∈ calls, c.Spares look

/-- Registration, also up to an item that fails. -/
theorem map_register (h : plan.Spares look) (i : Nat) (xs : List ι) :
    (plan.register i xs).1.map look = xs.map look := by
  induction xs generalizing i with
  | nil => rfl
  | cons x xs ih =>
    rw [register]
    cases hx : plan i x with
    | error e => rfl
    | ok p =>
      obtain ⟨x', calls⟩ := p
      rw [List.map_cons, List.map_cons, (h i x x' calls hx).1]
      exact congrArg (List.cons _) (ih (i + 1))

end Plan

/-- From these slots, neither the registration nor a registered call of the job changes what one
sees in them. -/
structure Job.Spares {S : Type} (look : S → κ) (job : Job S) (slots : S) : Prop where
  prepare : look (job.prepare slots).1 = look slots
  calls : ∀ prepared, (job.prepare slots).2 = .ok prepared →
    ∀ c ∈ prepared.calls, c.Spares look

namespace Job

variable {S : Type} {look' : S → κ}

/-- The job of a stretch of items. -/
theorem spares_ofItems {plan : Plan ι} (h : plan.Spares look) {strict : Bool} {block : BlockRef}
    {start : Nat} {xs : List ι} :
    Job.Spares (List.map look) (Job.ofItems strict block plan start) xs where
  prepare := plan.map_register h start xs
  calls prepared hprepared := by
    obtain ⟨groups, hr, rfl⟩ := prepare_ofItems_eq_ok_iff.1 (Prod.ext rfl hprepared)
    exact Plan.forall_spreadFrom (fun _ i hc => hc.onItem i)
      (Plan.forall_of_register (fun i x x' calls hx => (h i x x' calls hx).2) hr) 0

/-- A whole job, however it ends. -/
theorem Spares.run {job : Job S} {slots : S} (h : job.Spares look' slots) (client : Client σ)
    (hub : Address) (s : σ) : look' (job.run client hub slots s).value.1 = look' slots := by
  obtain ⟨hprepare, hcalls⟩ := h
  unfold Job.run
  rcases hp : job.prepare slots with ⟨slots', e | prepared⟩
  · rwa [hp] at hprepare
  · rw [hp] at hprepare hcalls
    exact execute_of_keeps (P := fun ys => look' ys = look' slots)
      (fun c hc => (hcalls prepared rfl c hc).keeps _) client hub job.strict job.block hprepare s

end Job

namespace Scheduler

variable {q : Scheduler σ} {strict : Bool} {block : BlockRef} {size : Nat} {plan : Plan ι}
  {items : List ι} {s : σ}

theorem map_runChunks (h : plan.Spares look) {number start : Nat} {cs : List (List ι)} :
    (q.runChunks strict block plan number start cs s).value.1.map look = cs.flatten.map look := by
  induction cs generalizing number start s with
  | nil => rfl
  | cons c cs ih =>
    have hfirst : (q.run (Job.ofItems strict block plan start) c s).value.1.map look = c.map look :=
      (Job.spares_ofItems h).run q.client q.hub s
    rcases hrun : (q.run (Job.ofItems strict block plan start) c s).value with ⟨c', e | flags⟩
    · rw [hrun] at hfirst
      rw [runChunks_cons_of_error hrun, List.flatten_cons, List.map_append, List.map_append, hfirst]
    · rw [hrun] at hfirst
      rw [runChunks_cons_of_ok hrun, List.flatten_cons, List.map_append, List.map_append, hfirst,
        ih]

/-- **Batches in order**, however they end. -/
theorem map_fill (h : plan.Spares look) :
    (q.fill strict block size plan items s).value.1.map look = items.map look := by
  unfold fill
  split
  case isTrue => rfl
  case isFalse hsize =>
    rw [map_runChunks h, chunks_flatten (Nat.pos_of_ne_zero hsize)]

/-- A strict read that ends well. -/
theorem map_batchQuery (h : plan.Spares look) {ys : List ι}
    (hys : (q.batchQuery block size plan items s).value = .ok ys) :
    ys.map look = items.map look := by
  obtain ⟨flags, hfill⟩ : ∃ flags, (q.fill true block size plan items s).value = (ys, .ok flags) :=
    map_slots_eq_ok_iff.1 hys
  have hlook : (q.fill true block size plan items s).value.1.map look = items.map look := map_fill h
  rwa [hfill] at hlook

end Scheduler

end StakingSnapshot
