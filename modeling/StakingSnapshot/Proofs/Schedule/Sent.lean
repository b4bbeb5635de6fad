import StakingSnapshot.Proofs.Schedule.Failure
import StakingSnapshot.Proofs.Schedule.Items
import StakingSnapshot.Proofs.Session.Reads

/-!
# Nothing is sent that was not registered

Whatever the client answers, and also when a read fails, each call that it sent is one that was
registered for it.

* `Scheduler.registered_of_asked_runChunks`: batch by batch.
* `Scheduler.registered_of_asked_batchQuery`, `Scheduler.registered_of_asked_flexBatchQuery`: reads
  of many items.
* `Scheduler.registered_of_asked_query`, `Scheduler.registered_of_asked_flexQuery`: single
  aggregates.
-/

namespace StakingSnapshot

variable {σ S ι : Type}

namespace Job

/-- A job sends calls that it prepared. -/
theorem prepared_of_asked {client : Client σ} {hub : Address} {job : Job S} {slots : S} {s : σ}
    {c : SubCall} (h : (job.run client hub slots s).Asked c) :
    ∃ prepared, (job.prepare slots).2 = .ok prepared ∧ c ∈ prepared.calls.map Call.sub := by
  obtain ⟨request, hrequest, hc⟩ := h
  rw [sent_run, requests] at hrequest
  split at hrequest
  case h_1 => cases hrequest
  case h_2 prepared hprepared =>
    split at hrequest
    · cases hrequest
    · obtain rfl := List.mem_singleton.1 hrequest
      exact ⟨prepared, hprepared, hc⟩

/-- What the job of a stretch of items prepares is registered by the items. -/
theorem sub_mem_registered {strict : Bool} {block : BlockRef} {plan : Plan ι} {start : Nat}
    {items items' : List ι} {prepared : Prepared (List ι)}
    (h : (ofItems strict block plan start).prepare items = (items', .ok prepared))
    {c : Call (List ι)} (hc : c ∈ prepared.calls) :
    c.sub ∈ (plan.registered start items).map Call.sub := by
  obtain ⟨groups, hr, rfl⟩ := prepare_ofItems_eq_ok_iff.1 h
  rw [(Plan.flatten_of_register hr).2, ← Plan.map_sub_spreadFrom 0 groups]
  exact List.mem_map_of_mem hc

/-- The job of a stretch of items sends calls that these registered. -/
theorem registered_of_asked {client : Client σ} {hub : Address} {strict : Bool} {block : BlockRef}
    {plan : Plan ι} {start : Nat} {items : List ι} {s : σ} {c : SubCall}
    (h : ((Job.ofItems strict block plan start).run client hub items s).Asked c) :
    c ∈ (plan.registered start items).map Call.sub := by
  obtain ⟨prepared, hprepared, hc⟩ := prepared_of_asked h
  obtain ⟨call, hcall, rfl⟩ := List.mem_map.1 hc
  exact sub_mem_registered (Prod.ext rfl hprepared) hcall

end Job

namespace Scheduler

variable {q : Scheduler σ} {strict : Bool} {block : BlockRef} {size : Nat} {plan : Plan ι}
  {items : List ι} {s : σ} {c : SubCall}

/-- Batches send calls that their items registered. -/
theorem registered_of_asked_runChunks {number start : Nat} {cs : List (List ι)}
    (h : (q.runChunks strict block plan number start cs s).Asked c) :
    c ∈ (plan.registered start cs.flatten).map Call.sub := by
  induction cs generalizing number start s with
  | nil =>
    obtain ⟨_, hnil, -⟩ := h
    cases hnil
  | cons items cs ih =>
    rw [List.flatten_cons, Plan.registered_append, List.map_append, List.mem_append]
    have hfirst : (q.run (Job.ofItems strict block plan start) items s).Asked c →
        c ∈ (plan.registered start items).map Call.sub := Job.registered_of_asked
    rcases hrun : (q.run (Job.ofItems strict block plan start) items s).value with ⟨items', r⟩
    cases r with
    | error e =>
      rw [runChunks_cons_of_error hrun] at h
      exact .inl (hfirst h)
    | ok flags =>
      rw [runChunks_cons_of_ok hrun] at h
      obtain ⟨request, hrequest, hc⟩ := h
      rcases List.mem_append.1 hrequest with hrequest | hrequest
      · exact .inl (hfirst ⟨request, hrequest, hc⟩)
      · exact .inr (ih ⟨request, hrequest, hc⟩)

theorem registered_of_asked_fill (h : (q.fill strict block size plan items s).Asked c) :
    c ∈ (plan.registered 0 items).map Call.sub := by
  unfold fill at h
  split at h
  case isTrue =>
    obtain ⟨_, hnil, -⟩ := h
    cases hnil
  case isFalse hsize =>
    have hc := registered_of_asked_runChunks h
    rwa [chunks_flatten (Nat.pos_of_ne_zero hsize)] at hc

/-- A strict read of many items sends calls that these registered. -/
theorem registered_of_asked_batchQuery (h : (q.batchQuery block size plan items s).Asked c) :
    c ∈ (plan.registered 0 items).map Call.sub := by
  have hsent : (q.batchQuery block size plan items s).sent =
    (q.fill true block size plan items s).sent := List.append_nil _
  rw [Outcome.Asked, hsent] at h
  exact registered_of_asked_fill h

/-- A flexible read of many items sends calls that these registered. -/
theorem registered_of_asked_flexBatchQuery
    (h : (q.flexBatchQuery block size plan items s).Asked c) :
    c ∈ (plan.registered 0 items).map Call.sub := by
  have hsent : (q.flexBatchQuery block size plan items s).sent =
    (q.fill false block size plan items s).sent := List.append_nil _
  rw [Outcome.Asked, hsent] at h
  exact registered_of_asked_fill h

section Single

variable {calls : List (Call S)} {slots : S}

theorem registered_of_asked_ofCalls
    (h : (q.run (Job.ofCalls strict block (.ok calls)) slots s).Asked c) :
    c ∈ calls.map Call.sub := by
  obtain ⟨prepared, hprepared, hc⟩ := Job.prepared_of_asked h
  cases hprepared
  exact hc

/-- A single strict aggregate is made of the given calls. -/
theorem registered_of_asked_query (h : (q.query block calls slots s).Asked c) :
    c ∈ calls.map Call.sub := by
  have hsent : (q.query block calls slots s).sent =
    (q.run (Job.ofCalls true block (.ok calls)) slots s).sent := List.append_nil _
  rw [Outcome.Asked, hsent] at h
  exact registered_of_asked_ofCalls h

/-- A single flexible aggregate is made of the given calls. -/
theorem registered_of_asked_flexQuery (h : (q.flexQuery block calls slots s).Asked c) :
    c ∈ calls.map Call.sub := by
  have hsent : (q.flexQuery block calls slots s).sent =
    (q.run (Job.ofCalls false block (.ok calls)) slots s).sent := List.append_nil _
  rw [Outcome.Asked, hsent] at h
  exact registered_of_asked_ofCalls h

end Single

end Scheduler

end StakingSnapshot
