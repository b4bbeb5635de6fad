import StakingSnapshot.Proofs.Schedule.Withheld
import StakingSnapshot.Proofs.Session.Same

/-!
# Reads of two chains that agree on what is asked

If two chains answer the registered calls alike, a read of the one cannot be told from the same read
of the other: not by what it comes to, faults included, nor by what it sends. The clients may word
their answers differently.

* `Job.outcome_congr`, `Job.same_run`: one job.
* `Scheduler.same_fill`: batches in order; `Scheduler.same_batchQuery`, `Scheduler.same_query` and
  their kin: the reads.
* `Scheduler.reaches_of_same`: batches side by side.
-/

namespace StakingSnapshot

variable {σ τ S ι : Type}

/-- Calls that fit into a machine fit into it with equal answers. -/
theorem Sized.congr {answer answer' : SubCall → CallResult} {calls : List SubCall}
    (h : Sized answer calls) (hsame : ∀ c ∈ calls, answer' c = answer c) : Sized answer' calls where
  count := h.count
  data := h.data
  answers c hc := by
    rw [hsame c hc]
    exact h.answers c hc

namespace Job

/-- The outcome of a job depends on the answers to its own calls only. -/
theorem outcome_congr {answer answer' : SubCall → CallResult} {job : Job S} {slots : S}
    (hsame : ∀ slots' prepared, job.prepare slots = (slots', .ok prepared) →
      ∀ c ∈ prepared.calls, answer' c.sub = answer c.sub) :
    job.outcome answer' slots = job.outcome answer slots := by
  unfold outcome
  rcases hp : job.prepare slots with ⟨slots', r⟩
  cases r with
  | error e => rfl
  | ok prepared =>
    have hanswers : answersTo answer' prepared.calls = answersTo answer prepared.calls :=
      List.map_congr_left fun c hc => hsame slots' prepared hp c hc
    simp only [hanswers]

/-- A job logs nothing. -/
theorem log_run (client : Client σ) (hub : Address) (job : Job S) (slots : S) (s : σ) :
    (job.run client hub slots s).log = [] := by
  unfold run
  rcases job.prepare slots with ⟨slots', r⟩
  cases r with
  | error e => rfl
  | ok prepared =>
    simp only [Session.bind_apply, Session.pure_apply, List.append_nil, execute]
    split
    · rfl
    · rfl

end Job

namespace Scheduler

variable {q : Scheduler σ} {q' : Scheduler τ} {chain chain' : Chain} {strict : Bool}
  {block : BlockRef} {size : Nat} {plan : Plan ι} {s : σ} {s' : τ}

/-- Two schedulers send through the same hub to clients of two chains. -/
structure Twins (q : Scheduler σ) (q' : Scheduler τ) (chain chain' : Chain) : Prop where
  answers : q.client.AnswersFor q.hub chain
  answers' : q'.client.AnswersFor q'.hub chain'
  hub : q'.hub = q.hub
  limit : q'.limit = q.limit

/-- **One job.** If the chains agree on its calls, its two runs are the same. -/
theorem same_run (hq : q.Twins q' chain chain') {job : Job S} {slots : S}
    (hfits : job.Fits chain slots)
    (hsame : ∀ slots' prepared, job.prepare slots = (slots', .ok prepared) →
      ∀ c ∈ prepared.calls, chain' job.block c.sub = chain job.block c.sub) :
    (q.run job slots s).Same (q'.run job slots s') := by
  have hfits' : job.Fits chain' slots := fun slots' prepared hprepare =>
    (hfits slots' prepared hprepare).congr fun _ hc => by
      obtain ⟨c, hmem, rfl⟩ := List.mem_map.1 hc
      exact hsame slots' prepared hprepare c hmem
  refine ⟨?_, ?_, (Job.log_run _ _ _ _ _).trans (Job.log_run _ _ _ _ _).symm⟩
  · exact ((Job.run_value hq.answers' hfits' s').trans (Job.outcome_congr hsame)).trans
      (Job.run_value hq.answers hfits s).symm
  · rw [run, run, Job.sent_run, Job.sent_run, hq.hub]

/-- Batches in order. -/
theorem same_runChunks (hq : q.Twins q' chain chain') {number start : Nat} {cs : List (List ι)}
    (hsized : Sized (chain block) ((plan.registered start cs.flatten).map Call.sub))
    (hsame : ∀ c ∈ (plan.registered start cs.flatten).map Call.sub,
      chain' block c = chain block c) :
    (q.runChunks strict block plan number start cs s).Same
      (q'.runChunks strict block plan number start cs s') := by
  induction cs generalizing number start s s' with
  | nil => exact Session.same_pure _ s s'
  | cons c cs ih =>
    rw [List.flatten_cons, Plan.registered_append, List.map_append] at hsized hsame
    obtain ⟨hfirst, hrest⟩ := List.forall_mem_append.1 hsame
    rw [runChunks, runChunks]
    refine Session.same_bind (same_run hq ?_ ?_) fun t t' => ?_
    · exact Job.fits_ofItems (hsized.of_sublist (List.sublist_append_left _ _))
    · exact fun _ _ hprepare call hcall => hfirst _ (Job.sub_mem_registered hprepare hcall)
    · rcases (q.run (Job.ofItems strict block plan start) c s).value with ⟨c', e | flags⟩
      · exact Session.same_pure _ t t'
      · refine Session.same_bind (ih ?_ hrest) fun t t' => Session.same_pure _ t t'
        exact hsized.of_sublist (List.sublist_append_right _ _)

/-- **Items in batches.** If the chains agree on what the items register, filling them from the one
is the same as filling them from the other. -/
theorem same_fill (hq : q.Twins q' chain chain') {xs : List ι}
    (hsized : Sized (chain block) ((plan.registered 0 xs).map Call.sub))
    (hsame : ∀ c ∈ (plan.registered 0 xs).map Call.sub, chain' block c = chain block c) :
    (q.fill strict block size plan xs s).Same (q'.fill strict block size plan xs s') := by
  unfold fill
  split
  case isTrue => exact Session.same_pure _ s s'
  case isFalse hsize =>
    rw [← chunks_flatten (Nat.pos_of_ne_zero hsize) xs] at hsized hsame
    exact same_runChunks hq hsized hsame

theorem same_batchQuery (hq : q.Twins q' chain chain') {xs : List ι}
    (hsized : Sized (chain block) ((plan.registered 0 xs).map Call.sub))
    (hsame : ∀ c ∈ (plan.registered 0 xs).map Call.sub, chain' block c = chain block c) :
    (q.batchQuery block size plan xs s).Same (q'.batchQuery block size plan xs s') :=
  Session.same_bind (same_fill hq hsized hsame) fun _ _ => ⟨rfl, rfl, rfl⟩

theorem same_flexBatchQuery (hq : q.Twins q' chain chain') {xs : List ι}
    (hsized : Sized (chain block) ((plan.registered 0 xs).map Call.sub))
    (hsame : ∀ c ∈ (plan.registered 0 xs).map Call.sub, chain' block c = chain block c) :
    (q.flexBatchQuery block size plan xs s).Same (q'.flexBatchQuery block size plan xs s') :=
  Session.same_bind (same_fill hq hsized hsame) fun _ _ => ⟨rfl, rfl, rfl⟩

/-- **Side by side.** If the chains agree on what the items register, the batches of the one read
can go every way that those of the other can. -/
theorem reaches_of_same (hq : q.Twins q' chain chain') (s' : τ) (hsize : 0 < size) {xs : List ι}
    (hsized : Sized (chain block) ((plan.registered 0 xs).map Call.sub))
    (hsame : ∀ c ∈ (plan.registered 0 xs).map Call.sub, chain' block c = chain block c)
    {p : Pool fun _ : Unit => List ι}
    (h : (q.pool strict block size plan xs).Reaches (q.client.Gives q.hub) p) :
    (q'.pool strict block size plan xs).Reaches (q'.client.Gives q'.hub) p := by
  have hpool : q'.pool strict block size plan xs = q.pool strict block size plan xs := by
    rw [pool, pool, hq.limit]
  rw [hpool, hq.hub]
  refine Pool.reaches_of_alike (fun p hp t ht prepared hopen answer hgives => ?_) h
  obtain ⟨k, hk⟩ := List.mem_iff_getElem?.1 ht
  have hbegan := began_of_reaches hsize hp hk
  have hcalls : Sized (chain block) (prepared.calls.map Call.sub) :=
    Job.fits_ofItems (hsized.of_sublist ((registered_batchItems_sublist k).map Call.sub)) _ _
      (Prod.ext rfl (hbegan.sent prepared hopen))
  have hagree : ∀ c ∈ prepared.calls.map Call.sub, chain' block c = chain block c := by
    rw [List.forall_mem_map]
    exact fun c hc => hsame _ (registered_of_open hsize hp hk hopen hc)
  have hblock : t.2.job.block = block := by rw [hbegan.job]; rfl
  rw [hblock] at hgives ⊢
  obtain ⟨state, hanswer⟩ := hgives
  obtain ⟨data, hcall, hdata⟩ := hq.answers block _ state hcalls
  obtain ⟨data', hcall', hdata'⟩ := hq.answers' block _ s' (hcalls.congr hagree)
  rw [hq.hub] at hcall'
  have hanswers : (prepared.calls.map Call.sub).map (chain' block) =
      (prepared.calls.map Call.sub).map (chain block) := List.map_congr_left hagree
  have hlen : ((prepared.calls.map Call.sub).map (chain block)).length = prepared.calls.length := by
    rw [List.length_map, List.length_map]
  obtain rfl : answer = .ok data := hanswer.symm.trans hcall
  refine ⟨.ok data', ⟨s', hcall'⟩, ?_⟩
  rw [hanswers] at hdata'
  simp only [Seat.answered, conclude_of_decode? hdata hlen, conclude_of_decode? hdata' hlen]

section Single

variable {calls : List (Call S)} {slots : S}

theorem same_ofCalls (hq : q.Twins q' chain chain')
    (hsized : Sized (chain block) (calls.map Call.sub))
    (hsame : ∀ c ∈ calls.map Call.sub, chain' block c = chain block c) :
    (q.run (Job.ofCalls strict block (.ok calls)) slots s).Same
      (q'.run (Job.ofCalls strict block (.ok calls)) slots s') := by
  refine same_run hq (Job.fits_ofCalls hsized) fun slots' prepared hprepare c hc => ?_
  cases hprepare
  exact hsame _ (List.mem_map_of_mem hc)

theorem same_query (hq : q.Twins q' chain chain')
    (hsized : Sized (chain block) (calls.map Call.sub))
    (hsame : ∀ c ∈ calls.map Call.sub, chain' block c = chain block c) :
    (q.query block calls slots s).Same (q'.query block calls slots s') :=
  Session.same_bind (same_ofCalls hq hsized hsame) fun _ _ => ⟨rfl, rfl, rfl⟩

theorem same_flexQuery (hq : q.Twins q' chain chain')
    (hsized : Sized (chain block) (calls.map Call.sub))
    (hsame : ∀ c ∈ calls.map Call.sub, chain' block c = chain block c) :
    (q.flexQuery block calls slots s).Same (q'.flexQuery block calls slots s') :=
  Session.same_bind (same_ofCalls hq hsized hsame) fun _ _ => ⟨rfl, rfl, rfl⟩

end Single

end Scheduler

end StakingSnapshot
