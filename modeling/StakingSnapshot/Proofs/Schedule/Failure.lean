import Mathlib.Control.Monad.Basic
import StakingSnapshot.Proofs.Schedule.Batches

/-!
# How a read in batches fails

The client answers here as it likes, and the batches run in order. The first batch that fails ends
the read, and its fault is what the caller sees, with the number and the range of the batch.

* `Job.requests`: what a job sends, whatever is answered.
* `Scheduler.runBatch`: one batch alone.
* `Scheduler.FirstFault`: a batch fails and none before it does.
* `Scheduler.fill_after`: a read that is past some batches which succeeded.
* `Scheduler.batches_report_first_fault`: the four kinds of reads in batches report the first fault
  and send nothing behind it.
-/

namespace StakingSnapshot

variable {σ ι : Type}

/-- The items of one batch. -/
def batchItems (size : Nat) (items : List ι) (k : Nat) : List ι :=
  (items.drop (k * size)).take size

/-- The client's answers do not depend on its state. -/
def Client.Stateless (client : Client σ) : Prop :=
  ∀ target data block s s', (client.call target data block s).1 =
    (client.call target data block s').1

namespace Job

variable {S : Type}

/-- What a job sends: one aggregate, or nothing if it cannot register its calls or has none. -/
def requests (hub : Address) (job : Job S) (slots : S) : List Request :=
  match (job.prepare slots).2 with
  | .error _ => []
  | .ok prepared =>
    if prepared.calls.isEmpty then [] else [.aggregate hub (aggregateOf prepared.calls) job.block]

/-- Whatever is answered, a job sends what it registered. -/
theorem sent_run (client : Client σ) (hub : Address) (job : Job S) (slots : S) (s : σ) :
    (job.run client hub slots s).sent = job.requests hub slots := by
  unfold run requests
  rcases job.prepare slots with ⟨slots', r⟩
  cases r with
  | error e => rfl
  | ok prepared =>
    simp only [Session.bind_apply, Session.pure_apply, List.append_nil, execute]
    split
    · rfl
    · rfl

theorem value_run_of_stateless {client : Client σ} (h : client.Stateless) (hub : Address)
    (job : Job S) (slots : S) (s s' : σ) :
    (job.run client hub slots s).value = (job.run client hub slots s').value := by
  unfold run
  rcases job.prepare slots with ⟨slots', r⟩
  cases r with
  | error e => rfl
  | ok prepared =>
    simp only [Session.bind_apply, Session.pure_apply, execute]
    split
    · rfl
    · simp only [Session.bind_apply, Session.pure_apply, Session.ask, h hub _ job.block s s']

end Job

namespace Scheduler

section Defs

variable (q : Scheduler σ) (strict : Bool) (block : BlockRef) (size : Nat) (plan : Plan ι)
  (items : List ι)

/-- One batch alone. -/
def runBatch (k : Nat) : Session σ (List ι × Except Fault (List Bool)) :=
  q.run (Job.ofItems strict block plan (k * size)) (batchItems size items k)

/-- The state of the client when it is the batch's turn. -/
def stateBefore (s : σ) : Nat → σ
  | 0 => s
  | k + 1 => (q.runBatch strict block size plan items k (stateBefore s k)).chain

/-- What a batch sends. -/
def batchRequests (k : Nat) : List Request :=
  (Job.ofItems strict block plan (k * size)).requests q.hub (batchItems size items k)

/-- The batch succeeds when it is its turn. -/
def Succeeds (s : σ) (k : Nat) : Prop :=
  ∃ flags, (q.runBatch strict block size plan items k
    (q.stateBefore strict block size plan items s k)).value.2 = .ok flags

/-- A batch fails, and none before it does. -/
structure FirstFault (s : σ) (k : Nat) (e : Fault) : Prop where
  exists_batch : k * size < items.length
  before : ∀ j < k, q.Succeeds strict block size plan items s j
  fault : (q.runBatch strict block size plan items k
    (q.stateBefore strict block size plan items s k)).value.2 = .error e

end Defs

variable {q : Scheduler σ} {strict : Bool} {block : BlockRef} {size : Nat} {plan : Plan ι}
  {items : List ι}

/-! ## One batch -/

theorem sent_runBatch (k : Nat) (s : σ) :
    (q.runBatch strict block size plan items k s).sent =
      q.batchRequests strict block size plan items k :=
  Job.sent_run _ _ _ _ s

theorem length_batchItems (k : Nat) :
    (batchItems size items k).length = min size (items.length - k * size) := by
  rw [batchItems, List.length_take, List.length_drop]

/-- The batches from one on are this one and those behind it. -/
theorem chunks_drop (hsize : 0 < size) {k : Nat} (hk : k * size < items.length) :
    chunks size (items.drop (k * size)) =
      batchItems size items k :: chunks size (items.drop ((k + 1) * size)) := by
  have hne : items.drop (k * size) ≠ [] := by
    intro h
    have := List.drop_eq_nil_iff.1 h
    omega
  rw [chunks_of_pos hsize hne, List.drop_drop, Nat.succ_mul]
  rfl

/-- The batches from one on. -/
def runFrom (q : Scheduler σ) (strict : Bool) (block : BlockRef) (size : Nat) (plan : Plan ι)
    (items : List ι) (k : Nat) : Session σ (List ι × Except Fault (List Bool)) :=
  q.runChunks strict block plan k (k * size) (chunks size (items.drop (k * size)))

/-- Behind a batch are the batches from the next one on. -/
theorem runChunks_behind {k : Nat} (hk : k * size < items.length) :
    q.runChunks strict block plan (k + 1) (k * size + (batchItems size items k).length)
        (chunks size (items.drop ((k + 1) * size))) =
      q.runFrom strict block size plan items (k + 1) := by
  by_cases hfull : (k + 1) * size ≤ items.length
  · rw [Nat.succ_mul] at hfull
    have hnext : k * size + (batchItems size items k).length = (k + 1) * size := by
      rw [length_batchItems, Nat.succ_mul]
      omega
    rw [hnext]
    rfl
  · -- The batch is the last one, so it does not matter where the next one would start.
    unfold runFrom
    rw [List.drop_eq_nil_of_le (by omega), chunks_nil]
    rfl

/-- If the batch succeeds, those behind it run. -/
theorem runFrom_of_ok (hsize : 0 < size) {k : Nat} (hk : k * size < items.length) {s : σ}
    {flags : List Bool}
    (h : (q.runBatch strict block size plan items k s).value.2 = .ok flags) :
    let rest := q.runFrom strict block size plan items (k + 1)
      (q.runBatch strict block size plan items k s).chain
    (q.runFrom strict block size plan items k s).value.2 = rest.value.2.map (flags ++ ·) ∧
      (q.runFrom strict block size plan items k s).sent =
        q.batchRequests strict block size plan items k ++ rest.sent := by
  have hvalue : (q.run (Job.ofItems strict block plan (k * size)) (batchItems size items k)
      s).value = ((q.runBatch strict block size plan items k s).value.1, .ok flags) :=
    Prod.ext rfl h
  rw [← sent_runBatch k s]
  simp only [runFrom]
  rw [chunks_drop hsize hk, runChunks_cons_of_ok hvalue, runChunks_behind hk]
  exact ⟨rfl, rfl⟩

/-- If the batch fails, those behind it do not run. -/
theorem runFrom_of_error (hsize : 0 < size) {k : Nat} (hk : k * size < items.length) {s : σ}
    {e : Fault} (h : (q.runBatch strict block size plan items k s).value.2 = .error e) :
    (q.runFrom strict block size plan items k s).value.2 =
        .error (.context (batchContext k (k * size) (min (k * size + size) items.length)) e) ∧
      (q.runFrom strict block size plan items k s).sent =
        q.batchRequests strict block size plan items k := by
  have hend : k * size + (batchItems size items k).length =
      min (k * size + size) items.length := by
    rw [length_batchItems]
    omega
  have hvalue : (q.run (Job.ofItems strict block plan (k * size)) (batchItems size items k)
      s).value = ((q.runBatch strict block size plan items k s).value.1, .error e) :=
    Prod.ext rfl h
  rw [runFrom, chunks_drop hsize hk, runChunks_cons_of_error hvalue, hend, ← sent_runBatch k s]
  exact ⟨rfl, rfl⟩

/-! ## Batch after batch -/

/-- If the batches before one succeed, the read goes on with this one. What was sent so far are the
requests of the batches before. -/
theorem fill_after (hsize : 0 < size) {s : σ} {k : Nat} (hk : k * size < items.length)
    (hok : ∀ j < k, q.Succeeds strict block size plan items s j) :
    let rest := q.runFrom strict block size plan items k
      (q.stateBefore strict block size plan items s k)
    ∃ flags, (q.fill strict block size plan items s).value.2 = rest.value.2.map (flags ++ ·) ∧
      (q.fill strict block size plan items s).sent =
        (List.range k).flatMap (q.batchRequests strict block size plan items) ++ rest.sent := by
  induction k with
  | zero =>
    have hmap : ∀ r : Except Fault (List Bool), r.map ([] ++ ·) = r := by
      intro r
      cases r with
      | error e => rfl
      | ok flags => rfl
    have hstart : q.fill strict block size plan items =
        q.runFrom strict block size plan items 0 := by
      rw [fill, if_neg (Nat.ne_of_gt hsize), runFrom, Nat.zero_mul, List.drop_zero]
    refine ⟨[], ?_, ?_⟩
    · rw [hstart, hmap]
      rfl
    · rw [hstart]
      rfl
  | succ k ih =>
    have hk' : k * size < items.length := by
      rw [Nat.succ_mul] at hk
      omega
    obtain ⟨flags, hvalue, hsent⟩ := ih hk' fun j hj => hok j (Nat.lt_succ_of_lt hj)
    obtain ⟨flags', hflags⟩ := hok k (Nat.lt_succ_self k)
    obtain ⟨hvalue', hsent'⟩ := runFrom_of_ok hsize hk' hflags
    have hmap : ∀ r : Except Fault (List Bool),
        (r.map (flags' ++ ·)).map (flags ++ ·) = r.map (flags ++ flags' ++ ·) := by
      intro r
      cases r with
      | error e => rfl
      | ok rest => simp only [Except.map, List.append_assoc]
    refine ⟨flags ++ flags', ?_, ?_⟩
    · rw [hvalue, hvalue', hmap]
      rfl
    · rw [hsent, hsent', List.range_succ, List.flatMap_append, List.flatMap_singleton,
        List.append_assoc]
      rfl

/-- If no batch is the first one to fail, each succeeds. -/
theorem succeeds_of_no_fault {s : σ}
    (h : ∀ k e, ¬ q.FirstFault strict block size plan items s k e) {k : Nat}
    (hk : k * size < items.length) : q.Succeeds strict block size plan items s k := by
  induction k using Nat.strongRecOn with
  | _ k ih =>
    cases hr : (q.runBatch strict block size plan items k
      (q.stateBefore strict block size plan items s k)).value.2 with
    | ok flags => exact ⟨flags, hr⟩
    | error e =>
      refine absurd ⟨hk, fun j hj => ih j hj ?_, hr⟩ (h k e)
      exact Nat.lt_of_le_of_lt (Nat.mul_le_mul_right size (Nat.le_of_lt hj)) hk

theorem fill_of_firstFault (hsize : 0 < size) {s : σ} {k : Nat} {e : Fault}
    (h : q.FirstFault strict block size plan items s k e) :
    (q.fill strict block size plan items s).value.2 =
        .error (.context (batchContext k (k * size) (min (k * size + size) items.length)) e) ∧
      (q.fill strict block size plan items s).sent =
        (List.range (k + 1)).flatMap (q.batchRequests strict block size plan items) := by
  obtain ⟨flags, hvalue, hsent⟩ := fill_after hsize h.exists_batch h.before
  obtain ⟨hvalue', hsent'⟩ := runFrom_of_error hsize h.exists_batch h.fault
  rw [hvalue', Except.map] at hvalue
  rw [hsent'] at hsent
  refine ⟨hvalue, ?_⟩
  rw [hsent, List.range_succ, List.flatMap_append, List.flatMap_singleton]

/-- If no batch is the first one to fail, the read ends well and sends the requests of all
batches. -/
theorem fill_of_no_fault (hsize : 0 < size) {s : σ}
    (h : ∀ k e, ¬ q.FirstFault strict block size plan items s k e) :
    (∃ flags, (q.fill strict block size plan items s).value.2 = .ok flags) ∧
      (q.fill strict block size plan items s).sent =
        (List.range ((items.length + size - 1) / size)).flatMap
          (q.batchRequests strict block size plan items) := by
  by_cases hnil : items = []
  · have hcount : (([] : List ι).length + size - 1) / size = 0 :=
      Nat.div_eq_of_lt (by rw [List.length_nil]; omega)
    rw [hnil, hcount, fill, if_neg (Nat.ne_of_gt hsize), chunks_nil]
    exact ⟨⟨[], rfl⟩, rfl⟩
  · -- The last batch is the one that the last item is in.
    have hpos := List.length_pos_iff.2 hnil
    have hle := Nat.div_mul_le_self (items.length - 1) size
    have hlt := Nat.lt_div_mul_add (a := items.length - 1) hsize
    have hk : (items.length - 1) / size * size < items.length := by omega
    obtain ⟨flags, hvalue, hsent⟩ := fill_after hsize hk fun j hj =>
      succeeds_of_no_fault h
        (Nat.lt_of_le_of_lt (Nat.mul_le_mul_right size (Nat.le_of_lt hj)) hk)
    obtain ⟨flags', hlast⟩ := succeeds_of_no_fault h hk
    obtain ⟨hvalue', hsent'⟩ := runFrom_of_ok hsize hk hlast
    have hend : items.drop (((items.length - 1) / size + 1) * size) = [] := by
      rw [Nat.succ_mul]
      exact List.drop_eq_nil_of_le (by omega)
    have hcount : (items.length + size - 1) / size = (items.length - 1) / size + 1 := by
      rw [← Nat.add_div_right _ hsize]
      congr 1
      omega
    rw [hvalue, hvalue', hsent, hsent', runFrom, hend, chunks_nil, hcount, List.range_succ,
      List.flatMap_append, List.flatMap_singleton]
    exact ⟨⟨_, rfl⟩, congrArg _ (List.append_nil _)⟩

/-! ## The reads -/

/-- A read in batches reports the first fault, as the fault of its batch, and sends nothing behind
it. Without a fault it ends well. -/
structure ReportsFirstFault {β : Type} (q : Scheduler σ) (strict : Bool) (block : BlockRef)
    (size : Nat) (plan : Plan ι) (items : List ι) (read : Read σ β) : Prop where
  value : ∀ {s k e}, q.FirstFault strict block size plan items s k e →
    (read s).value =
      .error (.context (batchContext k (k * size) (min (k * size + size) items.length)) e)
  sent : ∀ {s k e}, q.FirstFault strict block size plan items s k e →
    (read s).sent = (List.range (k + 1)).flatMap (q.batchRequests strict block size plan items)
  ok : ∀ {s}, (∀ k e, ¬ q.FirstFault strict block size plan items s k e) →
    ∃ out, (read s).value = .ok out

/-- What a read makes of the slots and the flags does not matter for its faults. -/
theorem reportsFirstFault_of_fill {β : Type} (hsize : 0 < size) (f : List ι → List Bool → β)
    {read : Read σ β}
    (hvalue : ∀ s, (read s).value = (q.fill strict block size plan items s).value.2.map
      (f (q.fill strict block size plan items s).value.1))
    (hsent : ∀ s, (read s).sent = (q.fill strict block size plan items s).sent) :
    q.ReportsFirstFault strict block size plan items read where
  value h := by
    rw [hvalue, (fill_of_firstFault hsize h).1]
    rfl
  sent h := by rw [hsent, (fill_of_firstFault hsize h).2]
  ok h := by
    obtain ⟨⟨flags, hflags⟩, -⟩ := fill_of_no_fault hsize h
    rw [hvalue, hflags]
    exact ⟨_, rfl⟩

theorem batchQuery_reportsFirstFault (hsize : 0 < size) :
    q.ReportsFirstFault true block size plan items (q.batchQuery block size plan items) :=
  reportsFirstFault_of_fill hsize (fun slots _ => slots) (fun _ => rfl)
    fun _ => List.append_nil _

theorem flexBatchQuery_reportsFirstFault (hsize : 0 < size) :
    q.ReportsFirstFault false block size plan items (q.flexBatchQuery block size plan items) :=
  reportsFirstFault_of_fill hsize (fun slots flags => (slots, flags)) (fun _ => rfl)
    fun _ => List.append_nil _

/-- The fault of a strict batch some of whose calls reverted: which they are among the calls of the
batch, and how many calls it has. -/
theorem fault_of_reverted {k : Nat} {s : σ} {x : List ι} {prepared : Prepared (List ι)}
    (hprepare : (Job.ofItems true block plan (k * size)).prepare (batchItems size items k) =
      (x, .ok prepared))
    {results : List CallResult}
    (hresults : resultsOf prepared.calls.length false
      (q.client.call q.hub (aggregateOf prepared.calls).encode block s).1 = .ok results)
    (hfailed : ∃ r ∈ results, r.success = false) :
    (q.runBatch true block size plan items k s).value.2 =
      .error (.callsFailed (failedIndices results) prepared.calls.length) := by
  have hcalls : prepared.calls.isEmpty = false := by
    obtain ⟨_, -, -, hlength, -⟩ := resultsOf_eq_ok_iff.1 hresults
    obtain ⟨r, hr, -⟩ := hfailed
    have hpos := List.length_pos_of_mem hr
    rw [hlength] at hpos
    exact List.isEmpty_eq_false_iff.2 (List.length_pos_iff.1 hpos)
  have hconclude : ∀ slots, conclude true prepared.calls slots
      (q.client.call q.hub (aggregateOf prepared.calls).encode block s).1 =
        (slots, .error (.callsFailed (failedIndices results) prepared.calls.length)) := by
    intro slots
    unfold conclude
    rw [resultsOf_strict hresults hfailed]
  unfold runBatch run Job.run
  rw [hprepare]
  simp only [Session.bind_apply, Session.pure_apply, execute, hcalls, Bool.false_eq_true, if_false,
    Session.ask]
  exact congrArg (fun p => p.2.map (groupFlags prepared.groups)) (hconclude x)

/-- **Failure of a read in batches.** Whatever the client answers, the four kinds of reads report
the first batch that fails and its fault, and send nothing behind it. If the client's answers do not
depend on its state, the fault is the one that the batch has at any time. If calls of a strict batch
reverted, the fault says which calls of the batch they are. -/
theorem batches_report_first_fault (q : Scheduler σ) (block : BlockRef) {size : Nat}
    (hsize : 1 ≤ size) (plan : Plan ι) :
    (∀ items,
      q.ReportsFirstFault true block size plan items (q.batchQuery block size plan items)) ∧
    (∀ items,
      q.ReportsFirstFault false block size plan items (q.flexBatchQuery block size plan items)) ∧
    (∀ initial count, q.ReportsFirstFault true block size plan (List.replicate count initial)
      (q.batchFetch block size plan initial count)) ∧
    (∀ initial count, q.ReportsFirstFault false block size plan (List.replicate count initial)
      (q.flexBatchFetch block size plan initial count)) ∧
    (∀ strict items s k e, q.FirstFault strict block size plan items s k e →
      q.client.Stateless →
        ∀ s', (q.runBatch strict block size plan items k s').value.2 = .error e) ∧
    ∀ items s k e, q.FirstFault true block size plan items s k e →
      ∀ x prepared results,
        (Job.ofItems true block plan (k * size)).prepare (batchItems size items k) =
          (x, .ok prepared) →
        resultsOf prepared.calls.length false
          (q.client.call q.hub (aggregateOf prepared.calls).encode block
            (q.stateBefore true block size plan items s k)).1 = .ok results →
        (∃ r ∈ results, r.success = false) →
          e = .callsFailed (failedIndices results) prepared.calls.length ∧
            ∀ i, i ∈ failedIndices results ↔ ∃ r, results[i]? = some r ∧ r.success = false := by
  refine ⟨?_, ?_, ?_, ?_, ?_, ?_⟩
  · exact fun _ => batchQuery_reportsFirstFault hsize
  · exact fun _ => flexBatchQuery_reportsFirstFault hsize
  · exact fun _ _ => batchQuery_reportsFirstFault hsize
  · exact fun _ _ => flexBatchQuery_reportsFirstFault hsize
  · intro strict items s k e h hstateless s'
    rw [← h.fault]
    exact congrArg Prod.snd (Job.value_run_of_stateless hstateless _ _ _ _ _)
  · intro items s k e h x prepared results hprepare hresults hfailed
    have hfault := fault_of_reverted hprepare hresults hfailed
    rw [h.fault] at hfault
    exact ⟨Except.error.inj hfault, fun i => mem_failedIndices⟩

/-- The item at index three sends nothing, which reverts. -/
def gap : Plan Bytes := Plan.byIndex fun i =>
  [Call.keep ⟨1⟩ (if i = 3 then [] else [UInt8.ofNat i])]

/-- Five items in batches of two: the second batch fails, and the third one is not asked for. -/
theorem batchFetch_gap :
    let o := (ofChain .echo ⟨0⟩ 1).batchFetch .latest 2 gap [] 5 ()
    o.value = .error (.context "batch 1 [2, 4)" (.callsFailed [1] 2)) ∧
      o.sent = [.aggregate ⟨0⟩ ⟨false, [⟨⟨1⟩, [0]⟩, ⟨⟨1⟩, [1]⟩]⟩ .latest,
        .aggregate ⟨0⟩ ⟨false, [⟨⟨1⟩, [2]⟩, ⟨⟨1⟩, []⟩]⟩ .latest] := by
  have hfirst : (ofChain .echo ⟨0⟩ 1).FirstFault true .latest 2 gap (List.replicate 5 []) () 1
      (.callsFailed [1] 2) := by
    refine ⟨by decide, fun j hj => ?_, by decide +kernel⟩
    obtain rfl := Nat.lt_one_iff.1 hj
    exact ⟨[true, true], by decide +kernel⟩
  obtain ⟨-, -, hfetch, -⟩ :=
    batches_report_first_fault (ofChain .echo ⟨0⟩ 1) .latest (show 1 ≤ 2 by decide) gap
  refine ⟨?_, ?_⟩
  · rw [(hfetch [] 5).value hfirst]
    decide +kernel
  · rw [(hfetch [] 5).sent hfirst]
    decide +kernel

end Scheduler

end StakingSnapshot
