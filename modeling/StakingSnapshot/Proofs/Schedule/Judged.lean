import StakingSnapshot.Proofs.Schedule.Withheld
import StakingSnapshot.Proofs.Session.Verdict

/-!
# How aggregates and batches end, whatever is answered

* `FirstFaulty`: the first of many items that has a fault.
* `Plan.Conforms`: a plan that registers calls as the interface demands; `Plan.FailsBy`: for which
  items it registers none.
* `Job.judged_run`: one aggregate. It ends with a verdict, and refuses what cannot be registered.
* `Scheduler.judged_fill`: batches in order, which refuse the first item that cannot be registered
  when it is the turn of its batch; `Scheduler.judged_query`, `Scheduler.judged_batchQuery` and
  their kin: the reads.
-/

namespace StakingSnapshot

variable {σ S ι : Type}

/-! ## Registration -/

/-- At an index is the first item that has a fault. -/
structure FirstFaulty (fault? : ι → Option Fault) (items : List ι) (i : Nat) (cause : Fault) :
    Prop where
  fault : ∃ x, items[i]? = some x ∧ fault? x = some cause
  before : ∀ j < i, ∀ x, items[j]? = some x → fault? x = none

theorem exists_firstFaulty {fault? : ι → Option Fault} {items : List ι} {cause : Fault}
    (h : items.findSome? fault? = some cause) : ∃ i, FirstFaulty fault? items i cause := by
  obtain ⟨front, x, back, rfl, hx, hfront⟩ := List.findSome?_eq_some_iff.1 h
  refine ⟨front.length, ⟨x, ?_, hx⟩, fun j hj y hy => hfront y ?_⟩
  · rw [List.getElem?_append_right (Nat.le_refl _), Nat.sub_self]
    rfl
  · rw [List.getElem?_append_left hj] at hy
    exact List.mem_of_getElem? hy

namespace FirstFaulty

variable {κ : Type} {fault? : κ → Option Fault} {i : Nat} {cause : Fault}

/-- What an item is refused for may be looked up in a part of it. -/
theorem map {f : ι → κ} {items : List ι} (h : FirstFaulty (fun x => fault? (f x)) items i cause) :
    FirstFaulty fault? (items.map f) i cause := by
  obtain ⟨⟨x, hx, hfault⟩, hbefore⟩ := h
  refine ⟨⟨f x, by rw [List.getElem?_map, hx]; rfl, hfault⟩, fun j hj y hy => ?_⟩
  rw [List.getElem?_map] at hy
  obtain ⟨x', hx', rfl⟩ := Option.map_eq_some_iff.1 hy
  exact hbefore j hj x' hx'

/-- The first one of some is the first one of those and of more behind them. -/
theorem of_front {front items : List κ} (h : FirstFaulty fault? front i cause)
    (hp : front <+: items) : FirstFaulty fault? items i cause := by
  obtain ⟨⟨x, hx, hfault⟩, hbefore⟩ := h
  obtain ⟨back, rfl⟩ := hp
  have hi := (List.getElem?_eq_some_iff.1 hx).1
  refine ⟨⟨x, by rw [List.getElem?_append_left hi, hx], hfault⟩, fun j hj y hy => ?_⟩
  rw [List.getElem?_append_left (Nat.lt_trans hj hi)] at hy
  exact hbefore j hj y hy

end FirstFaulty

namespace Plan

variable {plan : Plan ι} {strict : Bool} {fault? : ι → Option Fault}

/-- Every call that the plan registers conforms to the interface. -/
def Conforms (plan : Plan ι) (strict : Bool) : Prop :=
  ∀ i x x' calls, plan i x = .ok (x', calls) → ∀ c ∈ calls, c.Conforms strict

theorem conforms_byIndex {calls : Nat → List (Call ι)} (h : ∀ i, ∀ c ∈ calls i, c.Conforms strict) :
    (byIndex calls).Conforms strict := by
  intro i x x' cs hplan
  cases hplan
  exact h i

theorem conforms_byKey {κ : Type} {keys : List κ} {calls : κ → List (Call ι)}
    (h : ∀ key, ∀ c ∈ calls key, c.Conforms strict) : (byKey keys calls).Conforms strict := by
  refine conforms_byIndex fun i => ?_
  cases keys[i]? with
  | none => exact fun _ h => nomatch h
  | some key => exact h key

/-- For an item with a fault the plan registers nothing, and for one without it does not fail. -/
def FailsBy (plan : Plan ι) (fault? : ι → Option Fault) : Prop :=
  ∀ i x, failureOf (plan i x) = fault? x

/-- Registration fails for the first item with a fault. -/
theorem failureOf_register (h : plan.FailsBy fault?) (i : Nat) (xs : List ι) :
    failureOf (plan.register i xs).2 = xs.findSome? fault? := by
  induction xs generalizing i with
  | nil => rfl
  | cons x xs ih =>
    have hx := h i x
    rw [register, List.findSome?_cons, ← hx]
    cases hplan : plan i x with
    | error e => rfl
    | ok p =>
      rw [failureOf_map]
      exact ih (i + 1)

end Plan

/-! ## One aggregate -/

namespace Job

variable {client : Client σ} {hub : Address} {R : List Request → Fault → Prop}

/-- **One aggregate.** A job whose calls conform ends with the failure of its answer, or refuses what
it cannot register. -/
theorem judged_run {job : Job S} {slots : S}
    (h : ∀ prepared, (job.prepare slots).2 = .ok prepared →
      ∀ c ∈ prepared.calls, c.Conforms job.strict)
    (hR : ∀ cause, failureOf (job.prepare slots).2 = some cause → R [] cause) (s : σ) :
    (job.run client hub slots s).Judged client R s
      (failureOf (job.run client hub slots s).value.2) := by
  unfold run
  rcases hp : job.prepare slots with ⟨slots', e | prepared⟩
  · exact .of_refused rfl rfl (hR e.root (by rw [hp]; rfl)) rfl
  · have hconforms := h prepared (by rw [hp])
    simp only [execute]
    split
    case isTrue => exact .of_silent rfl rfl
    case isFalse =>
      refine ⟨rfl, .of_failure? ?_⟩
      exact (failureOf_map _ _).trans
        (failureOf_conclude hconforms hub job.block slots' _)

end Job

/-! ## Batches -/

namespace Scheduler

variable {q : Scheduler σ} {strict : Bool} {block : BlockRef} {size : Nat} {plan : Plan ι}
  {items : List ι} {fault? : ι → Option Fault} {R : List Request → Fault → Prop} {s : σ}

theorem judged_run_ofItems (h : plan.Conforms strict) (hplan : plan.FailsBy fault?) {start : Nat}
    {xs : List ι} (hR : ∀ cause, xs.findSome? fault? = some cause → R [] cause) :
    (q.run (Job.ofItems strict block plan start) xs s).Judged q.client R s
      (failureOf (q.run (Job.ofItems strict block plan start) xs s).value.2) := by
  refine Job.judged_run (fun prepared hprepared c hc => ?_) (fun cause hcause => hR cause ?_) s
  · obtain ⟨groups, hr, rfl⟩ := Job.prepare_ofItems_eq_ok_iff.1 (Prod.ext rfl hprepared)
    exact Plan.forall_spreadFrom (fun _ i hc => hc.onItem i) (Plan.forall_of_register h hr) 0 c hc
  · rw [← Plan.failureOf_register hplan start xs, ← hcause]
    exact (failureOf_map _ _).symm

/-- If a stretch of items is filled, none of them has a fault. -/
theorem faultless_of_run (hplan : plan.FailsBy fault?) {start : Nat} {xs : List ι}
    (h : failureOf (q.run (Job.ofItems strict block plan start) xs s).value.2 = none) :
    ∀ x ∈ xs, fault? x = none := by
  refine List.findSome?_eq_none_iff.1 ?_
  rw [← Plan.failureOf_register hplan start xs]
  cases hregister : (plan.register start xs).2 with
  | ok groups => rfl
  | error e =>
    have hfault : (q.run (Job.ofItems strict block plan start) xs s).value.2 = .error e :=
      Job.run_of_error (Job.prepare_of_error hregister)
    rw [hfault] at h
    cases h

theorem faultless_of_runChunks (hplan : plan.FailsBy fault?) {number start : Nat}
    {cs : List (List ι)}
    (h : failureOf (q.runChunks strict block plan number start cs s).value.2 = none) :
    ∀ c ∈ cs, ∀ x ∈ c, fault? x = none := by
  induction cs generalizing number start s with
  | nil => exact fun _ h => nomatch h
  | cons c cs ih =>
    rcases hrun : (q.run (Job.ofItems strict block plan start) c s).value with ⟨c', e | first⟩
    · rw [runChunks_cons_of_error hrun] at h
      cases h
    · rw [runChunks_cons_of_ok hrun, failureOf_map] at h
      have hfirst : failureOf (q.run (Job.ofItems strict block plan start) c s).value.2 = none := by
        rw [hrun]
        rfl
      exact List.forall_mem_cons.2 ⟨faultless_of_run hplan hfirst, ih h⟩

/-- If items are filled, none of them has a fault. -/
theorem faultless_of_batchQuery (hplan : plan.FailsBy fault?) {ys : List ι}
    (h : (q.batchQuery block size plan items s).value = .ok ys) :
    ∀ x ∈ items, fault? x = none := by
  have hfill : failureOf (q.fill true block size plan items s).value.2 = none :=
    (failureOf_map _ _).symm.trans (congrArg failureOf h)
  unfold fill at hfill
  split at hfill
  case isTrue => cases hfill
  case isFalse hsize =>
    intro x hx
    rw [← chunks_flatten (Nat.pos_of_ne_zero hsize) items] at hx
    obtain ⟨c, hc, hx⟩ := List.mem_flatten.1 hx
    exact faultless_of_runChunks hplan hfill c hc x hx

/-- What the batches before one send. -/
def requestsBefore (q : Scheduler σ) (strict : Bool) (block : BlockRef) (size : Nat) (plan : Plan ι)
    (items : List ι) (k : Nat) : List Request :=
  (List.range k).flatMap (q.batchRequests strict block size plan items)

theorem requestsBefore_succ (k : Nat) :
    q.requestsBefore strict block size plan items (k + 1) =
      q.requestsBefore strict block size plan items k ++
        q.batchRequests strict block size plan items k := by
  rw [requestsBefore, List.range_succ, List.flatMap_append, List.flatMap_singleton]
  rfl

section Faults

variable {k : Nat} (hbefore : ∀ j < k * size, ∀ x, items[j]? = some x → fault? x = none)
include hbefore

/-- The first item of a batch that has a fault is the first of all, if there is none before the
batch. -/
theorem firstFaulty_of_batch {j : Nat} {cause : Fault}
    (h : FirstFaulty fault? (batchItems size items k) j cause) :
    FirstFaulty fault? items (k * size + j) cause ∧ (k * size + j) / size = k := by
  obtain ⟨⟨x, hx, hfault⟩, hj⟩ := h
  obtain ⟨hlt, hindex⟩ := getElem?_batchItems.1 hx
  constructor
  · refine ⟨⟨x, hindex, hfault⟩, fun i hi y hy => ?_⟩
    by_cases hi' : i < k * size
    · exact hbefore i hi' y hy
    · obtain ⟨i, rfl⟩ := Nat.exists_eq_add_of_le (Nat.le_of_not_lt hi')
      exact hj i (by omega) y (getElem?_batchItems.2 ⟨by omega, hy⟩)
  · rw [Nat.add_comm, Nat.add_mul_div_right _ _ (Nat.lt_of_le_of_lt (Nat.zero_le j) hlt),
      Nat.div_eq_of_lt hlt, Nat.zero_add]

/-- One batch more without faults. -/
theorem faultless_through_batch (hbatch : ∀ x ∈ batchItems size items k, fault? x = none) :
    ∀ j < (k + 1) * size, ∀ x, items[j]? = some x → fault? x = none := by
  intro j hj x hx
  by_cases hj' : j < k * size
  · exact hbefore j hj' x hx
  · rw [Nat.succ_mul] at hj
    obtain ⟨j, rfl⟩ := Nat.exists_eq_add_of_le (Nat.le_of_not_lt hj')
    exact hbatch x (List.mem_of_getElem? (getElem?_batchItems.2 ⟨by omega, hx⟩))

end Faults

/-- The batches from one on, if no item before it has a fault. -/
theorem judged_runFrom (h : plan.Conforms strict) (hplan : plan.FailsBy fault?) (hsize : 0 < size)
    (hR : ∀ i cause, FirstFaulty fault? items i cause →
      R (q.requestsBefore strict block size plan items (i / size)) cause)
    {k : Nat} (hbefore : ∀ j < k * size, ∀ x, items[j]? = some x → fault? x = none) :
    (q.runFrom strict block size plan items k s).Judged q.client
      (fun sent => R (q.requestsBefore strict block size plan items k ++ sent)) s
      (failureOf (q.runFrom strict block size plan items k s).value.2) := by
  induction hn : items.length - k * size using Nat.strongRecOn generalizing k s with
  | _ n ih =>
  by_cases hk : k * size < items.length
  case neg =>
    rw [runFrom, List.drop_eq_nil_of_le (Nat.le_of_not_lt hk), chunks_nil]
    exact .of_silent rfl rfl
  case pos =>
  have hfirst : (q.runBatch strict block size plan items k s).Judged q.client
      (fun sent => R (q.requestsBefore strict block size plan items k ++ sent)) s
      (failureOf (q.runBatch strict block size plan items k s).value.2) := by
    refine judged_run_ofItems h hplan fun cause hcause => ?_
    obtain ⟨j, hj⟩ := exists_firstFaulty hcause
    obtain ⟨hall, hbatch⟩ := firstFaulty_of_batch hbefore hj
    have hrefused := hR _ cause hall
    rwa [hbatch, ← List.append_nil (requestsBefore ..)] at hrefused
  rcases hrun : (q.runBatch strict block size plan items k s).value with ⟨c, e | flags⟩
  · rw [hrun] at hfirst
    rw [runFrom, chunks_drop hsize hk, runChunks_cons_of_error hrun]
    exact hfirst.congr rfl rfl rfl
  · have hok : failureOf (q.runBatch strict block size plan items k s).value.2 = none := by
      rw [hrun]
      rfl
    have hnext := faultless_through_batch hbefore (faultless_of_run hplan hok)
    rw [hrun] at hfirst
    rw [runFrom, chunks_drop hsize hk, runChunks_cons_of_ok hrun, runChunks_behind hk, failureOf_map]
    refine hfirst.append ((ih _ ?_ hnext rfl).mono fun sent cause hsent => ?_) rfl rfl
    · rw [Nat.succ_mul]
      omega
    · rwa [sent_runBatch, ← List.append_assoc, ← requestsBefore_succ]

/-- **Items in batches.** They end with the first failure among their answers, or refuse the first
item with a fault, once the batches before its own are answered. -/
theorem judged_fill (h : plan.Conforms strict) (hplan : plan.FailsBy fault?) (hsize : 0 < size)
    (hR : ∀ i cause, FirstFaulty fault? items i cause →
      R (q.requestsBefore strict block size plan items (i / size)) cause) :
    (q.fill strict block size plan items s).Judged q.client R s
      (failureOf (q.fill strict block size plan items s).value.2) := by
  have hfill : q.fill strict block size plan items = q.runFrom strict block size plan items 0 := by
    rw [fill, if_neg (Nat.ne_of_gt hsize), runFrom, Nat.zero_mul, List.drop_zero]
  rw [hfill]
  refine judged_runFrom (R := R) (k := 0) h hplan hsize hR fun j hj => ?_
  rw [Nat.zero_mul] at hj
  exact absurd hj (Nat.not_lt_zero j)

section Reads

variable {R : Refusal σ}

theorem judged_batchQuery (h : plan.Conforms true) (hplan : plan.FailsBy fault?) (hsize : 0 < size)
    (hR : ∀ i cause, FirstFaulty fault? items i cause →
      R s (q.requestsBefore true block size plan items (i / size)) cause) :
    (q.batchQuery block size plan items).Judged q.client R s :=
  (judged_fill h hplan hsize hR).congr rfl (List.append_nil _) (failureOf_map _ _)

/-- Items without faults. -/
theorem judged_batchQuery_of_faultless (h : plan.Conforms true) (hplan : plan.FailsBy fault?)
    (hsize : 0 < size) (hitems : ∀ x ∈ items, fault? x = none) :
    (q.batchQuery block size plan items).Judged q.client R s := by
  refine judged_batchQuery h hplan hsize fun i cause hfirst => ?_
  obtain ⟨x, hx, hfault⟩ := hfirst.fault
  rw [hitems x (List.mem_of_getElem? hx)] at hfault
  cases hfault

theorem judged_flexBatchQuery (h : plan.Conforms false) (hplan : plan.FailsBy fun _ => none)
    (hsize : 0 < size) : (q.flexBatchQuery block size plan items).Judged q.client R s := by
  refine (judged_fill h hplan hsize fun i cause hfirst => ?_).congr rfl (List.append_nil _)
    (failureOf_map _ _)
  obtain ⟨_, _, hfault⟩ := hfirst.fault
  cases hfault

variable {calls : List (Call S)} {slots : S}

theorem judged_run_ofCalls (h : ∀ c ∈ calls, c.Conforms strict) :
    (q.run (Job.ofCalls strict block (.ok calls)) slots s).Judged q.client (R s) s
      (failureOf (q.run (Job.ofCalls strict block (.ok calls)) slots s).value.2) := by
  refine Job.judged_run (fun prepared hprepared => ?_) (fun cause hcause => ?_) s
  · cases hprepared
    exact h
  · cases hcause

theorem judged_query (h : ∀ c ∈ calls, c.Conforms true) :
    (q.query block calls slots).Judged q.client R s :=
  (judged_run_ofCalls h).congr rfl (List.append_nil _) (failureOf_map _ _)

theorem judged_flexQuery (h : ∀ c ∈ calls, c.Conforms false) :
    (q.flexQuery block calls slots).Judged q.client R s :=
  (judged_run_ofCalls h).congr rfl (List.append_nil _) (failureOf_map _ _)

end Reads

end Scheduler

end StakingSnapshot
