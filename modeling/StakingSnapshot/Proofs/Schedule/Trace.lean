import StakingSnapshot.Proofs.Schedule.Visits
import StakingSnapshot.Proofs.Schedule.Withheld

/-!
# What a read in batches sends

A read all of whose batches succeed sends one aggregate for each batch that has calls, in order, and
each aggregate has the calls of the items of its batch, in order. The client answers as it likes.

* `Plan.callsAt`, `Plan.callsOf`: the calls of one item and of one batch.
* `Plan.flatMap_callsOf`: the calls of all batches are those of all items.
* `Scheduler.aggregates`: what the batches send; `Scheduler.Traced`: what such a read sends and whom
  it visits.
* `Scheduler.batches_traced`: the four kinds of reads in batches do so.
-/

namespace StakingSnapshot

variable {σ ι : Type}

/-- The calls that are part of the request. -/
def Request.calls : Request → List SubCall
  | head => []
  | aggregate _ body _ => body.calls

namespace Plan

/-- The calls that the item at an index registers. -/
def callsAt (plan : Plan ι) (items : List ι) (i : Nat) : List SubCall :=
  match items[i]? with
  | none => []
  | some x =>
    match plan i x with
    | .ok (_, calls) => calls.map Call.sub
    | .error _ => []

/-- The calls of a batch: those of the items at its indices, in order. -/
def callsOf (plan : Plan ι) (size : Nat) (items : List ι) (k : Nat) : List SubCall :=
  (List.range' (k * size) (min ((k + 1) * size) items.length - k * size)).flatMap
    (plan.callsAt items)

variable {plan : Plan ι} {size : Nat} {items : List ι}

/-- What a stretch of the items registers. -/
theorem map_sub_registered (front xs back : List ι) :
    (plan.registered front.length xs).map Call.sub =
      (List.range' front.length xs.length).flatMap (plan.callsAt (front ++ xs ++ back)) := by
  induction xs generalizing front with
  | nil => rfl
  | cons x xs ih =>
    have hnext := ih (front ++ [x])
    rw [List.length_append, List.length_singleton, List.append_assoc front] at hnext
    have hget : (front ++ x :: xs ++ back)[front.length]? = some x := by simp
    have hcalls : plan.callsAt (front ++ x :: xs ++ back) front.length =
        match plan front.length x with
        | .ok (_, calls) => calls.map Call.sub
        | .error _ => [] := by
      rw [callsAt, hget]
    rw [List.length_cons, List.range'_succ, List.flatMap_cons, hcalls, registered]
    cases plan front.length x with
    | error e => exact hnext
    | ok p =>
      rw [List.map_append]
      exact congrArg _ hnext

/-- The items of a batch register its calls. -/
theorem map_sub_registered_batchItems {k : Nat} (hk : k * size ≤ items.length) :
    (plan.registered (k * size) (batchItems size items k)).map Call.sub =
      plan.callsOf size items k := by
  have hstart : (items.take (k * size)).length = k * size := List.length_take_of_le hk
  have hsplit : items.take (k * size) ++ batchItems size items k ++
      (items.drop (k * size)).drop size = items := by
    rw [List.append_assoc, batchItems, List.take_append_drop, List.take_append_drop]
  have hcalls := plan.map_sub_registered (items.take (k * size)) (batchItems size items k)
    ((items.drop (k * size)).drop size)
  rw [hstart, hsplit, Scheduler.length_batchItems] at hcalls
  rw [hcalls, callsOf, Nat.succ_mul]
  congr 2
  omega

/-- The indices of batches, one after another. -/
theorem flatMap_range' (size n K : Nat) :
    ((List.range K).flatMap fun k =>
        List.range' (k * size) (min ((k + 1) * size) n - k * size)) =
      List.range (min (K * size) n) := by
  induction K with
  | zero => simp
  | succ K ih =>
    rw [List.range_succ, List.flatMap_append, List.flatMap_singleton, ih, Nat.succ_mul,
      List.range_eq_range', List.range_eq_range']
    by_cases hfull : K * size ≤ n
    · rw [Nat.min_eq_left hfull]
      have happend : ∀ m, List.range' 0 (K * size) ++ List.range' (0 + 1 * (K * size)) m =
          List.range' 0 (K * size + m) := fun _ => List.range'_append
      rw [Nat.zero_add, Nat.one_mul] at happend
      rw [happend]
      congr 1
      omega
    · have hnone : min (K * size + size) n - K * size = 0 := by omega
      rw [hnone, List.range'_zero, List.append_nil]
      congr 1
      omega

/-- **No call is lost, doubled or moved.** The calls of all batches, one after another, are those of
all items, one after another. -/
theorem flatMap_callsOf (plan : Plan ι) (hsize : 0 < size) (items : List ι) :
    (List.range ((items.length + size - 1) / size)).flatMap (plan.callsOf size items) =
      (List.range items.length).flatMap (plan.callsAt items) := by
  have hcount : items.length ≤ (items.length + size - 1) / size * size := by
    have := Nat.lt_div_mul_add (a := items.length + size - 1) hsize
    omega
  have hrange := flatMap_range' size items.length ((items.length + size - 1) / size)
  rw [Nat.min_eq_right hcount] at hrange
  rw [← hrange, List.flatMap_assoc]
  rfl

/-- The calls of all items, if each item alone says which they are. -/
theorem flatMap_callsAt {f : ι → List SubCall}
    (h : ∀ i x, items[i]? = some x → plan.callsAt items i = f x) :
    (List.range items.length).flatMap (plan.callsAt items) = items.flatMap f := by
  have hmap : (List.range items.length).map (plan.callsAt items) = items.map f := by
    refine List.ext_getElem (by simp) fun i _ hi => ?_
    rw [List.length_map] at hi
    rw [List.getElem_map, List.getElem_range, List.getElem_map]
    exact h i _ (List.getElem?_eq_getElem hi)
  rw [List.flatMap_def, hmap, List.flatMap_def]

/-- A batch has calls if its first item does. -/
theorem callsOf_ne_nil {k : Nat} (hsize : 0 < size) (hk : k * size < items.length)
    (h : plan.callsAt items (k * size) ≠ []) : plan.callsOf size items k ≠ [] := by
  intro hnil
  refine h (List.flatMap_eq_nil_iff.1 hnil _ (List.mem_range'_1.2 ⟨Nat.le_refl _, ?_⟩))
  rw [Nat.succ_mul]
  omega

end Plan

namespace Scheduler

/-- What a batch with these calls sends: one aggregate, or nothing if there are none. -/
def aggregateFor (q : Scheduler σ) (block : BlockRef) (calls : List SubCall) : List Request :=
  if calls.isEmpty then [] else [.aggregate q.hub ⟨false, calls⟩ block]

/-- What the batches send, in order. -/
def aggregates (q : Scheduler σ) (block : BlockRef) (size : Nat) (plan : Plan ι)
    (items : List ι) : List Request :=
  (List.range ((items.length + size - 1) / size)).flatMap fun k =>
    q.aggregateFor block (plan.callsOf size items k)

/-- What a read in batches does, of which `recording` is the same with items that have not been
visited. -/
structure Traced {β γ : Type} (q : Scheduler σ) (strict : Bool) (block : BlockRef) (size : Nat)
    (plan : Plan ι) (items : List ι) (s : σ) (read : Read σ β) (recording : Read σ γ)
    (once : β → γ) : Prop where
  /-- The read ends well exactly if every batch succeeds. -/
  ok_iff : (∃ out, (read s).value = .ok out) ↔
    ∀ k, k * size < items.length → q.Succeeds strict block size plan items s k
  /-- Then every item was able to register its calls. -/
  registers : ∀ out, (read s).value = .ok out → plan.Registers 0 items
  /-- Each item was visited once, with its own index, and nothing else is different where visits are
  put on record. -/
  visits : ∀ out, (read s).value = .ok out →
    recording s = ⟨.ok (once out), (read s).chain, (read s).sent, (read s).log⟩
  /-- The aggregates are those of the batches that have calls, in order. -/
  sent : ∀ out, (read s).value = .ok out → (read s).sent = q.aggregates block size plan items
  /-- Their calls are those of the items, in order. -/
  calls : ∀ out, (read s).value = .ok out →
    (read s).sent.flatMap Request.calls = (List.range items.length).flatMap (plan.callsAt items)

variable {q : Scheduler σ} {strict : Bool} {block : BlockRef} {size : Nat} {plan : Plan ι}
  {items : List ι}

/-- A batch that succeeds has registered its calls. -/
theorem prepared_of_succeeds {k : Nat} {s : σ} (h : q.Succeeds strict block size plan items s k) :
    ∃ prepared, ((Job.ofItems strict block plan (k * size)).prepare
      (batchItems size items k)).2 = .ok prepared := by
  obtain ⟨flags, hflags⟩ := h
  cases hp : ((Job.ofItems strict block plan (k * size)).prepare (batchItems size items k)).2 with
  | ok prepared => exact ⟨prepared, rfl⟩
  | error e =>
    rw [runBatch, run, Job.run_of_error hp] at hflags
    cases hflags

/-- What a batch sends that has registered its calls. -/
theorem batchRequests_of_prepared {k : Nat} (hk : k * size ≤ items.length)
    {prepared : Prepared (List ι)}
    (h : ((Job.ofItems strict block plan (k * size)).prepare (batchItems size items k)).2 =
      .ok prepared) :
    q.batchRequests strict block size plan items k =
      q.aggregateFor block (plan.callsOf size items k) := by
  obtain ⟨groups, hr, rfl⟩ := Job.prepare_ofItems_eq_ok_iff.1 (Prod.ext rfl h)
  have hcalls : (Plan.spread groups).map Call.sub = plan.callsOf size items k := by
    rw [← Plan.map_sub_registered_batchItems hk, (Plan.flatten_of_register hr).2]
    exact Plan.map_sub_spreadFrom 0 groups
  rw [batchRequests, Job.requests, h]
  simp only [aggregateFor, aggregateOf, ← hcalls, List.isEmpty_map]
  rfl

/-- If every batch succeeds, every item registers its calls. -/
theorem registers_of_succeeds (hsize : 0 < size) {s : σ}
    (h : ∀ k, k * size < items.length → q.Succeeds strict block size plan items s k) :
    plan.Registers 0 items := by
  intro i x hx
  -- The item is in the batch with the number `i / size`.
  have hindex : i / size * size + i % size = i := Nat.div_add_mod' i size
  have hi := (List.getElem?_eq_some_iff.1 hx).1
  obtain ⟨prepared, hprepared⟩ := prepared_of_succeeds (h (i / size) (by omega))
  rw [← hindex] at hx
  have hregisters := Job.registers_of_prepared hprepared (i % size) x
    (getElem?_batchItems.2 ⟨Nat.mod_lt i hsize, hx⟩)
  rwa [hindex, ← Nat.zero_add i] at hregisters

/-- If every batch succeeds, the requests are the aggregates of the batches that have calls. -/
theorem flatMap_batchRequests (hsize : 0 < size) {s : σ}
    (h : ∀ k, k * size < items.length → q.Succeeds strict block size plan items s k) :
    (List.range ((items.length + size - 1) / size)).flatMap
        (q.batchRequests strict block size plan items) =
      q.aggregates block size plan items := by
  refine List.flatMap_congr fun k hk => ?_
  have hmul := (Nat.le_div_iff_mul_le hsize).1 (List.mem_range.1 hk)
  rw [Nat.succ_mul] at hmul
  have hlt : k * size < items.length := by omega
  obtain ⟨prepared, hprepared⟩ := prepared_of_succeeds (h k hlt)
  exact batchRequests_of_prepared (Nat.le_of_lt hlt) hprepared

/-- The aggregates have the calls of all items, in order. -/
theorem flatMap_calls_aggregates (q : Scheduler σ) (block : BlockRef) (hsize : 0 < size)
    (plan : Plan ι) (items : List ι) :
    (q.aggregates block size plan items).flatMap Request.calls =
      (List.range items.length).flatMap (plan.callsAt items) := by
  rw [aggregates, List.flatMap_assoc, ← plan.flatMap_callsOf hsize]
  refine List.flatMap_congr fun k _ => ?_
  unfold aggregateFor
  split
  case isTrue hnil => rw [List.isEmpty_iff.1 hnil]; rfl
  case isFalse => exact List.append_nil _

/-- Where every item registers a call, every batch sends an aggregate. -/
theorem aggregates_eq_map (hsize : 0 < size)
    (h : ∀ i < items.length, plan.callsAt items i ≠ []) :
    q.aggregates block size plan items =
      (List.range ((items.length + size - 1) / size)).map fun k =>
        .aggregate q.hub ⟨false, plan.callsOf size items k⟩ block := by
  rw [aggregates, List.map_eq_flatMap]
  refine List.flatMap_congr fun k hk => ?_
  have hmul := (Nat.le_div_iff_mul_le hsize).1 (List.mem_range.1 hk)
  rw [Nat.succ_mul] at hmul
  have hlt : k * size < items.length := by omega
  exact if_neg (mt List.isEmpty_iff.1 (Plan.callsOf_ne_nil hsize hlt (h _ hlt)))

/-! ## Reads that end well -/

/-- A read that ends well has no first fault. -/
theorem not_firstFault_of_fill (hsize : 0 < size) {s : σ} {flags : List Bool}
    (h : (q.fill strict block size plan items s).value.2 = .ok flags) (k : Nat) (e : Fault) :
    ¬ q.FirstFault strict block size plan items s k e := by
  intro hfault
  rw [(fill_of_firstFault hsize hfault).1] at h
  cases h

/-- A read ends well exactly if every batch succeeds. -/
theorem exists_ok_fill_iff (hsize : 0 < size) {s : σ} :
    (∃ flags, (q.fill strict block size plan items s).value.2 = .ok flags) ↔
      ∀ k, k * size < items.length → q.Succeeds strict block size plan items s k := by
  constructor
  · rintro ⟨flags, h⟩ k hk
    exact succeeds_of_no_fault (not_firstFault_of_fill hsize h) hk
  · refine fun h => (fill_of_no_fault hsize fun k e hfault => ?_).1
    obtain ⟨flags, hflags⟩ := h k hfault.exists_batch
    rw [hfault.fault] at hflags
    cases hflags

/-- The read that hands out something made of the slots and the flags. -/
def reading {β : Type} (f : List ι → List Bool → β)
    (m : Session σ (List ι × Except Fault (List Bool))) : Read σ β :=
  ExceptT.mk ((fun p => p.2.map (f p.1)) <$> m)

section Reading

variable {β γ : Type} {f : List ι → List Bool → β} {g : List (Recorded ι) → List Bool → γ}

theorem reading_apply (m : Session σ (List ι × Except Fault (List Bool))) (s : σ) :
    reading f m s =
      ⟨(m s).value.2.map (f (m s).value.1), (m s).chain, (m s).sent, (m s).log⟩ :=
  Session.map_apply _ m s

theorem reading_value_eq_ok_iff {m : Session σ (List ι × Except Fault (List Bool))} {s : σ}
    {out : β} :
    (reading f m s).value = .ok out ↔
      ∃ ys flags, (m s).value = (ys, .ok flags) ∧ out = f ys flags := by
  rw [reading_apply]
  rcases (m s).value with ⟨ys, e | flags⟩
  · simp [Except.map]
  · simp [Except.map, eq_comm]

/-- What is made of the slots and the flags does not matter for what is sent. -/
theorem traced_reading (hsize : 0 < size) (s : σ) {once : β → γ}
    (honce : ∀ ys flags, once (f ys flags) = g (Recorded.once items ys) flags) :
    q.Traced strict block size plan items s (reading f (q.fill strict block size plan items))
      (reading g (q.fill strict block size plan.recording (items.map Recorded.fresh))) once := by
  have hsucceeds : ∀ out, (reading f (q.fill strict block size plan items) s).value = .ok out →
      ∀ k, k * size < items.length → q.Succeeds strict block size plan items s k := by
    intro out hout
    obtain ⟨ys, flags, hfill, -⟩ := reading_value_eq_ok_iff.1 hout
    exact (exists_ok_fill_iff hsize).1 ⟨flags, congrArg Prod.snd hfill⟩
  have hsent : ∀ out, (reading f (q.fill strict block size plan items) s).value = .ok out →
      (reading f (q.fill strict block size plan items) s).sent =
        q.aggregates block size plan items := by
    intro out hout
    obtain ⟨ys, flags, hfill, -⟩ := reading_value_eq_ok_iff.1 hout
    rw [reading_apply, ← flatMap_batchRequests hsize (hsucceeds out hout)]
    exact (fill_of_no_fault hsize (not_firstFault_of_fill hsize (congrArg Prod.snd hfill))).2
  constructor
  case ok_iff =>
    refine ⟨fun ⟨out, hout⟩ => hsucceeds out hout, fun h => ?_⟩
    obtain ⟨flags, hflags⟩ := (exists_ok_fill_iff hsize).2 h
    exact ⟨_, reading_value_eq_ok_iff.2 ⟨_, flags, Prod.ext rfl hflags, rfl⟩⟩
  case registers => exact fun out hout => registers_of_succeeds hsize (hsucceeds out hout)
  case visits =>
    intro out hout
    obtain ⟨ys, flags, hfill, rfl⟩ := reading_value_eq_ok_iff.1 hout
    rw [reading_apply, fill_fresh hfill, honce, reading_apply]
    rfl
  case sent => exact hsent
  case calls =>
    intro out hout
    rw [hsent out hout, flatMap_calls_aggregates q block hsize]

end Reading

theorem batchQuery_eq_reading (q : Scheduler σ) (block : BlockRef) (size : Nat) (plan : Plan ι)
    (items : List ι) :
    q.batchQuery block size plan items =
      reading (fun ys _ => ys) (q.fill true block size plan items) :=
  (map_eq_pure_bind _ _).symm

theorem flexBatchQuery_eq_reading (q : Scheduler σ) (block : BlockRef) (size : Nat)
    (plan : Plan ι) (items : List ι) :
    q.flexBatchQuery block size plan items =
      reading (fun ys flags => (ys, flags)) (q.fill false block size plan items) :=
  (map_eq_pure_bind _ _).symm

theorem batchQuery_traced (q : Scheduler σ) (block : BlockRef) (hsize : 0 < size) (plan : Plan ι)
    (items : List ι) (s : σ) :
    q.Traced true block size plan items s (q.batchQuery block size plan items)
      (q.batchQuery block size plan.recording (items.map Recorded.fresh))
      (Recorded.once items) := by
  rw [batchQuery_eq_reading, batchQuery_eq_reading]
  exact traced_reading hsize s fun _ _ => rfl

theorem flexBatchQuery_traced (q : Scheduler σ) (block : BlockRef) (hsize : 0 < size)
    (plan : Plan ι) (items : List ι) (s : σ) :
    q.Traced false block size plan items s (q.flexBatchQuery block size plan items)
      (q.flexBatchQuery block size plan.recording (items.map Recorded.fresh))
      fun out => (Recorded.once items out.1, out.2) := by
  rw [flexBatchQuery_eq_reading, flexBatchQuery_eq_reading]
  exact traced_reading hsize s fun _ _ => rfl

/-- **What reads in batches send.** Whatever the client answers, a read of each of the four kinds
that ends well sends the aggregates of its batches, in order, and visits each item once. -/
theorem batches_traced (q : Scheduler σ) (block : BlockRef) {size : Nat} (hsize : 1 ≤ size)
    (plan : Plan ι) (s : σ) :
    (∀ items, q.Traced true block size plan items s (q.batchQuery block size plan items)
      (q.batchQuery block size plan.recording (items.map Recorded.fresh))
      (Recorded.once items)) ∧
    (∀ items, q.Traced false block size plan items s (q.flexBatchQuery block size plan items)
      (q.flexBatchQuery block size plan.recording (items.map Recorded.fresh))
      fun out => (Recorded.once items out.1, out.2)) ∧
    (∀ initial count, q.Traced true block size plan (List.replicate count initial) s
      (q.batchFetch block size plan initial count)
      (q.batchFetch block size plan.recording (Recorded.fresh initial) count)
      (Recorded.once (List.replicate count initial))) ∧
    ∀ initial count, q.Traced false block size plan (List.replicate count initial) s
      (q.flexBatchFetch block size plan initial count)
      (q.flexBatchFetch block size plan.recording (Recorded.fresh initial) count)
      fun out => (Recorded.once (List.replicate count initial) out.1, out.2) := by
  have hfresh : ∀ (initial : ι) count, (List.replicate count initial).map Recorded.fresh =
      List.replicate count (Recorded.fresh initial) := fun _ _ => List.map_replicate
  refine ⟨fun items => ?_, fun items => ?_, fun initial count => ?_, fun initial count => ?_⟩
  · exact batchQuery_traced q block hsize plan items s
  · exact flexBatchQuery_traced q block hsize plan items s
  · have h := batchQuery_traced q block hsize plan (List.replicate count initial) s
    rwa [hfresh] at h
  · have h := flexBatchQuery_traced q block hsize plan (List.replicate count initial) s
    rwa [hfresh] at h

/-- The items at indices two and three register nothing, and the others two calls each. -/
def sparse : Plan Bytes := Plan.byIndex fun i =>
  if i / 2 = 1 then []
  else [Call.keep ⟨1⟩ [UInt8.ofNat i], Call.keep ⟨2⟩ [UInt8.ofNat (i + 1)]]

/-- Five items in batches of two: nothing is sent for the second batch, and the third one has a
single item. -/
theorem batches_traced_sparse :
    let q := ofChain .echo ⟨0⟩ 1
    let o := q.flexBatchFetch .latest 2 sparse [] 5 ()
    o.value = .ok ([[1], [2], [], [], [5]], [true, true, true, true, true]) ∧
      o.sent = [.aggregate ⟨0⟩ ⟨false, [⟨⟨1⟩, [0]⟩, ⟨⟨2⟩, [1]⟩, ⟨⟨1⟩, [1]⟩, ⟨⟨2⟩, [2]⟩]⟩ .latest,
        .aggregate ⟨0⟩ ⟨false, [⟨⟨1⟩, [4]⟩, ⟨⟨2⟩, [5]⟩]⟩ .latest] ∧
      (q.flexBatchFetch .latest 2 sparse.recording (.fresh []) 5 ()).value =
        .ok ([⟨[1], [(0, [])]⟩, ⟨[2], [(1, [])]⟩, ⟨[], [(2, [])]⟩, ⟨[], [(3, [])]⟩,
          ⟨[5], [(4, [])]⟩], [true, true, true, true, true]) := by
  obtain ⟨-, -, -, hfetch⟩ :=
    batches_traced (ofChain .echo ⟨0⟩ 1) .latest (show 1 ≤ 2 by decide) sparse ()
  have hvalue : ((ofChain .echo ⟨0⟩ 1).flexBatchFetch .latest 2 sparse [] 5 ()).value =
      .ok ([[1], [2], [], [], [5]], [true, true, true, true, true]) := by
    decide +kernel
  refine ⟨hvalue, ?_, ?_⟩
  · rw [(hfetch [] 5).sent _ hvalue]
    decide +kernel
  · rw [(hfetch [] 5).visits _ hvalue]
    rfl

end Scheduler

end StakingSnapshot
