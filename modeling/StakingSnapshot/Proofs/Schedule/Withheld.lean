import StakingSnapshot.Proofs.Pool.Open
import StakingSnapshot.Proofs.Schedule.Interleaving
import StakingSnapshot.Proofs.Schedule.Sent

/-!
# Batches that are not sent

A batch is sent only if each of its items can register its calls. So an item that cannot keeps its
whole batch from being sent, whatever is answered to the other batches and in whatever order they
go.

* `Plan.Registers`: items that can register their calls; `Plan.register_of_error`: the fault of the
  first that cannot.
* `Scheduler.registers_of_sent_fill`: batches one after another;
  `Scheduler.firstFault_of_error`: how they end.
* `Scheduler.registers_of_sent`: batches side by side; `Scheduler.registered_of_open`: what they
  send was registered.
-/

namespace StakingSnapshot

variable {σ ι : Type}

/-! ## Registration -/

namespace Plan

variable {plan : Plan ι} {i : Nat} {xs : List ι}

/-- Each of the items from an index on can register its calls. -/
def Registers (plan : Plan ι) (i : Nat) (xs : List ι) : Prop :=
  ∀ k x, xs[k]? = some x → ∃ x' calls, plan (i + k) x = .ok (x', calls)

theorem registers_cons_iff {x : ι} :
    plan.Registers i (x :: xs) ↔
      (∃ x' calls, plan i x = .ok (x', calls)) ∧ plan.Registers (i + 1) xs := by
  have hindex : ∀ k, i + 1 + k = i + (k + 1) := fun k => by omega
  constructor
  · refine fun h => ⟨h 0 x rfl, fun k y hy => ?_⟩
    rw [hindex]
    exact h (k + 1) y hy
  · rintro ⟨hfirst, hrest⟩ k y hy
    cases k with
    | zero =>
      cases hy
      exact hfirst
    | succ k =>
      rw [← hindex]
      exact hrest k y hy

theorem registers_of_register {items : List ι} {groups : List (List (Call ι))}
    (h : plan.register i xs = (items, .ok groups)) : plan.Registers i xs := by
  induction xs generalizing i items groups with
  | nil => exact fun k x hx => nomatch hx
  | cons x xs ih =>
    obtain ⟨x', calls, items', groups', hx, hr, -, -⟩ := register_cons_eq_ok_iff.1 h
    exact registers_cons_iff.2 ⟨⟨x', calls, hx⟩, ih hr⟩

/-- The fault of a registration is that of the first item that cannot register its calls. -/
theorem register_of_error {k : Nat} {x : ι} {e : Fault} (hx : xs[k]? = some x)
    (he : plan (i + k) x = .error e) (hbefore : plan.Registers i (xs.take k)) :
    (plan.register i xs).2 = .error e := by
  induction xs generalizing i k with
  | nil => cases hx
  | cons y xs ih =>
    cases k with
    | zero =>
      cases hx
      rw [Nat.add_zero] at he
      rw [register, he]
    | succ k =>
      obtain ⟨⟨y', calls, hy⟩, hrest⟩ := registers_cons_iff.1 hbefore
      have hindex : i + 1 + k = i + (k + 1) := by omega
      have htail : (plan.register (i + 1) xs).2 = .error e := ih hx (hindex ▸ he) hrest
      rw [register, hy]
      simp only [htail]
      rfl

end Plan

/-- The job of a stretch of items sends something, or ends well, only if each of them can register
its calls. -/
theorem Job.registers_of_prepared {strict : Bool} {block : BlockRef} {plan : Plan ι} {start : Nat}
    {items : List ι} {prepared : Prepared (List ι)}
    (h : ((Job.ofItems strict block plan start).prepare items).2 = .ok prepared) :
    plan.Registers start items := by
  obtain ⟨groups, hr, -⟩ := prepare_ofItems_eq_ok_iff.1 (Prod.ext rfl h)
  exact Plan.registers_of_register hr

/-- A stretch of items that cannot all register their calls is a job that cannot. -/
theorem Job.prepare_of_error {strict : Bool} {block : BlockRef} {plan : Plan ι} {start : Nat}
    {items : List ι} {e : Fault} (h : (plan.register start items).2 = .error e) :
    ((Job.ofItems strict block plan start).prepare items).2 = .error e := by
  simp only [Job.ofItems, h]
  rfl

/-- A job that cannot register its calls has this fault. -/
theorem Job.run_of_error {S : Type} {client : Client σ} {hub : Address} {job : Job S} {slots : S}
    {e : Fault} (h : (job.prepare slots).2 = .error e) {s : σ} :
    (job.run client hub slots s).value.2 = .error e := by
  unfold run
  rcases hp : job.prepare slots with ⟨slots', r⟩
  rw [hp] at h
  cases h
  rfl

theorem batchItems_subset {size : Nat} {items : List ι} {k : Nat} :
    batchItems size items k ⊆ items :=
  fun _ h => List.mem_of_mem_drop (List.mem_of_mem_take h)

namespace Scheduler

variable {q : Scheduler σ} {strict : Bool} {block : BlockRef} {size : Nat} {plan : Plan ι}
  {items : List ι}

/-- What a batch registers is part of what all items register. -/
theorem registered_batchItems_sublist (k : Nat) :
    (plan.registered (k * size) (batchItems size items k)).Sublist
      (plan.registered 0 items) := by
  by_cases hk : k * size < items.length
  · have hsplit : items = items.take (k * size) ++
        (batchItems size items k ++ (items.drop (k * size)).drop size) := by
      rw [batchItems, List.take_append_drop, List.take_append_drop]
    have hstart : (items.take (k * size)).length = k * size :=
      List.length_take_of_le (Nat.le_of_lt hk)
    have hall : plan.registered 0 items = plan.registered 0 (items.take (k * size)) ++
        (plan.registered (k * size) (batchItems size items k) ++
          plan.registered (k * size + (batchItems size items k).length)
            ((items.drop (k * size)).drop size)) := by
      conv_lhs => rw [hsplit]
      rw [Plan.registered_append, Plan.registered_append, hstart, Nat.zero_add]
    rw [hall]
    exact (List.sublist_append_left _ _).trans (List.sublist_append_right _ _)
  · have hnil : batchItems size items k = [] := by
      rw [batchItems, List.drop_eq_nil_of_le (Nat.le_of_not_lt hk), List.take_nil]
    rw [hnil]
    exact List.nil_sublist _

/-! ## One after another -/

theorem registers_of_mem_batchRequests {k : Nat} {request : Request}
    (h : request ∈ q.batchRequests strict block size plan items k) :
    plan.Registers (k * size) (batchItems size items k) := by
  rw [batchRequests, Job.requests] at h
  split at h
  case h_1 => cases h
  case h_2 prepared hprepared => exact Job.registers_of_prepared hprepared

/-- What batches from one on send, one of them sends. -/
theorem mem_batchRequests_of_sent_runFrom (hsize : 0 < size) {k : Nat} {s : σ} {request : Request}
    (h : request ∈ (q.runFrom strict block size plan items k s).sent) :
    ∃ j, request ∈ q.batchRequests strict block size plan items j := by
  induction hn : items.length - k * size using Nat.strongRecOn generalizing k s with
  | _ n ih =>
    by_cases hk : k * size < items.length
    · cases hr : (q.runBatch strict block size plan items k s).value.2 with
      | error e =>
        rw [(runFrom_of_error hsize hk hr).2] at h
        exact ⟨k, h⟩
      | ok flags =>
        rw [(runFrom_of_ok hsize hk hr).2] at h
        rcases List.mem_append.1 h with h | h
        · exact ⟨k, h⟩
        · refine ih _ ?_ h rfl
          rw [Nat.succ_mul]
          omega
    · rw [runFrom, List.drop_eq_nil_of_le (Nat.le_of_not_lt hk), chunks_nil] at h
      cases h

/-- **One after another.** Whatever is answered, each request is that of a batch of which all items
can register their calls. -/
theorem registers_of_sent_fill {s : σ} {request : Request}
    (h : request ∈ (q.fill strict block size plan items s).sent) :
    ∃ k, request ∈ q.batchRequests strict block size plan items k ∧
      plan.Registers (k * size) (batchItems size items k) := by
  unfold fill at h
  split at h
  case isTrue => cases h
  case isFalse hsize =>
    have hstart : q.runChunks strict block plan 0 0 (chunks size items) =
        q.runFrom strict block size plan items 0 := by
      rw [runFrom, Nat.zero_mul, List.drop_zero]
    rw [hstart] at h
    obtain ⟨k, hk⟩ := mem_batchRequests_of_sent_runFrom (Nat.pos_of_ne_zero hsize) h
    exact ⟨k, hk, registers_of_mem_batchRequests hk⟩

/-- The items of a batch are those at its indices. -/
theorem getElem?_batchItems {k j : Nat} {x : ι} :
    (batchItems size items k)[j]? = some x ↔ j < size ∧ items[k * size + j]? = some x := by
  rw [batchItems, List.getElem?_take, List.getElem?_drop, Option.ite_none_right_eq_some]

/-- Against a chain, the first item that cannot register its calls is the fault of its batch, if the
items of the batches before it can be filled. -/
theorem firstFault_of_error {chain : Chain} (hchain : q.client.AnswersFor q.hub chain)
    (hsize : 0 < size) (hsized : Sized (chain block) ((plan.registered 0 items).map Call.sub))
    {i : Nat} {x : ι} {e : Fault} (hx : items[i]? = some x) (he : plan i x = .error e)
    (hfirst : ∀ j < i, ∀ y, items[j]? = some y → ∃ y' calls, plan j y = .ok (y', calls))
    (hfilled : ∀ j < i / size * size, ∀ y, items[j]? = some y →
      ∃ y', plan.outcome? (chain block) strict j y = some y') {s : σ} :
    q.FirstFault strict block size plan items s (i / size) e := by
  have hindex : i / size * size + i % size = i := Nat.div_add_mod' i size
  refine ⟨?_, fun k hk => ?_, ?_⟩
  · have hi := (List.getElem?_eq_some_iff.1 hx).1
    omega
  · have hfits : (Job.ofItems strict block plan (k * size)).Fits chain (batchItems size items k) :=
      Job.fits_ofItems (hsized.of_sublist ((registered_batchItems_sublist k).map Call.sub))
    obtain ⟨ys, flags, hbatch⟩ : ∃ ys flags,
        plan.Filled (chain block) strict (k * size) (batchItems size items k) ys flags := by
      refine Plan.exists_filled_iff.2 fun j y hy => ?_
      obtain ⟨hj, hy⟩ := getElem?_batchItems.1 hy
      have hmul := Nat.mul_le_mul_right size (Nat.succ_le_of_lt hk)
      rw [Nat.succ_mul] at hmul
      obtain ⟨y', hout⟩ := hfilled (k * size + j) (by omega) y hy
      obtain ⟨z, calls, hplan, hall, -⟩ := Plan.outcome?_eq_some_iff.1 hout
      exact ⟨z, calls, hplan, hall⟩
    refine ⟨flags, ?_⟩
    rw [runBatch, run, Job.run_value hchain hfits]
    exact congrArg Prod.snd (Job.outcome_ofItems_eq_ok_iff.2 hbatch)
  · have hregister : (plan.register (i / size * size) (batchItems size items (i / size))).2 =
        .error e := by
      rw [← hindex] at hx he
      refine Plan.register_of_error (getElem?_batchItems.2 ⟨Nat.mod_lt i hsize, hx⟩) he ?_
      intro j y hy
      rw [List.getElem?_take, Option.ite_none_right_eq_some] at hy
      obtain ⟨hj, hy⟩ := hy
      exact hfirst _ (by omega) y (getElem?_batchItems.1 hy).2
    exact Job.run_of_error (Job.prepare_of_error hregister)

/-! ## Side by side -/

/-- The job of a batch. -/
theorem eq_of_getElem?_seats (hsize : 0 < size) {start k : Nat} {t : Seat (List ι)}
    (h : (seats strict block plan start (chunks size items))[k]? = some t) :
    t = Seat.ofJob (Job.ofItems strict block plan (start + k * size))
      (batchItems size items k) := by
  induction k generalizing start items with
  | zero =>
    by_cases hnil : items = []
    · rw [hnil, chunks_nil] at h
      cases h
    · rw [chunks_of_pos hsize hnil] at h
      cases h
      rw [batchItems, Nat.zero_mul, Nat.add_zero, List.drop_zero]
  | succ k ih =>
    by_cases hnil : items = []
    · rw [hnil, chunks_nil] at h
      cases h
    rw [chunks_of_pos hsize hnil] at h
    by_cases hfull : size ≤ items.length
    · have hnext := ih h
      rw [List.length_take_of_le hfull, Nat.add_assoc, Nat.add_comm size, ← Nat.succ_mul,
        batchItems, List.drop_drop, Nat.add_comm size, ← Nat.succ_mul] at hnext
      exact hnext
    · -- The first batch is the only one.
      rw [List.drop_eq_nil_of_le (Nat.le_of_not_le hfull), chunks_nil] at h
      cases h

section Pools

variable {replies : Replies} {p : Pool fun _ : Unit => List ι} {k : Nat}
  {t : (_ : Unit) × Seat (List ι)}

/-- Each job of a read that is under way is that of its batch. -/
theorem began_of_reaches (hsize : 0 < size)
    (h : (q.pool strict block size plan items).Reaches replies p) (ht : p.seats[k]? = some t) :
    Seat.Began (Seat.ofJob (Job.ofItems strict block plan (k * size)) (batchItems size items k))
      t.2 := by
  have hbegan := Pool.began (fun t₀ ht₀ => by
    obtain ⟨s, hs, rfl⟩ := List.mem_map.1 ht₀
    exact phase_of_mem_seats hs) h
  obtain ⟨hk, hget⟩ := List.getElem?_eq_some_iff.1 ht
  have hk' : k < (q.pool strict block size plan items).seats.length := hbegan.length_eq ▸ hk
  have hpair := (List.forall₂_iff_get.1 hbegan).2 k hk' hk
  simp only [pool, Pool.ofSeats, List.get_eq_getElem, List.getElem_map, hget] at hpair
  obtain ⟨hseat⟩ := hpair
  have hlen : k < (seats strict block plan 0 (chunks size items)).length := by
    rwa [pool, Pool.ofSeats, List.length_map] at hk'
  have heq := eq_of_getElem?_seats hsize (List.getElem?_eq_getElem hlen)
  rw [Nat.zero_add] at heq
  rwa [← heq]

/-- **Side by side.** Whatever is answered and in whatever order the batches go, all items of a
batch whose aggregate is open, or which ended well, can register their calls. -/
theorem registers_of_sent (hsize : 0 < size)
    (h : (q.pool strict block size plan items).Reaches replies p) (ht : p.seats[k]? = some t)
    (hsent : t.2.isInFlight = true ∨ t.2.endedWell = true) :
    plan.Registers (k * size) (batchItems size items k) := by
  have hbegan := began_of_reaches hsize h ht
  rcases hsent with hopen | hended
  · unfold Seat.isInFlight at hopen
    split at hopen
    case h_1 prepared hphase => exact Job.registers_of_prepared (hbegan.sent prepared hphase)
    case h_2 => cases hopen
  · obtain ⟨flags, hresult⟩ := Seat.endedWell_iff.1 hended
    unfold Seat.result? at hresult
    split at hresult
    case h_1 result hphase =>
      cases hresult
      obtain ⟨prepared, hprepared⟩ := hbegan.ended flags (.inr hphase)
      exact Job.registers_of_prepared hprepared
    case h_2 => cases hresult

/-- What is sent side by side was registered by the items. -/
theorem registered_of_open (hsize : 0 < size)
    (h : (q.pool strict block size plan items).Reaches replies p) (ht : p.seats[k]? = some t)
    {prepared : Prepared (List ι)} (hopen : t.2.phase = .inFlight prepared)
    {c : Call (List ι)} (hc : c ∈ prepared.calls) :
    c.sub ∈ (plan.registered 0 items).map Call.sub := by
  have hprepared := (began_of_reaches hsize h ht).sent prepared hopen
  have hbatch := Job.sub_mem_registered (Prod.ext rfl hprepared) hc
  exact ((registered_batchItems_sublist k).map Call.sub).subset hbatch

end Pools

end Scheduler

end StakingSnapshot
