import StakingSnapshot.Proofs.Job.Outcome
import StakingSnapshot.Schedule

/-!
# Batches do not show in what is read

* `chunks_flatten`: the batches are the items, in order.
* `Scheduler.runChunks_cons_of_ok`, `Scheduler.runChunks_cons_of_error`: a run of batches, batch by
  batch.
* `Scheduler.fill_eq_ok_iff`: filling items in batches ends well exactly if the items can be filled
  one by one (`Plan.Filled`), and with the same items and flags. The size of the batches is not in
  the right-hand side. `Scheduler.batchQuery_eq_ok_iff` and `Scheduler.flexBatchQuery_eq_ok_iff`
  say the same of the strict and of the flexible read.
-/

namespace StakingSnapshot

variable {σ ι : Type}

theorem chunks_nil (size : Nat) : chunks size ([] : List ι) = [] := by
  rw [chunks, if_pos (Or.inr List.isEmpty_nil)]

theorem chunks_of_pos {size : Nat} (hsize : 0 < size) {items : List ι} (h : items ≠ []) :
    chunks size items = items.take size :: chunks size (items.drop size) := by
  rw [chunks, if_neg]
  rintro (h0 | hnil)
  · omega
  · exact h (List.isEmpty_iff.1 hnil)

/-- The batches are the items, in order. -/
theorem chunks_flatten {size : Nat} (hsize : 0 < size) (items : List ι) :
    (chunks size items).flatten = items := by
  induction h : items.length using Nat.strongRecOn generalizing items with
  | _ n ih =>
    by_cases hnil : items = []
    · rw [hnil, chunks_nil, List.flatten_nil]
    · have hlen := List.length_pos_iff.2 hnil
      have hdrop := ih (items.drop size).length (by rw [List.length_drop]; omega) _ rfl
      rw [chunks_of_pos hsize hnil, List.flatten_cons, hdrop, List.take_append_drop]

/-! ## Filling stretches of items -/

namespace Plan

variable {answer : SubCall → CallResult} {strict : Bool} {plan : Plan ι}

/-- Items are filled stretch by stretch. -/
theorem filled_append_iff {i : Nat} {xs xs' ys : List ι} {flags : List Bool} :
    plan.Filled answer strict i (xs ++ xs') ys flags ↔
      ∃ ys₁ ys₂ flags₁ flags₂, plan.Filled answer strict i xs ys₁ flags₁ ∧
        plan.Filled answer strict (i + xs.length) xs' ys₂ flags₂ ∧ ys = ys₁ ++ ys₂ ∧
          flags = flags₁ ++ flags₂ := by
  induction xs generalizing i ys flags with
  | nil =>
    constructor
    · intro h
      exact ⟨[], ys, [], flags, .nil, h, rfl, rfl⟩
    · rintro ⟨_, _, _, _, h₁, h₂, rfl, rfl⟩
      cases h₁
      exact h₂
  | cons x xs ih =>
    have hindex : i + (x :: xs).length = i + 1 + xs.length := by
      rw [List.length_cons]
      omega
    rw [hindex, List.cons_append]
    constructor
    · intro h
      cases h with
      | cons hx hall hrest =>
        obtain ⟨ys₁, ys₂, flags₁, flags₂, h₁, h₂, rfl, rfl⟩ := ih.1 hrest
        exact ⟨_, ys₂, _, flags₂, .cons hx hall h₁, h₂, rfl, rfl⟩
    · rintro ⟨_, ys₂, _, flags₂, h₁, h₂, rfl, rfl⟩
      cases h₁ with
      | cons hx hall hrest => exact .cons hx hall (ih.2 ⟨_, _, _, _, hrest, h₂, rfl, rfl⟩)

theorem Filled.length_eq {i : Nat} {xs ys : List ι} {flags : List Bool}
    (h : plan.Filled answer strict i xs ys flags) :
    ys.length = xs.length ∧ flags.length = xs.length := by
  induction h with
  | nil => exact ⟨rfl, rfl⟩
  | cons _ _ _ ih => exact ⟨congrArg (· + 1) ih.1, congrArg (· + 1) ih.2⟩

/-- What items are filled with is determined. -/
theorem Filled.unique {i : Nat} {xs ys ys' : List ι} {flags flags' : List Bool}
    (h : plan.Filled answer strict i xs ys flags)
    (h' : plan.Filled answer strict i xs ys' flags') : ys = ys' ∧ flags = flags' := by
  induction h generalizing ys' flags' with
  | nil =>
    cases h'
    exact ⟨rfl, rfl⟩
  | cons hx _ _ ih =>
    cases h' with
    | cons hx' _ hrest' =>
      rw [hx] at hx'
      cases hx'
      obtain ⟨rfl, rfl⟩ := ih hrest'
      exact ⟨rfl, rfl⟩

/-- Each item is filled by the answers to its own calls. -/
theorem Filled.item {i : Nat} {xs ys : List ι} {flags : List Bool}
    (h : plan.Filled answer strict i xs ys flags) {k : Nat} {x : ι} (hx : xs[k]? = some x) :
    ∃ x' calls, plan (i + k) x = .ok (x', calls) ∧
      (∀ c ∈ calls, c.Passes strict (answer c.sub)) ∧
        ys[k]? = some (applied answer calls x') ∧
          flags[k]? = some (calls.all fun c => (answer c.sub).success) := by
  induction h generalizing k with
  | nil => cases hx
  | @cons i _ x' calls _ _ _ hplan hall _ ih =>
    cases k with
    | zero =>
      cases hx
      exact ⟨x', calls, hplan, hall, rfl, rfl⟩
    | succ k =>
      obtain ⟨z, cs, hz, hrest⟩ := ih hx
      rw [Nat.add_right_comm, Nat.add_assoc] at hz
      exact ⟨z, cs, hz, hrest⟩

/-- Items can be filled exactly if each of them can register its calls and the read goes on with the
answer to each call. -/
theorem exists_filled_iff {i : Nat} {xs : List ι} :
    (∃ ys flags, plan.Filled answer strict i xs ys flags) ↔
      ∀ k x, xs[k]? = some x → ∃ x' calls, plan (i + k) x = .ok (x', calls) ∧
        ∀ c ∈ calls, c.Passes strict (answer c.sub) := by
  constructor
  · rintro ⟨ys, flags, h⟩ k x hx
    obtain ⟨x', calls, hplan, hall, -⟩ := h.item hx
    exact ⟨x', calls, hplan, hall⟩
  · intro h
    induction xs generalizing i with
    | nil => exact ⟨[], [], .nil⟩
    | cons x xs ih =>
      obtain ⟨x', calls, hplan, hall⟩ := h 0 x rfl
      obtain ⟨ys, flags, hrest⟩ := ih (i := i + 1) fun k y hy => by
        rw [Nat.add_right_comm, Nat.add_assoc]
        exact h (k + 1) y hy
      exact ⟨_, _, .cons hplan hall hrest⟩

/-- The calls of one item are among those of all. -/
theorem sublist_registered {i k : Nat} {xs : List ι} {x x' : ι} {calls : List (Call ι)}
    (hx : xs[k]? = some x) (hplan : plan (i + k) x = .ok (x', calls)) :
    calls.Sublist (plan.registered i xs) := by
  induction xs generalizing i k with
  | nil => cases hx
  | cons y xs ih =>
    cases k with
    | zero =>
      cases hx
      rw [Nat.add_zero] at hplan
      rw [registered, hplan]
      exact List.sublist_append_left _ _
    | succ k =>
      have hrest : calls.Sublist (plan.registered (i + 1) xs) := by
        refine ih hx ?_
        rw [Nat.add_right_comm, Nat.add_assoc]
        exact hplan
      rw [registered]
      split
      · exact hrest.trans (List.sublist_append_right _ _)
      · exact hrest

end Plan

/-! ## Running batches -/

namespace Scheduler

/-- A scheduler whose client answers for a chain. -/
def ofChain (chain : Chain) (hub : Address) (limit : Nat) : Scheduler Unit :=
  ⟨chain.client hub, hub, limit⟩

variable {q : Scheduler σ} {strict : Bool} {block : BlockRef} {plan : Plan ι}

/-- After a batch that succeeds, the others run. -/
theorem runChunks_cons_of_ok {number start : Nat} {c c' : List ι} {cs : List (List ι)}
    {flags : List Bool} {s : σ}
    (h : (q.run (Job.ofItems strict block plan start) c s).value = (c', .ok flags)) :
    let first := q.run (Job.ofItems strict block plan start) c s
    let rest := q.runChunks strict block plan (number + 1) (start + c.length) cs first.chain
    q.runChunks strict block plan number start (c :: cs) s =
      ⟨(c' ++ rest.value.1, rest.value.2.map (flags ++ ·)), rest.chain, first.sent ++ rest.sent,
        first.log ++ rest.log⟩ := by
  rw [runChunks]
  simp only [Session.bind_apply, h, Session.pure_apply, List.append_nil]

/-- A batch that fails ends the run, and its fault gets its number and its range. -/
theorem runChunks_cons_of_error {number start : Nat} {c c' : List ι} {cs : List (List ι)}
    {e : Fault} {s : σ}
    (h : (q.run (Job.ofItems strict block plan start) c s).value = (c', .error e)) :
    let first := q.run (Job.ofItems strict block plan start) c s
    q.runChunks strict block plan number start (c :: cs) s =
      ⟨(c' ++ cs.flatten, .error (.context (batchContext number start (start + c.length)) e)),
        first.chain, first.sent, first.log⟩ := by
  rw [runChunks]
  simp only [Session.bind_apply, h, Session.pure_apply, List.append_nil]

/-- A run of batches against a chain. -/
theorem runChunks_eq_ok_iff {chain : Chain} (hchain : q.client.AnswersFor q.hub chain)
    {number start : Nat} {cs : List (List ι)} {ys : List ι} {flags : List Bool} {s : σ}
    (hsized : Sized (chain block) ((plan.registered start cs.flatten).map Call.sub)) :
    (q.runChunks strict block plan number start cs s).value = (ys, .ok flags) ↔
      plan.Filled (chain block) strict start cs.flatten ys flags := by
  induction cs generalizing number start ys flags s with
  | nil =>
    constructor
    · intro h
      cases h
      exact .nil
    · intro h
      cases h
      rfl
  | cons c cs ih =>
    rw [List.flatten_cons, Plan.registered_append, List.map_append] at hsized
    have hrest := hsized.of_sublist (List.sublist_append_right _ _)
    have hfits : (Job.ofItems strict block plan start).Fits chain c :=
      Job.fits_ofItems (hsized.of_sublist (List.sublist_append_left _ _))
    have hvalue : (q.run (Job.ofItems strict block plan start) c s).value =
        (Job.ofItems strict block plan start).outcome (chain block) c :=
      Job.run_value hchain hfits s
    rw [List.flatten_cons, Plan.filled_append_iff]
    rcases hfirst : (Job.ofItems strict block plan start).outcome (chain block) c with ⟨c', r⟩
    rw [hfirst] at hvalue
    cases r with
    | error e =>
      rw [runChunks_cons_of_error hvalue]
      constructor
      · intro h
        cases h
      · rintro ⟨ys₁, _, flags₁, _, h₁, -⟩
        rw [Job.outcome_ofItems_eq_ok_iff.2 h₁] at hfirst
        cases hfirst
    | ok flags₁ =>
      have h₁ := Job.outcome_ofItems_eq_ok_iff.1 hfirst
      rw [runChunks_cons_of_ok hvalue]
      simp only []
      rcases hr : (q.runChunks strict block plan (number + 1) (start + c.length) cs
        (q.run (Job.ofItems strict block plan start) c s).chain).value with ⟨ys₂, r⟩
      constructor
      · intro h
        cases r with
        | error e => cases h
        | ok flags₂ =>
          cases h
          exact ⟨c', ys₂, flags₁, flags₂, h₁, (ih hrest).1 hr, rfl, rfl⟩
      · rintro ⟨_, _, _, _, h₁', h₂, rfl, rfl⟩
        obtain ⟨rfl, rfl⟩ := h₁.unique h₁'
        rw [(ih hrest).2 h₂] at hr
        cases hr
        rfl

/-- **Batches do not show.** Filling items in batches ends well exactly if the items can be filled
one by one, and then with the same items and flags. -/
theorem fill_eq_ok_iff {chain : Chain} (hchain : q.client.AnswersFor q.hub chain) {size : Nat}
    (hsize : 0 < size) {xs ys : List ι} {flags : List Bool} {s : σ}
    (hsized : Sized (chain block) ((plan.registered 0 xs).map Call.sub)) :
    (q.fill strict block size plan xs s).value = (ys, .ok flags) ↔
      plan.Filled (chain block) strict 0 xs ys flags := by
  rw [← chunks_flatten hsize xs] at hsized
  rw [fill, if_neg (by omega), runChunks_eq_ok_iff hchain hsized, chunks_flatten hsize]

theorem toOption_eq_some_iff {ε α : Type} {r : Except ε α} {a : α} :
    r.toOption = some a ↔ r = .ok a := by
  cases r with
  | error e => simp [Except.toOption]
  | ok b => simp [Except.toOption]

/-- What a caller gets who only wants the slots. -/
theorem map_slots_eq_ok_iff {S : Type} {r : S × Except Fault (List Bool)} {slots : S} :
    (r.2.map fun _ => r.1) = .ok slots ↔ ∃ flags, r = (slots, .ok flags) := by
  obtain ⟨x, _ | flags⟩ := r
  · simp [Except.map]
  · simp [Except.map]

/-- What a caller gets who wants the slots and the flags. -/
theorem map_both_eq_ok_iff {S : Type} {r : S × Except Fault (List Bool)} {slots : S}
    {flags : List Bool} :
    (r.2.map fun flags => (r.1, flags)) = .ok (slots, flags) ↔ r = (slots, .ok flags) := by
  obtain ⟨x, _ | flags'⟩ := r
  · simp [Except.map]
  · simp [Except.map]

/-- A strict read in batches against a chain. -/
theorem batchQuery_eq_ok_iff {chain : Chain} (hchain : q.client.AnswersFor q.hub chain)
    {size : Nat} (hsize : 0 < size) {xs ys : List ι} {s : σ}
    (hsized : Sized (chain block) ((plan.registered 0 xs).map Call.sub)) :
    (q.batchQuery block size plan xs s).value = .ok ys ↔
      ∃ flags, plan.Filled (chain block) true 0 xs ys flags := by
  have hread : (q.batchQuery block size plan xs s).value = .ok ys ↔ _ := map_slots_eq_ok_iff
  rw [hread]
  exact exists_congr fun flags => fill_eq_ok_iff hchain hsize hsized

/-- A flexible read in batches against a chain. -/
theorem flexBatchQuery_eq_ok_iff {chain : Chain} (hchain : q.client.AnswersFor q.hub chain)
    {size : Nat} (hsize : 0 < size) {xs ys : List ι} {flags : List Bool} {s : σ}
    (hsized : Sized (chain block) ((plan.registered 0 xs).map Call.sub)) :
    (q.flexBatchQuery block size plan xs s).value = .ok (ys, flags) ↔
      plan.Filled (chain block) false 0 xs ys flags := by
  have hread : (q.flexBatchQuery block size plan xs s).value = .ok (ys, flags) ↔ _ :=
    map_both_eq_ok_iff
  rw [hread]
  exact fill_eq_ok_iff hchain hsize hsized

end Scheduler

end StakingSnapshot
