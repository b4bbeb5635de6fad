import StakingSnapshot.Proofs.Schedule.Interleaving

/-!
# Strict batches and the plain loop

A strict read in batches does what a plain loop does that reads every item alone.

* `Scheduler.readAlone`: one item in an aggregate of its own; `Scheduler.readEach`: the plain loop.
* `Scheduler.readEach_eq_ok_iff`: against a chain, the loop succeeds on every item exactly if all
  items can be filled.
* `Scheduler.batchQuery_eq_readEach`: so does the read in batches, with the same items, for every
  size of the batches and every order in which their jobs move.
-/

namespace StakingSnapshot

variable {σ ι : Type}

namespace Scheduler

/-- Reads the item at an index alone: its calls make up an aggregate, and each must succeed. -/
def readAlone (q : Scheduler σ) (block : BlockRef) (plan : Plan ι) (i : Nat) (item : ι) :
    Read σ ι :=
  match plan i item with
  | .error e => Read.ofExcept (.error e)
  | .ok (item', calls) => q.query block calls item'

/-- Reads items that start at an index one by one, each of them alone. -/
def readEach (q : Scheduler σ) (block : BlockRef) (plan : Plan ι) :
    Nat → List ι → Session σ (List (Except Fault ι))
  | _, [] => pure []
  | i, x :: xs => do
    let y ← (q.readAlone block plan i x).run
    let ys ← readEach q block plan (i + 1) xs
    return y :: ys

variable {q : Scheduler σ} {chain : Chain} {block : BlockRef} {plan : Plan ι}

/-- One aggregate whose calls must all succeed, against a chain. -/
theorem query_eq_ok_iff {S : Type} (hchain : q.client.AnswersFor q.hub chain)
    {calls : List (Call S)} (hsized : Sized (chain block) (calls.map Call.sub)) {slots slots' : S}
    {s : σ} :
    (q.query block calls slots s).value = .ok slots' ↔
      (∀ c ∈ calls, c.Passes true (chain block c.sub)) ∧
        slots' = applied (chain block) calls slots := by
  have hvalue : (q.run (Job.ofCalls true block (.ok calls)) slots s).value =
      (Job.ofCalls true block (.ok calls)).outcome (chain block) slots :=
    Job.run_value hchain (Job.fits_ofCalls hsized) s
  have hread : (q.query block calls slots s).value = .ok slots' ↔
      ∃ flags, (q.run (Job.ofCalls true block (.ok calls)) slots s).value = (slots', .ok flags) :=
    map_slots_eq_ok_iff
  rw [hread, hvalue]
  simp only [Job.outcome_eq_ok_iff]
  constructor
  · rintro ⟨_, _, _, hprepare, hall, rfl, -⟩
    cases hprepare
    exact ⟨hall, rfl⟩
  · rintro ⟨hall, rfl⟩
    exact ⟨_, _, _, rfl, hall, rfl, rfl⟩

/-- An item that is read alone against a chain. -/
theorem readAlone_eq_ok_iff (hchain : q.client.AnswersFor q.hub chain) {i : Nat} {x y : ι} {s : σ}
    (hsized : ∀ x' calls, plan i x = .ok (x', calls) →
      Sized (chain block) (calls.map Call.sub)) :
    (q.readAlone block plan i x s).value = .ok y ↔
      ∃ x' calls, plan i x = .ok (x', calls) ∧
        (∀ c ∈ calls, c.Passes true (chain block c.sub)) ∧ y = applied (chain block) calls x' := by
  unfold readAlone
  cases hx : plan i x with
  | error e =>
    constructor
    · intro h
      cases h
    · rintro ⟨_, _, h, -⟩
      cases h
  | ok p =>
    obtain ⟨x', calls⟩ := p
    simp only [query_eq_ok_iff hchain (hsized x' calls hx)]
    constructor
    · exact fun h => ⟨x', calls, rfl, h⟩
    · rintro ⟨_, _, heq, h⟩
      cases heq
      exact h

/-- **The plain loop.** It succeeds on every item exactly if the items can be filled, and then with
the same items. -/
theorem readEach_eq_ok_iff (hchain : q.client.AnswersFor q.hub chain) {i : Nat} {xs ys : List ι}
    {s : σ} (hsized : Sized (chain block) ((plan.registered i xs).map Call.sub)) :
    (q.readEach block plan i xs s).value = ys.map .ok ↔
      ∃ flags, plan.Filled (chain block) true i xs ys flags := by
  induction xs generalizing i ys s with
  | nil =>
    constructor
    · intro h
      obtain rfl := List.map_eq_nil_iff.1 h.symm
      exact ⟨[], .nil⟩
    · rintro ⟨_, h⟩
      cases h
      rfl
  | cons x xs ih =>
    have hrest : Sized (chain block) ((plan.registered (i + 1) xs).map Call.sub) := by
      have hcons := plan.registered_append i [x] xs
      rw [List.singleton_append] at hcons
      rw [hcons, List.map_append] at hsized
      exact hsized.of_sublist (List.sublist_append_right _ _)
    have hfirst : ∀ x' calls, plan i x = .ok (x', calls) →
        Sized (chain block) (calls.map Call.sub) := by
      intro x' calls hx
      rw [Plan.registered, hx, List.map_append] at hsized
      exact hsized.of_sublist (List.sublist_append_left _ _)
    have hvalue : (q.readEach block plan i (x :: xs) s).value =
        (q.readAlone block plan i x s).value ::
          (q.readEach block plan (i + 1) xs (q.readAlone block plan i x s).chain).value := rfl
    rw [hvalue]
    constructor
    · intro h
      cases ys with
      | nil => cases h
      | cons y ys =>
        obtain ⟨hy, hys⟩ := List.cons.inj h
        obtain ⟨x', calls, hx, hall, rfl⟩ := (readAlone_eq_ok_iff hchain hfirst).1 hy
        obtain ⟨flags, hfilled⟩ := (ih hrest).1 hys
        exact ⟨_, .cons hx hall hfilled⟩
    · rintro ⟨_, h⟩
      cases h with
      | cons hx hall hfilled =>
        rw [List.map_cons, (readAlone_eq_ok_iff hchain hfirst).2 ⟨_, _, hx, hall, rfl⟩,
          (ih hrest).2 ⟨_, hfilled⟩]

/-- **Strict batches and the plain loop.** A strict read in batches ends well exactly if the plain
loop succeeds on every item, and then with the same items, whatever the size of the batches is. So
it is when the batches run side by side, in any order of moves. -/
theorem batchQuery_eq_readEach (hchain : q.client.AnswersFor q.hub chain) {items : List ι}
    (hsized : Sized (chain block) ((plan.registered 0 items).map Call.sub)) {size : Nat}
    (hsize : 1 ≤ size) :
    (∀ ys s s', (q.batchQuery block size plan items s).value = .ok ys ↔
      (q.readEach block plan 0 items s').value = ys.map .ok) ∧
    (∀ initial count, items = List.replicate count initial → ∀ ys s s',
      (q.batchFetch block size plan initial count s).value = .ok ys ↔
        (q.readEach block plan 0 items s').value = ys.map .ok) ∧
    (∀ size', 1 ≤ size' → ∀ s s', (q.batchQuery block size plan items s).value.toOption =
      (q.batchQuery block size' plan items s').value.toOption) ∧
    (∀ ys s, (q.batchQuery block size plan items s).value = .ok ys →
      ys.length = items.length ∧ ∀ i x y, items[i]? = some x → ys[i]? = some y →
        ∀ s', (q.readAlone block plan i x s').value = .ok y) ∧
    ∀ p, (q.pool true block size plan items).Reaches (q.client.Gives q.hub) p →
      ((∀ t ∈ p.seats, ∃ flags, t.2.result? = some (.ok flags)) →
        ∀ s, (q.readEach block plan 0 items s).value =
          (p.seats.flatMap fun t => t.2.slots).map .ok) ∧
      ((∃ t ∈ p.seats, ∃ e, t.2.result? = some (.error e)) →
        ∀ (ys : List ι) s, (q.readEach block plan 0 items s).value ≠ ys.map .ok) := by
  have hsame : ∀ size, 1 ≤ size → ∀ ys s s',
      (q.batchQuery block size plan items s).value = .ok ys ↔
        (q.readEach block plan 0 items s').value = ys.map .ok := fun size hsize ys s s' => by
    rw [batchQuery_eq_ok_iff hchain hsize hsized, readEach_eq_ok_iff hchain hsized]
  refine ⟨hsame size hsize, ?_, ?_, ?_, ?_⟩
  · rintro initial count rfl
    exact hsame size hsize
  · intro size' hsize' s s'
    refine Option.ext fun ys => ?_
    rw [toOption_eq_some_iff, toOption_eq_some_iff, hsame size hsize ys s s,
      hsame size' hsize' ys s' s]
  · intro ys s h
    obtain ⟨flags, hfilled⟩ := (batchQuery_eq_ok_iff hchain hsize hsized).1 h
    refine ⟨hfilled.length_eq.1, fun i x y hx hy s' => ?_⟩
    obtain ⟨x', calls, hplan, hall, hy', -⟩ := hfilled.item hx
    rw [Nat.zero_add] at hplan
    rw [hy] at hy'
    refine (readAlone_eq_ok_iff hchain fun z cs hz => ?_).2
      ⟨x', calls, hplan, hall, Option.some.inj hy'⟩
    rw [← Nat.zero_add i] at hz
    exact hsized.of_sublist ((Plan.sublist_registered hx hz).map _)
  · intro p h
    have hfollows := follows_seats hchain hsize hsized h
    refine ⟨fun hok s => ?_, ?_⟩
    · have hfilled := filled_of_parts hfollows fun s hs => by
        obtain ⟨t, ht, rfl⟩ := List.mem_map.1 hs
        exact hok t ht
      rw [chunks_flatten hsize, List.map_map] at hfilled
      exact (readEach_eq_ok_iff hchain hsized).2 ⟨_, hfilled⟩
    · rintro ⟨t, ht, e, hr⟩ ys s heach
      obtain ⟨flags, hfilled⟩ := (readEach_eq_ok_iff hchain hsized).1 heach
      rw [← chunks_flatten hsize items] at hfilled
      obtain ⟨flags', hok⟩ := ok_of_filled hfollows hfilled (List.mem_map_of_mem ht) hr
      cases hok

/-- The item at an index is made by as many calls as the index says. -/
def staircase : Plan Bytes := Plan.byIndex fun i => List.replicate i (Call.keep ⟨1⟩ [UInt8.ofNat i])

/-- Items with no, one and two calls, in batches of two. -/
theorem batchQuery_staircase :
    ((ofChain .echo ⟨0⟩ 1).batchQuery .latest 2 staircase [[], [], []] ()).value =
        .ok [[], [1], [2]] ∧
      ((ofChain .echo ⟨0⟩ 1).batchFetch .latest 2 staircase [] 3 ()).value =
        .ok [[], [1], [2]] := by
  have hsized : Sized (Chain.echo .latest)
      ((staircase.registered 0 [[], [], []]).map Call.sub) :=
    ⟨by decide, by decide, by decide⟩
  obtain ⟨hquery, hfetch, -⟩ := batchQuery_eq_readEach (q := ofChain .echo ⟨0⟩ 1)
    (Chain.client_answersFor _ _) hsized (show 1 ≤ 2 by decide)
  have heach : ((ofChain .echo ⟨0⟩ 1).readEach .latest staircase 0 [[], [], []] ()).value =
      List.map .ok [[], [1], [2]] := by
    decide +kernel
  exact ⟨(hquery _ () ()).2 heach, (hfetch [] 3 rfl _ () ()).2 heach⟩

end Scheduler

end StakingSnapshot
