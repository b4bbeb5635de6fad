import Mathlib.Data.List.Forall2
import StakingSnapshot.Proofs.Call.Slots
import StakingSnapshot.Proofs.Schedule.Batches

/-!
# Every item is visited once

To visit an item is to let it register its calls. A plan is a function, so what a read comes to does
not tell how often the plan was applied, or to which item. Items that carry a record of their visits
do tell.

* `Recorded`, `Plan.recording`: items with their records, and the plan that keeps them.
* `Call.Mirrors`, `execute_mirrors`: calls that act on a part of the slots as other calls act on
  theirs, and what an execution of the ones has to do with one of the others.
* `Scheduler.fill_recording`: records do not show in what a read does, whatever is answered and
  also when it fails.
* `Scheduler.visits_of_fill`: in a read that ends well each item was visited once, with its own
  index.
-/

namespace StakingSnapshot

variable {σ R S T ι : Type}

/-- An item and the visits to it so far, each with the index at which the item was visited and with
what it was then. -/
structure Recorded (ι : Type) where
  item : ι
  visits : List (Nat × ι)

namespace Recorded

/-- An item that has not been visited. -/
def fresh (x : ι) : Recorded ι := ⟨x, []⟩

/-- Changes the item and leaves its record alone. -/
def onItem (f : ι → ι) (x : Recorded ι) : Recorded ι := ⟨f x.item, x.visits⟩

/-- What items have become, each with a record that says that it was visited once, with its own
index and before anything else happened to it. -/
def once (items ys : List ι) : List (Recorded ι) :=
  List.zipWith (fun y (x, i) => ⟨y, [(i, x)]⟩) ys items.zipIdx

/-- Items whose records say that each was visited once. -/
theorem eq_once {items : List ι} {xs : List (Recorded ι)}
    (h : xs.map visits = items.zipIdx.map fun (x, i) => [(i, x)]) :
    xs = once items (xs.map item) := by
  unfold once
  generalize items.zipIdx = indexed at h
  induction xs generalizing indexed with
  | nil => rfl
  | cons x xs ih =>
    cases indexed with
    | nil => cases h
    | cons p indexed =>
      obtain ⟨y, i⟩ := p
      obtain ⟨hfirst, hrest⟩ := List.cons.inj h
      have hfirst : x.visits = [(i, y)] := hfirst
      rw [List.map_cons, List.zipWith_cons_cons, ← ih indexed hrest]
      simp only [← hfirst]

end Recorded

/-- The call with its answer acting on an item that has a record. -/
def Call.recorded (c : Call ι) : Call (Recorded ι) := c.within Recorded.onItem

/-- The plan for items with records. It puts each visit on the record of the item. -/
def Plan.recording (plan : Plan ι) : Plan (Recorded ι) := fun i x =>
  (plan i x.item).map fun (item, calls) =>
    (⟨item, x.visits ++ [(i, x.item)]⟩, calls.map Call.recorded)

/-! ## Calls that act on a part of the slots -/

/-- Both calls are made of the same one, and what `view` shows of the slots of the first changes as
the slots of the second do. -/
inductive Call.Mirrors (view : T → S) : Call T → Call S → Prop
  | within {R : Type} (c : Call R) {onT : (R → R) → T → T} {onS : (R → R) → S → S}
    (h : ∀ f x, view (onT f x) = onS f (view x)) : Mirrors view (c.within onT) (c.within onS)

theorem Call.within_within (c : Call R) (update : (R → R) → S → S) (update' : (S → S) → T → T) :
    (c.within update).within update' = c.within fun f => update' (update f) := by
  unfold within
  rw [Option.map_map]
  congr 2
  funext d data
  simp only [Function.comp_apply]
  cases d data with
  | error e => rfl
  | ok f => rfl

/-- A session with its value changed does nothing else. -/
theorem Session.map_apply {α β : Type} (f : α → β) (m : Session σ α) (s : σ) :
    (f <$> m) s = ⟨f (m s).value, (m s).chain, (m s).sent, (m s).log⟩ := by
  rw [map_eq_pure_bind]
  simp

section Mirrors

variable {view : T → S} {calls' : List (Call T)} {calls : List (Call S)}

theorem settle_mirrors (h : List.Forall₂ (Call.Mirrors view) calls' calls)
    (results : List CallResult) (slots : T) :
    (settle (calls'.zip results) slots).map view id =
      settle (calls.zip results) (view slots) := by
  induction h generalizing results slots with
  | nil => rfl
  | @cons c' c _ _ hc _ ih =>
    cases results with
    | nil => rfl
    | cons r results =>
      cases hc with
      | within c h =>
        -- Both read the same data, so they go on or stop together.
        simp only [List.zip_cons_cons, settle, Call.within]
        cases c.decoder with
        | none => exact ih results slots
        | some d =>
          cases r.success with
          | false => exact ih results slots
          | true =>
            cases hf : d r.data with
            | error e => simp only [Option.map_some, hf, Except.map, Prod.map_apply, id]
            | ok f => simp only [Option.map_some, hf, Except.map, ih, h]

theorem conclude_mirrors (h : List.Forall₂ (Call.Mirrors view) calls' calls) (strict : Bool)
    (slots : T) (answer : Except Fault Bytes) :
    (conclude strict calls' slots answer).map view id =
      conclude strict calls (view slots) answer := by
  unfold conclude
  rw [h.length_eq]
  cases resultsOf calls.length strict answer with
  | error e => rfl
  | ok results =>
    simp only [← settle_mirrors h results slots]
    rfl

theorem aggregateOf_mirrors (h : List.Forall₂ (Call.Mirrors view) calls' calls) :
    aggregateOf calls' = aggregateOf calls := by
  unfold aggregateOf
  congr 1
  induction h with
  | nil => rfl
  | cons hc _ ih =>
    cases hc
    rw [List.map_cons, List.map_cons, ih]
    rfl

/-- An execution of the calls on more slots is, as far as `view` shows, that of the others. -/
theorem execute_mirrors (h : List.Forall₂ (Call.Mirrors view) calls' calls) (client : Client σ)
    (hub : Address) (strict : Bool) (block : BlockRef) (slots : T) :
    Prod.map view id <$> execute client hub strict block calls' slots =
      execute client hub strict block calls (view slots) := by
  have hempty : calls'.isEmpty = calls.isEmpty := by
    cases h with
    | nil => rfl
    | cons _ _ => rfl
  unfold execute
  rw [hempty, aggregateOf_mirrors h]
  split
  · rw [map_pure]
    rfl
  · simp only [map_bind, map_pure, conclude_mirrors h]

end Mirrors

/-! ## Registration with records -/

/-- Changing an entry changes what is seen of that entry. -/
theorem map_modify (view : T → S) (f : T → T) (g : S → S) (h : ∀ x, view (f x) = g (view x))
    (i : Nat) (xs : List T) : (xs.modify i f).map view = (xs.map view).modify i g := by
  refine List.ext_getElem? fun j => ?_
  simp only [List.getElem?_map, List.getElem?_modify]
  by_cases hij : i = j
  · cases xs[j]? <;> simp [hij, h]
  · cases xs[j]? <;> simp [hij]

theorem Call.onItem_recorded (i : Nat) (c : Call ι) :
    c.recorded.onItem i = c.within fun f xs => xs.modify i (Recorded.onItem f) :=
  within_within c _ _

/-- The items change as they do without records. -/
theorem Call.mirrors_recorded (i : Nat) (c : Call ι) :
    (c.recorded.onItem i).Mirrors (List.map Recorded.item) (c.onItem i) := by
  rw [onItem_recorded]
  exact .within c fun f => map_modify Recorded.item (Recorded.onItem f) f (fun _ => rfl) i

/-- No answer changes a record. -/
theorem Call.keeps_visits (i : Nat) (c : Call ι) (visits : List (List (Nat × ι))) :
    (c.recorded.onItem i).Keeps fun xs => xs.map Recorded.visits = visits := by
  rw [onItem_recorded]
  rintro d hd data f hf xs rfl
  obtain ⟨d, -, rfl⟩ := Option.map_eq_some_iff.1 hd
  cases hdata : d data with
  | error e => simp only [hdata, Except.map, reduceCtorEq] at hf
  | ok g =>
    simp only [hdata, Except.map, Except.ok.injEq] at hf
    subst hf
    have hmodify := map_modify Recorded.visits (Recorded.onItem g) id (fun _ => rfl) i xs
    rwa [List.modify_id] at hmodify

theorem Plan.mirrors_spread (groups : List (List (Call ι))) :
    List.Forall₂ (Call.Mirrors (List.map Recorded.item))
      (spread (groups.map (List.map Call.recorded))) (spread groups) := by
  -- `n` is the index of the first group.
  suffices h : ∀ n, List.Forall₂ (Call.Mirrors (List.map Recorded.item))
      (spreadFrom n (groups.map (List.map Call.recorded))) (spreadFrom n groups) from h 0
  induction groups with
  | nil => exact fun n => .nil
  | cons calls groups ih =>
    intro n
    rw [List.map_cons, spreadFrom_cons, spreadFrom_cons, List.map_map]
    refine List.rel_append ?_ (ih (n + 1))
    rw [List.forall₂_map_left_iff, List.forall₂_map_right_iff, List.forall₂_same]
    exact fun c _ => Call.mirrors_recorded n c

namespace Plan

/-- Items with records register the same calls, or fail with the same fault. -/
theorem register_recording (plan : Plan ι) (i : Nat) (xs : List (Recorded ι)) :
    (plan.recording.register i xs).1.map Recorded.item =
        (plan.register i (xs.map Recorded.item)).1 ∧
      (plan.recording.register i xs).2 = (plan.register i (xs.map Recorded.item)).2.map
        (List.map (List.map Call.recorded)) := by
  induction xs generalizing i with
  | nil => exact ⟨rfl, rfl⟩
  | cons x xs ih =>
    obtain ⟨hitems, hcalls⟩ := ih (i + 1)
    cases hx : plan i x.item with
    | error e =>
      have hx' : plan.recording i x = .error e := by rw [recording, hx]; rfl
      rw [register, List.map_cons, register, hx, hx']
      exact ⟨rfl, rfl⟩
    | ok p =>
      obtain ⟨item, calls⟩ := p
      have hx' : plan.recording i x =
          .ok (⟨item, x.visits ++ [(i, x.item)]⟩, calls.map Call.recorded) := by
        rw [recording, hx]
        rfl
      rw [register, List.map_cons, register, hx, hx']
      simp only [List.map_cons, hitems, hcalls, true_and]
      cases (plan.register (i + 1) (xs.map Recorded.item)).2 with
      | error e => rfl
      | ok groups => rfl

/-- A call that is spread over the items is one that some item registered. -/
theorem exists_of_mem_spread {groups : List (List (Call S))} {c : Call (List S)}
    (h : c ∈ spread groups) : ∃ i, ∃ c₀ ∈ groups.flatten, c = c₀.onItem i := by
  obtain ⟨⟨calls, i⟩, hcalls, hc⟩ := List.mem_flatMap.1 h
  obtain ⟨c₀, hc₀, rfl⟩ := List.mem_map.1 hc
  exact ⟨i, c₀, List.mem_flatten_of_mem (List.fst_mem_of_mem_zipIdx hcalls) hc₀, rfl⟩

/-- Items with records register calls that leave the records alone. -/
theorem exists_recorded {plan : Plan ι} {i : Nat} {xs items : List (Recorded ι)}
    {groups : List (List (Call (Recorded ι)))}
    (h : plan.recording.register i xs = (items, .ok groups)) {c : Call (Recorded ι)}
    (hc : c ∈ groups.flatten) : ∃ c₀ : Call ι, c = c₀.recorded := by
  have hcalls := (plan.register_recording i xs).2
  rw [h] at hcalls
  cases hr : (plan.register i (xs.map Recorded.item)).2 with
  | error e =>
    rw [hr] at hcalls
    cases hcalls
  | ok groups' =>
    rw [hr] at hcalls
    obtain rfl := Except.ok.inj hcalls
    rw [← List.map_flatten] at hc
    obtain ⟨c₀, -, rfl⟩ := List.mem_map.1 hc
    exact ⟨c₀, rfl⟩

/-- The records after a visit to each item, of which the first has the given index. -/
def visited (i : Nat) (xs : List (Recorded ι)) : List (List (Nat × ι)) :=
  (xs.zipIdx i).map fun (x, j) => x.visits ++ [(j, x.item)]

theorem visited_append (i : Nat) (xs xs' : List (Recorded ι)) :
    visited i (xs ++ xs') = visited i xs ++ visited (i + xs.length) xs' := by
  rw [visited, List.zipIdx_append, List.map_append]
  rfl

theorem visited_fresh (items : List ι) :
    visited 0 (items.map Recorded.fresh) = items.zipIdx.map fun (x, i) => [(i, x)] := by
  rw [visited, List.zipIdx_map, List.map_map]
  rfl

/-- Each item that registers its calls is visited. -/
theorem visits_of_register {plan : Plan ι} {i : Nat} {xs items : List (Recorded ι)}
    {groups : List (List (Call (Recorded ι)))}
    (h : plan.recording.register i xs = (items, .ok groups)) :
    items.map Recorded.visits = visited i xs := by
  induction xs generalizing i items groups with
  | nil =>
    cases h
    rfl
  | cons x xs ih =>
    obtain ⟨x', calls, items', groups', hx, hr, rfl, rfl⟩ := register_cons_eq_ok_iff.1 h
    unfold recording at hx
    cases hplan : plan i x.item with
    | error e =>
      rw [hplan] at hx
      cases hx
    | ok p =>
      rw [hplan] at hx
      cases hx
      rw [List.map_cons, ih hr]
      rfl

end Plan

/-! ## One job -/

namespace Job

variable {client : Client σ} {hub : Address} {strict : Bool} {block : BlockRef} {plan : Plan ι}
  {start : Nat} {xs : List (Recorded ι)}

/-- Records do not show in what a job does. -/
theorem run_recording :
    Prod.map (List.map Recorded.item) id <$>
        (Job.ofItems strict block plan.recording start).run client hub xs =
      (Job.ofItems strict block plan start).run client hub (xs.map Recorded.item) := by
  obtain ⟨hitems, hcalls⟩ := plan.register_recording start xs
  unfold run ofItems
  rcases hr : plan.recording.register start xs with ⟨items', r'⟩
  rcases hr' : plan.register start (xs.map Recorded.item) with ⟨items, r⟩
  rw [hr, hr'] at hitems hcalls
  cases r with
  | error e =>
    simp only at hitems hcalls
    subst hitems hcalls
    simp only [hr, hr', Except.map, map_pure, Prod.map_apply, id]
  | ok groups =>
    simp only at hitems hcalls
    subst hitems hcalls
    have hgroups : (groups.map (List.map Call.recorded)).map List.length =
        groups.map List.length := by
      simp
    simp only [hr, hr', Except.map, map_bind, map_pure, hgroups,
      ← execute_mirrors (Plan.mirrors_spread groups), bind_map_left]
    rfl

/-- A property that holds once the calls are registered, and which these keep, holds when the job
has ended well. -/
theorem run_of_keeps {P : S → Prop} {job : Job S} {slots slots' : S} {s : σ} {flags : List Bool}
    (hprepare : ∀ x prepared, job.prepare slots = (x, .ok prepared) →
      P x ∧ ∀ c ∈ prepared.calls, c.Keeps P)
    (h : (job.run client hub slots s).value = (slots', .ok flags)) : P slots' := by
  unfold run at h
  rcases hp : job.prepare slots with ⟨x, e | prepared⟩
  · rw [hp] at h
    cases h
  · rw [hp] at h
    obtain ⟨hx, hcalls⟩ := hprepare x prepared hp
    obtain ⟨rfl, -⟩ := Prod.mk.inj h
    exact execute_of_keeps hcalls client hub job.strict job.block hx s

/-- A job that ends well has visited each of its items once. -/
theorem visits_of_run {s : σ} {ys : List (Recorded ι)} {flags : List Bool}
    (h : ((Job.ofItems strict block plan.recording start).run client hub xs s).value =
      (ys, .ok flags)) :
    ys.map Recorded.visits = Plan.visited start xs := by
  -- The registration makes the visits, and no answer changes a record.
  refine run_of_keeps (P := fun ys => ys.map Recorded.visits = Plan.visited start xs) ?_ h
  intro items prepared hprepare
  obtain ⟨groups, hr, rfl⟩ := prepare_ofItems_eq_ok_iff.1 hprepare
  refine ⟨Plan.visits_of_register hr, fun c hc => ?_⟩
  obtain ⟨i, c, hmem, rfl⟩ := Plan.exists_of_mem_spread hc
  obtain ⟨c, rfl⟩ := Plan.exists_recorded hr hmem
  exact Call.keeps_visits i c _

end Job

namespace Scheduler

variable {q : Scheduler σ} {strict : Bool} {block : BlockRef} {size : Nat} {plan : Plan ι}

theorem runChunks_recording {number start : Nat} {cs : List (List (Recorded ι))} :
    Prod.map (List.map Recorded.item) id <$>
        q.runChunks strict block plan.recording number start cs =
      q.runChunks strict block plan number start (cs.map (List.map Recorded.item)) := by
  induction cs generalizing number start with
  | nil => rw [runChunks, List.map_nil, runChunks, map_pure]; rfl
  | cons c cs ih =>
    rw [runChunks, List.map_cons, runChunks, run, run, ← Job.run_recording, List.length_map]
    simp only [map_bind, bind_map_left]
    -- What the first batch came to, seen without records, decides how both go on.
    refine bind_congr fun p => ?_
    obtain ⟨c', e | flags⟩ := p
    · simp [← List.map_flatten]
    · simp [← ih]

/-- The batches of what is seen of items. -/
theorem chunks_map (view : T → S) (hsize : 0 < size) (xs : List T) :
    chunks size (xs.map view) = (chunks size xs).map (List.map view) := by
  induction hn : xs.length using Nat.strongRecOn generalizing xs with
  | _ n ih =>
    by_cases hnil : xs = []
    · rw [hnil, List.map_nil, chunks_nil, chunks_nil, List.map_nil]
    · have hlen := List.length_pos_iff.2 hnil
      have hdrop := ih (xs.drop size).length (by rw [List.length_drop]; omega) _ rfl
      have hnil' : xs.map view ≠ [] := by rwa [Ne, List.map_eq_nil_iff]
      rw [chunks_of_pos hsize hnil, chunks_of_pos hsize hnil', List.map_cons, ← List.map_take,
        ← List.map_drop, hdrop]

/-- **Records do not show.** -/
theorem fill_recording {xs : List (Recorded ι)} :
    Prod.map (List.map Recorded.item) id <$> q.fill strict block size plan.recording xs =
      q.fill strict block size plan (xs.map Recorded.item) := by
  unfold fill
  split
  case isTrue => rw [map_pure]; rfl
  case isFalse hsize => rw [chunks_map _ (Nat.pos_of_ne_zero hsize), runChunks_recording]

theorem visits_of_runChunks {number start : Nat} {cs : List (List (Recorded ι))} {s : σ}
    {ys : List (Recorded ι)} {flags : List Bool}
    (h : (q.runChunks strict block plan.recording number start cs s).value = (ys, .ok flags)) :
    ys.map Recorded.visits = Plan.visited start cs.flatten := by
  induction cs generalizing number start s ys flags with
  | nil =>
    cases h
    rfl
  | cons c cs ih =>
    rcases hrun : (q.run (Job.ofItems strict block plan.recording start) c s).value
      with ⟨c', e | flags'⟩
    · rw [runChunks_cons_of_error hrun] at h
      cases h
    · rw [runChunks_cons_of_ok hrun] at h
      simp only [Prod.mk.injEq] at h
      obtain ⟨rfl, hflags⟩ := h
      rcases hrest : (q.runChunks strict block plan.recording (number + 1) (start + c.length) cs
        (q.run (Job.ofItems strict block plan.recording start) c s).chain).value with ⟨rest, r⟩
      rw [hrest] at hflags
      cases r with
      | error e => cases hflags
      | ok flags'' =>
        rw [List.map_append, Job.visits_of_run hrun, ih hrest, List.flatten_cons,
          Plan.visited_append]

/-- **One visit to each item.** In a read that ends well, whatever is answered, each item was
visited once more, with its own index. -/
theorem visits_of_fill {xs : List (Recorded ι)} {s : σ} {ys : List (Recorded ι)}
    {flags : List Bool}
    (h : (q.fill strict block size plan.recording xs s).value = (ys, .ok flags)) :
    ys.map Recorded.visits = Plan.visited 0 xs := by
  unfold fill at h
  split at h
  case isTrue => cases h
  case isFalse hsize =>
    rw [visits_of_runChunks h, chunks_flatten (Nat.pos_of_ne_zero hsize)]

/-- A read that ends well does just the same with items that have a record. In the end each of them
was visited once. -/
theorem fill_fresh {items ys : List ι} {s : σ} {flags : List Bool}
    (h : (q.fill strict block size plan items s).value = (ys, .ok flags)) :
    let o := q.fill strict block size plan items s
    q.fill strict block size plan.recording (items.map Recorded.fresh) s =
      ⟨(Recorded.once items ys, .ok flags), o.chain, o.sent, o.log⟩ := by
  have hitems : (items.map Recorded.fresh).map Recorded.item = items := by
    rw [List.map_map]
    exact List.map_id items
  have hsame : Prod.map (List.map Recorded.item) id <$>
      q.fill strict block size plan.recording (items.map Recorded.fresh) =
        q.fill strict block size plan items := by
    rw [fill_recording, hitems]
  have houtcome := congrFun hsame s
  rw [Session.map_apply] at houtcome
  rcases hr : q.fill strict block size plan.recording (items.map Recorded.fresh) s
    with ⟨⟨xs, r⟩, s', sent, log⟩
  rw [hr] at houtcome
  rw [← houtcome] at h ⊢
  obtain ⟨rfl, rfl⟩ := Prod.mk.inj h
  have hvisits := visits_of_fill (congrArg Outcome.value hr)
  rw [Plan.visited_fresh] at hvisits
  rw [← Recorded.eq_once hvisits]

end Scheduler

end StakingSnapshot
