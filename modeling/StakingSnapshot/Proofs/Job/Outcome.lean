import StakingSnapshot.Proofs.Call.Settlement
import StakingSnapshot.Job

/-!
# What a job comes to against a chain

* `Job.outcome`: the slots and the result of a job whose calls are answered by a function;
  `Job.run_value`: a run against a chain has this value, whatever state the client is in.
* `Plan.Filled`: what becomes of items one by one, without batches, and whether all calls of each
  succeeded.
* `outcome_ofItems_eq_ok_iff`: the job of a stretch of items ends well exactly if these can be
  filled, and then with the same items and flags. No item gets an answer to another item's call.
-/

namespace StakingSnapshot

variable {σ S ι : Type}

/-! ## Groups and items -/

/-- The flags of groups of calls, for the answers of all of them in one list. -/
theorem groupFlags_flatten (answer : SubCall → CallResult) (groups : List (List (Call S))) :
    groupFlags (groups.map List.length) (answersTo answer groups.flatten) =
      groups.map fun calls => calls.all fun c => (answer c.sub).success := by
  induction groups with
  | nil => rfl
  | cons calls groups ih =>
    have hanswers : answersTo answer (calls :: groups).flatten =
        answersTo answer calls ++ answersTo answer groups.flatten := by
      simp only [answersTo, List.flatten_cons, List.map_append]
    have hlen : calls.length = (answersTo answer calls).length := (List.length_map _).symm
    rw [List.map_cons, groupFlags, hanswers, hlen, List.take_left, List.drop_left, ih,
      List.map_cons, answersTo, List.all_map]
    rfl

/-- The calls of items whose indices start at `n`, each acting on its own item of the list. -/
def Plan.spreadFrom (n : Nat) (groups : List (List (Call ι))) : List (Call (List ι)) :=
  (groups.zipIdx n).flatMap fun (calls, i) => calls.map (Call.onItem i)

theorem Plan.spreadFrom_cons (n : Nat) (calls : List (Call ι)) (groups : List (List (Call ι))) :
    Plan.spreadFrom n (calls :: groups) =
      calls.map (Call.onItem n) ++ Plan.spreadFrom (n + 1) groups := rfl

/-- Spreading calls over the list does not change what is sent. -/
theorem Plan.map_sub_spreadFrom (n : Nat) (groups : List (List (Call ι))) :
    (Plan.spreadFrom n groups).map Call.sub = groups.flatten.map Call.sub := by
  induction groups generalizing n with
  | nil => rfl
  | cons calls groups ih =>
    rw [Plan.spreadFrom_cons, List.map_append, List.map_map, ih, List.flatten_cons,
      List.map_append]
    rfl

/-- A read goes on with the answers to spread calls exactly if it does with those to the calls
themselves. -/
theorem Plan.passes_spreadFrom {strict : Bool} {answer : SubCall → CallResult} {n : Nat}
    {groups : List (List (Call ι))} :
    (∀ c ∈ Plan.spreadFrom n groups, c.Passes strict (answer c.sub)) ↔
      ∀ calls ∈ groups, ∀ c ∈ calls, c.Passes strict (answer c.sub) := by
  induction groups generalizing n with
  | nil => simp [Plan.spreadFrom]
  | cons calls groups ih =>
    rw [Plan.spreadFrom_cons, List.forall_mem_append, ih, List.forall_mem_cons,
      List.forall_mem_map]
    simp only [Call.sub_onItem, Call.passes_onItem]

/-- What is so of all calls is so of them when they are spread over a list. -/
theorem Plan.forall_spreadFrom {P : Call ι → Prop} {Q : Call (List ι) → Prop}
    (hPQ : ∀ c i, P c → Q (c.onItem i)) {groups : List (List (Call ι))}
    (h : ∀ calls ∈ groups, ∀ c ∈ calls, P c) (n : Nat) : ∀ c ∈ spreadFrom n groups, Q c := by
  induction groups generalizing n with
  | nil => exact fun _ h => nomatch h
  | cons calls groups ih =>
    obtain ⟨hcalls, hgroups⟩ := List.forall_mem_cons.1 h
    rw [spreadFrom_cons, List.forall_mem_append, List.forall_mem_map]
    exact ⟨fun c hc => hPQ c n (hcalls c hc), ih hgroups (n + 1)⟩

/-- Calls spread over one item act on this item only. -/
theorem applied_map_onItem (answer : SubCall → CallResult) (front : List ι) (x : ι)
    (back : List ι) (calls : List (Call ι)) :
    applied answer (calls.map (Call.onItem front.length)) (front ++ x :: back) =
      front ++ applied answer calls x :: back := by
  induction calls generalizing x with
  | nil => rfl
  | cons c calls ih =>
    rw [List.map_cons, applied_cons, Call.sub_onItem, Call.effect_onItem, ih, applied_cons]

/-- Calls spread over all items act on each item as its own calls alone do. -/
theorem applied_spreadFrom (answer : SubCall → CallResult) (front items : List ι)
    (groups : List (List (Call ι))) (hlen : items.length = groups.length) :
    applied answer (Plan.spreadFrom front.length groups) (front ++ items) =
      front ++ List.zipWith (fun x calls => applied answer calls x) items groups := by
  induction groups generalizing front items with
  | nil =>
    obtain rfl := List.eq_nil_of_length_eq_zero hlen
    rfl
  | cons calls groups ih =>
    obtain ⟨x, items, rfl⟩ := List.exists_cons_of_length_eq_add_one hlen
    have hrest := ih (front ++ [applied answer calls x]) items (Nat.succ.inj hlen)
    rw [List.length_append, List.append_assoc, List.append_assoc] at hrest
    rw [Plan.spreadFrom_cons, applied_append, applied_map_onItem]
    exact hrest

/-! ## The outcome of a job -/

namespace Job

/-- The slots and the result of a job whose calls are answered by a function. -/
def outcome (answer : SubCall → CallResult) (job : Job S) (slots : S) :
    S × Except Fault (List Bool) :=
  match job.prepare slots with
  | (slots', .error e) => (slots', .error e)
  | (slots', .ok prepared) =>
    let (slots'', r) :=
      settleAll job.strict prepared.calls (answersTo answer prepared.calls) slots'
    (slots'', r.map (groupFlags prepared.groups))

/-- The calls that a job registers for these slots fit into a machine. -/
def Fits (chain : Chain) (job : Job S) (slots : S) : Prop :=
  ∀ slots' prepared, job.prepare slots = (slots', .ok prepared) →
    Sized (chain job.block) (prepared.calls.map Call.sub)

/-- **A job against a chain.** Its value is the outcome for the chain's answers. -/
theorem run_value {client : Client σ} {hub : Address} {chain : Chain}
    (hchain : client.AnswersFor hub chain) {job : Job S} {slots : S} (hfits : job.Fits chain slots)
    (s : σ) :
    (job.run client hub slots s).value = job.outcome (chain job.block) slots := by
  unfold run outcome
  split
  case h_1 slots' e hprepare => rw [hprepare]; rfl
  case h_2 slots' prepared hprepare =>
    rw [hprepare]
    simp only [Session.bind_apply, Session.pure_apply,
      execute_value hchain (hfits slots' prepared hprepare)]

/-- A job ends well exactly if it can register its calls and the read goes on with the answer to
each of them. -/
theorem outcome_eq_ok_iff {answer : SubCall → CallResult} {job : Job S} {slots slots' : S}
    {flags : List Bool} :
    job.outcome answer slots = (slots', .ok flags) ↔
      ∃ x prepared, job.prepare slots = (x, .ok prepared) ∧
        (∀ c ∈ prepared.calls, c.Passes job.strict (answer c.sub)) ∧
        slots' = applied answer prepared.calls x ∧
        flags = groupFlags prepared.groups (answersTo answer prepared.calls) := by
  unfold outcome
  rcases hp : job.prepare slots with ⟨x, r⟩
  cases r with
  | error e => simp
  | ok prepared =>
    have hsettle : ∀ y results, settleAll job.strict prepared.calls
        (answersTo answer prepared.calls) x = (y, .ok results) ↔ _ :=
      fun y results => settleAll_eq_ok_iff
    constructor
    · intro h
      rcases hs : settleAll job.strict prepared.calls (answersTo answer prepared.calls) x
        with ⟨y, r⟩
      simp only [hs] at h
      cases r with
      | error e => cases h
      | ok results =>
        cases h
        obtain ⟨hall, rfl, rfl⟩ := (hsettle _ results).1 hs
        exact ⟨x, prepared, rfl, hall, rfl, rfl⟩
    · rintro ⟨_, _, heq, hall, rfl, rfl⟩
      cases heq
      simp only [(hsettle _ _).2 ⟨hall, rfl, rfl⟩]
      rfl

end Job

/-! ## Items one by one -/

namespace Plan

/-- Items from index `i` on become `ys`, and `flags` says of each whether all its calls
succeeded. Each item is filled by the answers to its own calls alone. -/
inductive Filled (answer : SubCall → CallResult) (strict : Bool) (plan : Plan ι) :
    Nat → List ι → List ι → List Bool → Prop
  | nil {i : Nat} : Filled answer strict plan i [] [] []
  | cons {i : Nat} {x x' : ι} {calls : List (Call ι)} {xs ys : List ι} {flags : List Bool} :
    plan i x = .ok (x', calls) → (∀ c ∈ calls, c.Passes strict (answer c.sub)) →
    Filled answer strict plan (i + 1) xs ys flags →
    Filled answer strict plan i (x :: xs) (applied answer calls x' :: ys)
      ((calls.all fun c => (answer c.sub).success) :: flags)

/-- The calls of items from index `i` on, in order. An item that cannot register its calls has
none. -/
def registered (plan : Plan ι) : Nat → List ι → List (Call ι)
  | _, [] => []
  | i, x :: xs =>
    match plan i x with
    | .ok (_, calls) => calls ++ registered plan (i + 1) xs
    | .error _ => registered plan (i + 1) xs

theorem registered_append (plan : Plan ι) (i : Nat) (xs ys : List ι) :
    plan.registered i (xs ++ ys) =
      plan.registered i xs ++ plan.registered (i + xs.length) ys := by
  induction xs generalizing i with
  | nil => rfl
  | cons x xs ih =>
    have hindex : i + (x :: xs).length = i + 1 + xs.length := by
      rw [List.length_cons]
      omega
    rw [List.cons_append, registered, registered, ih, hindex]
    split
    · rw [List.append_assoc]
    · rfl

/-- A successful registration says what every item became and which calls it has. -/
theorem register_cons_eq_ok_iff {plan : Plan ι} {i : Nat} {x : ι} {xs items : List ι}
    {groups : List (List (Call ι))} :
    plan.register i (x :: xs) = (items, .ok groups) ↔
      ∃ x' calls items' groups', plan i x = .ok (x', calls) ∧
        plan.register (i + 1) xs = (items', .ok groups') ∧ items = x' :: items' ∧
          groups = calls :: groups' := by
  rw [register]
  cases hx : plan i x with
  | error e => simp
  | ok p =>
    obtain ⟨x', calls⟩ := p
    rcases hr : plan.register (i + 1) xs with ⟨items', r⟩
    cases r with
    | error e => simp [Except.map]
    | ok groups' =>
      simp only [Except.map, Prod.mk.injEq, Except.ok.injEq]
      constructor
      · rintro ⟨rfl, rfl⟩
        exact ⟨_, _, _, _, ⟨rfl, rfl⟩, ⟨rfl, rfl⟩, rfl, rfl⟩
      · rintro ⟨_, _, _, _, ⟨rfl, rfl⟩, ⟨rfl, rfl⟩, rfl, rfl⟩
        exact ⟨rfl, rfl⟩

theorem flatten_of_register {plan : Plan ι} {i : Nat} {xs items : List ι}
    {groups : List (List (Call ι))} (h : plan.register i xs = (items, .ok groups)) :
    items.length = groups.length ∧ plan.registered i xs = groups.flatten := by
  induction xs generalizing i items groups with
  | nil =>
    cases h
    exact ⟨rfl, rfl⟩
  | cons x xs ih =>
    obtain ⟨x', calls, items', groups', hx, hr, rfl, rfl⟩ := register_cons_eq_ok_iff.1 h
    obtain ⟨hlen, hflat⟩ := ih hr
    refine ⟨by rw [List.length_cons, List.length_cons, hlen], ?_⟩
    rw [registered, hx, List.flatten_cons, ← hflat]

/-- What is so of all calls that a plan can register is so of those that it did register. -/
theorem forall_of_register {plan : Plan ι} {P : Call ι → Prop}
    (h : ∀ i x x' calls, plan i x = .ok (x', calls) → ∀ c ∈ calls, P c) {i : Nat}
    {xs items : List ι} {groups : List (List (Call ι))}
    (hr : plan.register i xs = (items, .ok groups)) : ∀ calls ∈ groups, ∀ c ∈ calls, P c := by
  induction xs generalizing i items groups with
  | nil =>
    cases hr
    exact fun _ h => nomatch h
  | cons x xs ih =>
    obtain ⟨x', calls, items', groups', hx, hr', rfl, rfl⟩ := register_cons_eq_ok_iff.1 hr
    exact List.forall_mem_cons.2 ⟨h i x x' calls hx, ih hr'⟩

/-- Items are filled by what they registered. -/
theorem filled_iff_register {answer : SubCall → CallResult} {strict : Bool} {plan : Plan ι}
    {i : Nat} {xs ys : List ι} {flags : List Bool} :
    Filled answer strict plan i xs ys flags ↔
      ∃ items groups, plan.register i xs = (items, .ok groups) ∧
        (∀ calls ∈ groups, ∀ c ∈ calls, c.Passes strict (answer c.sub)) ∧
        ys = List.zipWith (fun x calls => applied answer calls x) items groups ∧
        flags = groups.map fun calls => calls.all fun c => (answer c.sub).success := by
  constructor
  · intro h
    induction h with
    | nil => exact ⟨[], [], rfl, by simp, rfl, rfl⟩
    | cons hx hall _ ih =>
      obtain ⟨items, groups, hr, hgroups, rfl, rfl⟩ := ih
      exact ⟨_, _, register_cons_eq_ok_iff.2 ⟨_, _, _, _, hx, hr, rfl, rfl⟩,
        List.forall_mem_cons.2 ⟨hall, hgroups⟩, rfl, rfl⟩
  · rintro ⟨items, groups, hr, hgroups, rfl, rfl⟩
    induction xs generalizing i items groups with
    | nil =>
      cases hr
      exact .nil
    | cons x xs ih =>
      obtain ⟨x', calls, items', groups', hx, hr', rfl, rfl⟩ := register_cons_eq_ok_iff.1 hr
      obtain ⟨hall, hgroups'⟩ := List.forall_mem_cons.1 hgroups
      exact .cons hx hall (ih items' groups' hr' hgroups')

end Plan

/-- What the job of a stretch of items prepares is what these registered. -/
theorem Job.prepare_ofItems_eq_ok_iff {strict : Bool} {block : BlockRef} {plan : Plan ι}
    {start : Nat} {xs items : List ι} {prepared : Prepared (List ι)} :
    (Job.ofItems strict block plan start).prepare xs = (items, .ok prepared) ↔
      ∃ groups, plan.register start xs = (items, .ok groups) ∧
        prepared = ⟨Plan.spread groups, groups.map List.length⟩ := by
  unfold Job.ofItems
  rcases hr : plan.register start xs with ⟨items', r⟩
  simp only [hr]
  cases r with
  | error e => simp [Except.map]
  | ok groups =>
    simp only [Except.map, Prod.mk.injEq, Except.ok.injEq]
    constructor
    · rintro ⟨rfl, rfl⟩
      exact ⟨groups, ⟨rfl, rfl⟩, rfl⟩
    · rintro ⟨_, ⟨rfl, rfl⟩, rfl⟩
      exact ⟨rfl, rfl⟩

/-- **The job of a stretch of items.** It ends well exactly if the items can be filled one by
one. -/
theorem Job.outcome_ofItems_eq_ok_iff {answer : SubCall → CallResult} {strict : Bool}
    {block : BlockRef} {plan : Plan ι} {start : Nat} {xs ys : List ι} {flags : List Bool} :
    (Job.ofItems strict block plan start).outcome answer xs = (ys, .ok flags) ↔
      plan.Filled answer strict start xs ys flags := by
  rw [Job.outcome_eq_ok_iff, Plan.filled_iff_register]
  -- Both sides ask for the same registration; they differ in how its calls are laid out.
  have hgroups : ∀ items groups, plan.register start xs = (items, .ok groups) →
      applied answer (Plan.spread groups) items =
          List.zipWith (fun x calls => applied answer calls x) items groups ∧
        groupFlags (groups.map List.length) (answersTo answer (Plan.spread groups)) =
          groups.map fun calls => calls.all fun c => (answer c.sub).success := by
    intro items groups hr
    have hanswers : answersTo answer (Plan.spread groups) = answersTo answer groups.flatten := by
      have := congrArg (List.map answer) (Plan.map_sub_spreadFrom 0 groups)
      rwa [List.map_map, List.map_map] at this
    refine ⟨applied_spreadFrom answer [] items groups (Plan.flatten_of_register hr).1, ?_⟩
    rw [hanswers, groupFlags_flatten]
  constructor
  · rintro ⟨items, prepared, hprepare, hall, rfl, rfl⟩
    obtain ⟨groups, hr, rfl⟩ := Job.prepare_ofItems_eq_ok_iff.1 hprepare
    obtain ⟨hitems, hflags⟩ := hgroups items groups hr
    exact ⟨items, groups, hr, Plan.passes_spreadFrom.1 hall, hitems, hflags⟩
  · rintro ⟨items, groups, hr, hall, rfl, rfl⟩
    obtain ⟨hitems, hflags⟩ := hgroups items groups hr
    exact ⟨items, _, Job.prepare_ofItems_eq_ok_iff.2 ⟨groups, hr, rfl⟩,
      Plan.passes_spreadFrom.2 hall, hitems.symm, hflags.symm⟩

namespace Job

variable {chain : Chain} {strict : Bool} {block : BlockRef}

/-- The job of a stretch of items fits into a machine if all their calls do. -/
theorem fits_ofItems {plan : Plan ι} {start : Nat} {xs : List ι}
    (h : Sized (chain block) ((plan.registered start xs).map Call.sub)) :
    (Job.ofItems strict block plan start).Fits chain xs := by
  intro items prepared hprepare
  obtain ⟨groups, hr, rfl⟩ := prepare_ofItems_eq_ok_iff.1 hprepare
  rw [(Plan.flatten_of_register hr).2, ← Plan.map_sub_spreadFrom 0 groups] at h
  exact h

/-- The job of given calls fits into a machine if these do. -/
theorem fits_ofCalls {calls : List (Call S)} {slots : S}
    (h : Sized (chain block) (calls.map Call.sub)) :
    (Job.ofCalls strict block (.ok calls)).Fits chain slots := by
  intro slots' prepared hprepare
  cases hprepare
  exact h

end Job

end StakingSnapshot
