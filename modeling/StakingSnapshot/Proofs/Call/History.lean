import Mathlib.Data.List.Forall2
import StakingSnapshot.Proofs.Call.Conclusion
import StakingSnapshot.Proofs.Call.Slots

/-!
# A queue over time

A caller adds calls to a queue and executes it, in any order and as often as it likes. The client
may answer anything at any time.

* `Queue.Action`, `Queue.Moment.next`, `Queue.moment`: what the caller does, what becomes of the
  queue and the slots by one action, and by the first actions of many.
* `Queue.waiting`: the actions whose calls wait. It is said in terms of the actions alone.
* `Queue.Moment.pending_next` for one action, `Queue.forall₂_waiting` for many: the calls in the
  queue are those of the waiting actions, in order.
* `Queue.Moment.look_next`: only an execution changes slots, and only those that its calls fill.
* `Queue.Disciplined`: what a queue promises; `Queue.disciplined`: every queue keeps it.
-/

namespace StakingSnapshot

variable {σ S : Type}

namespace Queue

/-! ## Actions -/

/-- What a caller does with a queue. -/
inductive Action (S : Type) where
  /-- Adds the call of a method, with arguments or with call data that is already there. -/
  | add (c : Call S)
  /-- Adds a call whose result the caller looks at. -/
  | addRaw (target : Address) (data : Bytes)
  /-- Executes the waiting calls. -/
  | execute (strict : Bool) (block : BlockRef)

namespace Action

/-- The action is an execution. -/
def isExecution : Action S → Bool
  | execute .. => true
  | _ => false

/-- The call that the action adds to the queue, if it adds one. -/
def call? : Action S → Option (Call S)
  | add c => some c
  | addRaw target data => if 4 ≤ data.length then some ⟨target, data, none⟩ else none
  | execute .. => none

/-- The action, with what the caller is told. One that is no execution has no results to tell. -/
def perform (client : Client σ) (hub : Address) (q : Queue S) (slots : S) :
    Action S → Session σ (Queue S × S × Except Fault (List CallResult))
  | add c => pure (q.add c, slots, .ok [])
  | addRaw target data =>
    match q.addRaw target data with
    | .ok q' => pure (q', slots, .ok [])
    | .error e => pure (q, slots, .error e)
  | execute strict block => q.execute client hub strict block slots

end Action

theorem addRaw_of_short (q : Queue S) (target : Address) {data : Bytes} (h : data.length < 4) :
    q.addRaw target data =
      .error (.encoding s!"calldata for {target} is missing a function selector") := by
  rw [addRaw, Call.raw?, if_pos h]
  rfl

theorem addRaw_of_long (q : Queue S) (target : Address) {data : Bytes} (h : 4 ≤ data.length) :
    q.addRaw target data = .ok (q.add ⟨target, data, none⟩) := by
  rw [addRaw, Call.raw?, if_neg (Nat.not_lt.2 h)]
  rfl

/-- How things stand between two actions. -/
structure Moment (σ S : Type) where
  /-- The queue. A new one is empty. -/
  queue : Queue S := {}
  /-- The slots of all calls. -/
  slots : S
  /-- The state of the client. -/
  chain : σ

section Defs

variable (client : Client σ) (hub : Address)

/-- What an action does at a moment. -/
def Moment.act (m : Moment σ S) (a : Action S) :
    Outcome σ (Queue S × S × Except Fault (List CallResult)) :=
  a.perform client hub m.queue m.slots m.chain

/-- The moment after an action. -/
def Moment.next (m : Moment σ S) (a : Action S) : Moment σ S :=
  let o := m.act client hub a
  ⟨o.value.1, o.value.2.1, o.chain⟩

/-- The moment after the first `j` actions. -/
def moment (start : Moment σ S) (actions : List (Action S)) (j : Nat) : Moment σ S :=
  (actions.take j).foldl (Moment.next client hub) start

end Defs

/-- The call that the action at an index adds to the queue. -/
def callAt (actions : List (Action S)) (i : Nat) : Option (Call S) :=
  actions[i]?.bind Action.call?

/-- The action at an index is an execution. -/
def executesAt (actions : List (Action S)) (i : Nat) : Bool :=
  actions[i]?.any Action.isExecution

/-- Those of the first `j` actions that added a call and behind which no execution came. -/
def waiting (actions : List (Action S)) (j : Nat) : List Nat :=
  (List.range j).filter fun i =>
    (callAt actions i).isSome && (List.range j).all fun k => k ≤ i || !executesAt actions k

/-! ## One action -/

variable {client : Client σ} {hub : Address} {m : Moment σ S} {a : Action S}

/-- **One action and the queue.** An execution empties it, any other action leaves the calls and may
add one. -/
theorem Moment.pending_next : (m.next client hub a).queue.pending =
    if a.isExecution then [] else m.queue.pending ++ a.call?.toList := by
  cases a with
  | add c => rfl
  | addRaw target data =>
    by_cases h : 4 ≤ data.length
    · simp only [next, act, Action.perform, addRaw_of_long _ _ h, Session.pure_apply, Queue.add,
        Action.isExecution, Action.call?, h, if_true, Option.toList_some, Bool.false_eq_true,
        if_false]
    · simp only [next, act, Action.perform, addRaw_of_short _ _ (Nat.not_le.1 h),
        Session.pure_apply, Action.isExecution, Action.call?, h, if_false, Option.toList_none,
        Bool.false_eq_true, List.append_nil]
  | execute strict block => rfl

/-- An action that is no execution asks nothing and leaves the slots alone. -/
theorem Moment.act_of_not_execution (h : a.isExecution = false) :
    (m.act client hub a).sent = [] ∧ (m.next client hub a).slots = m.slots ∧
      (m.next client hub a).chain = m.chain := by
  cases a with
  | add c => exact ⟨rfl, rfl, rfl⟩
  | addRaw target data =>
    simp only [next, act, Action.perform]
    cases m.queue.addRaw target data with
    | ok q => exact ⟨rfl, rfl, rfl⟩
    | error e => exact ⟨rfl, rfl, rfl⟩
  | execute strict block => cases h

/-- **One action and the slots.** What one sees of them changes only by an execution of a call that
does not spare it. -/
theorem Moment.look_next {α : Type} {look : S → α}
    (h : a.isExecution = true → ∀ c ∈ m.queue.pending, c.Spares look) :
    look (m.next client hub a).slots = look m.slots := by
  cases a with
  | execute strict block =>
    exact execute_of_keeps (P := fun x => look x = look m.slots)
      (fun c hc => (h rfl c hc).keeps _) client hub strict block rfl m.chain
  | add c => rw [(act_of_not_execution rfl).2.1]
  | addRaw target data => rw [(act_of_not_execution rfl).2.1]

/-- What an execution sends. -/
theorem Moment.sent_act_execute {strict : Bool} {block : BlockRef} :
    (m.act client hub (.execute strict block)).sent =
      if m.queue.pending.isEmpty then []
      else [.aggregate hub (aggregateOf m.queue.pending) block] := by
  simp only [act, Action.perform, Queue.execute, StakingSnapshot.execute]
  split
  · rfl
  · rfl

/-- An execution of nothing. -/
theorem Moment.act_execute_of_empty {strict : Bool} {block : BlockRef}
    (h : m.queue.pending = []) :
    m.act client hub (.execute strict block) = ⟨({}, m.slots, .ok []), m.chain, [], []⟩ := by
  simp only [act, Action.perform, Queue.execute, StakingSnapshot.execute, h, List.isEmpty_nil,
    if_true]
  rfl

/-! ## Many actions -/

variable {start : Moment σ S} {actions : List (Action S)} {i j : Nat}

theorem moment_succ (h : actions[j]? = some a) :
    moment client hub start actions (j + 1) =
      (moment client hub start actions j).next client hub a := by
  rw [moment, List.take_add_one, h, List.foldl_append]
  rfl

theorem moment_succ_of_none (h : actions[j]? = none) :
    moment client hub start actions (j + 1) = moment client hub start actions j := by
  rw [moment, List.take_add_one, h, List.foldl_append]
  rfl

theorem executesAt_iff :
    executesAt actions j = true ↔ ∃ strict block, actions[j]? = some (.execute strict block) := by
  unfold executesAt
  cases actions[j]? with
  | none => simp
  | some a => cases a <;> simp [Action.isExecution]

/-- An action's call waits if no execution came after the action. -/
theorem mem_waiting_iff :
    i ∈ waiting actions j ↔ i < j ∧ (∃ c, callAt actions i = some c) ∧
      ∀ k, i < k → k < j → executesAt actions k = false := by
  have hbehind : ∀ k, (decide (k ≤ i) || !executesAt actions k) = true ↔
      (i < k → executesAt actions k = false) := by
    intro k
    rw [Bool.or_eq_true, decide_eq_true_iff, Bool.not_eq_true', ← Nat.not_lt]
    exact (Decidable.imp_iff_not_or).symm
  rw [waiting, List.mem_filter, List.mem_range, Bool.and_eq_true, Option.isSome_iff_exists,
    List.all_eq_true]
  simp only [List.mem_range, hbehind]
  constructor
  · rintro ⟨hij, hcall, hall⟩
    exact ⟨hij, hcall, fun k hik hkj => hall k hkj hik⟩
  · rintro ⟨hij, hcall, hall⟩
    exact ⟨hij, hcall, fun k hkj hik => hall k hik hkj⟩

theorem pairwise_waiting (actions : List (Action S)) (j : Nat) :
    (waiting actions j).Pairwise (· < ·) :=
  List.pairwise_lt_range.filter _

/-- After an execution no action's call waits. -/
theorem waiting_succ_of_execution (h : executesAt actions j = true) :
    waiting actions (j + 1) = [] := by
  rw [List.eq_nil_iff_forall_not_mem]
  intro i hi
  obtain ⟨hij, ⟨c, hc⟩, hall⟩ := mem_waiting_iff.1 hi
  rcases Nat.lt_succ_iff_lt_or_eq.1 hij with hlt | rfl
  · rw [hall j hlt (Nat.lt_succ_self j)] at h
    cases h
  · obtain ⟨strict, block, hexecute⟩ := executesAt_iff.1 h
    rw [callAt, hexecute] at hc
    cases hc

/-- Any other action leaves the waiting ones, and waits itself if it adds a call. -/
theorem waiting_succ (h : executesAt actions j = false) :
    waiting actions (j + 1) =
      waiting actions j ++ if (callAt actions j).isSome then [j] else [] := by
  have hall : ∀ i, ((List.range (j + 1)).all fun k => k ≤ i || !executesAt actions k) =
      (List.range j).all fun k => k ≤ i || !executesAt actions k := by
    intro i
    rw [List.range_succ, List.all_append, List.all_cons, h, Bool.not_false, Bool.or_true]
    exact Bool.and_true _
  have hlast : ((List.range j).all fun k => k ≤ j || !executesAt actions k) = true := by
    rw [List.all_eq_true]
    intro k hk
    rw [decide_eq_true (Nat.le_of_lt (List.mem_range.1 hk)), Bool.true_or]
  simp only [waiting, hall]
  rw [List.range_succ, List.filter_append, List.filter_cons, List.filter_nil, hlast,
    Bool.and_true]

/-- **Many actions and the queue.** Its calls are those of the waiting actions, in order. -/
theorem forall₂_waiting (hstart : start.queue.pending = []) (j : Nat) :
    List.Forall₂ (fun i c => callAt actions i = some c) (waiting actions j)
      (moment client hub start actions j).queue.pending := by
  induction j with
  | zero =>
    rw [moment, List.take_zero, List.foldl_nil, hstart]
    exact .nil
  | succ j ih =>
    cases ha : actions[j]? with
    | none =>
      have hexecutes : executesAt actions j = false := by rw [executesAt, ha]; rfl
      have hcall : callAt actions j = none := by rw [callAt, ha]; rfl
      rw [waiting_succ hexecutes, moment_succ_of_none ha, hcall]
      simpa using ih
    | some a =>
      have hexecutes : executesAt actions j = a.isExecution := by rw [executesAt, ha]; rfl
      have hcall : callAt actions j = a.call? := by rw [callAt, ha]; rfl
      rw [moment_succ ha, Moment.pending_next]
      cases hexecution : a.isExecution with
      | true =>
        rw [waiting_succ_of_execution (hexecutes.trans hexecution)]
        exact .nil
      | false =>
        rw [waiting_succ (hexecutes.trans hexecution), if_neg Bool.false_ne_true, hcall]
        cases hadded : a.call? with
        | none => simpa using ih
        | some c => exact List.rel_append ih (.cons (hcall.trans hadded) .nil)

/-- A call in the queue is that of a waiting action. -/
theorem exists_waiting_of_mem (hstart : start.queue.pending = []) {c : Call S}
    (h : c ∈ (moment client hub start actions j).queue.pending) :
    ∃ i ∈ waiting actions j, callAt actions i = some c := by
  obtain ⟨p, hp, rfl⟩ := List.mem_iff_get.1 h
  obtain ⟨hlen, hget⟩ := List.forall₂_iff_get.1 (forall₂_waiting hstart j)
  exact ⟨_, List.get_mem _ ⟨p, by rw [hlen]; exact p.isLt⟩, hget p _ p.isLt⟩

/-- **Many actions and the slots.** What one sees of them does not change while no execution has a
call that does not spare it. -/
theorem look_moment {α : Type} {look : S → α} (hstart : start.queue.pending = []) {j' : Nat}
    (hj : j ≤ j')
    (h : ∀ k, j ≤ k → k < j' → executesAt actions k = true → ∀ i ∈ waiting actions k, ∀ c,
      callAt actions i = some c → c.Spares look) :
    look (moment client hub start actions j').slots =
      look (moment client hub start actions j).slots := by
  induction hj with
  | refl => rfl
  | @step k hjk ih =>
    rw [← ih fun l hjl hlk => h l hjl (Nat.lt_succ_of_lt hlk)]
    cases ha : actions[k]? with
    | none => rw [moment_succ_of_none ha]
    | some a =>
      rw [moment_succ ha]
      refine Moment.look_next fun hexecution c hc => ?_
      have hexecutes : executesAt actions k = true := by rw [executesAt, ha]; exact hexecution
      obtain ⟨i, hi, hcall⟩ := exists_waiting_of_mem hstart hc
      exact h k hjk (Nat.lt_succ_self k) hexecutes i hi c hcall

/-- No call waits at two executions. -/
theorem waiting_once {j' : Nat} (h : executesAt actions j = true) (h' : executesAt actions j' = true)
    (hi : i ∈ waiting actions j) (hi' : i ∈ waiting actions j') : j = j' := by
  obtain ⟨hij, -, hall⟩ := mem_waiting_iff.1 hi
  obtain ⟨hij', -, hall'⟩ := mem_waiting_iff.1 hi'
  rcases Nat.lt_trichotomy j j' with hlt | heq | hgt
  · rw [hall' j hij hlt] at h
    cases h
  · exact heq
  · rw [hall j' hij' hgt] at h'
    cases h'

/-! ## What a queue promises -/

/-- What one looks at is the slot of the action's call: all other calls spare it. -/
def OwnSlot {α : Type} (actions : List (Action S)) (i : Nat) (look : S → α) : Prop :=
  ∀ k c, k ≠ i → callAt actions k = some c → c.Spares look

/-- What a queue promises to a caller who does the actions one after another. -/
structure Disciplined (client : Client σ) (hub : Address) (start : Moment σ S)
    (actions : List (Action S)) : Prop where
  /-- After an execution no call is left, whatever came of it. -/
  emptied : ∀ {j strict block}, actions[j]? = some (.execute strict block) →
    (moment client hub start actions (j + 1)).queue.length = 0
  /-- An execution sends the calls of the waiting actions, each at the place of its action, in one
  aggregate. -/
  sent : ∀ {j strict block}, actions[j]? = some (.execute strict block) →
    waiting actions j ≠ [] →
      ∃ calls, List.Forall₂ (fun i c => callAt actions i = some c) (waiting actions j) calls ∧
        ((moment client hub start actions j).act client hub (.execute strict block)).sent =
          [.aggregate hub ⟨false, calls.map Call.sub⟩ block]
  /-- An execution for which no action waits has no results, and does not ask the client. -/
  idle : ∀ {j strict block}, actions[j]? = some (.execute strict block) → waiting actions j = [] →
    let now := moment client hub start actions j
    now.act client hub (.execute strict block) = ⟨({}, now.slots, .ok []), now.chain, [], []⟩
  /-- Nothing but an execution sends anything. -/
  unsent : ∀ {j a}, actions[j]? = some a → a.isExecution = false →
    ((moment client hub start actions j).act client hub a).sent = []
  /-- The actions that wait are those that added a call since the last execution. -/
  waits : ∀ {i j}, i ∈ waiting actions j ↔ i < j ∧ (∃ c, callAt actions i = some c) ∧
    ∀ k, i < k → k < j → executesAt actions k = false
  /-- They wait in the order in which they came. -/
  ordered : ∀ j, (waiting actions j).Pairwise (· < ·)
  /-- So a call is sent once at most. -/
  once : ∀ {i j j'}, executesAt actions j = true → executesAt actions j' = true →
    i ∈ waiting actions j → i ∈ waiting actions j' → j = j'
  /-- Call data that is too short to name a method is refused, and nothing changes. -/
  refused : ∀ {j target data}, actions[j]? = some (.addRaw target data) → data.length < 4 →
    let now := moment client hub start actions j
    now.act client hub (.addRaw target data) = ⟨(now.queue, now.slots, .error
        (.encoding s!"calldata for {target} is missing a function selector")), now.chain, [], []⟩
  /-- Any other call is accepted and waits behind those that wait already. -/
  accepted : ∀ {j a c}, actions[j]? = some a → a.call? = some c →
    let now := moment client hub start actions j
    now.act client hub a = ⟨(⟨now.queue.pending ++ [c]⟩, now.slots, .ok []), now.chain, [], []⟩
  /-- A slot is written by no action but the execution that sends its call. -/
  written : ∀ {α : Type} {look : S → α} {i j}, OwnSlot actions i look →
    look (moment client hub start actions (j + 1)).slots ≠
      look (moment client hub start actions j).slots →
        executesAt actions j = true ∧ i ∈ waiting actions j
  /-- After that execution, whatever came of it, the slot stays as it is. -/
  spent : ∀ {α : Type} {look : S → α} {i j j'}, OwnSlot actions i look →
    executesAt actions j = true → i ∈ waiting actions j → j < j' →
      look (moment client hub start actions j').slots =
        look (moment client hub start actions (j + 1)).slots

/-- **Discipline.** Whatever the client answers, a queue that is empty at first keeps what it
promises, for all actions in any order. -/
theorem disciplined (client : Client σ) (hub : Address) (slots : S) (s : σ)
    (actions : List (Action S)) :
    Disciplined client hub { slots := slots, chain := s } actions := by
  have hstart : ({ slots := slots, chain := s } : Moment σ S).queue.pending = [] := rfl
  have hcalls : ∀ j, List.Forall₂ (fun i c => callAt actions i = some c) (waiting actions j)
      (moment client hub { slots := slots, chain := s } actions j).queue.pending :=
    forall₂_waiting hstart
  constructor
  case emptied =>
    intro j strict block ha
    rw [moment_succ ha]
    exact congrArg List.length Moment.pending_next
  case sent =>
    intro j strict block ha hwaiting
    refine ⟨_, hcalls j, ?_⟩
    rw [Moment.sent_act_execute, if_neg]
    · rfl
    · intro hempty
      have hnone := hcalls j
      rw [List.isEmpty_iff.1 hempty, List.forall₂_nil_right_iff] at hnone
      exact hwaiting hnone
  case idle =>
    intro j strict block ha hwaiting
    have hnone := hcalls j
    rw [hwaiting, List.forall₂_nil_left_iff] at hnone
    exact Moment.act_execute_of_empty hnone
  case unsent => exact fun _ h => (Moment.act_of_not_execution h).1
  case waits => exact mem_waiting_iff
  case ordered => exact pairwise_waiting actions
  case once => exact waiting_once
  case refused =>
    intro j target data _ hshort
    simp only [Moment.act, Action.perform, addRaw_of_short _ _ hshort]
    rfl
  case accepted =>
    intro j a c _ hcall
    cases a with
    | add c' =>
      cases hcall
      rfl
    | addRaw target data =>
      obtain ⟨hlong, hc⟩ := Option.ite_none_right_eq_some.1 hcall
      cases hc
      simp only [Moment.act, Action.perform, addRaw_of_long _ _ hlong]
      rfl
    | execute strict block => cases hcall
  case written =>
    intro α look i j hown hne
    by_contra hnot
    refine hne (look_moment hstart (Nat.le_succ j) fun k hjk hkj hexecutes i' hi' c hcall => ?_)
    obtain rfl : k = j := Nat.le_antisymm (Nat.le_of_lt_succ hkj) hjk
    refine hown i' c ?_ hcall
    rintro rfl
    exact hnot ⟨hexecutes, hi'⟩
  case spent =>
    intro α look i j j' hown hexecutes hi hjj'
    refine look_moment hstart hjj' fun k hjk _ hexecutes' i' hi' c hcall => ?_
    refine hown i' c ?_ hcall
    rintro rfl
    have hsame := waiting_once hexecutes hexecutes' hi hi'
    omega

/-- The first call is executed alone. The short call data is refused, so the two calls around it
wait next to each other. -/
example : waiting [.add (Call.keep ⟨1⟩ [1]), .execute true .latest, .add (Call.keep ⟨1⟩ [2]),
    .addRaw ⟨1⟩ [3], .addRaw ⟨1⟩ [4, 4, 4, 4], .execute false .latest] 5 = [2, 4] := by
  decide

end Queue

end StakingSnapshot
