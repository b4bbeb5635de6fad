import Mathlib.Logic.Function.Basic
import StakingSnapshot.Proofs.Call.Settlement

/-!
# What an execution does to the slots of its calls

Every call is registered with a slot of its own, so the slots of `n` calls are a family over
`Fin n`. The client may answer anything.

* `Registration`: a call as it is registered, `Registration.call` the call it becomes.
* `Registration.complaint?`: the fault of a success whose data cannot be read;
  `Registration.Holds`: what a slot holds once the result has been settled.
* `Registration.slots_after`: the slots after any number of results that can be read.
* `Concluded`: what comes of an execution, exit by exit; `execute_concluded`: every execution of
  calls comes to that.
-/

namespace StakingSnapshot

variable {σ S : Type}

/-- A call as it is registered. -/
inductive Registration (T : Type) : Type 1 where
  /-- The call of a method, of whose value a part goes into the slot. -/
  | typed {α : Type} [Abi.Arguments α] {k : Abi.Kind} (m : Abi.Method α k) (target : Address)
    (data : Bytes) (extract : k.Value → T)
  /-- A call whose result the caller looks at. It names a method. -/
  | raw (target : Address) (data : Bytes) (names : 4 ≤ data.length)

namespace Registration

variable {n : Nat} {T : Fin n → Type}

/-- The call that writes to the slot at its own index. -/
def call {i : Fin n} : Registration (T i) → Call (∀ j, T j)
  | typed m target data extract =>
    .encoded m target data fun v slots => Function.update slots i (extract v)
  | raw target data _ => ⟨target, data, none⟩

/-- The calls, in the order of their registration. -/
def calls (regs : ∀ i, Registration (T i)) : List (Call (∀ i, T i)) :=
  List.ofFn fun i => (regs i).call

section Single

variable {α : Type}

/-- The fault of a success whose data cannot be read. -/
def complaint? : Registration α → CallResult → Option Fault
  | @typed _ _ _ k m target _ _, r =>
    if r.success && (k.decode r.data).isNone then
      some (.decode target m.signature Abi.malformedText)
    else none
  | raw .., _ => none

/-- What the slot holds once the result has been settled: the value of a success, or else what it
held before. -/
def Holds : Registration α → CallResult → α → α → Prop
  | @typed _ _ _ k _ _ _ extract, r, old, new =>
    if r.success then ∃ v, k.decode r.data = some v ∧ new = extract v else new = old
  | raw .., _, old, new => new = old

end Single

end Registration

/-- What comes of an execution whose calls were answered as a whole by `answer`: the slots, and
the results or a fault. -/
structure Concluded {n : Nat} {T : Fin n → Type} (strict : Bool)
    (regs : ∀ i, Registration (T i)) (slots : ∀ i, T i) (answer : Except Fault Bytes)
    (out : (∀ i, T i) × Except Fault (List CallResult)) : Prop where
  /-- The client failed. -/
  unanswered : ∀ e, answer = .error e → out = (slots, .error e)
  /-- What the client answered is no list of results. -/
  malformed : ∀ data, answer = .ok data → Reply.decode? data = none →
    out = (slots, .error (.transport s!"malformed aggregate response: {Abi.malformedText}"))
  /-- There are not as many results as calls. -/
  miscounted : ∀ data results, answer = .ok data → Reply.decode? data = some results →
    results.length ≠ n →
    out = (slots, .error (.transport s!"aggregate returned {results.length} results for {n} calls"))
  /-- A call failed where all must succeed. The fault lists the calls that failed. -/
  reverted : ∀ data (results : Fin n → CallResult), answer = .ok data →
    Reply.decode? data = some (List.ofFn results) → strict = true →
    (∃ i, (results i).success = false) →
    ∃ indices, out = (slots, .error (.callsFailed indices n)) ∧ indices.Pairwise (· < ·) ∧
      ∀ i, i ∈ indices ↔ ∃ h : i < n, (results ⟨i, h⟩).success = false
  /-- The data of a success cannot be read. The first such call is reported, and the slots of those
  before it are settled. -/
  unreadable : ∀ data (results : Fin n → CallResult), answer = .ok data →
    Reply.decode? data = some (List.ofFn results) →
    (strict = true → ∀ i, (results i).success = true) →
    ∀ i e, (regs i).complaint? (results i) = some e →
      (∀ j < i, (regs j).complaint? (results j) = none) →
      out.2 = .error e ∧ (∀ j < i, (regs j).Holds (results j) (slots j) (out.1 j)) ∧
        ∀ j, i ≤ j → out.1 j = slots j
  /-- All successes can be read. The results are handed out as they came. -/
  settled : ∀ data (results : Fin n → CallResult), answer = .ok data →
    Reply.decode? data = some (List.ofFn results) →
    (strict = true → ∀ i, (results i).success = true) →
    (∀ i, (regs i).complaint? (results i) = none) →
      out.2 = .ok (List.ofFn results) ∧
        ∀ i, (regs i).Holds (results i) (slots i) (out.1 i)

/-! ## Settlement up to a fault -/

/-- Results that can be read have their effects, and settlement goes on behind them. -/
theorem settle_append {before rest : List (Call S × CallResult)}
    (h : ∀ p ∈ before, p.1.Readable p.2) (slots : S) :
    settle (before ++ rest) slots =
      settle rest (before.foldl (fun x p => p.1.effect p.2 x) slots) := by
  induction before generalizing slots with
  | nil => rfl
  | cons p before ih =>
    obtain ⟨hp, hbefore⟩ := List.forall_mem_cons.1 h
    rw [List.cons_append, settle_cons_of_readable hp, ih hbefore, List.foldl_cons]

/-- Settlement stops at data that cannot be read. -/
theorem settle_cons_of_error {c : Call S} {r : CallResult} {d : Bytes → Except Fault (S → S)}
    {e : Fault} (hd : c.decoder = some d) (hr : r.success = true) (he : d r.data = .error e)
    (rest : List (Call S × CallResult)) (slots : S) :
    settle ((c, r) :: rest) slots = (slots, .error e) := by
  simp only [settle, hd, hr, he]

/-- The positions of failures are listed in order. -/
theorem pairwise_failedIndices (results : List CallResult) :
    (failedIndices results).Pairwise (· < ·) := by
  have hsorted : (results.zipIdx.map Prod.snd).Pairwise (· < ·) := by
    rw [List.zipIdx_map_snd]
    exact List.pairwise_lt_range'
  exact hsorted.sublist (List.filter_sublist.map _)

namespace Registration

variable {n : Nat} {T : Fin n → Type}

/-! ## One call -/

section Call

variable {i : Fin n} {reg : Registration (T i)} {r : CallResult}

/-- A success without a complaint has a value. -/
theorem decode_of_complaint?_eq_none {α : Type} [Abi.Arguments α] {k : Abi.Kind}
    {m : Abi.Method α k} {target : Address} {data : Bytes} {extract : k.Value → T i}
    (h : (typed m target data extract).complaint? r = none) (hr : r.success = true) :
    ∃ v, k.decode r.data = some v := by
  cases hv : k.decode r.data with
  | some v => exact ⟨v, rfl⟩
  | none => simp [complaint?, hr, hv] at h

theorem readable_call (h : reg.complaint? r = none) : reg.call.Readable r := by
  intro hr d hd
  cases reg with
  | raw => cases hd
  | typed m target data extract =>
    obtain ⟨v, hv⟩ := decode_of_complaint?_eq_none h hr
    cases hd
    exact ⟨fun slots => Function.update slots i (extract v), by simp only [Call.decoderOf, hv]⟩

/-- Settlement stops at a complaint. -/
theorem settle_of_complaint {e : Fault} (h : reg.complaint? r = some e)
    (rest : List (Call (∀ j, T j) × CallResult)) (slots : ∀ j, T j) :
    settle ((reg.call, r) :: rest) slots = (slots, .error e) := by
  cases reg with
  | raw => cases h
  | @typed α _ k m target data extract =>
    rw [complaint?, Option.ite_none_right_eq_some, Bool.and_eq_true, Option.isNone_iff_eq_none,
      Option.some.injEq] at h
    obtain ⟨⟨hr, hv⟩, rfl⟩ := h
    exact settle_cons_of_error rfl hr (by simp only [Call.decoderOf, hv]) rest slots

/-- A call leaves the slots of other calls alone. -/
theorem effect_of_ne {j : Fin n} (hj : j ≠ i) (slots : ∀ j, T j) :
    reg.call.effect r slots j = slots j := by
  cases reg with
  | raw => rfl
  | @typed α _ k m target data extract =>
    cases hr : r.success with
    | false =>
      rw [Call.effect_of_failure _ hr]
      rfl
    | true =>
      cases hv : k.decode r.data with
      | none => simp only [Call.effect, call, Call.encoded, Call.decoderOf, hr, hv, id]
      | some v =>
        simp only [Call.effect, call, Call.encoded, Call.decoderOf, hr, hv]
        exact Function.update_of_ne hj _ _

/-- What a call does to its own slot. -/
theorem holds_effect (h : reg.complaint? r = none) (slots : ∀ j, T j) :
    reg.Holds r (slots i) (reg.call.effect r slots i) := by
  cases reg with
  | raw => rfl
  | @typed α _ k m target data extract =>
    cases hr : r.success with
    | false =>
      rw [Holds, hr, if_neg Bool.false_ne_true, Call.effect_of_failure _ hr]
      rfl
    | true =>
      obtain ⟨v, hv⟩ := decode_of_complaint?_eq_none h hr
      rw [Holds, hr, if_pos rfl]
      refine ⟨v, hv, ?_⟩
      simp only [Call.effect, call, Call.encoded, Call.decoderOf, hr, hv]
      exact Function.update_self _ _ _

end Call

/-! ## All calls in order -/

variable {regs : ∀ i, Registration (T i)} {results : Fin n → CallResult} {slots : ∀ i, T i}

/-- The calls with their results. -/
def answered (regs : ∀ i, Registration (T i)) (results : Fin n → CallResult) :
    List (Call (∀ i, T i) × CallResult) :=
  List.ofFn fun i => ((regs i).call, results i)

theorem zip_calls : (calls regs).zip (List.ofFn results) = answered regs results := by
  refine List.ext_getElem (by simp [calls, answered]) fun i _ _ => ?_
  simp [calls, answered]

theorem length_answered : (answered regs results).length = n := List.length_ofFn

/-- The slots after the effects of the first `k` results. -/
def after (regs : ∀ i, Registration (T i)) (results : Fin n → CallResult) (slots : ∀ i, T i)
    (k : Nat) : ∀ i, T i :=
  ((answered regs results).take k).foldl (fun x p => p.1.effect p.2 x) slots

theorem after_succ (i : Fin n) :
    after regs results slots (i + 1) =
      (regs i).call.effect (results i) (after regs results slots i) := by
  have hi : (i : Nat) < (answered regs results).length := by
    rw [length_answered]
    exact i.isLt
  rw [after, List.take_succ_eq_append_getElem hi, List.foldl_append]
  simp only [answered, List.getElem_ofFn, List.foldl_cons, List.foldl_nil]
  rfl

/-- **The slots after some results.** The calls that they belong to have settled slots, all others
have the slots they had. -/
theorem slots_after (slots : ∀ i, T i) {k : Nat} (hk : k ≤ n)
    (h : ∀ i : Fin n, i < k → (regs i).complaint? (results i) = none) (j : Fin n) :
    (j < k → (regs j).Holds (results j) (slots j) (after regs results slots k j)) ∧
      (k ≤ j → after regs results slots k j = slots j) := by
  induction k with
  | zero => exact ⟨fun hj => absurd hj (Nat.not_lt_zero _), fun _ => rfl⟩
  | succ k ih =>
    obtain ⟨hbefore, hbehind⟩ := ih (Nat.le_of_succ_le hk) fun i hi => h i (Nat.lt_succ_of_lt hi)
    have hstep : after regs results slots (k + 1) = _ := after_succ ⟨k, hk⟩
    simp only at hstep
    by_cases hj : j = ⟨k, hk⟩
    · subst hj
      refine ⟨fun _ => ?_, fun hle => absurd hle (Nat.not_succ_le_self k)⟩
      have hown := holds_effect (h ⟨k, hk⟩ (Nat.lt_succ_self k)) (after regs results slots k)
      rwa [hbehind (Nat.le_refl k), ← hstep] at hown
    · have hne : (j : Nat) ≠ k := fun heq => hj (Fin.ext heq)
      rw [hstep, effect_of_ne hj]
      exact ⟨fun hlt => hbefore (by omega), fun hle => hbehind (by omega)⟩

/-- Settlement ends at the first complaint. -/
theorem settle_unreadable {i : Fin n} {e : Fault}
    (hi : (regs i).complaint? (results i) = some e)
    (hbefore : ∀ j < i, (regs j).complaint? (results j) = none) :
    settle (answered regs results) slots = (after regs results slots i, .error e) := by
  have hlt : (i : Nat) < (answered regs results).length := by
    rw [length_answered]
    exact i.isLt
  have hreadable : ∀ p ∈ (answered regs results).take i, p.1.Readable p.2 := by
    intro p hp
    obtain ⟨j, hj, rfl⟩ := List.mem_take_iff_getElem.1 hp
    have hji : j < i := by omega
    simp only [answered, List.getElem_ofFn]
    exact readable_call (hbefore ⟨j, by omega⟩ hji)
  rw [← List.take_append_drop i (answered regs results), settle_append hreadable,
    List.drop_eq_getElem_cons hlt]
  simp only [answered, List.getElem_ofFn]
  exact settle_of_complaint hi _ _

/-- Without complaints all results are settled. -/
theorem settle_readable (h : ∀ i, (regs i).complaint? (results i) = none) :
    settle (answered regs results) slots = (after regs results slots n, .ok ()) := by
  refine settle_eq_ok_iff.2 ⟨fun p hp => ?_, ?_⟩
  · obtain ⟨i, rfl⟩ := List.mem_ofFn.1 hp
    exact readable_call (h i)
  · rw [after, List.take_of_length_le (Nat.le_of_eq length_answered)]

end Registration

/-! ## Every exit -/

/-- An execution of calls is their conclusion from what the client answers. -/
theorem execute_eq_conclude (client : Client σ) (hub : Address) (strict : Bool) (block : BlockRef)
    {calls : List (Call S)} (h : calls ≠ []) (slots : S) (s : σ) :
    (execute client hub strict block calls slots s).value =
      conclude strict calls slots (client.call hub (aggregateOf calls).encode block s).1 := by
  rw [execute, if_neg (by rwa [List.isEmpty_iff])]
  rfl

/-- A conclusion without results leaves the slots alone. -/
theorem conclude_of_error {strict : Bool} {calls : List (Call S)} {slots : S}
    {answer : Except Fault Bytes} {e : Fault}
    (h : resultsOf calls.length strict answer = .error e) :
    conclude strict calls slots answer = (slots, .error e) := by
  rw [conclude, h]

/-- A reply with a result for each call is settled, unless a failure counts as a fault. -/
theorem Registration.conclude_of_results {n : Nat} {T : Fin n → Type} {strict : Bool}
    {regs : ∀ i, Registration (T i)} {slots : ∀ i, T i} {data : Bytes}
    {results : Fin n → CallResult} (hd : Reply.decode? data = some (List.ofFn results))
    (hall : strict = true → ∀ i, (results i).success = true) :
    conclude strict (calls regs) slots (.ok data) =
      ((settle (answered regs results) slots).1,
        (settle (answered regs results) slots).2.map fun _ => List.ofFn results) := by
  have hlen : (List.ofFn results).length = (calls regs).length := by
    rw [List.length_ofFn, calls, List.length_ofFn]
  have hnone : (strict && !(failedIndices (List.ofFn results)).isEmpty) = false := by
    rw [isEmpty_failedIndices]
    cases strict with
    | false => rfl
    | true =>
      rw [Bool.true_and, Bool.not_eq_false', List.all_eq_true]
      intro r hr
      obtain ⟨i, rfl⟩ := List.mem_ofFn.1 hr
      exact hall rfl i
  rw [conclude_of_decode? hd hlen, settleAll, hnone, if_neg Bool.false_ne_true, zip_calls]

/-- **Every exit of an execution.** Whatever the client answers, the slots and the result are those
of the exit that the answer leads to. -/
theorem execute_concluded {n : Nat} {T : Fin (n + 1) → Type} (client : Client σ) (hub : Address)
    (strict : Bool) (block : BlockRef) (regs : ∀ i, Registration (T i)) (slots : ∀ i, T i)
    (s : σ) :
    Concluded strict regs slots
      (client.call hub (aggregateOf (Registration.calls regs)).encode block s).1
      ((⟨Registration.calls regs⟩ : Queue _).execute client hub strict block slots s).value.2 := by
  have hlen : (Registration.calls regs).length = n + 1 := List.length_ofFn
  have hne : Registration.calls regs ≠ [] := List.ne_nil_of_length_pos (by omega)
  have hvalue := execute_eq_conclude client hub strict block hne slots s
  generalize (client.call hub (aggregateOf (Registration.calls regs)).encode block s).1 = answer
    at hvalue
  simp only [Queue.execute, Session.bind_apply, Session.pure_apply, hvalue]
  constructor
  case unanswered =>
    rintro e rfl
    exact conclude_of_error rfl
  case malformed =>
    rintro data rfl hd
    exact conclude_of_error (by simp only [resultsOf, bind, Except.bind, hd])
  case miscounted =>
    rintro data results rfl hd hcount
    refine conclude_of_error ?_
    simp only [resultsOf, bind, Except.bind, hd, hlen, ne_eq, hcount, not_false_eq_true, if_true]
  case reverted =>
    rintro data results rfl hd rfl ⟨i, hi⟩
    refine ⟨failedIndices (List.ofFn results), ?_, pairwise_failedIndices _, fun j => ?_⟩
    · have hflexible : resultsOf (n + 1) false (.ok data) = .ok (List.ofFn results) :=
        resultsOf_eq_ok_iff.2 ⟨data, rfl, hd, List.length_ofFn, rfl⟩
      refine conclude_of_error ?_
      rw [hlen]
      exact resultsOf_strict hflexible ⟨results i, List.mem_ofFn.2 ⟨i, rfl⟩, hi⟩
    · rw [mem_failedIndices, List.getElem?_ofFn]
      by_cases hj : j < n + 1
      · simp [hj]
      · simp [hj]
  case unreadable =>
    rintro data results rfl hd hall i e hi hbefore
    rw [Registration.conclude_of_results hd hall, Registration.settle_unreadable hi hbefore]
    have hafter := Registration.slots_after slots (Nat.le_of_lt i.isLt) hbefore
    exact ⟨rfl, fun j hj => (hafter j).1 hj, fun j hj => (hafter j).2 hj⟩
  case settled =>
    rintro data results rfl hd hall hreadable
    rw [Registration.conclude_of_results hd hall, Registration.settle_readable hreadable]
    have hafter := Registration.slots_after slots (Nat.le_refl (n + 1))
      fun i _ => hreadable i
    exact ⟨rfl, fun i => (hafter i).1 i.isLt⟩

end StakingSnapshot
