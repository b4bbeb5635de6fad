import StakingSnapshot.Proofs.Call.Told
import StakingSnapshot.Proofs.Schedule.Withheld

/-!
# Successes that cannot be read

Where calls may fail, a read against a chain has one way to fail: the data of a success is not what
it should be. Then the fault is that of the first such success of a batch.

* `Call.fault?`: the fault of one result; `faultIn?`: the first among the answers to calls.
* `settle_result`, `Job.outcome_flexible`: what settlement and a job end with.
* `Scheduler.firstFault_of_unreadable`: batches one after another.
* `Scheduler.faultIn_of_ended`: batches side by side.
-/

namespace StakingSnapshot

variable {σ S T ι : Type}

namespace Call

/-- Why a result cannot be read: it is a success, and its data is not what it should be. -/
def fault? (c : Call S) (r : CallResult) : Option Fault :=
  match c.decoder, r.success with
  | some d, true =>
    match d r.data with
    | .ok _ => none
    | .error e => some e
  | _, _ => none

theorem fault?_onItem (i : Nat) (c : Call S) (r : CallResult) :
    (c.onItem i).fault? r = c.fault? r := by
  unfold fault? onItem within
  cases c.decoder with
  | none => rfl
  | some d =>
    cases r.success with
    | false => rfl
    | true => cases hd : d r.data <;> simp [hd, Except.map]

/-- A method's call cannot be read if it succeeds with data that is not in the layout of the
method's kind. -/
theorem fault?_typed_eq_some_iff {α : Type} [Abi.Arguments α] {k : Abi.Kind} {m : Abi.Method α k}
    {target : Address} {args : α} {store : k.Value → S → S} {r : CallResult} {e : Fault} :
    (typed m target args store).fault? r = some e ↔
      (r.success = true ∧ k.decode r.data = none) ∧
        e = .decode target m.signature Abi.malformedText := by
  simp only [fault?, typed, encoded]
  cases r.success with
  | false => simp
  | true => cases hd : k.decode r.data <;> simp [decoderOf, hd, eq_comm]

end Call

/-- Settlement ends with the fault of the first success that cannot be read. -/
theorem settle_result (pairs : List (Call S × CallResult)) (slots : S) :
    (settle pairs slots).2 =
      (pairs.findSome? fun p => p.1.fault? p.2).elim (.ok ()) .error := by
  induction pairs generalizing slots with
  | nil => rfl
  | cons p pairs ih =>
    obtain ⟨c, r⟩ := p
    rw [List.findSome?_cons]
    cases hd : c.decoder with
    | none => simp [settle, Call.fault?, hd, ih]
    | some d =>
      cases hr : r.success with
      | false => simp [settle, Call.fault?, hd, hr, ih]
      | true => cases hf : d r.data <;> simp [settle, Call.fault?, hd, hr, hf, ih]

/-- The fault of the first answer that cannot be read. -/
def faultIn? (answer : SubCall → CallResult) (calls : List (Call S)) : Option Fault :=
  calls.findSome? fun c => c.fault? (answer c.sub)

theorem settleAll_result (answer : SubCall → CallResult) (calls : List (Call S)) (slots : S) :
    (settleAll false calls (answersTo answer calls) slots).2 =
      (faultIn? answer calls).elim (.ok (answersTo answer calls)) .error := by
  have hsettle := settle_result (calls.zip (answersTo answer calls)) slots
  have hfault : (calls.zip (answersTo answer calls)).findSome? (fun p => p.1.fault? p.2) =
      faultIn? answer calls := by
    rw [zip_answersTo, List.findSome?_map]
    rfl
  rw [hfault] at hsettle
  simp only [settleAll, Bool.false_and, Bool.false_eq_true, if_false, hsettle]
  cases faultIn? answer calls <;> rfl

/-- Spreading calls over a list does not change which of them cannot be read. -/
theorem Plan.faultIn?_spreadFrom (answer : SubCall → CallResult) (n : Nat)
    (groups : List (List (Call ι))) :
    faultIn? answer (spreadFrom n groups) = faultIn? answer groups.flatten := by
  induction groups generalizing n with
  | nil => rfl
  | cons calls groups ih =>
    have hcalls : faultIn? answer (calls.map (Call.onItem n)) = faultIn? answer calls := by
      unfold faultIn?
      rw [List.findSome?_map]
      simp only [Function.comp_def, Call.sub_onItem, Call.fault?_onItem]
    have happend : ∀ {R : Type} (cs cs' : List (Call R)), faultIn? answer (cs ++ cs') =
        (faultIn? answer cs).or (faultIn? answer cs') := fun _ _ => List.findSome?_append
    rw [spreadFrom_cons, List.flatten_cons, happend, happend, hcalls, ih]

namespace Plan

variable {plan : Plan ι} {i : Nat} {xs : List ι}

theorem exists_register_of_registers (h : plan.Registers i xs) :
    ∃ items groups, plan.register i xs = (items, .ok groups) := by
  induction xs generalizing i with
  | nil => exact ⟨[], [], rfl⟩
  | cons x xs ih =>
    obtain ⟨⟨x', calls, hx⟩, hrest⟩ := registers_cons_iff.1 h
    obtain ⟨items, groups, hr⟩ := ih hrest
    exact ⟨_, _, register_cons_eq_ok_iff.2 ⟨x', calls, items, groups, hx, hr, rfl, rfl⟩⟩

end Plan

/-- A job whose calls may fail ends with the fault of the first answer that cannot be read. -/
theorem Job.outcome_flexible {answer : SubCall → CallResult} {block : BlockRef} {plan : Plan ι}
    {start : Nat} {xs : List ι} (h : plan.Registers start xs) :
    ∃ flags, ((Job.ofItems false block plan start).outcome answer xs).2 =
      (faultIn? answer (plan.registered start xs)).elim (.ok flags) .error := by
  obtain ⟨items, groups, hr⟩ := Plan.exists_register_of_registers h
  have hprepare : (Job.ofItems false block plan start).prepare xs =
      (items, .ok ⟨Plan.spread groups, groups.map List.length⟩) :=
    prepare_ofItems_eq_ok_iff.2 ⟨groups, hr, rfl⟩
  have hfault : faultIn? answer (Plan.spread groups) = faultIn? answer groups.flatten :=
    Plan.faultIn?_spreadFrom answer 0 groups
  have hstrict : (Job.ofItems false block plan start).strict = false := rfl
  rw [(Plan.flatten_of_register hr).2, ← hfault]
  unfold outcome
  rw [hprepare, hstrict]
  simp only [settleAll_result]
  cases faultIn? answer (Plan.spread groups) with
  | none => exact ⟨_, rfl⟩
  | some e => exact ⟨[], rfl⟩

namespace Scheduler

variable {q : Scheduler σ} {chain : Chain} {block : BlockRef} {size : Nat} {plan : Plan ι}
  {items : List ι}

/-- What a batch ends with against a chain. -/
theorem runBatch_flexible (hchain : q.client.AnswersFor q.hub chain)
    (hsized : Sized (chain block) ((plan.registered 0 items).map Call.sub)) {k : Nat}
    (hregisters : plan.Registers (k * size) (batchItems size items k)) (s : σ) :
    ∃ flags, (q.runBatch false block size plan items k s).value.2 =
      (faultIn? (chain block) (plan.registered (k * size) (batchItems size items k))).elim
        (.ok flags) .error := by
  have hfits : (Job.ofItems false block plan (k * size)).Fits chain (batchItems size items k) :=
    Job.fits_ofItems (hsized.of_sublist ((registered_batchItems_sublist k).map Call.sub))
  rw [runBatch, run, Job.run_value hchain hfits]
  exact Job.outcome_flexible hregisters

/-- **One after another.** The first batch with a success that cannot be read is the first one to
fail. -/
theorem firstFault_of_unreadable (hchain : q.client.AnswersFor q.hub chain)
    (hsized : Sized (chain block) ((plan.registered 0 items).map Call.sub))
    (hregisters : ∀ j, plan.Registers (j * size) (batchItems size items j)) {k : Nat} {e : Fault}
    (hk : k * size < items.length)
    (hbefore : ∀ j < k,
      faultIn? (chain block) (plan.registered (j * size) (batchItems size items j)) = none)
    (hfault : faultIn? (chain block) (plan.registered (k * size) (batchItems size items k)) =
      some e) {s : σ} :
    q.FirstFault false block size plan items s k e := by
  refine ⟨hk, fun j hj => ?_, ?_⟩
  · obtain ⟨flags, hj'⟩ := runBatch_flexible hchain hsized (hregisters j)
      (q.stateBefore false block size plan items s j)
    rw [hbefore j hj] at hj'
    exact ⟨flags, hj'⟩
  · obtain ⟨flags, hk'⟩ := runBatch_flexible hchain hsized (hregisters k)
      (q.stateBefore false block size plan items s k)
    rwa [hfault] at hk'

/-- **Side by side.** A batch that ended with a fault has the fault of the first of its answers that
cannot be read. -/
theorem faultIn_of_ended (hchain : q.client.AnswersFor q.hub chain) (hsize : 0 < size)
    (hsized : Sized (chain block) ((plan.registered 0 items).map Call.sub))
    {p : Pool fun _ : Unit => List ι}
    (h : (q.pool false block size plan items).Reaches (q.client.Gives q.hub) p) {k : Nat}
    {t : (_ : Unit) × Seat (List ι)} (ht : p.seats[k]? = some t)
    (hregisters : plan.Registers (k * size) (batchItems size items k)) {e : Fault}
    (hended : t.2.result? = some (.error e)) :
    faultIn? (chain block) (plan.registered (k * size) (batchItems size items k)) = some e := by
  have hk : (p.seats.map fun t => t.2)[k]? = some t.2 := by
    rw [List.getElem?_map, ht]
    rfl
  obtain ⟨hlen, hfollows⟩ := forall₂_iff_getElem?.1 (follows_seats hchain hsize hsized h)
  have hlt : k < (seats false block plan 0 (chunks size items)).length := by
    rw [← hlen]
    exact (List.getElem?_eq_some_iff.1 hk).1
  have hseat := List.getElem?_eq_getElem hlt
  have hfollow := hfollows k _ _ hseat hk
  have heq := eq_of_getElem?_seats hsize hseat
  rw [Nat.zero_add] at heq
  rw [heq] at hfollow
  have hresult : ((Job.ofItems false block plan (k * size)).outcome (chain block)
      (batchItems size items k)).2 = .error e :=
    congrArg Prod.snd (Seat.outcome_of_follows hfollow hended)
  obtain ⟨flags, hout⟩ : ∃ flags, ((Job.ofItems false block plan (k * size)).outcome (chain block)
      (batchItems size items k)).2 = _ := Job.outcome_flexible hregisters
  rw [hresult] at hout
  cases hf : faultIn? (chain block) (plan.registered (k * size) (batchItems size items k)) with
  | none =>
    rw [hf] at hout
    cases hout
  | some e' =>
    rw [hf] at hout
    cases hout
    rfl

/-- A single aggregate whose calls may fail. -/
theorem flexQuery_of_unreadable (hchain : q.client.AnswersFor q.hub chain) {calls : List (Call S)}
    (hsized : Sized (chain block) (calls.map Call.sub)) {e : Fault}
    (h : faultIn? (chain block) calls = some e) (slots : S) (s : σ) :
    (q.flexQuery block calls slots s).value = .error e := by
  have hvalue : (q.run (Job.ofCalls false block (.ok calls)) slots s).value =
      (Job.ofCalls false block (.ok calls)).outcome (chain block) slots :=
    Job.run_value hchain (Job.fits_ofCalls hsized) s
  have hread : (q.flexQuery block calls slots s).value =
      (q.run (Job.ofCalls false block (.ok calls)) slots s).value.2.map fun flags =>
        ((q.run (Job.ofCalls false block (.ok calls)) slots s).value.1, flags) := rfl
  have hresult : ((Job.ofCalls false block (.ok calls)).outcome (chain block) slots).2 =
      .error e := by
    change Except.map _ (settleAll false calls (answersTo (chain block) calls) slots).2 = _
    rw [settleAll_result, h]
    rfl
  rw [hread, hvalue, hresult]
  rfl

end Scheduler

end StakingSnapshot
