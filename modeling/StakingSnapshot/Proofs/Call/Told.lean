import StakingSnapshot.Proofs.Call.Slots

/-!
# What contracts tell

Against a chain, the call of a method either stores what the contract tells or ends a strict read.

* `told`: the value that a contract returns for a method.
* `Call.passes_typed_iff`: a strict read goes on with the answer to a method's call exactly if the
  contract tells something; `applied_typed_cons`: what that does to the slots.
-/

namespace StakingSnapshot

variable {S : Type} {α : Type} [Abi.Arguments α] {k : Abi.Kind}

/-- What the contract at an address returns for a method, if it succeeds and the data can be
read. -/
def told (answer : SubCall → CallResult) (m : Abi.Method α k) (target : Address) (args : α) :
    Option k.Value :=
  let r := answer ⟨target, m.callData args⟩
  if r.success then k.decode r.data else none

theorem told_eq_some_iff {answer : SubCall → CallResult} {m : Abi.Method α k} {target : Address}
    {args : α} {v : k.Value} :
    told answer m target args = some v ↔
      (answer ⟨target, m.callData args⟩).success = true ∧
        k.decode (answer ⟨target, m.callData args⟩).data = some v :=
  Option.ite_none_right_eq_some

namespace Call

variable {answer : SubCall → CallResult} {m : Abi.Method α k} {target : Address} {args : α}
  {store : k.Value → S → S}

theorem readable_typed_iff {r : CallResult} :
    (typed m target args store).Readable r ↔
      (r.success = true → ∃ v, k.decode r.data = some v) := by
  constructor
  · intro h hr
    obtain ⟨f, hf⟩ := h hr _ rfl
    unfold decoderOf at hf
    split at hf
    case h_1 v hv => exact ⟨v, hv⟩
    case h_2 => cases hf
  · intro h hr d hd
    obtain ⟨v, hv⟩ := h hr
    cases hd
    exact ⟨store v, by simp only [decoderOf, hv]⟩

/-- A strict read goes on with the answer to a method's call if the contract tells something. -/
theorem passes_typed_iff :
    (typed m target args store).Passes true (answer (typed m target args store).sub) ↔
      ∃ v, told answer m target args = some v := by
  simp only [told_eq_some_iff]
  constructor
  · intro h
    obtain ⟨v, hv⟩ := readable_typed_iff.1 h.readable (h.success rfl)
    exact ⟨v, h.success rfl, hv⟩
  · rintro ⟨v, hr, hv⟩
    exact ⟨fun _ => hr, readable_typed_iff.2 fun _ => ⟨v, hv⟩⟩

/-- What is told is stored. -/
theorem effect_typed {v : k.Value} (h : told answer m target args = some v) :
    (typed m target args store).effect (answer (typed m target args store).sub) = store v := by
  obtain ⟨hr, hv⟩ := told_eq_some_iff.1 h
  exact effect_of_success hr rfl (by simp only [decoderOf, sub, typed, encoded, hv])

end Call

/-- The call of a method in front of other calls. -/
theorem applied_typed_cons {answer : SubCall → CallResult} {m : Abi.Method α k} {target : Address}
    {args : α} {v : k.Value} (h : told answer m target args = some v) (store : k.Value → S → S)
    (calls : List (Call S)) (x : S) :
    applied answer (.typed m target args store :: calls) x =
      applied answer calls (store v x) := by
  rw [applied_cons, Call.effect_typed h]

theorem applied_nil (answer : SubCall → CallResult) (x : S) : applied answer [] x = x := rfl

/-- The call whose value is the whole slot. -/
theorem Call.applied_value_iff {answer : SubCall → CallResult} {m : Abi.Method α k}
    {target : Address} {args : α} {v x : k.Value} :
    ((∀ c ∈ [Call.value m target args], c.Passes true (answer c.sub)) ∧
        v = applied answer [Call.value m target args] x) ↔
      told answer m target args = some v := by
  have hpasses : (Call.value m target args).Passes true
      (answer (Call.value m target args).sub) ↔ _ := Call.passes_typed_iff
  rw [List.forall_mem_singleton, hpasses]
  constructor
  · rintro ⟨⟨w, hw⟩, rfl⟩
    have hslot : applied answer [Call.value m target args] x = w := applied_typed_cons hw _ [] x
    rw [hslot, hw]
  · intro h
    exact ⟨⟨v, h⟩, (applied_typed_cons h (fun w _ => w) [] x).symm⟩

end StakingSnapshot
