import Mathlib.Control.Monad.Basic
import StakingSnapshot.Contract.Basic
import StakingSnapshot.Proofs.Call.Conclusion

/-!
# Strict and flexible execution

The same calls are executed twice and answered alike: once each of them must succeed, and once they
may fail.

* `Reports`: an answer that has a result for each call.
* `conclude_strict`: either a call failed, which a strict execution reports without looking at any
  data, or the two executions come to the same.
* `ModesAgree`: how the two executions are related, case by case; `execute_modes_agree`: whatever
  the client answers, they are.
-/

namespace StakingSnapshot

variable {σ S : Type}

/-- The answer has a result for each of `total` calls. -/
def Reports (total : Nat) (answer : Except Fault Bytes) (results : List CallResult) : Prop :=
  ∃ data, answer = .ok data ∧ Reply.decode? data = some results ∧ results.length = total

/-- Where calls may fail, the results are those that the answer reports. -/
theorem resultsOf_false_eq_ok_iff {total : Nat} {answer : Except Fault Bytes}
    {results : List CallResult} :
    resultsOf total false answer = .ok results ↔ Reports total answer results := by
  rw [resultsOf_eq_ok_iff]
  simp only [Reports, Bool.false_and, and_true]

/-- An answer that no results can be taken from has none where all calls must succeed, either, and
for the same reason. -/
theorem resultsOf_true_of_error {total : Nat} {answer : Except Fault Bytes} {e : Fault}
    (h : resultsOf total false answer = .error e) : resultsOf total true answer = .error e := by
  cases answer with
  | error e' => exact h
  | ok data =>
    cases hd : Reply.decode? data with
    | none => simpa only [resultsOf, bind, Except.bind, hd] using h
    | some results =>
      by_cases hlen : results.length = total
      · have hok : resultsOf total false (.ok data) = .ok results :=
          resultsOf_false_eq_ok_iff.2 ⟨data, rfl, hd, hlen⟩
        rw [hok] at h
        cases h
      · simpa only [resultsOf, bind, Except.bind, hd, ne_eq, hlen, not_false_eq_true, if_true]
          using h

/-- Results among which is no failure are the same in both modes. -/
theorem resultsOf_true_of_ok {total : Nat} {answer : Except Fault Bytes}
    {results : List CallResult} (h : resultsOf total false answer = .ok results)
    (hall : ∀ r ∈ results, r.success = true) : resultsOf total true answer = .ok results := by
  obtain ⟨data, rfl, hd, hlen⟩ := resultsOf_false_eq_ok_iff.1 h
  refine resultsOf_eq_ok_iff.2 ⟨data, rfl, hd, hlen, ?_⟩
  rw [isEmpty_failedIndices, List.all_eq_true.2 hall]
  rfl

/-- An execution hands out the results that it has taken from the answer. -/
theorem resultsOf_of_conclude {strict : Bool} {calls : List (Call S)} {slots : S}
    {answer : Except Fault Bytes} {results : List CallResult}
    (h : (conclude strict calls slots answer).2 = .ok results) :
    resultsOf calls.length strict answer = .ok results := by
  unfold conclude at h
  split at h
  case h_1 => cases h
  case h_2 results' hresults =>
    rw [hresults]
    generalize settle (calls.zip results') slots = settled at h
    obtain ⟨slots', e | u⟩ := settled
    · cases h
    · exact h

/-- **Where all calls must succeed.** Either one of them failed, and then nothing is read and the
fault lists the failures, or it does not matter that all must succeed. -/
theorem conclude_strict (calls : List (Call S)) (slots : S) (answer : Except Fault Bytes) :
    (∃ results, Reports calls.length answer results ∧ (∃ r ∈ results, r.success = false) ∧
      conclude true calls slots answer =
        (slots, .error (.callsFailed (failedIndices results) calls.length))) ∨
    ((∀ results, Reports calls.length answer results → ∀ r ∈ results, r.success = true) ∧
      conclude true calls slots answer = conclude false calls slots answer) := by
  cases h : resultsOf calls.length false answer with
  | error e =>
    refine .inr ⟨fun results hreports => ?_, ?_⟩
    · rw [resultsOf_false_eq_ok_iff.2 hreports] at h
      cases h
    · rw [conclude_of_error h, conclude_of_error (resultsOf_true_of_error h)]
  | ok results =>
    by_cases hfailed : ∃ r ∈ results, r.success = false
    · exact .inl ⟨results, resultsOf_false_eq_ok_iff.1 h, hfailed,
        conclude_of_error (resultsOf_strict h hfailed)⟩
    · have hall : ∀ r ∈ results, r.success = true := by
        intro r hr
        rw [← Bool.not_eq_false]
        exact fun hsuccess => hfailed ⟨r, hr, hsuccess⟩
      refine .inr ⟨fun results' hreports => ?_, ?_⟩
      · rw [resultsOf_false_eq_ok_iff.2 hreports] at h
        cases h
        exact hall
      · rw [conclude, conclude, h, resultsOf_true_of_ok h hall]

/-- What a strict and a flexible execution of the same calls come to that are both answered by
`answer`. -/
structure ModesAgree (calls : List (Call S)) (slots : S) (answer : Except Fault Bytes)
    (strict flexible : S × Except Fault (List CallResult)) : Prop where
  /-- The strict execution ends well exactly if the flexible one does and no call failed. -/
  ok_iff : ∀ results, strict.2 = .ok results ↔
    flexible.2 = .ok results ∧ ∀ r ∈ results, r.success = true
  /-- Then the slots are the same. -/
  slots_of_ok : ∀ results, strict.2 = .ok results → strict.1 = flexible.1
  /-- If the answer has a result for each call and some call failed, the strict execution lists the
  failures in order, whether or not the data of the successes can be read, and no slot changes. -/
  reverted : ∀ results, Reports calls.length answer results → (∃ r ∈ results, r.success = false) →
    ∃ indices, strict = (slots, .error (.callsFailed indices calls.length)) ∧
      indices.Pairwise (· < ·) ∧ ∀ i, i ∈ indices ↔ ∃ r, results[i]? = some r ∧ r.success = false
  /-- In all other cases the two have the same fault and the same slots. -/
  otherwise : (∀ results, strict.2 ≠ .ok results) →
    (¬ ∃ results, Reports calls.length answer results ∧ ∃ r ∈ results, r.success = false) →
      strict.1 = flexible.1 ∧ ∃ e, strict.2 = .error e ∧ flexible.2 = .error e

/-- **Strict and flexible execution.** If the client answers both alike, they agree, whatever it
answers. -/
theorem execute_modes_agree (client : Client σ) (hub : Address) (block : BlockRef)
    {calls : List (Call S)} (hcalls : calls ≠ []) (slots : S) {s s' : σ}
    (hsame : (client.call hub (aggregateOf calls).encode block s').1 =
      (client.call hub (aggregateOf calls).encode block s).1) :
    ModesAgree calls slots (client.call hub (aggregateOf calls).encode block s).1
      ((⟨calls⟩ : Queue S).execute client hub true block slots s).value.2
      ((⟨calls⟩ : Queue S).execute client hub false block slots s').value.2 := by
  have hstrict := execute_eq_conclude client hub true block hcalls slots s
  have hflexible := execute_eq_conclude client hub false block hcalls slots s'
  rw [hsame] at hflexible
  generalize (client.call hub (aggregateOf calls).encode block s).1 = answer at hstrict hflexible
  simp only [Queue.execute, Session.bind_apply, Session.pure_apply, hstrict, hflexible]
  rcases conclude_strict calls slots answer with
    ⟨results, hreports, hfailed, heq⟩ | ⟨hall, heq⟩
  · -- A call failed.
    have hresults : ∀ results', Reports calls.length answer results' → results' = results := by
      intro results' hreports'
      have hok := resultsOf_false_eq_ok_iff.2 hreports
      rw [resultsOf_false_eq_ok_iff.2 hreports'] at hok
      exact Except.ok.inj hok
    rw [heq]
    constructor
    case ok_iff =>
      intro results'
      constructor
      · intro hok
        cases hok
      rintro ⟨hok, hsuccess⟩
      obtain rfl := hresults results' (resultsOf_false_eq_ok_iff.1 (resultsOf_of_conclude hok))
      obtain ⟨r, hr, hfalse⟩ := hfailed
      rw [hsuccess r hr] at hfalse
      cases hfalse
    case slots_of_ok =>
      intro results' hok
      cases hok
    case reverted =>
      intro results' hreports' _
      obtain rfl := hresults results' hreports'
      exact ⟨_, rfl, pairwise_failedIndices _, fun i => mem_failedIndices⟩
    case otherwise => exact fun _ hnone => absurd ⟨results, hreports, hfailed⟩ hnone
  · -- No call failed, or there are no results at all.
    rw [heq]
    constructor
    case ok_iff =>
      refine fun results => ⟨fun hok => ⟨hok, ?_⟩, And.left⟩
      exact hall results (resultsOf_false_eq_ok_iff.1 (resultsOf_of_conclude hok))
    case slots_of_ok => exact fun _ _ => rfl
    case reverted =>
      rintro results hreports ⟨r, hr, hfalse⟩
      rw [hall results hreports r hr] at hfalse
      cases hfalse
    case otherwise =>
      intro hnone _
      cases hresult : (conclude false calls slots answer).2 with
      | error e => exact ⟨rfl, e, rfl, rfl⟩
      | ok results => exact absurd hresult (hnone results)

/-- The version of a contract, and behind it a call that sends nothing. -/
def versionThenNothing : List (Call Bytes) :=
  [.typed Contract.Versioned.version ⟨1⟩ () fun v _ => [v], Call.keep ⟨2⟩ []]

/-- The first call succeeds with data that is no version, and the second one reverts. A strict
execution reports the second call, a flexible one the first. -/
theorem modes_agree_versionThenNothing :
    let strict := ((⟨versionThenNothing⟩ : Queue Bytes).execute (Chain.echo.client ⟨0⟩) ⟨0⟩ true
      .latest [7] ()).value.2
    let flexible := ((⟨versionThenNothing⟩ : Queue Bytes).execute (Chain.echo.client ⟨0⟩) ⟨0⟩ false
      .latest [7] ()).value.2
    ModesAgree versionThenNothing [7] ((Chain.echo.client ⟨0⟩).call ⟨0⟩
        (aggregateOf versionThenNothing).encode .latest ()).1 strict flexible ∧
      strict = ([7], .error (.callsFailed [1] 2)) ∧
      flexible = ([7], .error (.decode ⟨1⟩ "version()" "<abi>")) :=
  ⟨execute_modes_agree _ _ _ (by decide) _ rfl, by decide +kernel, by decide +kernel⟩

end StakingSnapshot
