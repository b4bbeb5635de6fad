import StakingSnapshot.Proofs.Chain
import StakingSnapshot.Call

/-!
# What results do to slots

* `Call.Passes`: a result with which a read goes on; `Call.effect`: what it does to the slots.
* `settle_eq_ok_iff`: all answers act on the slots, in order, exactly if all of them can be read.
* `settleAll_eq_ok_iff`: the same for results that may also have to be successes.
* `resultsOf_eq_ok_iff`: the results that a raw answer reports; `resultsOf_strict`: the fault where
  all calls must succeed and some did not.
* `execute_value`: an execution against a chain is the settlement of the chain's answers, whatever
  state the client is in.
-/

namespace StakingSnapshot

variable {σ S T : Type}

namespace Call

/-- The data of a success can be read, if the call reads it at all. -/
def Readable (c : Call S) (r : CallResult) : Prop :=
  r.success = true → ∀ d, c.decoder = some d → ∃ f, d r.data = .ok f

/-- A read goes on with this result: it is a success where it has to be, and can be read. -/
structure Passes (strict : Bool) (c : Call S) (r : CallResult) : Prop where
  success : strict = true → r.success = true
  readable : c.Readable r

/-- What a result does to the slots. A failure does nothing to them. -/
def effect (c : Call S) (r : CallResult) : S → S :=
  match c.decoder, r.success with
  | some d, true =>
    match d r.data with
    | .ok f => f
    | .error _ => id
  | _, _ => id

theorem effect_of_failure (c : Call S) {r : CallResult} (h : r.success = false) :
    c.effect r = id := by
  unfold effect
  rw [h]
  cases c.decoder <;> rfl

theorem effect_of_success {c : Call S} {r : CallResult} {d : Bytes → Except Fault (S → S)}
    {f : S → S} (hr : r.success = true) (hd : c.decoder = some d) (hf : d r.data = .ok f) :
    c.effect r = f := by
  simp only [effect, hr, hd, hf]

theorem effect_of_raw {c : Call S} (h : c.decoder = none) (r : CallResult) : c.effect r = id := by
  unfold effect
  rw [h]

@[simp] theorem sub_onItem (i : Nat) (c : Call S) : (c.onItem i).sub = c.sub := rfl

theorem readable_within {update : (S → S) → T → T} {c : Call S} {r : CallResult} :
    (c.within update).Readable r ↔ c.Readable r := by
  unfold Readable within
  constructor
  · intro h hr d hd
    obtain ⟨f, hf⟩ := h hr _ (by rw [hd]; rfl)
    cases hdata : d r.data with
    | error e => simp only [hdata, Except.map, reduceCtorEq] at hf
    | ok g => exact ⟨g, rfl⟩
  · intro h hr d hd
    obtain ⟨d', hd', rfl⟩ := Option.map_eq_some_iff.1 hd
    obtain ⟨g, hg⟩ := h hr d' hd'
    exact ⟨update g, by simp only [hg, Except.map]⟩

theorem passes_onItem {strict : Bool} {i : Nat} {c : Call S} {r : CallResult} :
    (c.onItem i).Passes strict r ↔ c.Passes strict r :=
  ⟨fun h => ⟨h.success, readable_within.1 h.readable⟩,
    fun h => ⟨h.success, readable_within.2 h.readable⟩⟩

/-- Acting on the item that follows `front` leaves the other items alone. -/
theorem effect_onItem (front : List S) (x : S) (back : List S) (c : Call S) (r : CallResult) :
    (c.onItem front.length).effect r (front ++ x :: back) = front ++ c.effect r x :: back := by
  have hmodify : ∀ f : S → S,
      (front ++ x :: back).modify front.length f = front ++ f x :: back := by
    intro f
    induction front with
    | nil => rfl
    | cons y front ih => simp only [List.cons_append, List.length_cons, List.modify_succ_cons, ih]
  unfold effect onItem within
  cases c.decoder with
  | none => rfl
  | some d =>
    cases r.success with
    | false => rfl
    | true =>
      cases hd : d r.data with
      | error e => simp only [Option.map_some, hd, Except.map, id]
      | ok f => simp only [Option.map_some, hd, Except.map, hmodify]

end Call

/-- The call whose answer takes the place of the only slot as it is. -/
def Call.keep (target : Address) (data : Bytes) : Call Bytes :=
  ⟨target, data, some fun answer => .ok fun _ => answer⟩

/-! ## Settlement -/

theorem settle_cons_of_readable {c : Call S} {r : CallResult} (h : c.Readable r)
    (rest : List (Call S × CallResult)) (slots : S) :
    settle ((c, r) :: rest) slots = settle rest (c.effect r slots) := by
  cases hd : c.decoder with
  | none => simp only [settle, Call.effect, hd, id]
  | some d =>
    cases hr : r.success with
    | false => simp only [settle, Call.effect, hd, hr, id]
    | true =>
      obtain ⟨f, hf⟩ := h hr d hd
      simp only [settle, Call.effect, hd, hr, hf]

theorem settle_cons_of_not_readable {c : Call S} {r : CallResult} (h : ¬ c.Readable r)
    (rest : List (Call S × CallResult)) (slots : S) :
    ∃ e, settle ((c, r) :: rest) slots = (slots, .error e) := by
  unfold Call.Readable at h
  simp only [Classical.not_imp, Classical.not_forall, not_exists] at h
  obtain ⟨hr, d, hd, hf⟩ := h
  cases hdata : d r.data with
  | ok f => exact absurd hdata (hf f)
  | error e => exact ⟨e, by simp only [settle, hd, hr, hdata]⟩

/-- **Settlement.** It ends well exactly if all successes can be read, and then each result has had
its effect, in order. -/
theorem settle_eq_ok_iff {pairs : List (Call S × CallResult)} {slots slots' : S} :
    settle pairs slots = (slots', .ok ()) ↔
      (∀ p ∈ pairs, p.1.Readable p.2) ∧
        slots' = pairs.foldl (fun x p => p.1.effect p.2 x) slots := by
  induction pairs generalizing slots with
  | nil =>
    simp only [settle, List.foldl_nil, Prod.mk.injEq, and_true, List.not_mem_nil, false_implies,
      implies_true, true_and]
    exact eq_comm
  | cons p pairs ih =>
    obtain ⟨c, r⟩ := p
    by_cases h : c.Readable r
    · rw [settle_cons_of_readable h, ih, List.foldl_cons, List.forall_mem_cons]
      exact ⟨fun ⟨hall, hs⟩ => ⟨⟨h, hall⟩, hs⟩, fun ⟨⟨_, hall⟩, hs⟩ => ⟨hall, hs⟩⟩
    · obtain ⟨e, he⟩ := settle_cons_of_not_readable h pairs slots
      rw [he]
      constructor
      · intro heq
        cases heq
      · intro ⟨hall, _⟩
        exact absurd (hall (c, r) (.head _)) h

/-- What a chain that answers a call by `answer` reports on calls. -/
def answersTo (answer : SubCall → CallResult) (calls : List (Call S)) : List CallResult :=
  calls.map fun c => answer c.sub

theorem zip_answersTo (answer : SubCall → CallResult) (calls : List (Call S)) :
    calls.zip (answersTo answer calls) = calls.map fun c => (c, answer c.sub) := by
  have h : (calls.map id).zip (calls.map fun c => answer c.sub) = _ := List.zip_map'
  rwa [List.map_id] at h

/-- The slots after the effects of a chain's answers, in order. -/
def applied (answer : SubCall → CallResult) (calls : List (Call S)) (slots : S) : S :=
  calls.foldl (fun x c => c.effect (answer c.sub) x) slots

@[simp] theorem applied_cons (answer : SubCall → CallResult) (c : Call S) (calls : List (Call S))
    (slots : S) :
    applied answer (c :: calls) slots = applied answer calls (c.effect (answer c.sub) slots) := rfl

theorem applied_append (answer : SubCall → CallResult) (calls calls' : List (Call S)) (slots : S) :
    applied answer (calls ++ calls') slots = applied answer calls' (applied answer calls slots) :=
  List.foldl_append

/-- No position failed exactly if all results are successes. -/
theorem isEmpty_failedIndices (results : List CallResult) :
    (failedIndices results).isEmpty = results.all fun r => r.success := by
  rw [Bool.eq_iff_iff, List.isEmpty_iff, failedIndices, List.map_eq_nil_iff, List.filter_eq_nil_iff,
    List.all_eq_true]
  constructor
  · intro h r hr
    obtain ⟨i, hi, rfl⟩ := List.mem_iff_getElem.1 hr
    have := h (results[i], i) (List.mem_zipIdx_iff_getElem?.2 (List.getElem?_eq_getElem hi))
    simpa using this
  · intro h p hp
    have := h p.1 (List.fst_mem_of_mem_zipIdx hp)
    simpa using this

/-- The positions are those of the failures. -/
theorem mem_failedIndices {results : List CallResult} {i : Nat} :
    i ∈ failedIndices results ↔ ∃ r, results[i]? = some r ∧ r.success = false := by
  unfold failedIndices
  simp only [List.mem_map, List.mem_filter, List.mem_zipIdx_iff_getElem?, Bool.not_eq_true',
    Prod.exists]
  constructor
  · rintro ⟨r, _, ⟨hget, hr⟩, rfl⟩
    exact ⟨r, hget, hr⟩
  · rintro ⟨r, hget, hr⟩
    exact ⟨r, i, ⟨hget, hr⟩, rfl⟩

/-- The results that an answer reports: it can be decoded, has a result for each call, and where all
must succeed, all did. -/
theorem resultsOf_eq_ok_iff {total : Nat} {strict : Bool} {answer : Except Fault Bytes}
    {results : List CallResult} :
    resultsOf total strict answer = .ok results ↔
      ∃ data, answer = .ok data ∧ Reply.decode? data = some results ∧ results.length = total ∧
        (strict && !(failedIndices results).isEmpty) = false := by
  unfold resultsOf
  cases answer with
  | error e => simp [bind, Except.bind]
  | ok data =>
    simp only [bind, Except.bind]
    cases hd : Reply.decode? data with
    | none => simp [hd]
    | some results' =>
      simp only
      split
      case isTrue hlen =>
        constructor
        · intro h
          cases h
        · rintro ⟨_, heq, hd', hlen', -⟩
          cases heq
          rw [hd] at hd'
          cases hd'
          exact absurd hlen' hlen
      case isFalse hlen =>
        split
        case isTrue hfailed =>
          constructor
          · intro h
            cases h
          · rintro ⟨_, heq, hd', -, hnone⟩
            cases heq
            rw [hd] at hd'
            cases hd'
            rw [hfailed] at hnone
            cases hnone
        case isFalse hfailed =>
          constructor
          · intro h
            cases h
            exact ⟨data, rfl, hd, Decidable.not_not.1 hlen, Bool.eq_false_iff.2 hfailed⟩
          · rintro ⟨_, heq, hd', -, -⟩
            cases heq
            rw [hd] at hd'
            cases hd'
            rfl

/-- Results that a strict read does not go on with. -/
theorem resultsOf_strict {total : Nat} {answer : Except Fault Bytes} {results : List CallResult}
    (h : resultsOf total false answer = .ok results) (hfailed : ∃ r ∈ results, r.success = false) :
    resultsOf total true answer = .error (.callsFailed (failedIndices results) total) := by
  have hempty : (failedIndices results).isEmpty = false := by
    obtain ⟨r, hr, hsuccess⟩ := hfailed
    rw [isEmpty_failedIndices, List.all_eq_false]
    exact ⟨r, hr, by rw [hsuccess]; decide⟩
  obtain ⟨data, rfl, hd, hlen, -⟩ := resultsOf_eq_ok_iff.1 h
  simp only [resultsOf, bind, Except.bind, hd, ne_eq, hlen, not_true_eq_false, if_false, hempty,
    Bool.not_false, Bool.and_self, if_true]

/-- What results, one for each call, mean for the slots and for the caller. -/
def settleAll (strict : Bool) (calls : List (Call S)) (results : List CallResult) (slots : S) :
    S × Except Fault (List CallResult) :=
  if strict && !(failedIndices results).isEmpty then
    (slots, .error (.callsFailed (failedIndices results) calls.length))
  else
    ((settle (calls.zip results) slots).1,
      (settle (calls.zip results) slots).2.map fun _ => results)

/-- A raw answer that reports as many results as there are calls. -/
theorem conclude_of_decode? {strict : Bool} {calls : List (Call S)} {slots : S} {data : Bytes}
    {results : List CallResult} (hd : Reply.decode? data = some results)
    (hl : results.length = calls.length) :
    conclude strict calls slots (.ok data) = settleAll strict calls results slots := by
  simp only [conclude, resultsOf, settleAll, bind, Except.bind, hd, hl, ne_eq, not_true_eq_false,
    if_false]
  by_cases h : strict = true ∧ (failedIndices results).isEmpty = false
  · simp only [h.1, h.2, Bool.not_false, Bool.and_self, if_true]
  · have hf : (strict && !(failedIndices results).isEmpty) = false := by simpa using h
    simp only [hf, Bool.false_eq_true, if_false]

/-- Where all calls must succeed, none failed exactly if each of them succeeded. -/
theorem strict_failure_eq_false_iff {strict : Bool} {answer : SubCall → CallResult}
    {calls : List (Call S)} :
    (strict && !(failedIndices (answersTo answer calls)).isEmpty) = false ↔
      ∀ c ∈ calls, strict = true → (answer c.sub).success = true := by
  rw [isEmpty_failedIndices]
  cases strict with
  | false => simp
  | true => simp [answersTo]

/-- **Settlement of a chain's answers.** It ends well exactly if the read goes on with each of
them, and then each has had its effect. -/
theorem settleAll_eq_ok_iff {strict : Bool} {answer : SubCall → CallResult}
    {calls : List (Call S)} {slots slots' : S} {results : List CallResult} :
    settleAll strict calls (answersTo answer calls) slots = (slots', .ok results) ↔
      (∀ c ∈ calls, c.Passes strict (answer c.sub)) ∧
        slots' = applied answer calls slots ∧ results = answersTo answer calls := by
  unfold settleAll
  cases hf : strict && !(failedIndices (answersTo answer calls)).isEmpty with
  | true =>
    rw [if_pos rfl]
    constructor
    · intro heq
      cases heq
    · intro ⟨hall, _⟩
      rw [strict_failure_eq_false_iff.2 fun c hc => (hall c hc).success] at hf
      cases hf
  | false =>
    have hsuccess := strict_failure_eq_false_iff.1 hf
    rw [if_neg (by simp), zip_answersTo]
    have hsettle : settle (calls.map fun c => (c, answer c.sub)) slots = (slots', .ok ()) ↔ _ :=
      settle_eq_ok_iff
    rw [List.forall_mem_map, List.foldl_map] at hsettle
    constructor
    · intro heq
      obtain ⟨rfl, hmap⟩ := Prod.mk.inj heq
      obtain ⟨u, hu, rfl⟩ : ∃ u, (settle (calls.map fun c => (c, answer c.sub)) slots).2 = .ok u ∧
          answersTo answer calls = results := by
        cases hending : (settle (calls.map fun c => (c, answer c.sub)) slots).2 with
        | error e => rw [hending] at hmap; cases hmap
        | ok u => rw [hending] at hmap; cases hmap; exact ⟨u, rfl, rfl⟩
      obtain ⟨hall, hslots⟩ := hsettle.1 (Prod.ext rfl hu)
      exact ⟨fun c hc => ⟨hsuccess c hc, hall c hc⟩, hslots, rfl⟩
    · intro ⟨hall, hslots, hresults⟩
      rw [hsettle.2 ⟨fun c hc => (hall c hc).readable, hslots⟩, hresults]
      rfl

/-! ## Execution -/

/-- **Execution against a chain.** Its value is the settlement of the chain's answers. -/
theorem execute_value {client : Client σ} {hub : Address} {chain : Chain}
    (hchain : client.AnswersFor hub chain) {strict : Bool} {block : BlockRef}
    {calls : List (Call S)} (hsized : Sized (chain block) (calls.map Call.sub)) (slots : S)
    (s : σ) :
    (execute client hub strict block calls slots s).value =
      settleAll strict calls (answersTo (chain block) calls) slots := by
  unfold execute
  cases calls with
  | nil => cases strict <;> rfl
  | cons c cs =>
    obtain ⟨data, hcall, hdata⟩ := hchain block _ s hsized
    rw [List.map_map] at hdata
    rw [if_neg (by simp)]
    simp only [Session.bind_apply, Session.ask, Session.pure_apply, aggregateOf, hcall]
    exact conclude_of_decode? hdata (List.length_map _)

end StakingSnapshot
