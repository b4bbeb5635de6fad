import StakingSnapshot.Rpc

/-!
# Answers of remote calls

An answer is the result it carries, or a fault of the way to the chain that says why there is none.
A member `error` decides, whatever it is: a server that sends both members with each answer, and
`null` for the one that does not apply, is taken to report an error with each result.

* `Rpc.Says`: the text of an error; `Rpc.says_iff`: there is exactly one.
* `Rpc.Sorts`: what comes of an answer when certain members `error` count.
* `Rpc.answers_sorted`: all of them do, so that the answers where `null` should not are those that
  have it.
-/

namespace StakingSnapshot

namespace Json

variable {j r : Json} {name text : String} {code : Int}

theorem text?_eq_some_iff : j.text? = some text ↔ j = .str text := by
  cases j <;> simp [text?]

theorem int64?_eq_some_iff :
    j.int64? = some code ↔
      j = .int code ∧ -0x8000000000000000 ≤ code ∧ code < 0x8000000000000000 := by
  cases j with
  | int i =>
    rw [int64?, Option.ite_none_right_eq_some]
    constructor
    · rintro ⟨hrange, h⟩
      cases h
      exact ⟨rfl, hrange⟩
    · rintro ⟨h, hrange⟩
      cases h
      exact ⟨hrange, rfl⟩
  | _ => simp [int64?]

theorem isObject_of_member? (h : j.member? name = some r) : j.isObject = true := by
  cases j with
  | obj => rfl
  | _ => cases h

theorem member?_eq_none (h : j.isObject = false) : j.member? name = none := by
  cases j with
  | obj => cases h
  | _ => rfl

end Json

namespace Rpc

variable {answer e r : Json} {text : String} {code : Int} {p q : Json → Prop}

/-! ## The text of an error -/

/-- The message of an error is its member `message`, if that is a text. -/
inductive MessageOf (e : Json) : String → Prop where
  | own {text : String} (h : e.member? "message" = some (.str text)) : MessageOf e text
  | unknown (h : ∀ text, e.member? "message" ≠ some (.str text)) : MessageOf e "Unknown RPC error"

/-- The code of an error is its member `code`, an integer with 64 bits and a sign. -/
def CodeOf (e : Json) (code : Int) : Prop :=
  e.member? "code" = some (.int code) ∧ -0x8000000000000000 ≤ code ∧ code < 0x8000000000000000

/-- The text of an error is its message, with its code behind it if it has one. -/
inductive Says (e : Json) : String → Prop where
  | plain {text : String} (message : MessageOf e text) (h : ∀ code, ¬ CodeOf e code) : Says e text
  | coded {text : String} {code : Int} (message : MessageOf e text) (h : CodeOf e code) :
    Says e s!"{text} (code {code})"

theorem bind_text?_eq_some_iff :
    (e.member? "message").bind Json.text? = some text ↔
      e.member? "message" = some (.str text) := by
  simp [Option.bind_eq_some_iff, Json.text?_eq_some_iff]

theorem bind_int64?_eq_some_iff :
    (e.member? "code").bind Json.int64? = some code ↔ CodeOf e code := by
  simp only [Option.bind_eq_some_iff, Json.int64?_eq_some_iff]
  constructor
  · rintro ⟨j, hmember, rfl, hrange⟩
    exact ⟨hmember, hrange⟩
  · rintro ⟨hmember, hrange⟩
    exact ⟨_, hmember, rfl, hrange⟩

theorem messageOf_iff :
    MessageOf e text ↔
      text = ((e.member? "message").bind Json.text?).getD "Unknown RPC error" := by
  cases hown : (e.member? "message").bind Json.text? with
  | some own =>
    have hmember := bind_text?_eq_some_iff.1 hown
    constructor
    · rintro (h | h)
      · cases hmember.symm.trans h
        rfl
      · exact absurd hmember (h own)
    · rintro rfl
      exact .own hmember
  | none =>
    have hmember : ∀ text, e.member? "message" ≠ some (.str text) := fun text h => by
      rw [← bind_text?_eq_some_iff, hown] at h
      cases h
    constructor
    · rintro (h | h)
      · exact absurd h (hmember text)
      · rfl
    · rintro rfl
      exact .unknown hmember

/-- An error says one thing. -/
theorem says_iff : Says e text ↔ text = errorText e := by
  unfold errorText
  cases hown : (e.member? "code").bind Json.int64? with
  | some own =>
    have hcode := bind_int64?_eq_some_iff.1 hown
    constructor
    · rintro (⟨-, h⟩ | ⟨hmessage, h⟩)
      · exact absurd hcode (h own)
      · cases hcode.1.symm.trans h.1
        rw [messageOf_iff.1 hmessage]
    · rintro rfl
      exact .coded (messageOf_iff.2 rfl) hcode
  | none =>
    have hcode : ∀ code, ¬ CodeOf e code := fun code h => by
      rw [← bind_int64?_eq_some_iff, hown] at h
      cases h
    constructor
    · rintro (⟨hmessage, -⟩ | ⟨-, h⟩)
      · exact messageOf_iff.1 hmessage
      · exact absurd h (hcode _)
    · rintro rfl
      exact .plain (messageOf_iff.2 rfl) hcode

/-! ## What comes of an answer -/

/-- The answer has the member `error`, and it counts as one. -/
def Reports (counts : Json → Prop) (answer e : Json) : Prop :=
  answer.member? "error" = some e ∧ counts e

/-- An answer that reports no error is its result, if it is an object with one. In every other case
there is a fault of the way to the chain, so that the call may be made again. It says what the error
says, or else that there is no result. -/
structure Sorts (counts : Json → Prop) (answer : Json) : Prop where
  result : ∀ r, extractResult answer = .ok r ↔
    answer.isObject = true ∧ answer.member? "result" = some r ∧ ∀ e, ¬ Reports counts answer e
  failed : ∀ e, Reports counts answer e →
    ∃ text, Says e text ∧ extractResult answer = .error (.transport text)
  missing : (∀ e, ¬ Reports counts answer e) →
    answer.isObject = false ∨ answer.member? "result" = none →
      extractResult answer = .error (.transport "Missing RPC result")
  retryable : ∀ f, extractResult answer = .error f → f.kind = .transport ∧ f.isRetryable = true

theorem extractResult_eq_ok_iff :
    extractResult answer = .ok r ↔
      answer.member? "error" = none ∧ answer.member? "result" = some r := by
  unfold extractResult
  cases answer.member? "error" <;> cases answer.member? "result" <;> simp

theorem extractResult_of_error (h : answer.member? "error" = some e) :
    extractResult answer = .error (.transport (errorText e)) := by
  rw [extractResult, h]

theorem extractResult_of_missing (herror : answer.member? "error" = none)
    (hresult : answer.member? "result" = none) :
    extractResult answer = .error (.transport "Missing RPC result") := by
  rw [extractResult, herror, hresult]

theorem exists_transport {f : Fault} (h : extractResult answer = .error f) :
    ∃ text, f = .transport text := by
  unfold extractResult at h
  split at h
  · cases h
    exact ⟨_, rfl⟩
  · split at h
    · cases h
    · cases h
      exact ⟨_, rfl⟩

theorem forall_not_reports_iff :
    (∀ e, ¬ Reports (fun _ => True) answer e) ↔ answer.member? "error" = none := by
  simp [Reports, Option.eq_none_iff_forall_ne_some]

/-- Every member `error` counts. -/
theorem sorts_every (answer : Json) : Sorts (fun _ => True) answer where
  result r := by
    rw [extractResult_eq_ok_iff, forall_not_reports_iff]
    exact ⟨fun ⟨herror, hr⟩ => ⟨Json.isObject_of_member? hr, hr, herror⟩,
      fun ⟨_, hr, herror⟩ => ⟨herror, hr⟩⟩
  failed e he := ⟨errorText e, says_iff.2 rfl, extractResult_of_error he.1⟩
  missing herror hresult := by
    refine extractResult_of_missing (forall_not_reports_iff.1 herror) ?_
    rcases hresult with hobject | hnone
    · exact Json.member?_eq_none hobject
    · exact hnone
  retryable f hf := by
    obtain ⟨text, rfl⟩ := exists_transport hf
    exact ⟨rfl, rfl⟩

/-- Only the error that the answer has matters. -/
theorem Sorts.of_reports (hpq : ∀ e, Reports q answer e ↔ Reports p answer e)
    (h : Sorts p answer) : Sorts q answer where
  result r := by
    simp only [hpq]
    exact h.result r
  failed e he := h.failed e ((hpq e).1 he)
  missing herror := h.missing fun e he => herror e ((hpq e).2 he)
  retryable := h.retryable

/-- Beside `null` there is neither a result nor the fault that none is there. -/
theorem Sorts.error_ne_null (h : Sorts (· ≠ .null) answer) :
    answer.member? "error" ≠ some .null := by
  intro hnull
  have hreports : ∀ e, ¬ Reports (· ≠ .null) answer e := by
    rintro e ⟨he, hne⟩
    exact hne (Option.some.inj (he.symm.trans hnull))
  have hfault := extractResult_of_error hnull
  cases hr : answer.member? "result" with
  | some r =>
    rw [(h.result r).2 ⟨Json.isObject_of_member? hr, hr, hreports⟩] at hfault
    cases hfault
  | none =>
    rw [h.missing hreports (.inr hr)] at hfault
    exact absurd (Fault.transport.inj (Except.error.inj hfault)) (by decide)

/-- **Answers.** An answer is its result if it is an object that has one and has no member `error`.
If it has that member, there is a fault with the message and the code in it, and otherwise one that
the result is missing. A member `error` that is `null` should not count, but does: this, and nothing
else, is where an answer is taken for what it is not. -/
theorem answers_sorted (answer : Json) :
    Sorts (fun _ => True) answer ∧
      (Sorts (· ≠ .null) answer ↔ answer.member? "error" ≠ some .null) := by
  have hall := sorts_every answer
  refine ⟨hall, Sorts.error_ne_null, fun hnull => hall.of_reports fun e => ?_⟩
  refine and_congr_right fun he => ?_
  simp only [iff_true]
  rintro rfl
  exact hnull he

/-- A result with `null` beside it is taken for an error. -/
theorem result_beside_null_lost :
    extractResult (.obj [("result", .str "0x10"), ("error", .null)]) =
        .error (.transport "Unknown RPC error") ∧
      ¬ Sorts (· ≠ .null) (.obj [("result", .str "0x10"), ("error", .null)]) :=
  ⟨rfl, fun h => h.error_ne_null rfl⟩

end Rpc

end StakingSnapshot
