import StakingSnapshot.Proofs.Call.Interface
import StakingSnapshot.Rpc

/-!
# Which failures may pass

A later attempt may succeed where the cause of a fault is the way to the chain.

* `Fault.isRetryable_iff`: which faults these are, under whatever contexts.
* `OnlyTransport`: a result that has no other faults. `Endpoint.client_failsByTransport`: an endpoint
  answers like this if the exchange does.
* `Answered.IsLost`: an answer that did not come through. Of the failures of answers these are the
  ones that may pass (`Answered.lost_iff`), if the client has no other faults of its own.
-/

namespace StakingSnapshot

variable {σ α β : Type}

namespace Fault

theorem isRetryable_root (f : Fault) : f.root.isRetryable = f.isRetryable := by
  rw [isRetryable, isRetryable, kind_root]

/-- A fault may pass if its cause is the way to the chain. -/
theorem isRetryable_iff {f : Fault} : f.isRetryable = true ↔ ∃ text, f.root = .transport text := by
  induction f with
  | context text source ih => exact ih
  | transport text => exact ⟨fun _ => ⟨text, rfl⟩, fun _ => rfl⟩
  | _ => exact ⟨nofun, nofun⟩

end Fault

/-! ## Clients whose faults may pass -/

/-- If the result is a fault, it is about the way to the chain. -/
def OnlyTransport (result : Except Fault α) : Prop := ∀ f, result = .error f → f.isRetryable = true

namespace OnlyTransport

theorem ok (a : α) : OnlyTransport (.ok a) := nofun

theorem transport (text : String) : OnlyTransport (.error (.transport text) : Except Fault α) := by
  rintro _ ⟨⟩
  rfl

theorem bind {x : Except Fault α} {g : α → Except Fault β} (hx : OnlyTransport x)
    (hg : ∀ a, OnlyTransport (g a)) : OnlyTransport (x >>= g) := by
  cases x with
  | error f =>
    rintro _ ⟨⟩
    exact hx f rfl
  | ok a => exact hg a

end OnlyTransport

/-- All faults of the client's own are about the way to the chain. -/
structure Client.FailsByTransport (client : Client σ) : Prop where
  head : ∀ s, OnlyTransport (client.head s).1
  call : ∀ target data block s, OnlyTransport (client.call target data block s).1

theorem Rpc.onlyTransport_extractResult (answer : Json) : OnlyTransport (extractResult answer) := by
  unfold extractResult
  split
  · exact .transport _
  · split
    · exact .ok _
    · exact .transport _

namespace Endpoint

theorem onlyTransport_blockNumberOf (j : Json) : OnlyTransport (blockNumberOf j) := by
  unfold blockNumberOf
  split
  · split
    · exact .transport _
    · split
      · exact .ok _
      · exact .transport _
  · exact .transport _

variable {exchange : Exchange} (e : Endpoint)

theorem onlyTransport_call (h : ∀ payload, OnlyTransport (exchange e payload)) (method : String)
    (params : Json) : OnlyTransport (e.call exchange method params) :=
  (h _).bind Rpc.onlyTransport_extractResult

/-- The client of an endpoint has no other faults if the exchange has none. -/
theorem client_failsByTransport (h : ∀ payload, OnlyTransport (exchange e payload)) :
    (client exchange e).FailsByTransport where
  head _ := (onlyTransport_call e h _ _).bind onlyTransport_blockNumberOf
  call target data block s := by
    refine (onlyTransport_call e h _ _).bind fun j => ?_
    cases j with
    | str text =>
      cases hparse : Bytes.parse text with
      | ok bytes =>
        simp only [hparse]
        exact .ok bytes
      | error f =>
        simp only [hparse]
        exact .transport _
    | _ => exact .transport _

end Endpoint

/-! ## Answers that did not come through -/

/-- A success that cannot be read has been answered all the same. -/
theorem SubCall.kind_of_complaint? {c : SubCall} {r : CallResult} {cause : Fault}
    (h : c.complaint? r = some cause) : cause.kind = .decode := by
  unfold complaint? at h
  split at h
  case isFalse => cases h
  case isTrue =>
    split at h
    · split at h <;> cases h
      rfl
    · cases h
      rfl

namespace Answered

/-- If there is no answer, the fault is about the way to the chain. -/
def FailsByTransport : Answered → Prop
  | head answer => OnlyTransport answer
  | aggregate _ _ _ answer => OnlyTransport answer

/-- No number came back, or not one result for each call. -/
def IsLost : Answered → Prop
  | head answer => ∀ n, answer ≠ .ok n
  | aggregate _ body _ answer => ∀ data, answer = .ok data →
      ∀ results, Reply.decode? data = some results → results.length ≠ body.calls.length

/-- Of the failures of answers, those may pass with which the answer was lost. -/
theorem lost_iff {a : Answered} (h : a.FailsByTransport) :
    (∃ text, a.failure? = some (.transport text)) ↔ a.IsLost := by
  cases a with
  | head answer =>
    cases answer with
    | ok n => simp [failure?, failureOf, IsLost]
    | error e => simpa [failure?, failureOf, IsLost] using Fault.isRetryable_iff.1 (h e rfl)
  | aggregate target body block answer =>
    cases answer with
    | error e => simpa [failure?, IsLost] using Fault.isRetryable_iff.1 (h e rfl)
    | ok data =>
      cases hd : Reply.decode? data with
      | none => simp [failure?, IsLost, hd]
      | some results =>
        by_cases hlen : results.length = body.calls.length
        case neg => simp [failure?, IsLost, hd, hlen]
        case pos =>
          constructor
          · rintro ⟨text, htext⟩
            simp only [failure?, hd, hlen, ne_eq, not_true_eq_false, if_false] at htext
            split at htext
            · cases htext
            · obtain ⟨p, -, hp⟩ := List.exists_of_findSome?_eq_some htext
              cases SubCall.kind_of_complaint? hp
          · intro hlost
            exact absurd hlen (hlost data rfl results hd)

end Answered

theorem Client.FailsByTransport.replay {client : Client σ} (h : client.FailsByTransport)
    (requests : List Request) (s : σ) : ∀ a ∈ client.replay requests s, a.FailsByTransport := by
  induction requests generalizing s with
  | nil => exact fun _ h => nomatch h
  | cons request requests ih =>
    refine List.forall_mem_cons.2 ⟨?_, ih _⟩
    cases request with
    | head => exact h.head s
    | aggregate target body block => exact h.call target body.encode block s

end StakingSnapshot
