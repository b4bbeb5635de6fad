import StakingSnapshot.Proofs.Call.Interface
import StakingSnapshot.Proofs.Session.Reads

/-!
# How a session ends, by what was answered

* `Verdict`: a session that met no failure is complete or refused something; one that met a failure
  fails with it and asks nothing more.
* `Outcome.Judged`: a session that asked a client and ended with a verdict.
* `Refusal`: what a read refuses, and how much it has asked by then; `Refusal.after`.
* `Read.Judged`: reads, and how they are put together (`Read.Judged.bind` and its kin).
-/

namespace StakingSnapshot

variable {σ α β S ι : Type}

/-- How a session ends whose questions were answered as in the transcript, with the given failure or
with none. -/
inductive Verdict (Refused : Fault → Prop) (transcript : List Answered) : Option Fault → Prop where
  /-- No answer is a failure, and neither is the result. -/
  | complete (sound : ∀ a ∈ transcript, a.failure? = none) : Verdict Refused transcript none
  /-- The last answer is the only one that is a failure, and the result is this failure. -/
  | failed (before : List Answered) (last : Answered) {cause : Fault}
    (ends : transcript = before ++ [last]) (sound : ∀ a ∈ before, a.failure? = none)
    (root : last.failure? = some cause) : Verdict Refused transcript (some cause)
  /-- No answer is a failure, but what was answered is refused. -/
  | refused {cause : Fault} (sound : ∀ a ∈ transcript, a.failure? = none)
    (root : Refused cause) : Verdict Refused transcript (some cause)

namespace Verdict

variable {R R' : Fault → Prop} {t t' : List Answered} {failure : Option Fault}

theorem mono (h : Verdict R t failure) (hR : ∀ cause, R cause → R' cause) :
    Verdict R' t failure := by
  cases h with
  | complete sound => exact .complete sound
  | failed before last ends sound root => exact .failed before last ends sound root
  | refused sound root => exact .refused sound (hR _ root)

/-- Answers that are no failures may come before. -/
theorem append (h : Verdict R t' failure) (hsound : ∀ a ∈ t, a.failure? = none) :
    Verdict R (t ++ t') failure := by
  cases h with
  | complete sound => exact .complete (List.forall_mem_append.2 ⟨hsound, sound⟩)
  | failed before last ends sound root =>
    refine .failed (t ++ before) last ?_ (List.forall_mem_append.2 ⟨hsound, sound⟩) root
    rw [ends, List.append_assoc]
  | refused sound root => exact .refused (List.forall_mem_append.2 ⟨hsound, sound⟩) root

theorem sound_of_none (h : Verdict R t none) : ∀ a ∈ t, a.failure? = none := by
  cases h with
  | complete sound => exact sound

/-- A single answer. -/
theorem of_failure? {a : Answered} (h : failure = a.failure?) : Verdict R [a] failure := by
  subst h
  cases ha : a.failure? with
  | none => exact .complete (List.forall_mem_singleton.2 ha)
  | some cause => exact .failed [] a rfl (fun _ h => nomatch h) ha

end Verdict

theorem failureOf_withContext (text : String) (result : Except Fault α) :
    failureOf (withContext text result) = failureOf result := by
  cases result <;> rfl

/-- The session asked the client in its state, and ended with a verdict. What it refuses may depend
on what it has asked. -/
structure Outcome.Judged (client : Client σ) (Refused : List Request → Fault → Prop) (s : σ)
    (x : Outcome σ α) (failure : Option Fault) : Prop where
  /-- The client ends in the state after all the questions. -/
  chain : x.chain = client.after x.sent s
  verdict : Verdict (Refused x.sent) (client.replay x.sent s) failure

namespace Outcome.Judged

variable {client : Client σ} {R R' : List Request → Fault → Prop} {s : σ} {x : Outcome σ α}
  {y : Outcome σ β} {failure failure' : Option Fault}

theorem mono (h : x.Judged client R s failure) (hR : ∀ sent cause, R sent cause → R' sent cause) :
    x.Judged client R' s failure :=
  ⟨h.chain, h.verdict.mono (hR x.sent)⟩

/-- A verdict is about questions and failures only. -/
theorem congr (h : x.Judged client R s failure) (hchain : y.chain = x.chain)
    (hsent : y.sent = x.sent) (hfailure : failure' = failure) : y.Judged client R s failure' := by
  subst hfailure
  constructor
  · rw [hchain, hsent]
    exact h.chain
  · rw [hsent]
    exact h.verdict

/-- One session that is complete, and another one behind it. -/
theorem append (hx : x.Judged client R' s none)
    (hy : y.Judged client (fun sent => R (x.sent ++ sent)) x.chain failure)
    {z : Outcome σ ι} (hchain : z.chain = y.chain) (hsent : z.sent = x.sent ++ y.sent) :
    z.Judged client R s failure := by
  have hstate := hx.chain
  constructor
  · rw [hchain, hsent, Client.after_append, ← hstate]
    exact hy.chain
  · rw [hsent, Client.replay_append, ← hstate]
    exact hy.verdict.append hx.verdict.sound_of_none

/-- Nothing asked, nothing refused. -/
theorem of_silent (hchain : x.chain = s) (hsent : x.sent = []) : x.Judged client R s none := by
  constructor
  · rw [hchain, hsent]
    rfl
  · rw [hsent]
    exact .complete fun _ h => nomatch h

/-- Nothing asked, but something refused. -/
theorem of_refused (hchain : x.chain = s) (hsent : x.sent = []) {cause : Fault} (h : R [] cause)
    (hfailure : failure = some cause) : x.Judged client R s failure := by
  subst hfailure
  constructor
  · rw [hchain, hsent]
    rfl
  · rw [hsent]
    exact .refused (fun _ h => nomatch h) h

end Outcome.Judged

/-! ## Reads -/

/-- What a read refuses when it was begun in a state of the client: after which questions, and with
which fault. -/
abbrev Refusal (σ : Type) : Type := σ → List Request → Fault → Prop

namespace Refusal

/-- Nothing is refused. -/
def never : Refusal σ := fun _ _ _ => False

/-- Something is refused before anything is asked. -/
def atOnce (P : Fault → Prop) : Refusal σ := fun _ sent cause => sent = [] ∧ P cause

/-- One thing or another is refused. -/
def either (R R' : Refusal σ) : Refusal σ := fun s sent cause => R s sent cause ∨ R' s sent cause

/-- Something is refused behind a read, by what was read. -/
def after (m : Read σ α) (R : α → Refusal σ) : Refusal σ := fun s sent cause =>
  ∃ a, (m s).value = .ok a ∧ ∃ rest, sent = (m s).sent ++ rest ∧ R a (m s).chain rest cause

/-- A context does not change what is refused behind. -/
theorem after_context {m : Read σ α} {text : String} {R : α → Refusal σ} :
    after (m.context text) R = after m R := by
  funext s sent cause
  simp only [after, Read.context_value_eq_ok_iff, Read.sent_context]
  rfl

end Refusal

namespace Read

variable {client : Client σ} {R R' : Refusal σ} {s : σ}

/-- The read, done in a state of the client, ends with a verdict. -/
def Judged (client : Client σ) (R : Refusal σ) (s : σ) (m : Read σ α) : Prop :=
  Outcome.Judged client (R s) s (m s) (failureOf (m s).value)

theorem judged_pure (a : α) : (pure a : Read σ α).Judged client R s := .of_silent rfl rfl

theorem judged_ofExcept {result : Except Fault α} {P : Fault → Prop}
    (h : ∀ e, result = .error e → P e.root) :
    (ofExcept result : Read σ α).Judged client (.atOnce P) s := by
  cases result with
  | ok a => exact .of_silent rfl rfl
  | error e => exact .of_refused rfl rfl ⟨rfl, h e rfl⟩ rfl

/-- **Two reads in a row.** The second one may depend on what the first one came to, and so may what
it refuses. -/
theorem Judged.bind {m : Read σ α} {f : α → Read σ β} {R' : α → Refusal σ}
    (hm : m.Judged client R s)
    (hf : ∀ a, (m s).value = .ok a → (f a).Judged client (R' a) (m s).chain) :
    (m >>= f).Judged client (R.either (.after m R')) s := by
  unfold Judged at hm ⊢
  cases h : (m s).value with
  | error e =>
    rw [h] at hm
    rw [bind_of_error h]
    exact (hm.mono fun _ _ => .inl).congr rfl rfl rfl
  | ok a =>
    rw [h] at hm
    rw [bind_of_ok h]
    refine hm.append ((hf a h).mono fun rest cause hrest => ?_) rfl rfl
    exact .inr ⟨a, h, rest, rfl, hrest⟩

/-- Behind a read that refuses nothing. -/
theorem Judged.behind {m : Read σ α} {f : α → Read σ β} {R : α → Refusal σ}
    (hm : m.Judged client .never s)
    (hf : ∀ a, (m s).value = .ok a → (f a).Judged client (R a) (m s).chain) :
    (m >>= f).Judged client (.after m R) s :=
  (hm.bind hf).mono fun _ _ h => h.resolve_left id

/-- Before reads that refuse nothing. -/
theorem Judged.before {m : Read σ α} {f : α → Read σ β} (hm : m.Judged client R s)
    (hf : ∀ a, (m s).value = .ok a → (f a).Judged client .never (m s).chain) :
    (m >>= f).Judged client R s := by
  refine (hm.bind hf).mono fun _ _ h => h.resolve_right ?_
  rintro ⟨_, _, _, _, hnever⟩
  exact hnever

theorem Judged.context {m : Read σ α} {text : String} (h : m.Judged client R s) :
    (m.context text).Judged client R s :=
  Outcome.Judged.congr h rfl sent_context (failureOf_withContext text _)

theorem judged_logged {m : Read σ α} {entity : String} {block : BlockNumber} {count : α → Nat}
    (h : m.Judged client R s) : (Snapshot.logged entity block count m).Judged client R s :=
  Outcome.Judged.congr h rfl Snapshot.sent_logged rfl

end Read

end StakingSnapshot
