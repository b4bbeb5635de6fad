import StakingSnapshot.Snapshot

/-!
# What composed reads come to

A read is put together from smaller ones by `bind`, by contexts and by logging. Its value and what
it asks follow from those of its parts.

* `Outcome.Asked`: a call is among those that a session sent.
* `Read.bind_value_eq_ok_iff`, `Read.asked_bind_iff`: one read after another.
* `Read.context_value_eq_ok_iff`, `Snapshot.logged_value` and their kin: what a context and an event
  leave as it is.
-/

namespace StakingSnapshot

variable {σ α β : Type}

/-- The call is part of the request. -/
def Request.Asks (c : SubCall) : Request → Prop
  | head => False
  | aggregate _ body _ => c ∈ body.calls

/-- The call was sent in some aggregate. -/
def Outcome.Asked (x : Outcome σ α) (c : SubCall) : Prop := ∃ request ∈ x.sent, request.Asks c

namespace Read

variable {m : Read σ α} {f : α → Read σ β} {s : σ}

theorem bind_of_ok {a : α} (h : (m s).value = .ok a) :
    let next := f a (m s).chain
    (m >>= f) s = ⟨next.value, next.chain, (m s).sent ++ next.sent, (m s).log ++ next.log⟩ := by
  change (m.run >>= ExceptT.bindCont f : Session σ (Except Fault β)) s = _
  rw [Session.bind_apply]
  simp only [ExceptT.run, h, ExceptT.bindCont]

/-- After a read that fails, nothing is read. -/
theorem bind_of_error {e : Fault} (h : (m s).value = .error e) :
    (m >>= f) s = ⟨.error e, (m s).chain, (m s).sent, (m s).log⟩ := by
  change (m.run >>= ExceptT.bindCont f : Session σ (Except Fault β)) s = _
  rw [Session.bind_apply]
  simp only [ExceptT.run, h, ExceptT.bindCont, Session.pure_apply, List.append_nil]

/-- Two reads in a row succeed exactly if the first does and, with what it read, the second. -/
theorem bind_value_eq_ok_iff {b : β} :
    ((m >>= f) s).value = .ok b ↔
      ∃ a, (m s).value = .ok a ∧ (f a (m s).chain).value = .ok b := by
  cases h : (m s).value with
  | error e =>
    rw [bind_of_error h]
    simp
  | ok a =>
    rw [bind_of_ok h]
    simp

/-- Two reads in a row ask what the first asks and, if it succeeds, what the second does. -/
theorem asked_bind_iff {c : SubCall} :
    ((m >>= f) s).Asked c ↔
      (m s).Asked c ∨ ∃ a, (m s).value = .ok a ∧ (f a (m s).chain).Asked c := by
  cases h : (m s).value with
  | error e =>
    rw [bind_of_error h]
    simp [Outcome.Asked]
  | ok a =>
    rw [bind_of_ok h]
    simp only [Outcome.Asked, List.mem_append, or_and_right, exists_or, Except.ok.injEq,
      exists_eq_left']

/-- Two reads in a row send what the first sends and, if it succeeds, what the second does. -/
theorem mem_sent_bind_iff {request : Request} :
    request ∈ ((m >>= f) s).sent ↔
      request ∈ (m s).sent ∨ ∃ a, (m s).value = .ok a ∧ request ∈ (f a (m s).chain).sent := by
  cases h : (m s).value with
  | error e =>
    rw [bind_of_error h]
    simp
  | ok a =>
    rw [bind_of_ok h]
    simp only [List.mem_append, Except.ok.injEq, exists_eq_left']

/-- What two reads in a row ask, if both succeed. -/
theorem asked_bind_of_ok {b : β} (h : ((m >>= f) s).value = .ok b) {c : SubCall}
    (hc : ((m >>= f) s).Asked c) :
    ∃ a, (m s).value = .ok a ∧ (f a (m s).chain).value = .ok b ∧
      ((m s).Asked c ∨ (f a (m s).chain).Asked c) := by
  obtain ⟨a, ha, hb⟩ := bind_value_eq_ok_iff.1 h
  refine ⟨a, ha, hb, (asked_bind_iff.1 hc).imp_right ?_⟩
  rintro ⟨a', ha', hc⟩
  obtain rfl := Except.ok.inj (ha.symm.trans ha')
  exact hc

theorem pure_value_eq_ok_iff {a b : α} : ((pure a : Read σ α) s).value = .ok b ↔ a = b :=
  ⟨fun h => Except.ok.inj h, fun h => congrArg Except.ok h⟩

theorem not_asked_pure {a : α} {c : SubCall} : ¬ ((pure a : Read σ α) s).Asked c := by
  rintro ⟨_, h, -⟩
  cases h

theorem not_asked_ofExcept {r : Except Fault α} {c : SubCall} :
    ¬ ((ofExcept r : Read σ α) s).Asked c := by
  rintro ⟨_, h, -⟩
  cases h

theorem context_value {text : String} :
    (m.context text s).value = withContext text (m s).value := rfl

/-- A context changes a fault only. -/
theorem context_value_eq_ok_iff {text : String} {a : α} :
    (m.context text s).value = .ok a ↔ (m s).value = .ok a := by
  rw [context_value]
  cases (m s).value with
  | error e => exact ⟨nofun, nofun⟩
  | ok b => exact Iff.rfl

theorem sent_context {text : String} : (m.context text s).sent = (m s).sent := List.append_nil _

theorem asked_context_iff {text : String} {c : SubCall} :
    (m.context text s).Asked c ↔ (m s).Asked c := by
  rw [Outcome.Asked, Outcome.Asked, sent_context]

end Read

namespace Snapshot

variable {entity : String} {block : BlockNumber} {count : α → Nat} {m : Read σ α} {s : σ}

/-- An event at the end does not show in what is read. -/
theorem logged_value : (logged entity block count m s).value = (m s).value := rfl

theorem sent_logged : (logged entity block count m s).sent = (m s).sent := List.append_nil _

theorem asked_logged_iff {c : SubCall} :
    (logged entity block count m s).Asked c ↔ (m s).Asked c := by
  rw [Outcome.Asked, Outcome.Asked, sent_logged]

end Snapshot

end StakingSnapshot
