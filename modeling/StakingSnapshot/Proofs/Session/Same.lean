import StakingSnapshot.Proofs.Session.Reads

/-!
# Outcomes that cannot be told apart

Two clients may be asked by the same program. `Outcome.Same` says that the two runs have the same
value, put the same questions in the same order, and log the same events. It is about two runs whose
clients may have states of different types.

* `Session.same_bind`, `Read.same_bind`: runs that are the same so far and go on in the same way.
* `Read.same_context`, `Snapshot.same_logged`: contexts and events keep runs the same.
-/

namespace StakingSnapshot

variable {σ τ α β : Type}

/-- Nobody who sees the values, the questions and the events can tell the outcomes apart. -/
structure Outcome.Same (x : Outcome σ α) (y : Outcome τ α) : Prop where
  value : y.value = x.value
  sent : y.sent = x.sent
  log : y.log = x.log

theorem Session.same_bind {m : Session σ α} {m' : Session τ α} {f : α → Session σ β}
    {f' : α → Session τ β} {s : σ} {s' : τ} (h : (m s).Same (m' s'))
    (hf : ∀ t t', (f (m s).value t).Same (f' (m s).value t')) :
    ((m >>= f) s).Same ((m' >>= f') s') := by
  obtain ⟨hvalue, hsent, hlog⟩ := hf (m s).chain (m' s').chain
  rw [Session.bind_apply, Session.bind_apply, h.value, h.sent, h.log, hsent, hlog]
  exact ⟨hvalue, rfl, rfl⟩

theorem Session.same_pure (a : α) (s : σ) (s' : τ) :
    ((pure a : Session σ α) s).Same ((pure a : Session τ α) s') := ⟨rfl, rfl, rfl⟩

namespace Read

variable {m : Read σ α} {m' : Read τ α} {s : σ} {s' : τ}

/-- After the first reads, which are the same, the second ones only have to be the same for what was
read. -/
theorem same_bind {f : α → Read σ β} {f' : α → Read τ β} (h : (m s).Same (m' s'))
    (hf : ∀ a, (m s).value = .ok a → ∀ t t', (f a t).Same (f' a t')) :
    ((m >>= f) s).Same ((m' >>= f') s') := by
  have hrest : ∀ t t', ExceptT.bindCont f (m s).value t |>.Same
      (ExceptT.bindCont f' (m s).value t') := by
    cases hvalue : (m s).value with
    | error e => exact Session.same_pure _
    | ok a => exact hf a hvalue
  exact Session.same_bind (show (m.run s).Same (m'.run s') from h) hrest

theorem same_pure (a : α) (s : σ) (s' : τ) :
    ((pure a : Read σ α) s).Same ((pure a : Read τ α) s') := ⟨rfl, rfl, rfl⟩

theorem same_ofExcept (r : Except Fault α) (s : σ) (s' : τ) :
    ((ofExcept r : Read σ α) s).Same ((ofExcept r : Read τ α) s') := ⟨rfl, rfl, rfl⟩

theorem same_context (text : String) (h : (m s).Same (m' s')) :
    (m.context text s).Same (m'.context text s') :=
  Session.same_bind (show (m.run s).Same (m'.run s') from h) fun t t' => Session.same_pure _ t t'

end Read

theorem Snapshot.same_logged {m : Read σ α} {m' : Read τ α} {s : σ} {s' : τ} (entity : String)
    (block : BlockNumber) (count : α → Nat) (h : (m s).Same (m' s')) :
    (logged entity block count m s).Same (logged entity block count m' s') :=
  Session.same_bind (show (m.run s).Same (m'.run s') from h) fun _ _ => ⟨rfl, rfl, rfl⟩

end StakingSnapshot
