import StakingSnapshot.Proofs.Call.Settlement

/-!
# Slots of a state

A slot is a part of a state that one can look at. A call fills a slot if its answer, once read, is
what one sees there, and spares a slot if its answer never changes what one sees.

* `Call.Keeps`: a call does not break a property of the state, whatever is answered;
  `applied_of_keeps`: neither do many such calls; `execute_of_keeps`: nor does their execution.
* `Call.Fills`, `Call.Spares`, and which calls of methods do so (`fills_typed`, `spares_typed`).
* `Call.look_applied`: what is in a slot that one call fills and the others spare. If the call
  succeeded it is the call's own answer, and otherwise what was there before.
-/

namespace StakingSnapshot

variable {S : Type} {α : Type}

namespace Call

/-- The call does not break the property, whatever is answered. -/
def Keeps (P : S → Prop) (c : Call S) : Prop :=
  ∀ d, c.decoder = some d → ∀ data f, d data = .ok f → ∀ x, P x → P (f x)

/-- The call reads its answer by `read`, and the value is what one then sees in the slot. -/
def Fills (look : S → α) (read : Bytes → Option α) (c : Call S) : Prop :=
  ∃ d, c.decoder = some d ∧
    ∀ data f, d data = .ok f → ∃ v, read data = some v ∧ ∀ x, look (f x) = v

/-- The call does not change what one sees in the slot. -/
def Spares (look : S → α) (c : Call S) : Prop :=
  ∀ d, c.decoder = some d → ∀ data f, d data = .ok f → ∀ x, look (f x) = look x

section Typed

variable {β : Type} [Abi.Arguments β] {k : Abi.Kind} {m : Abi.Method β k} {target : Address}
  {args : β} {store : k.Value → S → S}

/-- A method's call fills the slot that it stores its value in. -/
theorem fills_typed {look : S → k.Value} (h : ∀ v x, look (store v x) = v) :
    (typed m target args store).Fills look k.decode := by
  refine ⟨_, rfl, fun data f hf => ?_⟩
  unfold decoderOf at hf
  split at hf
  case h_1 v hv =>
    cases hf
    exact ⟨v, hv, h v⟩
  case h_2 => cases hf

/-- The call for a value fills the only slot. -/
theorem fills_value : (value m target args).Fills id k.decode :=
  fills_typed fun _ _ => rfl

/-- A method's call keeps what storing its value does. -/
theorem keeps_typed {P : S → Prop} (h : ∀ v x, P x → P (store v x)) :
    (typed m target args store).Keeps P := by
  intro d hd data f hf x hx
  cases hd
  unfold decoderOf at hf
  split at hf
  case h_1 v hv =>
    cases hf
    exact h v x hx
  case h_2 => cases hf

/-- A method's call spares the slots that storing its value does. -/
theorem spares_typed {look : S → α} (h : ∀ v x, look (store v x) = look x) :
    (typed m target args store).Spares look :=
  fun d hd data f hf x =>
    keeps_typed (P := fun y => look y = look x) (fun v y hy => (h v y).trans hy) d hd data f hf x rfl

end Typed

theorem effect_of_keeps {P : S → Prop} {c : Call S} (h : c.Keeps P) (r : CallResult) {x : S}
    (hx : P x) : P (c.effect r x) := by
  cases hd : c.decoder with
  | none => rwa [effect_of_raw hd]
  | some d =>
    cases hr : r.success with
    | false => rwa [effect_of_failure c hr]
    | true =>
      cases hf : d r.data with
      | error e => simpa only [effect, hd, hr, hf, id] using hx
      | ok f =>
        rw [effect_of_success hr hd hf]
        exact h d hd r.data f hf x hx

end Call

/-- A property that each call keeps holds after all of them. -/
theorem applied_of_keeps {P : S → Prop} (answer : SubCall → CallResult) {calls : List (Call S)}
    (h : ∀ c ∈ calls, c.Keeps P) {x : S} (hx : P x) : P (applied answer calls x) := by
  induction calls generalizing x with
  | nil => exact hx
  | cons c calls ih =>
    obtain ⟨hc, hrest⟩ := List.forall_mem_cons.1 h
    exact ih hrest (Call.effect_of_keeps hc _ hx)

/-- A property that each call keeps holds after the settlement, wherever it ends. -/
theorem settle_of_keeps {P : S → Prop} {pairs : List (Call S × CallResult)}
    (h : ∀ p ∈ pairs, p.1.Keeps P) {slots : S} (hslots : P slots) : P (settle pairs slots).1 := by
  induction pairs generalizing slots with
  | nil => exact hslots
  | cons p pairs ih =>
    obtain ⟨c, r⟩ := p
    obtain ⟨hc, hrest⟩ := List.forall_mem_cons.1 h
    by_cases hreadable : c.Readable r
    · rw [settle_cons_of_readable hreadable]
      exact ih hrest (Call.effect_of_keeps hc r hslots)
    · obtain ⟨e, he⟩ := settle_cons_of_not_readable hreadable pairs slots
      rwa [he]

/-- A property that each call keeps holds after any answer. -/
theorem conclude_of_keeps {P : S → Prop} {calls : List (Call S)} (h : ∀ c ∈ calls, c.Keeps P)
    (strict : Bool) {slots : S} (hslots : P slots) (answer : Except Fault Bytes) :
    P (conclude strict calls slots answer).1 := by
  unfold conclude
  split
  · exact hslots
  · exact settle_of_keeps (fun p hp => h p.1 (List.of_mem_zip hp).1) hslots

/-- A property that each call keeps holds after an execution, whatever comes of it. -/
theorem execute_of_keeps {σ : Type} {P : S → Prop} {calls : List (Call S)}
    (h : ∀ c ∈ calls, c.Keeps P) (client : Client σ) (hub : Address) (strict : Bool)
    (block : BlockRef) {slots : S} (hslots : P slots) (s : σ) :
    P (execute client hub strict block calls slots s).value.1 := by
  unfold execute
  split
  · exact hslots
  · exact conclude_of_keeps h strict hslots _

namespace Call

/-- To spare a slot is to keep whatever one sees in it. -/
theorem Spares.keeps {look : S → α} {c : Call S} (h : c.Spares look) (v : α) :
    c.Keeps fun x => look x = v :=
  fun d hd data f hf x hx => (h d hd data f hf x).trans hx

theorem look_applied_of_spares {look : S → α} {answer : SubCall → CallResult}
    {calls : List (Call S)} (h : ∀ c ∈ calls, c.Spares look) (x : S) :
    look (applied answer calls x) = look x :=
  applied_of_keeps (P := fun y => look y = look x) answer (fun c hc => (h c hc).keeps (look x)) rfl

/-- **What is in a slot.** If the call that fills it succeeded, it is this call's own answer.
Otherwise it is what was there before. -/
theorem look_applied {look : S → α} {read : Bytes → Option α} {answer : SubCall → CallResult}
    {before after : List (Call S)} {c : Call S} (hfills : c.Fills look read)
    (hspares : ∀ d ∈ before ++ after, d.Spares look) (hread : c.Readable (answer c.sub)) (x : S) :
    if (answer c.sub).success then
      read (answer c.sub).data = some (look (applied answer (before ++ c :: after) x))
    else look (applied answer (before ++ c :: after) x) = look x := by
  obtain ⟨hbefore, hafter⟩ := List.forall_mem_append.1 hspares
  rw [applied_append, applied_cons, look_applied_of_spares hafter]
  cases hr : (answer c.sub).success with
  | true =>
    obtain ⟨d, hd, hlook⟩ := hfills
    obtain ⟨f, hf⟩ := hread hr d hd
    obtain ⟨v, hv, hseen⟩ := hlook _ f hf
    rw [if_pos rfl, effect_of_success hr hd hf, hseen, hv]
  | false =>
    rw [if_neg Bool.false_ne_true, effect_of_failure c hr]
    exact look_applied_of_spares hbefore x

end Call

end StakingSnapshot
