import Mathlib.Logic.Function.Basic
import StakingSnapshot.Parameter.Formats
import StakingSnapshot.Proofs.Parameter.Written

/-!
# What a parameter keeps

The value that a parameter keeps is that of its raw scalar, whatever was done to the parameter and
to those it was copied from, and nothing but the time that a read takes tells whether it is kept.

* `Parameter.Coherent`: what is kept is right; `Parameter.coherent_stateAfter`: it always is.
* `Parameter.Act`: what can be done with parameters that have names; `Parameter.perform`: what it
  does and shows.
* `Parameter.lastRaw`: the raw scalar that was last written to a name, told from the acts alone.
* `Parameter.kept_unseen`: after any acts, what a parameter is read as and what an act shows.
-/

namespace StakingSnapshot

namespace Parameter

variable {R V : Type}

/-! ## One parameter -/

section Coherent

variable {F : Format R V} {p : Parameter F}

/-- The value that is kept, if one is, is that of the raw scalar. -/
def Coherent (p : Parameter F) : Prop := ∀ v ∈ p.kept, v = F.toValue p.raw

theorem coherent_ofRaw (raw : R) : (ofRaw raw : Parameter F).Coherent := fun _ h => nomatch h

theorem Coherent.clone (h : p.Coherent) : p.clone.Coherent := h

theorem Coherent.formatted_fst (h : p.Coherent) : p.formatted.1 = F.toValue p.raw := by
  unfold formatted
  split
  case h_1 v hkept => exact h v hkept
  case h_2 => rfl

theorem Coherent.formatted_snd (h : p.Coherent) : p.formatted.2.Coherent := by
  unfold formatted
  split
  case h_1 => exact h
  case h_2 =>
    intro v hv
    exact (Option.some.inj hv).symm

@[simp] theorem raw_formatted (p : Parameter F) : p.formatted.2.raw = p.raw := by
  unfold formatted
  split <;> rfl

theorem coherent_update {σ : Nat → Parameter F} (hσ : ∀ x, (σ x).Coherent) (x : Nat)
    (hp : p.Coherent) :
    ∀ z, (Function.update σ x p z).Coherent :=
  (Function.forall_update_iff σ fun _ => Coherent).2 ⟨hp, fun z _ => hσ z⟩

theorem raw_update (σ : Nat → Parameter F) (x : Nat) (p : Parameter F) :
    (fun z => (Function.update σ x p z).raw) = Function.update (fun z => (σ z).raw) x p.raw :=
  Function.comp_update Parameter.raw σ x p

end Coherent

/-! ## Acts -/

/-- Something to do with parameters that have names. -/
inductive Act (R V : Type) where
  /-- Put the default parameter under a name. -/
  | default (x : Nat)
  /-- Put the parameter with a raw scalar under a name. -/
  | ofRaw (x : Nat) (raw : R)
  /-- Put the parameter with the raw scalar of a value under a name. -/
  | ofValue (x : Nat) (v : V)
  /-- Write a raw scalar. -/
  | setRaw (x : Nat) (raw : R)
  /-- Write the raw scalar of a value. -/
  | set (x : Nat) (v : V)
  /-- Put a copy of the second parameter under the first name. -/
  | clone (x y : Nat)
  /-- Put what is read from the written form of the second parameter under the first name. -/
  | reread (x y : Nat)
  /-- Ask for the value. -/
  | formatted (x : Nat)
  /-- Ask for the raw scalar. -/
  | raw (x : Nat)
  /-- Compare two parameters. -/
  | compare (x y : Nat)
  /-- Write a parameter out. -/
  | write (x : Nat)

/-- What an act shows. -/
inductive Seen (R V : Type) where
  | nothing
  | unreadable
  | value (v : V)
  | raw (raw : R)
  | equal (answer : Bool)
  | written (j : Json)

/-- The act asks for a value. -/
def Act.isFormatted : Act R V → Bool
  | formatted _ => true
  | _ => false

/-! ## What was written last -/

section LastRaw

variable [Inhabited R] [Written R]

/-- The name that an act writes and the raw scalar that it writes there, if the names have these
raw scalars before. -/
def Act.writes? (F : Format R V) (before : Nat → R) : Act R V → Option (Nat × R)
  | default x => some (x, Inhabited.default)
  | ofRaw x r | setRaw x r => some (x, r)
  | ofValue x v | set x v => some (x, F.toRaw v)
  | clone x y => some (x, before y)
  | reread x y => (Written.again? (before y)).map fun r => (x, r)
  | formatted _ | raw _ | compare _ _ | write _ => none

/-- The raw scalars of the names after an act. -/
def Act.after (F : Format R V) (before : Nat → R) (a : Act R V) : Nat → R :=
  match a.writes? F before with
  | some (x, r) => Function.update before x r
  | none => before

/-- The raw scalar that was last written to a name. The acts come in the reverse of their order;
before them all names have the default parameter. -/
def lastRaw (F : Format R V) : List (Act R V) → Nat → R
  | [] => fun _ => default
  | a :: earlier => a.after F (lastRaw F earlier)

theorem Act.after_of_isFormatted (F : Format R V) {a : Act R V} (h : a.isFormatted) (ρ : Nat → R) :
    a.after F ρ = ρ := by
  cases a with
  | formatted x => rfl
  | _ => cases h

/-- Asking for values writes nothing. -/
theorem lastRaw_filter (F : Format R V) (acts : List (Act R V)) :
    lastRaw F (acts.filter fun a => !a.isFormatted) = lastRaw F acts := by
  induction acts with
  | nil => rfl
  | cons a earlier ih =>
    cases ha : a.isFormatted with
    | true =>
      rw [List.filter_cons_of_neg (by rw [ha]; decide), ih]
      exact (a.after_of_isFormatted F ha _).symm
    | false =>
      rw [List.filter_cons_of_pos (by rw [ha]; decide)]
      exact congrArg (Act.after F · a) ih

end LastRaw

/-! ## What acts do and show -/

section Perform

variable {F : Format R V} [Inhabited R] [BEq R] [Written R]

/-- What an act shows, and the parameters of the names after it. A name keeps its parameter if what
should replace it cannot be read. -/
def perform (σ : Nat → Parameter F) : Act R V → Seen R V × (Nat → Parameter F)
  | .default x => (.nothing, Function.update σ x default)
  | .ofRaw x r => (.nothing, Function.update σ x (ofRaw r))
  | .ofValue x v => (.nothing, Function.update σ x (ofValue v))
  | .setRaw x r => (.nothing, Function.update σ x ((σ x).setRaw r))
  | .set x v => (.nothing, Function.update σ x ((σ x).set v))
  | .clone x y => (.nothing, Function.update σ x (σ y).clone)
  | .reread x y =>
    match ofJson? (σ y).toJson with
    | some p => (.nothing, Function.update σ x p)
    | none => (.unreadable, σ)
  | .formatted x => (.value (σ x).formatted.1, Function.update σ x (σ x).formatted.2)
  | .raw x => (.raw (σ x).raw, σ)
  | .compare x y => (.equal (σ x == σ y), σ)
  | .write x => (.written (σ x).toJson, σ)

/-- The parameters of the names after acts that come in the reverse of their order. -/
def stateAfter (F : Format R V) : List (Act R V) → Nat → Parameter F
  | [] => fun _ => default
  | a :: earlier => (perform (stateAfter F earlier) a).2

/-- What an act shows if the names have these raw scalars and nothing is kept. -/
def Act.shows (F : Format R V) (ρ : Nat → R) : Act R V → Seen R V
  | default _ | ofRaw _ _ | ofValue _ _ | setRaw _ _ | set _ _ | clone _ _ => .nothing
  | reread _ y => if (Written.again? (ρ y)).isSome then .nothing else .unreadable
  | formatted x => .value (F.toValue (ρ x))
  | raw x => .raw (ρ x)
  | compare x y => .equal (ρ x == ρ y)
  | write x => .written (.obj [(rawName, Written.toJson (ρ x))])

variable {σ : Nat → Parameter F}

theorem perform_reread (σ : Nat → Parameter F) (x y : Nat) :
    perform σ (.reread x y) =
      match Written.again? (σ y).raw with
      | some r => (.nothing, Function.update σ x (ofRaw r))
      | none => (.unreadable, σ) := by
  rw [perform, ofJson?_toJson_eq]
  cases Written.again? (σ y).raw <;> rfl

theorem coherent_perform (hσ : ∀ x, (σ x).Coherent) (a : Act R V) :
    ∀ x, ((perform σ a).2 x).Coherent := by
  cases a with
  | clone x y => exact coherent_update hσ x (hσ y).clone
  | reread x y =>
    rw [perform_reread]
    split
    case h_1 r _ => exact coherent_update hσ x (coherent_ofRaw r)
    case h_2 => exact hσ
  | formatted x => exact coherent_update hσ x (hσ x).formatted_snd
  | raw | compare | write => exact hσ
  | _ => exact coherent_update hσ _ (coherent_ofRaw _)

theorem coherent_stateAfter (F : Format R V) (acts : List (Act R V)) :
    ∀ x, (stateAfter F acts x).Coherent := by
  induction acts with
  | nil => exact fun _ => coherent_ofRaw _
  | cons a earlier ih => exact coherent_perform ih a

/-- What an act writes does not depend on what is kept. -/
theorem raw_perform (σ : Nat → Parameter F) (a : Act R V) :
    (fun x => ((perform σ a).2 x).raw) = a.after F fun x => (σ x).raw := by
  cases a with
  | reread x y =>
    rw [perform_reread, Act.after, Act.writes?]
    cases Written.again? (σ y).raw with
    | none => rfl
    | some r => exact raw_update ..
  | formatted x =>
    refine (raw_update ..).trans ?_
    rw [raw_formatted]
    exact Function.update_eq_self x _
  | raw | compare | write => rfl
  | _ => exact raw_update ..

theorem raw_stateAfter (F : Format R V) (acts : List (Act R V)) :
    (fun x => (stateAfter F acts x).raw) = lastRaw F acts := by
  induction acts with
  | nil => rfl
  | cons a earlier ih => exact (raw_perform _ a).trans (congrArg (Act.after F · a) ih)

/-- What an act shows does not depend on what is kept either, as long as that is right. -/
theorem perform_shows (hσ : ∀ x, (σ x).Coherent) (a : Act R V) :
    (perform σ a).1 = a.shows F fun x => (σ x).raw := by
  cases a with
  | reread x y =>
    rw [perform_reread, Act.shows]
    cases Written.again? (σ y).raw <;> rfl
  | formatted x => exact congrArg Seen.value (hσ x).formatted_fst
  | _ => rfl

/-- **What is kept is right and unseen.** After any acts, the raw scalar of a name is the one that
was last written to it, its value is that raw scalar's, and an act shows what it would if nothing
were kept. So acts that differ only in the values that they ask for are followed by the same.
Equality is that of the raw scalars, and a word or a code comes back equal from its written form. -/
theorem kept_unseen (F : Format R V) (acts : List (Act R V)) :
    (∀ x, (stateAfter F acts x).raw = lastRaw F acts x ∧
      (stateAfter F acts x).formatted.1 = F.toValue (lastRaw F acts x)) ∧
    (∀ a, (perform (stateAfter F acts) a).1 = a.shows F (lastRaw F acts)) ∧
    (∀ acts' : List (Act R V),
      acts'.filter (fun a => !a.isFormatted) = acts.filter (fun a => !a.isFormatted) →
      ∀ later a, (perform (stateAfter F (later ++ acts')) a).1 =
        (perform (stateAfter F (later ++ acts)) a).1) ∧
    (∀ p q : Parameter F, (p == q) = (p.raw == q.raw)) ∧
    (∀ {W : Type} (G : Format Word W) (p : Parameter G),
      ∃ q : Parameter G, ofJson? p.toJson = some q ∧ (q == p) = true) ∧
    ∀ {W : Type} (G : Format UInt8 W) (p : Parameter G),
      ∃ q : Parameter G, ofJson? p.toJson = some q ∧ (q == p) = true := by
  have hshow : ∀ acts a, (perform (stateAfter F acts) a).1 = a.shows F (lastRaw F acts) := by
    intro acts a
    rw [perform_shows (coherent_stateAfter F acts), raw_stateAfter]
  refine ⟨fun x => ⟨congrFun (raw_stateAfter F acts) x, ?_⟩, hshow acts, ?_, fun _ _ => rfl,
    fun G p => ⟨_, ofJson?_toJson p, beq_self_eq_true p.raw⟩,
    fun G p => ⟨_, ofJson?_toJson p, beq_self_eq_true p.raw⟩⟩
  · rw [(coherent_stateAfter F acts x).formatted_fst, ← raw_stateAfter]
  · intro acts' hsame later a
    rw [hshow, hshow, ← lastRaw_filter F (later ++ acts'), ← lastRaw_filter F (later ++ acts),
      List.filter_append, List.filter_append, hsame]

/-- A copy that was made while a value was kept is not touched by what is written afterwards, and
what was written is not hidden by the value that was kept. -/
theorem kept_unseen_copied :
    let acts : List (Act Word UInt64) := [.setRaw 0 9, .clone 1 0, .formatted 0, .ofRaw 0 3]
    let quiet : List (Act Word UInt64) := [.setRaw 0 9, .clone 1 0, .ofRaw 0 3]
    (perform (stateAfter Format.count acts) (.formatted 0)).1 = .value 9 ∧
      (perform (stateAfter Format.count acts) (.formatted 1)).1 = .value 3 ∧
      ∀ a, (perform (stateAfter Format.count quiet) a).1 =
        (perform (stateAfter Format.count acts) a).1 := by
  intro acts quiet
  obtain ⟨-, hshow, hsame, -⟩ := kept_unseen Format.count acts
  refine ⟨?_, ?_, fun a => hsame quiet rfl [] a⟩
  · rw [hshow]
    exact congrArg Seen.value (by decide)
  · rw [hshow]
    exact congrArg Seen.value (by decide)

end Perform

end Parameter

end StakingSnapshot
