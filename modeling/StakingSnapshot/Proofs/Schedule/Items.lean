import Mathlib.Data.List.Forall2
import StakingSnapshot.Proofs.Schedule.Batches

/-!
# Items against what they are read for

`Plan.Filled` goes through items by index. Most plans look at the item alone, at its key or at its
index, and then what becomes of the items is a relation between two lists.

* `exists_forall₂_iff`: when there is a list to relate one to; `forall₂_iff_getElem?`: related
  lists, index by index; `exists_forall₂_singleton_iff`: related lists of one entry.
* `Plan.outcome?`: what becomes of one item, if its calls let the read go on.
* `Plan.filled_iff_outcome?`: items of any plan, each at its index.
* `Plan.filled_steady_iff`, `Plan.filled_byKey_iff`, `Plan.filled_byIndex_iff`: items of plans that
  do not look at the index, that look up a key, and that look at the index only.
* `Plan.Small`: a plan that registers few and short calls; `Plan.Small.sized`: what it registers for
  many items fits into a machine.
-/

namespace StakingSnapshot

variable {ι κ : Type}

/-- A list can be gone through if each of its entries is related to something. -/
theorem exists_forall₂_iff {R : ι → κ → Prop} {xs : List ι} :
    (∃ ys, List.Forall₂ R xs ys) ↔ ∀ x ∈ xs, ∃ y, R x y := by
  constructor
  · rintro ⟨ys, h⟩
    induction h with
    | nil => exact fun x hx => nomatch hx
    | cons hxy _ ih => exact List.forall_mem_cons.2 ⟨⟨_, hxy⟩, ih⟩
  · intro h
    induction xs with
    | nil => exact ⟨[], .nil⟩
    | cons x xs ih =>
      obtain ⟨⟨y, hy⟩, hrest⟩ := List.forall_mem_cons.1 h
      obtain ⟨ys, hys⟩ := ih hrest
      exact ⟨y :: ys, .cons hy hys⟩

/-- Two lists are related if they are equally long and related at each index. -/
theorem forall₂_iff_getElem? {R : ι → κ → Prop} {xs : List ι} {ys : List κ} :
    List.Forall₂ R xs ys ↔
      ys.length = xs.length ∧
        ∀ (i : Nat) x y, xs[i]? = some x → ys[i]? = some y → R x y := by
  rw [List.forall₂_iff_get]
  refine and_congr eq_comm ⟨fun h i x y hx hy => ?_, fun h i hx hy => ?_⟩
  · obtain ⟨hi, rfl⟩ := List.getElem?_eq_some_iff.1 hx
    obtain ⟨hi', rfl⟩ := List.getElem?_eq_some_iff.1 hy
    exact h i hi hi'
  · exact h i _ _ (List.getElem?_eq_getElem hx) (List.getElem?_eq_getElem hy)

/-- A list of one entry is related to a list of one, which is its last. -/
theorem exists_forall₂_singleton_iff {R : ι → κ → Prop} {x : ι} {y default : κ} :
    (∃ ys, List.Forall₂ R [x] ys ∧ ys.getLastD default = y) ↔ R x y := by
  constructor
  · rintro ⟨ys, hys, rfl⟩
    cases hys with
    | cons hy hnil =>
      cases hnil
      exact hy
  · exact fun hy => ⟨[y], .cons hy .nil, rfl⟩

/-- Whether a read goes on with a result can be computed. -/
instance Call.decidablePasses (strict : Bool) (c : Call ι) (r : CallResult) :
    Decidable (c.Passes strict r) :=
  decidable_of_iff
    ((strict = true → r.success = true) ∧
      (r.success = true → ∀ d ∈ c.decoder, (d r.data).toBool = true)) <| by
    have hread : ∀ e : Except Fault (ι → ι), e.toBool = true ↔ ∃ f, e = .ok f := by
      rintro (e | f) <;> simp [Except.toBool]
    constructor
    · exact fun ⟨hsuccess, hdata⟩ => ⟨hsuccess, fun hr d hd => (hread _).1 (hdata hr d hd)⟩
    · exact fun h => ⟨h.success, fun hr d hd => (hread _).2 (h.readable hr d hd)⟩

namespace Plan

/-- What becomes of the item at an index by the answers to its own calls. Nothing does if the plan
fails for it, or if the read does not go on with one of the answers. -/
def outcome? (answer : SubCall → CallResult) (strict : Bool) (plan : Plan ι) (i : Nat) (x : ι) :
    Option ι :=
  match plan i x with
  | .error _ => none
  | .ok (x', calls) =>
    if ∀ c ∈ calls, c.Passes strict (answer c.sub) then some (applied answer calls x') else none

variable {answer : SubCall → CallResult} {strict : Bool} {plan : Plan ι}

theorem outcome?_eq_some_iff {i : Nat} {x y : ι} :
    plan.outcome? answer strict i x = some y ↔
      ∃ x' calls, plan i x = .ok (x', calls) ∧ (∀ c ∈ calls, c.Passes strict (answer c.sub)) ∧
        y = applied answer calls x' := by
  unfold outcome?
  cases hplan : plan i x with
  | error e => simp
  | ok p =>
    obtain ⟨x', calls⟩ := p
    simp only [Option.ite_none_right_eq_some, Option.some.injEq, Except.ok.injEq, Prod.mk.injEq]
    constructor
    · rintro ⟨hall, rfl⟩
      exact ⟨x', calls, ⟨rfl, rfl⟩, hall, rfl⟩
    · rintro ⟨_, _, ⟨rfl, rfl⟩, hall, rfl⟩
      exact ⟨hall, rfl⟩

/-- Items are filled if there are as many as before and each, at its index, is what the answers to
its own calls make of it. -/
theorem filled_iff_outcome? {i : Nat} {xs ys : List ι} :
    (∃ flags, plan.Filled answer strict i xs ys flags) ↔
      ys.length = xs.length ∧ ∀ k x y, xs[k]? = some x → ys[k]? = some y →
        plan.outcome? answer strict (i + k) x = some y := by
  simp only [outcome?_eq_some_iff]
  constructor
  · rintro ⟨flags, h⟩
    refine ⟨h.length_eq.1, fun k x y hx hy => ?_⟩
    obtain ⟨x', calls, hplan, hall, hy', -⟩ := h.item hx
    exact ⟨x', calls, hplan, hall, Option.some.inj (hy.symm.trans hy')⟩
  · rintro ⟨hlen, h⟩
    obtain ⟨zs, flags, hfilled⟩ : ∃ zs flags, plan.Filled answer strict i xs zs flags := by
      refine exists_filled_iff.2 fun k x hx => ?_
      have hk : k < ys.length := hlen ▸ (List.getElem?_eq_some_iff.1 hx).1
      obtain ⟨x', calls, hplan, hall, -⟩ := h k x _ hx (List.getElem?_eq_getElem hk)
      exact ⟨x', calls, hplan, hall⟩
    have hsame : zs = ys := by
      refine List.ext_getElem (hfilled.length_eq.1.trans hlen.symm) fun k hz hy => ?_
      have hx := List.getElem?_eq_getElem (hlen ▸ hy)
      obtain ⟨x', calls, hplan, -, hz', -⟩ := hfilled.item hx
      obtain ⟨x'', calls', hplan', -, hy'⟩ := h k _ _ hx (List.getElem?_eq_getElem hy)
      rw [hplan] at hplan'
      cases hplan'
      rw [List.getElem?_eq_getElem hz] at hz'
      exact (Option.some.inj hz').trans hy'.symm
    exact ⟨flags, hsame ▸ hfilled⟩

/-- Where the index does not matter, each item is filled by itself. -/
theorem filled_steady_iff (hplan : ∀ i, plan i = plan 0) {i : Nat} {xs ys : List ι} :
    (∃ flags, plan.Filled answer strict i xs ys flags) ↔
      List.Forall₂ (fun x y => plan.outcome? answer strict 0 x = some y) xs ys := by
  have hsteady : ∀ i, plan.outcome? answer strict i = plan.outcome? answer strict 0 := by
    intro i
    funext x
    rw [outcome?, outcome?, hplan i]
  simp only [filled_iff_outcome?, forall₂_iff_getElem?, hsteady]

theorem byKey_eq {front : List κ} {key : κ} {back : List κ} {calls : κ → List (Call ι)} {x : ι} :
    byKey (front ++ key :: back) calls front.length x = .ok (x, calls key) := by
  simp [byKey, byIndex]

/-- Equal items with keys of their own are filled by the calls for the keys. -/
theorem filled_byKey_iff {keys : List κ} {calls : κ → List (Call ι)} {x : ι} {ys : List ι}
    {flags : List Bool} :
    (byKey keys calls).Filled answer strict 0 (List.replicate keys.length x) ys flags ↔
      List.Forall₂ (fun key y => (∀ c ∈ calls key, c.Passes strict (answer c.sub)) ∧
        y = applied answer (calls key) x) keys ys ∧
      flags = keys.map fun key => (calls key).all fun c => (answer c.sub).success := by
  -- The plan looks into the list of all keys, of which some are behind the index already.
  suffices h : ∀ front : List κ, (byKey (front ++ keys) calls).Filled answer strict front.length
      (List.replicate keys.length x) ys flags ↔ _ from h []
  induction keys generalizing ys flags with
  | nil =>
    intro front
    constructor
    · intro h
      cases h
      exact ⟨.nil, rfl⟩
    · rintro ⟨h, rfl⟩
      cases h
      exact .nil
  | cons key keys ih =>
    intro front
    have hindex : front.length + 1 = (front ++ [key]).length := by
      rw [List.length_append, List.length_singleton]
    rw [List.length_cons, List.replicate_succ, List.map_cons]
    constructor
    · intro h
      cases h with
      | cons hx hall hfilled =>
        rw [byKey_eq] at hx
        cases hx
        rw [hindex, List.append_cons] at hfilled
        obtain ⟨hys, rfl⟩ := (ih _).1 hfilled
        exact ⟨.cons ⟨hall, rfl⟩ hys, rfl⟩
    · rintro ⟨h, rfl⟩
      cases h with
      | cons hy hys =>
        obtain ⟨hall, rfl⟩ := hy
        refine .cons byKey_eq hall ?_
        rw [hindex, List.append_cons]
        exact (ih _).2 ⟨hys, rfl⟩

/-- Equal items are filled by the calls for their indices. -/
theorem filled_byIndex_iff {calls : Nat → List (Call ι)} {x : ι} {count : Nat} {ys : List ι} :
    (∃ flags, (byIndex calls).Filled answer strict 0 (List.replicate count x) ys flags) ↔
      ys.length = count ∧ ∀ i y, ys[i]? = some y →
        (∀ c ∈ calls i, c.Passes strict (answer c.sub)) ∧ y = applied answer (calls i) x := by
  have houtcome : ∀ i y, (byIndex calls).outcome? answer strict i x = some y ↔
      (∀ c ∈ calls i, c.Passes strict (answer c.sub)) ∧ y = applied answer (calls i) x := by
    intro i y
    rw [outcome?_eq_some_iff]
    constructor
    · rintro ⟨x', cs, hplan, h⟩
      cases hplan
      exact h
    · exact fun h => ⟨x, calls i, rfl, h⟩
  simp only [filled_iff_outcome?, List.length_replicate, Nat.zero_add, List.getElem?_replicate,
    Option.ite_none_right_eq_some]
  refine and_congr_right fun hlen => ⟨fun h i y hy => ?_, fun h i z y hz hy => ?_⟩
  · have hi : i < count := hlen ▸ (List.getElem?_eq_some_iff.1 hy).1
    exact (houtcome i y).1 (h i x y ⟨hi, rfl⟩ hy)
  · obtain ⟨-, heq⟩ := hz
    cases heq
    exact (houtcome i y).2 (h i y hy)

/-! ## How much is sent -/

/-- The plan registers few calls for an item, with few bytes each. -/
def Small (plan : Plan ι) : Prop :=
  ∀ i x x' calls, plan i x = .ok (x', calls) →
    calls.length ≤ 64 ∧ ∀ c ∈ calls, c.data.length ≤ 128

theorem small_byIndex {calls : Nat → List (Call ι)}
    (h : ∀ i, (calls i).length ≤ 64 ∧ ∀ c ∈ calls i, c.data.length ≤ 128) :
    (byIndex calls).Small := by
  rintro i x x' cs hplan
  cases hplan
  exact h i

theorem small_byKey {keys : List κ} {calls : κ → List (Call ι)}
    (h : ∀ key, (calls key).length ≤ 64 ∧ ∀ c ∈ calls key, c.data.length ≤ 128) :
    (byKey keys calls).Small := by
  refine small_byIndex fun i => ?_
  cases keys[i]? with
  | none => exact ⟨Nat.zero_le _, nofun⟩
  | some key => exact h key

/-- What is registered for all items is registered for one of them. -/
theorem mem_registered {i : Nat} {xs : List ι} {c : Call ι} (h : c ∈ plan.registered i xs) :
    ∃ k x x' calls, xs[k]? = some x ∧ plan (i + k) x = .ok (x', calls) ∧ c ∈ calls := by
  induction xs generalizing i with
  | nil => cases h
  | cons x xs ih =>
    have hcases : (∃ x' calls, plan i x = .ok (x', calls) ∧ c ∈ calls) ∨
        c ∈ plan.registered (i + 1) xs := by
      rw [registered] at h
      split at h
      case h_1 x' calls hplan =>
        exact (List.mem_append.1 h).imp_left fun hc => ⟨x', calls, hplan, hc⟩
      case h_2 => exact .inr h
    rcases hcases with ⟨x', calls, hplan, hc⟩ | hrest
    · exact ⟨0, x, x', calls, rfl, hplan, hc⟩
    · obtain ⟨k, y, y', calls, hy, hplan, hc⟩ := ih hrest
      rw [Nat.add_right_comm, Nat.add_assoc] at hplan
      exact ⟨k + 1, y, y', calls, hy, hplan, hc⟩

theorem mem_registered_byKey {keys : List κ} {calls : κ → List (Call ι)} {i : Nat} {xs : List ι}
    {c : Call ι} (h : c ∈ (byKey keys calls).registered i xs) : ∃ key ∈ keys, c ∈ calls key := by
  obtain ⟨k, _, _, cs, -, hplan, hc⟩ := mem_registered h
  cases hplan
  simp only at hc
  cases hkey : keys[i + k]? with
  | none =>
    rw [hkey] at hc
    cases hc
  | some key =>
    rw [hkey] at hc
    exact ⟨key, List.mem_of_getElem? hkey, hc⟩

/-- What a stretch of items registers is what its keys call for. -/
theorem registered_byKey (keys : List κ) (calls : κ → List (Call ι)) (i : Nat) (xs : List ι) :
    (byKey keys calls).registered i xs = ((keys.drop i).take xs.length).flatMap calls := by
  induction xs generalizing i with
  | nil => rfl
  | cons x xs ih =>
    have hplan : byKey keys calls i x = .ok (x, (keys[i]?.map calls).getD []) := rfl
    rw [registered, hplan]
    simp only [ih]
    by_cases hi : i < keys.length
    · rw [List.getElem?_eq_getElem hi, List.drop_eq_getElem_cons hi, List.length_cons,
        List.take_succ_cons, List.flatMap_cons]
      rfl
    · rw [List.getElem?_eq_none (Nat.le_of_not_lt hi), List.drop_eq_nil_of_le (by omega),
        List.drop_eq_nil_of_le (Nat.le_of_not_lt hi), List.take_nil, List.take_nil]
      rfl

/-- So many calls are registered at most if no item registers more. -/
theorem length_registered_le {bound : Nat}
    (h : ∀ i x x' calls, plan i x = .ok (x', calls) → calls.length ≤ bound) (i : Nat)
    (xs : List ι) : (plan.registered i xs).length ≤ bound * xs.length := by
  induction xs generalizing i with
  | nil => exact Nat.zero_le _
  | cons x xs ih =>
    have hrest := ih (i + 1)
    rw [registered, List.length_cons, Nat.mul_succ]
    split
    case h_1 x' calls hplan =>
      have hfirst := h i x x' calls hplan
      rw [List.length_append]
      omega
    case h_2 => omega

theorem Small.length_registered_le (h : plan.Small) (i : Nat) (xs : List ι) :
    (plan.registered i xs).length ≤ 64 * xs.length :=
  Plan.length_registered_le (fun i x x' calls hplan => (h i x x' calls hplan).1) i xs

end Plan

/-- The data of every answer has a length of 64 bits, as all data in a machine. -/
def Chain.Bounded (chain : Chain) : Prop :=
  ∀ block c, (chain block c).data.length ≤ Word.maxNat64

/-- So it is if no answer has more than two words. -/
theorem Chain.bounded_of_short {chain : Chain}
    (h : ∀ block c, (chain block c).data.length ≤ 64) : chain.Bounded :=
  fun block c => Nat.le_trans (h block c) (by decide)

/-- A few short calls and their answers fit into a machine. -/
theorem Chain.Bounded.sized {chain : Chain} (hchain : chain.Bounded) {block : BlockRef}
    {calls : List (Call ι)} (hcount : calls.length ≤ Word.maxNat64)
    (hdata : ∀ c ∈ calls, c.data.length ≤ 128) :
    Sized (chain block) (calls.map Call.sub) := by
  constructor
  case count => rwa [List.length_map]
  case data =>
    rw [List.forall_mem_map]
    exact fun c hc => Nat.le_trans (hdata c hc) (by decide)
  case answers => exact fun c _ => hchain block c

/-- What a small plan registers for as many items as contracts report fits into a machine, also for
twice as many. -/
theorem Plan.Small.sized {plan : Plan ι} (h : plan.Small) {chain : Chain}
    (hchain : chain.Bounded) {block : BlockRef} {i : Nat} {xs : List ι}
    (hlen : xs.length ≤ 2 * maxItemCount) :
    Sized (chain block) ((plan.registered i xs).map Call.sub) := by
  refine hchain.sized ?_ fun c hc => ?_
  · have hcount := h.length_registered_le i xs
    have hmax : 64 * (2 * maxItemCount) ≤ Word.maxNat64 := by decide
    omega
  · obtain ⟨k, x, x', calls, -, hplan, hc⟩ := Plan.mem_registered hc
    exact (h _ x x' calls hplan).2 c hc

end StakingSnapshot
