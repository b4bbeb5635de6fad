import StakingSnapshot.Contract.Basic
import StakingSnapshot.Proofs.Call.Slots
import StakingSnapshot.Proofs.Call.Told
import StakingSnapshot.Proofs.Schedule.Batches

/-!
# Which item a failure belongs to

In a flexible read a call that reverts is no fault. It shows in the flag of its item and leaves its
slot as it was.

* `Attributed`: what a result of a flexible read has to say about each item.
* `Scheduler.flexBatchQuery_attributed`: flexible reads in batches of any size say it.
-/

namespace StakingSnapshot

variable {σ ι : Type}

/-- The result of a flexible read tells for each item what became of its own calls. -/
structure Attributed (answer : SubCall → CallResult) (plan : Plan ι) (items : List ι)
    (r : Except Fault (List ι × List Bool)) : Prop where
  /-- The read ends well exactly if each item can register its calls and the data of each success
  can be read. -/
  ok_iff : (∃ out, r = .ok out) ↔ ∀ i x, items[i]? = some x →
    ∃ x' calls, plan i x = .ok (x', calls) ∧ ∀ c ∈ calls, c.Readable (answer c.sub)
  /-- There is one flag for each item. -/
  lengths : ∀ {ys flags}, r = .ok (ys, flags) →
    ys.length = items.length ∧ flags.length = items.length
  /-- The flag of an item says whether all its calls succeeded. -/
  flag : ∀ {ys flags}, r = .ok (ys, flags) → ∀ {i x x' calls}, items[i]? = some x →
    plan i x = .ok (x', calls) →
      (flags[i]? = some true ↔ ∀ c ∈ calls, (answer c.sub).success = true)
  /-- A slot that one call of the item fills holds this call's own answer if it succeeded, and
  otherwise what it held before. -/
  slot : ∀ {ys flags}, r = .ok (ys, flags) → ∀ {i x x' y before c after}, items[i]? = some x →
    plan i x = .ok (x', before ++ c :: after) → ys[i]? = some y →
    ∀ {α : Type} {look : ι → α} {read : Bytes → Option α}, c.Fills look read →
      (∀ d ∈ before ++ after, d.Spares look) →
        if (answer c.sub).success then read (answer c.sub).data = some (look y)
        else look y = look x'

/-- What items can be filled with is attributed. -/
theorem attributed_of_filled {answer : SubCall → CallResult} {plan : Plan ι} {items : List ι}
    {r : Except Fault (List ι × List Bool)}
    (h : ∀ ys flags, r = .ok (ys, flags) ↔ plan.Filled answer false 0 items ys flags) :
    Attributed answer plan items r := by
  constructor
  case ok_iff =>
    have hpasses : ∀ (c : Call ι) (a : CallResult), c.Passes false a ↔ c.Readable a :=
      fun c a => ⟨fun hc => hc.readable, fun hc => ⟨nofun, hc⟩⟩
    have hfilled : (∃ ys flags, plan.Filled answer false 0 items ys flags) ↔ _ :=
      Plan.exists_filled_iff
    simp only [hpasses, Nat.zero_add] at hfilled
    rw [← hfilled]
    constructor
    · rintro ⟨⟨ys, flags⟩, hr⟩
      exact ⟨ys, flags, (h ys flags).1 hr⟩
    · rintro ⟨ys, flags, hr⟩
      exact ⟨(ys, flags), (h ys flags).2 hr⟩
  case lengths =>
    intro ys flags hr
    exact ((h ys flags).1 hr).length_eq
  case flag =>
    intro ys flags hr i x x' calls hx hplan
    obtain ⟨_, _, hplan', -, -, hflag⟩ := ((h ys flags).1 hr).item hx
    rw [Nat.zero_add, hplan] at hplan'
    cases hplan'
    rw [hflag, Option.some.injEq, List.all_eq_true]
  case slot =>
    intro ys flags hr i x x' y before c after hx hplan hy α look read hfills hspares
    obtain ⟨_, _, hplan', hall, hy', -⟩ := ((h ys flags).1 hr).item hx
    rw [Nat.zero_add, hplan] at hplan'
    cases hplan'
    obtain rfl := Option.some.inj (hy.symm.trans hy')
    exact Call.look_applied hfills hspares (hall c (by simp)).readable x'

namespace Scheduler

/-- **Attribution.** A flexible read in batches tells for each item what became of its own calls,
whatever the size of the batches is. -/
theorem flexBatchQuery_attributed {q : Scheduler σ} {chain : Chain}
    (hchain : q.client.AnswersFor q.hub chain) {block : BlockRef} {plan : Plan ι}
    {items : List ι} (hsized : Sized (chain block) ((plan.registered 0 items).map Call.sub))
    {size : Nat} (hsize : 1 ≤ size) :
    (∀ s, Attributed (chain block) plan items
      (q.flexBatchQuery block size plan items s).value) ∧
    (∀ initial count, items = List.replicate count initial → ∀ s,
      Attributed (chain block) plan items
        (q.flexBatchFetch block size plan initial count s).value) ∧
    ∀ size', 1 ≤ size' → ∀ s s', (q.flexBatchQuery block size plan items s).value.toOption =
      (q.flexBatchQuery block size' plan items s').value.toOption := by
  have hquery : ∀ size, 1 ≤ size → ∀ s ys flags,
      (q.flexBatchQuery block size plan items s).value = .ok (ys, flags) ↔
        plan.Filled (chain block) false 0 items ys flags :=
    fun size hsize s ys flags => flexBatchQuery_eq_ok_iff hchain hsize hsized
  refine ⟨fun s => attributed_of_filled (hquery size hsize s), ?_, ?_⟩
  · rintro initial count rfl s
    exact attributed_of_filled (hquery size hsize s)
  · intro size' hsize' s s'
    refine Option.ext fun out => ?_
    rw [toOption_eq_some_iff, toOption_eq_some_iff]
    exact (hquery size hsize s _ _).trans (hquery size' hsize' s' _ _).symm

/-- Pairs of which the first registers nothing. For each other one a call fills the second part and
a call as long the first part. -/
def halves : Plan (Bytes × Bytes) := Plan.byIndex fun
  | 0 => []
  | i + 1 => [(Call.keep ⟨1⟩ [UInt8.ofNat i]).within fun f p => (p.1, f p.2),
    (Call.keep ⟨2⟩ (List.replicate i 5)).within fun f p => (f p.1, p.2)]

/-- A chain on which accounts with odd addresses have a balance of 7, and no others answer. -/
def oddAccounts : Chain := fun _ c => ⟨c.target.bits.getLsbD 0, Abi.word 7⟩

/-- The balances of the accounts 0, 1, 2 and so on. -/
def balances : Plan Word := Plan.byIndex fun i =>
  [.value Contract.Hub.getEthBalance ⟨BitVec.ofNat 160 i⟩ ⟨BitVec.ofNat 160 i⟩]

/-- In batches of two: the first part of the second pair cannot be filled, so it stays as it was. Of
three balances the second one is read, and the others stay as they were. -/
theorem flexBatchQuery_halves :
    (let r := ((ofChain .echo ⟨0⟩ 1).flexBatchQuery .latest 2 halves
      (List.replicate 3 ([7], [7])) ()).value
    r = .ok ([([7], [7]), ([7], [0]), ([5], [1])], [true, false, true]) ∧
      Attributed (Chain.echo .latest) halves (List.replicate 3 ([7], [7])) r) ∧
    ∃ ys flags, ((ofChain oddAccounts ⟨0⟩ 1).flexBatchQuery .latest 2 balances
        (List.replicate 3 5) ()).value = .ok (ys, flags) ∧
      ∀ i < 3, ys[i]? = some (if i = 1 then 7 else 5) := by
  constructor
  · have hsized : Sized (Chain.echo .latest)
        ((halves.registered 0 (List.replicate 3 ([7], [7]))).map Call.sub) :=
      ⟨by decide, by decide, by decide⟩
    have hattributed := flexBatchQuery_attributed (q := ofChain .echo ⟨0⟩ 1)
      (Chain.client_answersFor _ _) hsized (show 1 ≤ 2 by decide)
    exact ⟨toOption_eq_some_iff.1 (by decide +kernel), hattributed.1 ()⟩
  · have hsized : Sized (oddAccounts .latest)
        ((balances.registered 0 (List.replicate 3 5)).map Call.sub) :=
      ⟨by decide, by decide, by decide⟩
    have hread : Abi.Kind.uint256.decode (Abi.word 7) = some 7 := by decide
    have hattributed := (flexBatchQuery_attributed (q := ofChain oddAccounts ⟨0⟩ 1)
      (Chain.client_answersFor _ _) hsized (show 1 ≤ 2 by decide)).1 ()
    obtain ⟨⟨ys, flags⟩, hr⟩ := hattributed.ok_iff.2 fun i x _ => ⟨x, _, rfl,
      List.forall_mem_singleton.2 (Call.readable_typed_iff.2 fun _ => ⟨7, hread⟩)⟩
    refine ⟨ys, flags, hr, fun i hi => ?_⟩
    have hlength : i < ys.length := (hattributed.lengths hr).1 ▸ hi
    have hplan : balances i 5 = .ok (5, [] ++ Call.value Contract.Hub.getEthBalance
        ⟨BitVec.ofNat 160 i⟩ ⟨BitVec.ofNat 160 i⟩ :: []) := rfl
    have hslot := hattributed.slot hr (List.getElem?_replicate_of_lt hi) hplan
      (List.getElem?_eq_getElem hlength) (Call.fills_value (m := Contract.Hub.getEthBalance)) nofun
    rw [List.getElem?_eq_getElem hlength]
    obtain rfl | rfl | rfl : i = 0 ∨ i = 1 ∨ i = 2 := by omega
    · exact congrArg some hslot
    · exact hslot.symm.trans hread
    · exact congrArg some hslot

end Scheduler

end StakingSnapshot
