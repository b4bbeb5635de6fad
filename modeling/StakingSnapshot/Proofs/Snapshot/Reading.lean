import StakingSnapshot.Proofs.Call.Told
import StakingSnapshot.Proofs.Schedule.PlainLoop
import StakingSnapshot.Proofs.Schedule.Sent

/-!
# Reading a chain through an observer

* `Observer.Watches`: the observer's client answers for a chain, and its batches are not empty.
* `BatchSizes.Positive`: the same about every kind of batch by its name; `Observer.Watches.positive`.
* `Observer.Watches.batchQuery_eq_ok_iff`: strict batches of items.
* `Snapshot.wordOf_eq_ok_iff`: the word of one method.
* `Snapshot.batchFetch_byKey_eq_ok_iff`, `Snapshot.batchFetch_byIndex_eq_ok_iff`: one value for each
  key, and for each index.
* `Snapshot.counted_eq_ok_iff`: as many values as a contract counts.
* `Snapshot.etherBalances_eq_ok_iff`: balances of accounts.
* `SubCall.Names`: which method a call asks for; `Call.names_typed_iff`.
* `SubCall.NamesOneOf`: that a call asks for one of several methods; `SubCall.Names.namesOneOf_iff`.
-/

namespace StakingSnapshot

namespace Abi

/-- Arguments of which every value takes two words or less. -/
class SmallArguments (α : Type) [Arguments α] : Prop where
  length_encode_le : ∀ a : α, (Arguments.encode a).length ≤ 64

theorem length_word_le (n : Nat) : (word n).length ≤ 64 := by
  rw [length_word]
  decide

instance : SmallArguments Unit := ⟨fun _ => Nat.zero_le _⟩

instance : SmallArguments Address := ⟨fun a => length_word_le a.bits.toNat⟩

instance : SmallArguments Word := ⟨fun w => length_word_le w.toNat⟩

instance : SmallArguments Key := ⟨fun k => length_word_le k.bits.toNat⟩

instance : SmallArguments (Address × Word) :=
  ⟨fun (a, w) => by
    change (word a.bits.toNat ++ word w.toNat).length ≤ 64
    rw [List.length_append, length_word, length_word]⟩

theorem length_callData_le {α : Type} [Arguments α] [SmallArguments α] {k : Kind}
    (m : Method α k) (args : α) : (m.callData args).length ≤ 128 := by
  have hargs := SmallArguments.length_encode_le args
  rw [Method.callData, List.length_append, Bytes.length_ofNat]
  omega

end Abi

/-- The call is for a method: its data starts with the four bytes by which contracts know it. -/
def SubCall.Names {α : Type} {k : Abi.Kind} (c : SubCall) (m : Abi.Method α k) : Prop :=
  c.data.take 4 = Bytes.ofNat 4 m.selector.toNat

instance {α : Type} {k : Abi.Kind} (c : SubCall) (m : Abi.Method α k) : Decidable (c.Names m) :=
  inferInstanceAs (Decidable (c.data.take 4 = Bytes.ofNat 4 m.selector.toNat))

/-- A call is for one method only, as far as contracts can tell methods apart. -/
theorem SubCall.Names.selector_eq {α β : Type} {k l : Abi.Kind} {c : SubCall} {m : Abi.Method α k}
    {m' : Abi.Method β l} (h : c.Names m) (h' : c.Names m') : m.selector = m'.selector := by
  have hread : ∀ w : UInt32, Bytes.toNat (Bytes.ofNat 4 w.toNat) = w.toNat := fun w => by
    rw [Bytes.toNat_ofNat]
    exact Nat.mod_eq_of_lt w.toNat_lt
  have hsame := congrArg Bytes.toNat (h.symm.trans h')
  rw [hread, hread] at hsame
  exact UInt32.toNat_inj.1 hsame

/-- The call is for a method with one of the selectors. -/
def SubCall.NamesOneOf (c : SubCall) (selectors : List UInt32) : Prop :=
  ∃ w ∈ selectors, c.data.take 4 = Bytes.ofNat 4 w.toNat

instance (c : SubCall) (selectors : List UInt32) : Decidable (c.NamesOneOf selectors) :=
  inferInstanceAs (Decidable (∃ w ∈ selectors, c.data.take 4 = Bytes.ofNat 4 w.toNat))

theorem SubCall.Names.namesOneOf_iff {α : Type} {k : Abi.Kind} {m : Abi.Method α k} {c : SubCall}
    (h : c.Names m) {selectors : List UInt32} :
    c.NamesOneOf selectors ↔ m.selector ∈ selectors := by
  constructor
  · rintro ⟨w, hw, hdata⟩
    have hother : c.Names (⟨"", w⟩ : Abi.Method Unit .bool) := hdata
    rwa [h.selector_eq hother]
  · exact fun hm => ⟨m.selector, hm, h⟩

/-- A call with the data of a method is for this method. -/
theorem SubCall.names_callData {α : Type} [Abi.Arguments α] {k : Abi.Kind} (m : Abi.Method α k)
    (target : Address) (args : α) : SubCall.Names ⟨target, m.callData args⟩ m :=
  List.take_left' (Bytes.length_ofNat 4 _)

/-- The call of a method is for this method, and for no other that contracts can tell from it. -/
theorem Call.names_typed_iff {S α β : Type} [Abi.Arguments α] {k l : Abi.Kind}
    {m : Abi.Method α k} {m' : Abi.Method β l} {target : Address} {args : α}
    {store : k.Value → S → S} :
    (typed m target args store).sub.Names m' ↔ m.selector = m'.selector := by
  have hnames : (typed m target args store).sub.Names m := SubCall.names_callData m target args
  constructor
  · exact hnames.selector_eq
  · intro h
    rw [SubCall.Names, ← h]
    exact hnames

/-- Batches of every kind have room for an item. -/
structure BatchSizes.Positive (b : BatchSizes) : Prop where
  addresses : 0 < b.addresses
  versions : 0 < b.versions
  balances : 0 < b.balances
  nodeDetails : 0 < b.nodeDetails
  minipoolDetails : 0 < b.minipoolDetails
  completeShares : 0 < b.completeShares
  effectiveStake : 0 < b.effectiveStake
  proposalDetails : 0 < b.proposalDetails

theorem BatchSizes.positive_of_forall {b : BatchSizes} (h : ∀ size ∈ b.toList, 0 < size) :
    b.Positive := by
  simp only [toList, List.forall_mem_cons] at h
  obtain ⟨haddresses, hversions, hbalances, hnodes, hminipools, hshares, hstake, hproposals, -⟩ := h
  exact ⟨haddresses, hversions, hbalances, hnodes, hminipools, hshares, hstake, hproposals⟩

/-- The observer reads a chain: its client answers for the chain, whose answers fit into a machine,
and every batch has room for an item. -/
structure Observer.Watches {σ : Type} (o : Observer σ) (chain : Chain) : Prop where
  answers : o.scheduler.client.AnswersFor o.scheduler.hub chain
  bounded : chain.Bounded
  sizes : ∀ size ∈ o.config.batchSizes.toList, 1 ≤ size

theorem Observer.Watches.positive {σ : Type} {o : Observer σ} {chain : Chain}
    (ho : o.Watches chain) : o.config.batchSizes.Positive :=
  BatchSizes.positive_of_forall ho.sizes

/-- Strict batches of items of which each is treated by itself. -/
theorem Observer.Watches.batchQuery_eq_ok_iff {σ ι : Type} {o : Observer σ} {chain : Chain}
    (ho : o.Watches chain) {block : BlockRef} {size : Nat} (hsize : 1 ≤ size) {plan : Plan ι}
    (hsmall : plan.Small) (hsteady : ∀ i, plan i = plan 0) {xs ys : List ι}
    (hlen : xs.length ≤ 2 * maxItemCount) {s : σ} :
    (o.scheduler.batchQuery block size plan xs s).value = .ok ys ↔
      List.Forall₂ (fun x y => plan.outcome? (chain block) true 0 x = some y) xs ys := by
  rw [Scheduler.batchQuery_eq_ok_iff ho.answers hsize (hsmall.sized ho.bounded hlen)]
  exact Plan.filled_steady_iff hsteady

theorem Call.length_data_typed_le {S α : Type} [Abi.Arguments α] [Abi.SmallArguments α]
    {k : Abi.Kind} {m : Abi.Method α k} {target : Address} {args : α} {store : k.Value → S → S} :
    (typed m target args store).data.length ≤ 128 :=
  Abi.length_callData_le m args

/-- A count is accepted if it is not too large. -/
theorem itemCount_eq_ok_iff {raw : Word} {target : Address} {method : String} {n : Nat} :
    itemCount raw target method = .ok n ↔ n = raw.toNat ∧ n ≤ maxItemCount := by
  unfold itemCount
  split
  case isTrue h =>
    rw [Except.ok.injEq]
    exact ⟨fun heq => ⟨heq.symm, heq ▸ h⟩, fun heq => heq.1.symm⟩
  case isFalse h =>
    constructor
    · intro heq
      cases heq
    · rintro ⟨rfl, hle⟩
      exact absurd hle h

namespace Snapshot

variable {σ α : Type} [Abi.Arguments α] [Abi.SmallArguments α] {k : Abi.Kind} {o : Observer σ}
  {chain : Chain} {block : BlockRef} {s : σ}

/-- The value of one method. -/
theorem query_value_eq_ok_iff (ho : o.Watches chain) {m : Abi.Method α k} {target : Address}
    {args : α} {v x : k.Value} :
    (o.scheduler.query block [.value m target args] x s).value = .ok v ↔
      told (chain block) m target args = some v := by
  have hsized : Sized (chain block) ([Call.value m target args].map Call.sub) := by
    have hone : 1 ≤ Word.maxNat64 := by decide
    refine ho.bounded.sized hone fun c hc => ?_
    obtain rfl := List.mem_singleton.1 hc
    exact Abi.length_callData_le m args
  rw [Scheduler.query_eq_ok_iff ho.answers hsized]
  exact Call.applied_value_iff

/-- The word of one method. -/
theorem wordOf_eq_ok_iff (ho : o.Watches chain) {m : Abi.Method α .uint256} {target : Address}
    {args : α} {v : Word} :
    (wordOf o block target m args s).value = .ok v ↔ told (chain block) m target args = some v :=
  query_value_eq_ok_iff ho

section Lists

variable {m : Abi.Method α k} {target : Address} {x : k.Value}

/-- One call is little to register for an item. -/
theorem small_value (m : Abi.Method α k) (target : Address) (args : α) :
    [Call.value m target args].length ≤ 64 ∧
      ∀ c ∈ [Call.value m target args], c.data.length ≤ 128 := by
  constructor
  · exact Nat.succ_le_succ (Nat.zero_le _)
  · exact List.forall_mem_singleton.2 (Abi.length_callData_le m args)

/-- One value for each key. -/
theorem batchFetch_byKey_eq_ok_iff (ho : o.Watches chain) {size : Nat} (hsize : 1 ≤ size)
    {κ : Type} {keys : List κ} (hlen : keys.length ≤ 2 * maxItemCount) {args : κ → α}
    {vs : List k.Value} :
    (o.scheduler.batchFetch block size (Plan.byKey keys fun key => [.value m target (args key)]) x
        keys.length s).value = .ok vs ↔
      List.Forall₂ (fun key v => told (chain block) m target (args key) = some v) keys vs := by
  have hsmall : (Plan.byKey keys fun key => [Call.value m target (args key)]).Small :=
    Plan.small_byKey fun key => small_value m target (args key)
  have hitems : (List.replicate keys.length x).length ≤ 2 * maxItemCount := by
    rwa [List.length_replicate]
  have hread : (o.scheduler.batchFetch block size
      (Plan.byKey keys fun key => [.value m target (args key)]) x keys.length s).value =
        .ok vs ↔ _ :=
    Scheduler.batchQuery_eq_ok_iff ho.answers hsize (hsmall.sized ho.bounded hitems)
  rw [hread]
  simp only [Plan.filled_byKey_iff, Call.applied_value_iff, exists_and_left, exists_eq, and_true]

/-- One value for each index. -/
theorem batchFetch_byIndex_eq_ok_iff (ho : o.Watches chain) {size : Nat} (hsize : 1 ≤ size)
    {count : Nat} (hcount : count ≤ maxItemCount) {args : Nat → α} {vs : List k.Value} :
    (o.scheduler.batchFetch block size (Plan.byIndex fun i => [.value m target (args i)]) x count
        s).value = .ok vs ↔
      vs.length = count ∧
        ∀ i v, vs[i]? = some v → told (chain block) m target (args i) = some v := by
  have hsmall : (Plan.byIndex fun i => [Call.value m target (args i)]).Small :=
    Plan.small_byIndex fun i => small_value m target (args i)
  have hitems : (List.replicate count x).length ≤ 2 * maxItemCount := by
    rw [List.length_replicate]
    omega
  have hread : (o.scheduler.batchFetch block size
      (Plan.byIndex fun i => [.value m target (args i)]) x count s).value = .ok vs ↔ _ :=
    Scheduler.batchQuery_eq_ok_iff ho.answers hsize (hsmall.sized ho.bounded hitems)
  rw [hread]
  simp only [Plan.filled_byIndex_iff, Call.applied_value_iff]

end Lists

section Counted

variable {β : Type} [Abi.Arguments β] [Abi.SmallArguments β]

/-- Reads as many values as a contract counts, each by its index. -/
def counted (o : Observer σ) (block : BlockRef) (target : Address) (size : Nat)
    (count : Abi.Method α .uint256) (args : α) (item : Abi.Method β k) (itemArgs : Nat → β)
    (x : k.Value) : Read σ (List k.Value) := do
  let raw ← wordOf o block target count args
  let n ← Read.ofExcept (itemCount raw target count.name)
  o.scheduler.batchFetch block size (Plan.byIndex fun i => [.value item target (itemArgs i)]) x n

variable {target : Address} {size : Nat} {count : Abi.Method α .uint256} {args : α}
  {item : Abi.Method β k} {itemArgs : Nat → β} {x : k.Value}

/-- As many values as are counted, each the one that is told at its index. -/
theorem counted_eq_ok_iff (ho : o.Watches chain) (hsize : 1 ≤ size) {vs : List k.Value} :
    (counted o block target size count args item itemArgs x s).value = .ok vs ↔
      vs.length ≤ maxItemCount ∧
        (∃ raw, told (chain block) count target args = some raw ∧ vs.length = raw.toNat) ∧
          ∀ i v, vs[i]? = some v → told (chain block) item target (itemArgs i) = some v := by
  simp only [counted, Read.bind_value_eq_ok_iff, wordOf_eq_ok_iff ho]
  constructor
  · rintro ⟨raw, hraw, n, hn, hread⟩
    obtain ⟨rfl, hmax⟩ := itemCount_eq_ok_iff.1 hn
    obtain ⟨hlen, hat⟩ := (batchFetch_byIndex_eq_ok_iff ho hsize hmax).1 hread
    exact ⟨hlen ▸ hmax, ⟨raw, hraw, hlen⟩, hat⟩
  · rintro ⟨hmax, ⟨raw, hraw, hlen⟩, hat⟩
    rw [hlen] at hmax
    exact ⟨raw, hraw, _, itemCount_eq_ok_iff.2 ⟨rfl, hmax⟩,
      (batchFetch_byIndex_eq_ok_iff ho hsize hmax).2 ⟨hlen, hat⟩⟩

end Counted

/-- To read what is counted, the count and the values are asked for. -/
theorem names_of_asked_counted {A B : Type} [Abi.Arguments A] [Abi.Arguments B] {target : Address}
    {size : Nat} {count : Abi.Method A .uint256} {args : A} {item : Abi.Method B k}
    {itemArgs : Nat → B} {x : k.Value} {c : SubCall}
    (h : (counted o block target size count args item itemArgs x s).Asked c) :
    c.Names count ∨ c.Names item := by
  rcases Read.asked_bind_iff.1 h with h | ⟨_, _, h⟩
  · obtain rfl := List.mem_singleton.1 (Scheduler.registered_of_asked_query h)
    exact .inl (Call.names_typed_iff.2 rfl)
  rcases Read.asked_bind_iff.1 h with h | ⟨_, _, h⟩
  · exact absurd h Read.not_asked_ofExcept
  · obtain ⟨call, hcall, rfl⟩ := List.mem_map.1 (Scheduler.registered_of_asked_batchQuery h)
    obtain ⟨_, _, _, _, -, hplan, hmem⟩ := Plan.mem_registered hcall
    cases hplan
    obtain rfl := List.mem_singleton.1 hmem
    exact .inr (Call.names_typed_iff.2 rfl)

/-- Two addresses are not too many to be read at once. -/
theorem length_pair_le (a b : Address) : [a, b].length ≤ 2 * maxItemCount := by
  rw [List.length_cons, List.length_singleton]
  decide

/-- The balances of accounts. -/
theorem etherBalances_eq_ok_iff (ho : o.Watches chain) {r : Registry} {accounts : List Address}
    (hlen : accounts.length ≤ 2 * maxItemCount) {balances : List Word} :
    (etherBalances o r accounts s).value = .ok balances ↔
      List.Forall₂
        (fun a w => told (chain r.block) Contract.Hub.getEthBalance r.hub a = some w)
        accounts balances := by
  exact batchFetch_byKey_eq_ok_iff (k := .uint256) ho ho.positive.balances hlen

/-- Reading balances asks the hub for the balances of the accounts. -/
theorem mem_of_asked_etherBalances {r : Registry} {accounts : List Address} {c : SubCall}
    (h : (etherBalances o r accounts s).Asked c) :
    ∃ a ∈ accounts, c = ⟨r.hub, Contract.Hub.getEthBalance.callData a⟩ := by
  obtain ⟨call, hcall, rfl⟩ := List.mem_map.1 (Scheduler.registered_of_asked_batchQuery h)
  obtain ⟨a, ha, hmem⟩ := Plan.mem_registered_byKey hcall
  obtain rfl := List.mem_singleton.1 hmem
  exact ⟨a, ha, rfl⟩

theorem names_of_asked_etherBalances {r : Registry} {accounts : List Address} {c : SubCall}
    (h : (etherBalances o r accounts s).Asked c) : c.Names Contract.Hub.getEthBalance := by
  obtain ⟨a, -, rfl⟩ := mem_of_asked_etherBalances h
  exact SubCall.names_callData _ _ _

end Snapshot

end StakingSnapshot
