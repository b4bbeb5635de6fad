import StakingSnapshot.Proofs.Schedule.Same
import StakingSnapshot.Proofs.Snapshot.Reading
import StakingSnapshot.Proofs.Version.Resolution

/-!
# Two observers of two chains

* `Observer.Twins`: observers of the same settings, each with a chain of its own.
* `Observer.Twins.same_batchQuery`: a read of many items is the same if the chains agree on what the
  items register.
* `Snapshot.same_counted`, `Snapshot.same_etherBalances`, `VersionProbe.same_resolve`,
  `VersionProbe.same_resolveAll`: the other parts of snapshots, if the chains agree on the methods
  that are called.
-/

namespace StakingSnapshot

variable {σ τ S ι : Type}

/-- Two observers of the same settings, of whom each reads a chain of its own. -/
structure Observer.Twins (o : Observer σ) (o' : Observer τ) (chain chain' : Chain) : Prop where
  watches : o.Watches chain
  watches' : o'.Watches chain'
  config : o'.config = o.config
  probe : o'.probe = o.probe
  hub : o'.scheduler.hub = o.scheduler.hub
  limit : o'.scheduler.limit = o.scheduler.limit

namespace Observer.Twins

variable {o : Observer σ} {o' : Observer τ} {chain chain' : Chain} {block : BlockRef} {size : Nat}
  {s : σ} {s' : τ}

theorem scheduler (ht : o.Twins o' chain chain') :
    o.scheduler.Twins o'.scheduler chain chain' :=
  ⟨ht.watches.answers, ht.watches'.answers, ht.hub, ht.limit⟩

theorem same_batchQuery (ht : o.Twins o' chain chain') {plan : Plan ι} (hsmall : plan.Small)
    {xs : List ι} (hlen : xs.length ≤ 2 * maxItemCount)
    (hsame : ∀ c ∈ (plan.registered 0 xs).map Call.sub, chain' block c = chain block c) :
    (o.scheduler.batchQuery block size plan xs s).Same
      (o'.scheduler.batchQuery block size plan xs s') :=
  Scheduler.same_batchQuery ht.scheduler (hsmall.sized ht.watches.bounded hlen) hsame

theorem same_flexBatchQuery (ht : o.Twins o' chain chain') {plan : Plan ι} (hsmall : plan.Small)
    {xs : List ι} (hlen : xs.length ≤ 2 * maxItemCount)
    (hsame : ∀ c ∈ (plan.registered 0 xs).map Call.sub, chain' block c = chain block c) :
    (o.scheduler.flexBatchQuery block size plan xs s).Same
      (o'.scheduler.flexBatchQuery block size plan xs s') :=
  Scheduler.same_flexBatchQuery ht.scheduler (hsmall.sized ht.watches.bounded hlen) hsame

end Observer.Twins

namespace Snapshot

variable {o : Observer σ} {o' : Observer τ} {chain chain' : Chain} {block : BlockRef} {s : σ}
  {s' : τ} {α β : Type} [Abi.Arguments α] [Abi.SmallArguments α] [Abi.Arguments β]
  [Abi.SmallArguments β] {k : Abi.Kind}

theorem same_wordOf (ht : o.Twins o' chain chain') {m : Abi.Method α .uint256} {target : Address}
    {args : α} (hsame : ∀ c : SubCall, c.Names m → chain' block c = chain block c) :
    (wordOf o block target m args s).Same (wordOf o' block target m args s') := by
  have hone : 1 ≤ Word.maxNat64 := by decide
  refine Scheduler.same_query ht.scheduler (ht.watches.bounded.sized hone fun c hc => ?_) ?_
  · obtain rfl := List.mem_singleton.1 hc
    exact Abi.length_callData_le m args
  · exact List.forall_mem_singleton.2 (hsame _ (Call.names_typed_iff.2 rfl))

/-- What is counted, if the chains agree on the count and on the values. -/
theorem same_counted (ht : o.Twins o' chain chain') {target : Address} {size : Nat}
    {count : Abi.Method α .uint256} {args : α} {item : Abi.Method β k} {itemArgs : Nat → β}
    {x : k.Value} (hcount : ∀ c : SubCall, c.Names count → chain' block c = chain block c)
    (hitem : ∀ c : SubCall, c.Names item → chain' block c = chain block c) :
    (counted o block target size count args item itemArgs x s).Same
      (counted o' block target size count args item itemArgs x s') := by
  refine Read.same_bind (same_wordOf ht hcount) fun raw _ t t' => ?_
  refine Read.same_bind (Read.same_ofExcept _ t t') fun n hn t t' => ?_
  have hmax : (List.replicate n x).length ≤ 2 * maxItemCount := by
    have := (itemCount_eq_ok_iff.1 hn).2
    rw [List.length_replicate]
    omega
  refine ht.same_batchQuery (Plan.small_byIndex fun i => small_value item target (itemArgs i))
    hmax ?_
  intro c hc
  obtain ⟨call, hcall, rfl⟩ := List.mem_map.1 hc
  obtain ⟨_, _, _, _, -, hplan, hmem⟩ := Plan.mem_registered hcall
  cases hplan
  obtain rfl := List.mem_singleton.1 hmem
  exact hitem _ (Call.names_typed_iff.2 rfl)

/-- Balances, if the chains agree on them. -/
theorem same_etherBalances (ht : o.Twins o' chain chain') {r : Registry} {accounts : List Address}
    (hlen : accounts.length ≤ 2 * maxItemCount)
    (hsame : ∀ c : SubCall, c.Names Contract.Hub.getEthBalance →
      chain' r.block c = chain r.block c) :
    (etherBalances o r accounts s).Same (etherBalances o' r accounts s') := by
  unfold etherBalances
  rw [ht.config]
  have hsmall : (Plan.byKey accounts fun a =>
      [Call.value Contract.Hub.getEthBalance r.hub a]).Small :=
    Plan.small_byKey fun a => small_value Contract.Hub.getEthBalance r.hub a
  refine ht.same_batchQuery hsmall ?_ ?_
  · rwa [List.length_replicate]
  · intro c hc
    obtain ⟨call, hcall, rfl⟩ := List.mem_map.1 hc
    obtain ⟨a, -, hmem⟩ := Plan.mem_registered_byKey hcall
    obtain rfl := List.mem_singleton.1 hmem
    exact hsame _ (Call.names_typed_iff.2 rfl)

end Snapshot

namespace VersionProbe

variable {o : Observer σ} {o' : Observer τ} {chain chain' : Chain} {block : BlockRef} {s : σ}
  {s' : τ} {p : VersionProbe}

/-- One version. -/
theorem same_resolve (ht : o.Twins o' chain chain') {a : Address}
    (hsame : chain' block (call a).sub = chain block (call a).sub) :
    (p.resolve o.scheduler block a s).Same (p.resolve o'.scheduler block a s') := by
  have hone : 1 ≤ Word.maxNat64 := by decide
  refine Read.same_bind (Scheduler.same_flexQuery ht.scheduler ?_ ?_) fun _ _ t t' => ?_
  · refine ht.watches.bounded.sized hone fun c hc => ?_
    obtain rfl := List.mem_singleton.1 hc
    exact length_data_le a
  · exact List.forall_mem_singleton.2 hsame
  · exact Read.same_pure _ t t'

/-- Many versions. -/
theorem same_resolveAll (ht : o.Twins o' chain chain') {size : Nat} {targets : List Address}
    (hlen : targets.length ≤ 2 * maxItemCount)
    (hsame : ∀ a ∈ targets, chain' block (call a).sub = chain block (call a).sub) :
    (p.resolveAll o.scheduler block size targets s).Same
      (p.resolveAll o'.scheduler block size targets s') := by
  refine Read.same_bind (ht.same_flexBatchQuery (small_byKey targets) ?_ fun c hc => ?_)
    fun _ _ t t' => Read.same_pure _ t t'
  · rwa [List.length_replicate]
  · obtain ⟨probe, hprobe, rfl⟩ := List.mem_map.1 hc
    obtain ⟨a, ha, hmem⟩ := Plan.mem_registered_byKey hprobe
    obtain rfl := List.mem_singleton.1 hmem
    exact hsame a ha

end VersionProbe

end StakingSnapshot
