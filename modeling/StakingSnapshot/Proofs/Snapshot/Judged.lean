import StakingSnapshot.Proofs.Schedule.Judged
import StakingSnapshot.Proofs.Snapshot.Conforms

/-!
# How snapshots end, whatever is answered

Every read ends with a verdict. What it refuses is a count that is too large, or a configuration
without a storage contract; minipools are refused for their versions too, and have a module of their
own.

* `Refusal.tooMany`, `Snapshot.countsTooMany`: counts.
* `Node.judged_every`, `Network.judged_fetch`, `Network.judged_effectiveStake`,
  `Proposal.judged_every`, `Registry.judged_load` and their kin: the reads, from the rounds up.
-/

namespace StakingSnapshot

open Abi Contract

variable {σ : Type}

/-- Every batch of the observer has room for an item. -/
def Observer.HasRoom (o : Observer σ) : Prop := ∀ size ∈ o.config.batchSizes.toList, 0 < size

theorem Observer.HasRoom.positive {o : Observer σ} (ho : o.HasRoom) :
    o.config.batchSizes.Positive :=
  BatchSizes.positive_of_forall ho

/-- A count that is larger than the limit. -/
def Refusal.tooMany (raw : Word) (target : Address) (method : String) : Refusal σ :=
  .atOnce fun cause => maxItemCount < raw.toNat ∧ cause = .decode target method
    s!"count {raw.toNat} exceeds the limit of {maxItemCount} items"

theorem judged_itemCount {client : Client σ} {raw : Word} {target : Address} {method : String}
    {s : σ} :
    (Read.ofExcept (itemCount raw target method)).Judged client (.tooMany raw target method) s := by
  refine Read.judged_ofExcept fun e he => ?_
  unfold itemCount at he
  split at he
  case isTrue => cases he
  case isFalse hlarge =>
    cases he
    exact ⟨Nat.lt_of_not_le hlarge, rfl⟩

section Registration

variable {ι κ : Type}

theorem Plan.failsBy_byIndex (calls : Nat → List (Call ι)) :
    (byIndex calls).FailsBy fun _ => none := fun _ _ => rfl

theorem Plan.failsBy_byKey (keys : List κ) (calls : κ → List (Call ι)) :
    (byKey keys calls).FailsBy fun _ => none := fun _ _ => rfl

theorem Node.failsBy_detailsPlan (r : Registry) : (Node.detailsPlan r).FailsBy fun _ => none :=
  fun _ _ => rfl

theorem Proposal.failsBy_detailsPlan (contract : Address) :
    (Proposal.detailsPlan contract).FailsBy fun _ => none := fun _ _ => rfl

end Registration

namespace Snapshot

variable {A B : Type} [Arguments A] [Arguments B] {k : Kind} {o : Observer σ} {r : Registry}
  {block : BlockRef} {R : Refusal σ} {s : σ} {target : Address}

/-- A contract counts more than the limit, and nothing else is asked. -/
def countsTooMany (o : Observer σ) (block : BlockRef) (target : Address) (m : Method A .uint256)
    (args : A) : Refusal σ :=
  .after (wordOf o block target m args) fun raw => .tooMany raw target m.name

theorem judged_wordOf {m : Method A .uint256} {args : A}
    (h : (interface.find? fun d => d.selector = m.selector) = some m.required) :
    (wordOf o block target m args).Judged o.scheduler.client R s :=
  Scheduler.judged_query (List.forall_mem_singleton.2 (Call.conforms_typed h))

/-- One value for each index. -/
theorem judged_values {m : Method A k} {args : Nat → A} {size count : Nat} {x : k.Value}
    (h : (interface.find? fun d => d.selector = m.selector) = some m.required) (hsize : 0 < size) :
    (o.scheduler.batchFetch block size (Plan.byIndex fun i => [.value m target (args i)]) x
      count).Judged o.scheduler.client R s := by
  refine Scheduler.judged_batchQuery_of_faultless (Plan.conforms_byIndex fun i => ?_)
    (Plan.failsBy_byIndex _) hsize fun _ _ => rfl
  exact List.forall_mem_singleton.2 (Call.conforms_typed h)

theorem judged_etherBalances (ho : o.HasRoom) {accounts : List Address} :
    (etherBalances o r accounts).Judged o.scheduler.client R s := by
  refine Scheduler.judged_batchQuery_of_faultless (Plan.conforms_byKey fun a => ?_)
    (Plan.failsBy_byKey _ _) ho.positive.balances fun _ _ => rfl
  exact List.forall_mem_singleton.2 (Call.conforms_typed rfl)

end Snapshot

namespace VersionProbe

variable {p : VersionProbe} {q : Scheduler σ} {block : BlockRef} {R : Refusal σ} {s : σ}

theorem judged_resolve {target : Address} :
    (p.resolve q block target).Judged q.client .never s :=
  (Scheduler.judged_flexQuery (List.forall_mem_singleton.2 (conforms_call target))).before
    fun _ _ => Read.judged_pure _

theorem judged_resolveAll {size : Nat} (hsize : 0 < size) {targets : List Address} :
    (p.resolveAll q block size targets).Judged q.client .never s := by
  refine Read.Judged.before (Scheduler.judged_flexBatchQuery (Plan.conforms_byKey fun a => ?_)
    (Plan.failsBy_byKey _ _) hsize) fun _ _ => Read.judged_pure _
  exact List.forall_mem_singleton.2 (conforms_call a)

end VersionProbe

variable {o : Observer σ} {r : Registry} {s : σ}

namespace Node

/-- More nodes are counted than the limit. -/
def countsTooMany (o : Observer σ) (r : Registry) : Refusal σ :=
  Snapshot.countsTooMany o r.block (r.address .nodeManager) NodeManager.getNodeCount ()

theorem judged_addresses (ho : o.HasRoom) :
    (addresses o r).Judged o.scheduler.client (countsTooMany o r) s := by
  rw [countsTooMany, Snapshot.countsTooMany, ← Refusal.after_context]
  refine (Snapshot.judged_wordOf rfl).context.behind fun raw _ => judged_itemCount.before fun n _ => ?_
  exact (Snapshot.judged_values rfl ho.positive.addresses).context

theorem judged_ofAddresses (ho : o.HasRoom) {as : List Address} :
    (ofAddresses o r as).Judged o.scheduler.client .never s := by
  have hdetails : ∀ xs s, (o.scheduler.batchQuery r.block o.config.batchSizes.nodeDetails
      (detailsPlan r) xs).Judged o.scheduler.client .never s := fun xs s =>
    Scheduler.judged_batchQuery_of_faultless (conforms_detailsPlan r) (failsBy_detailsPlan r)
      ho.positive.nodeDetails
      fun _ _ => rfl
  exact (hdetails _ s).context.before fun _ _ => (Snapshot.judged_etherBalances ho).context.before
    fun _ _ => Read.judged_pure _

theorem judged_one (ho : o.HasRoom) {a : Address} :
    (one o r a).Judged o.scheduler.client .never s :=
  (judged_ofAddresses ho).before fun _ _ => Read.judged_pure _

theorem judged_every (ho : o.HasRoom) :
    (every o r).Judged o.scheduler.client (countsTooMany o r) s :=
  Read.judged_logged ((judged_addresses ho).before fun _ _ => judged_ofAddresses ho)

end Node

namespace Network

theorem judged_fetch (ho : o.HasRoom) {hasFrequencies : Bool} :
    (fetch o r hasFrequencies).Judged o.scheduler.client .never s :=
  Read.judged_logged <|
    (Scheduler.judged_query (conforms_detailsCalls r hasFrequencies)).context.before fun _ _ =>
      (Snapshot.judged_etherBalances ho).context.before fun _ _ => Read.judged_pure _

theorem judged_effectiveStake (ho : o.HasRoom) :
    (effectiveStake o r).Judged o.scheduler.client (Node.countsTooMany o r) s := by
  refine (Node.judged_addresses ho).context.before fun nodes _ => Read.Judged.before
    (Read.Judged.context ?_) fun _ _ => Read.judged_pure _
  exact Scheduler.judged_batchQuery_of_faultless (Plan.conforms_byKey (Node.conforms_stakeCalls r))
    (Plan.failsBy_byKey _ _) ho.positive.effectiveStake fun _ _ => rfl

end Network

namespace Proposal

/-- More proposals are counted than the limit. -/
def countsTooMany (o : Observer σ) (r : Registry) : Refusal σ :=
  Snapshot.countsTooMany o r.block (r.address .daoProtocolProposal) Proposals.getTotal ()

theorem judged_count : (count o r).Judged o.scheduler.client (countsTooMany o r) s := by
  rw [countsTooMany, Snapshot.countsTooMany, ← Refusal.after_context]
  exact (Snapshot.judged_wordOf rfl).context.behind fun _ _ => judged_itemCount

theorem judged_ofIds (ho : o.HasRoom) {ids : List UInt64} :
    (ofIds o r ids).Judged o.scheduler.client .never s := by
  refine Read.Judged.before (Read.Judged.context ?_) fun _ _ => Read.judged_pure _
  exact Scheduler.judged_batchQuery_of_faultless (conforms_detailsPlan _) (failsBy_detailsPlan _)
    ho.positive.proposalDetails fun _ _ => rfl

theorem judged_one (ho : o.HasRoom) {id : UInt64} :
    (one o r id).Judged o.scheduler.client .never s :=
  (judged_ofIds ho).before fun _ _ => Read.judged_pure _

theorem judged_every (ho : o.HasRoom) :
    (every o r).Judged o.scheduler.client (countsTooMany o r) s :=
  Read.judged_logged (judged_count.before fun _ _ => judged_ofIds ho)

end Proposal

namespace Registry

variable {block? : Option BlockNumber}

theorem judged_chooseBlock : (chooseBlock o block?).Judged o.scheduler.client .never s := by
  cases block? with
  | some n => exact Read.judged_pure n
  | none =>
    have hhead : (o.latestBlock).Judged o.scheduler.client .never s := ⟨rfl, .of_failure? rfl⟩
    exact hhead.context

/-- No storage contract is configured, and nothing but the block is asked for. -/
def lacksStorage (o : Observer σ) (block? : Option BlockNumber) : Refusal σ :=
  .after (chooseBlock o block?) fun _ => .atOnce fun cause =>
    o.config.storage = none ∧ cause = .config s!"Missing env var: {Config.storageName}"

theorem judged_load (ho : o.HasRoom) :
    (load o block?).Judged o.scheduler.client (lacksStorage o block?) s := by
  refine judged_chooseBlock.behind fun number _ => Read.Judged.before
    (Read.judged_ofExcept fun e he => ?_) fun storage _ => ?_
  · unfold Config.storageAddress at he
    split at he
    case h_1 => cases he
    case h_2 hnone =>
      cases he
      exact ⟨hnone, rfl⟩
  · exact (Scheduler.judged_query (Deployments.conforms_calls storage)).context.before fun _ _ =>
      (VersionProbe.judged_resolveAll ho.positive.versions).context.before fun _ _ =>
        Read.judged_pure _

end Registry

end StakingSnapshot
