import StakingSnapshot.Proofs.Minipool.Unsupported
import StakingSnapshot.Proofs.Schedule.Kept
import StakingSnapshot.Proofs.Snapshot.Judged

/-!
# What reads of minipools refuse, whatever is answered

Where versions are told, the first minipool with a version that cannot be read is refused when it is
the turn of its batch in the round for the details. The round for the shares refuses nothing, since
the round before leaves addresses and versions alone.

* `Binding.refusal?`: the fault of a version; all plans for minipools fail by it
  (`Minipool.BindsFirst.failsBy`).
* `Minipool.refusesVersions`: what is refused once versions are known.
* `Minipool.judged_one`, `Minipool.judged_every` and their kin: the reads, from the rounds up;
  `Minipool.judged_completeShares`.
-/

namespace StakingSnapshot

variable {σ : Type}

/-! ## Plans for minipools -/

/-- Why a contract cannot be read that has a version. -/
def Binding.refusal? (found : Address × UInt8) : Option Fault :=
  if Binding.Supports found.2 then none else some (.unsupportedVersion found.1 found.2)

theorem Binding.failureOf_ofVersion (a : Address) (v : UInt8) :
    failureOf (Binding.ofVersion a v) = Binding.refusal? (a, v) := by
  unfold refusal?
  split
  case isTrue h =>
    obtain ⟨b, hb⟩ := exists_ofVersion_iff.2 h
    rw [hb]
    rfl
  case isFalse h =>
    rw [ofVersion_of_not_supports h]
    rfl

namespace Minipool

open Contract

/-- What decides how the minipool is read. -/
def identity (m : Minipool) : Address × UInt8 := (m.address, m.version)

section Plans

variable {r : Registry}

/-- A plan that looks at the binding first, and that fails for no other reason. -/
theorem BindsFirst.failsBy {plan : Plan Minipool} (h : BindsFirst plan)
    (hregisters : ∀ i m b, m.binding = .ok b → failureOf (plan i m) = none) :
    plan.FailsBy fun m => Binding.refusal? m.identity := by
  intro i m
  have hbinding : failureOf m.binding = Binding.refusal? m.identity :=
    Binding.failureOf_ofVersion m.address m.version
  refine Eq.trans ?_ hbinding
  cases hb : m.binding with
  | error e =>
    rw [h i m e hb]
    rfl
  | ok b => exact hregisters i m b hb

theorem failsBy_detailsPlan : (detailsPlan r).FailsBy fun m => Binding.refusal? m.identity := by
  refine bindsFirst_detailsPlan.failsBy fun i m b hb => ?_
  rw [detailsPlan, hb]
  cases b <;> rfl

theorem failsBy_sharesPlan : sharesPlan.FailsBy fun m => Binding.refusal? m.identity := by
  refine bindsFirst_sharesPlan.failsBy fun i m b hb => ?_
  rw [sharesPlan, hb]
  simp only [bind, Except.bind]
  cases m.distributable? <;> rfl

theorem failsBy_completeSharesPlan (beacons : List Word) :
    (completeSharesPlan beacons).FailsBy fun m => Binding.refusal? m.identity := by
  refine (bindsFirst_completeSharesPlan beacons).failsBy fun i m b hb => ?_
  rw [completeSharesPlan, hb]
  rfl

/-- The calls for details leave the address and the version alone. -/
theorem spares_detailsPlan : (detailsPlan r).Spares identity := by
  intro i m m' calls hplan
  have hcalls : ∀ c ∈ registerCalls r m.address ++ delegateCalls m.address ++
      (atlasCalls r m.address ++ penaltyCalls r m.address), c.Spares identity := by
    simp only [registerCalls, delegateCalls, atlasCalls, penaltyCalls, List.forall_mem_append,
      List.forall_mem_cons, List.not_mem_nil, false_imp_iff, implies_true, and_true]
    and_intros <;> exact Call.spares_typed fun _ _ => rfl
  rcases detailsPlan_eq_ok_iff.1 hplan with ⟨-, rfl, rfl⟩ | ⟨-, rfl, rfl⟩
  · refine ⟨rfl, fun c hc => hcalls c ?_⟩
    exact List.mem_append.2 ((List.mem_append.1 hc).imp_right (List.mem_append_right _))
  · exact ⟨rfl, hcalls⟩

end Plans

/-- The minipools of the first round are those of the addresses with their versions, as far as there
are balances. -/
theorem identities_fresh (as : List Address) (versions : List UInt8) (balances : List Word) :
    (fresh as versions balances).map identity <+: as.zip versions := by
  have hfresh : (fresh as versions balances).map identity =
      ((as.zip versions).zip balances).map Prod.fst := by
    rw [fresh, List.map_map]
    rfl
  rw [hfresh]
  clear hfresh
  generalize as.zip versions = found
  induction found generalizing balances with
  | nil => exact List.prefix_refl _
  | cons p found ih =>
    cases balances with
    | nil => exact List.nil_prefix
    | cons balance balances => exact List.prefix_cons_inj p |>.2 (ih balances)

/-! ## Reads -/

variable {o : Observer σ} {r : Registry} {s : σ}

/-- The first address is refused of which the version has no binding, when it is the turn of its
batch. Before that, balances are asked for, and the details of the batches before. -/
def refusesVersions (o : Observer σ) (r : Registry) (as : List Address) (versions : List UInt8) :
    Refusal σ :=
  .after (Snapshot.etherBalances o r as) fun balances _ sent cause =>
    ∃ i, FirstFaulty Binding.refusal? (as.zip versions) i cause ∧
      sent = o.scheduler.requestsBefore true r.block o.config.batchSizes.minipoolDetails
        (detailsPlan r) (fresh as versions balances) (i / o.config.batchSizes.minipoolDetails)

/-- **The rounds after the versions are known.** -/
theorem judged_ofVersions (ho : o.HasRoom) {as : List Address} {versions : List UInt8} :
    (ofVersions o r as versions).Judged o.scheduler.client (refusesVersions o r as versions) s := by
  rw [refusesVersions, ← Refusal.after_context]
  refine (Snapshot.judged_etherBalances ho).context.behind fun balances _ => ?_
  refine Read.Judged.before (Read.Judged.context ?_) fun ms hms => Read.Judged.context ?_
  · refine Scheduler.judged_batchQuery (conforms_detailsPlan r) failsBy_detailsPlan
      ho.positive.minipoolDetails
      fun i cause hfirst => ⟨i, ?_, rfl⟩
    exact hfirst.map.of_front (identities_fresh as versions balances)
  · -- What could be read in the first round has a binding, and has it still.
    have hdetails := Read.context_value_eq_ok_iff.1 hms
    have hfaultless := Scheduler.faultless_of_batchQuery failsBy_detailsPlan hdetails
    have hsame := Scheduler.map_batchQuery spares_detailsPlan hdetails
    refine Scheduler.judged_batchQuery_of_faultless conforms_sharesPlan failsBy_sharesPlan
      ho.positive.minipoolDetails
      fun x hx => ?_
    obtain ⟨m, hm, rfl⟩ := List.mem_map.1 hx
    have hmem : m.identity ∈ (fresh as versions balances).map identity :=
      hsame ▸ List.mem_map_of_mem hm
    obtain ⟨m', hm', hidentity⟩ := List.mem_map.1 hmem
    have hnone : Binding.refusal? m'.identity = none := hfaultless m' hm'
    rw [hidentity] at hnone
    exact hnone

/-- Some address is refused once the versions are told. -/
def refusesAddresses (o : Observer σ) (r : Registry) (as : List Address) : Refusal σ :=
  .after (o.probe.resolveAll o.scheduler r.block o.config.batchSizes.versions as)
    (refusesVersions o r as)

theorem judged_ofAddresses (ho : o.HasRoom) {as : List Address} :
    (ofAddresses o r as).Judged o.scheduler.client (refusesAddresses o r as) s := by
  rw [refusesAddresses, ← Refusal.after_context]
  exact (VersionProbe.judged_resolveAll ho.positive.versions).context.behind fun _ _ =>
    judged_ofVersions ho

/-- The address is refused once its version is told. -/
def refusesAddress (o : Observer σ) (r : Registry) (a : Address) : Refusal σ :=
  .after (o.probe.resolve o.scheduler r.block a) fun version => refusesVersions o r [a] [version]

theorem judged_one (ho : o.HasRoom) {a : Address} :
    (one o r a).Judged o.scheduler.client (refusesAddress o r a) s := by
  rw [refusesAddress, ← Refusal.after_context]
  exact VersionProbe.judged_resolve.context.behind fun _ _ =>
    (judged_ofVersions ho).before fun _ _ => Read.judged_pure _

/-- More minipools are counted than the limit. -/
def countsTooMany (o : Observer σ) (r : Registry) : Refusal σ :=
  Snapshot.countsTooMany o r.block (r.address .minipoolManager) MinipoolManager.getMinipoolCount ()

/-- More minipools of a node are counted than the limit. -/
def countsTooManyOfNode (o : Observer σ) (r : Registry) (node : Address) : Refusal σ :=
  Snapshot.countsTooMany o r.block (r.address .minipoolManager)
    MinipoolManager.getNodeMinipoolCount node

theorem judged_addresses (ho : o.HasRoom) :
    (addresses o r).Judged o.scheduler.client (countsTooMany o r) s :=
  Read.Judged.behind (Snapshot.judged_wordOf rfl) fun _ _ => judged_itemCount.before fun _ _ =>
    Snapshot.judged_values rfl ho.positive.addresses

theorem judged_addressesOfNode (ho : o.HasRoom) {node : Address} :
    (addressesOfNode o r node).Judged o.scheduler.client (countsTooManyOfNode o r node) s :=
  Read.Judged.behind (Snapshot.judged_wordOf rfl) fun _ _ => judged_itemCount.before fun _ _ =>
    Snapshot.judged_values rfl ho.positive.addresses

theorem judged_every (ho : o.HasRoom) :
    (every o r).Judged o.scheduler.client
      ((countsTooMany o r).either (.after (addresses o r) (refusesAddresses o r))) s := by
  rw [← Refusal.after_context]
  exact Read.judged_logged ((judged_addresses ho).context.bind fun _ _ => judged_ofAddresses ho)

theorem judged_ofNode (ho : o.HasRoom) {node : Address} :
    (ofNode o r node).Judged o.scheduler.client ((countsTooManyOfNode o r node).either
      (.after (addressesOfNode o r node) (refusesAddresses o r))) s := by
  rw [← Refusal.after_context]
  exact Read.judged_logged
    ((judged_addressesOfNode ho).context.bind fun _ _ => judged_ofAddresses ho)

/-- Complete shares are refused if there is not one balance for each minipool, and otherwise for the
first minipool of which the version has no binding, when it is the turn of its batch. -/
def refusesShares (o : Observer σ) (r : Registry) (beacons : List Word) (ms : List Minipool) :
    Refusal σ := fun _ sent cause =>
  (ms.length ≠ beacons.length ∧ sent = [] ∧ cause = .config
      s!"got {beacons.length} beacon balances for {ms.length} minipools") ∨
    (ms.length = beacons.length ∧ ∃ i, FirstFaulty Binding.refusal? (ms.map identity) i cause ∧
      sent = o.scheduler.requestsBefore true r.block o.config.batchSizes.completeShares
        (completeSharesPlan beacons) ms (i / o.config.batchSizes.completeShares))

theorem judged_completeShares (ho : o.HasRoom) {beacons : List Word} {ms : List Minipool} :
    (completeShares o r beacons ms s).Judged o.scheduler.client (refusesShares o r beacons ms s) s
      (failureOf (completeShares o r beacons ms s).value.2) := by
  unfold completeShares
  split
  case isTrue hlen => exact .of_refused rfl rfl (.inl ⟨hlen, rfl, rfl⟩) rfl
  case isFalse hlen =>
    refine (Scheduler.judged_fill (conforms_completeSharesPlan beacons)
      (failsBy_completeSharesPlan beacons) ho.positive.completeShares
      fun i cause hfirst => ?_).congr rfl
        (List.append_nil _) ?_
    · exact .inr ⟨not_not.1 hlen, i, hfirst.map, rfl⟩
    · exact (failureOf_withContext _ _).trans (failureOf_map _ _)

end Minipool

end StakingSnapshot
