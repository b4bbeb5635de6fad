import StakingSnapshot.Network.EffectiveStake
import StakingSnapshot.Network.Snapshot
import StakingSnapshot.Proofs.Minipool.Rounds
import StakingSnapshot.Proofs.Schedule.Judged
import StakingSnapshot.Proposal.Snapshot

/-!
# All reads ask as the interface demands

Every call that a snapshot registers is for a method of the interface, and must succeed exactly if
the interface says so: only a contract's version may be missing.
-/

namespace StakingSnapshot

open Call

variable (r : Registry)

theorem VersionProbe.conforms_call (target : Address) :
    (VersionProbe.call target).Conforms false :=
  conforms_typed rfl

namespace Deployments

theorem conforms_callsFor (storage : Address) (name : ContractName) (i : Nat) :
    ∀ c ∈ callsFor storage name i, c.Conforms true := by
  simp only [callsFor, List.forall_mem_cons, List.not_mem_nil, false_imp_iff, implies_true,
    and_true]
  exact ⟨conforms_typed rfl, conforms_typed rfl⟩

theorem conforms_calls (storage : Address) : ∀ c ∈ calls storage, c.Conforms true := by
  intro c hc
  obtain ⟨⟨name, i⟩, -, hc⟩ := List.mem_flatMap.1 hc
  exact conforms_callsFor storage name i c hc

end Deployments

namespace Minipool

theorem conforms_registerCalls (a : Address) : ∀ c ∈ registerCalls r a, c.Conforms true := by
  simp only [registerCalls, List.forall_mem_cons, List.not_mem_nil, false_imp_iff, implies_true,
    and_true]
  and_intros <;> exact conforms_typed rfl

theorem conforms_delegateCalls (a : Address) : ∀ c ∈ delegateCalls a, c.Conforms true := by
  simp only [delegateCalls, List.forall_mem_cons, List.not_mem_nil, false_imp_iff, implies_true,
    and_true]
  and_intros <;> exact conforms_typed rfl

theorem conforms_atlasCalls (a : Address) : ∀ c ∈ atlasCalls r a, c.Conforms true := by
  simp only [atlasCalls, List.forall_mem_cons, List.not_mem_nil, false_imp_iff, implies_true,
    and_true]
  and_intros <;> exact conforms_typed rfl

theorem conforms_penaltyCalls (a : Address) : ∀ c ∈ penaltyCalls r a, c.Conforms true := by
  simp only [penaltyCalls, List.forall_mem_cons, List.not_mem_nil, false_imp_iff, implies_true,
    and_true]
  and_intros <;> exact conforms_typed rfl

theorem conforms_detailsPlan : (detailsPlan r).Conforms true := by
  intro i m m' calls hplan
  have hfront := List.forall_mem_append.2
    ⟨conforms_registerCalls r m.address, conforms_delegateCalls m.address⟩
  have hpenalties := conforms_penaltyCalls r m.address
  rcases detailsPlan_eq_ok_iff.1 hplan with ⟨-, -, rfl⟩ | ⟨-, -, rfl⟩
  · exact List.forall_mem_append.2 ⟨hfront, hpenalties⟩
  · exact List.forall_mem_append.2
      ⟨hfront, List.forall_mem_append.2 ⟨conforms_atlasCalls r m.address, hpenalties⟩⟩

theorem conforms_shareCalls (m : Minipool) (amount : Word)
    (storeNode storeUser : Word → Minipool → Minipool) :
    ∀ c ∈ m.shareCalls amount storeNode storeUser, c.Conforms true := by
  simp only [shareCalls, List.forall_mem_cons, List.not_mem_nil, false_imp_iff, implies_true,
    and_true]
  exact ⟨conforms_typed rfl, conforms_typed rfl⟩

theorem conforms_sharesPlan : sharesPlan.Conforms true := by
  intro i m m' calls hplan
  obtain ⟨-, ⟨amount, -, -, rfl⟩ | ⟨-, -, rfl⟩⟩ := sharesPlan_eq_ok_iff.1 hplan
  · exact conforms_shareCalls m amount _ _
  · exact fun _ h => nomatch h

theorem conforms_beaconShares (m : Minipool) (beacon : Word) :
    ∀ c ∈ (m.beaconShares beacon).2, c.Conforms true := by
  unfold beaconShares
  split
  · exact fun _ h => nomatch h
  · exact conforms_shareCalls m beacon _ _

theorem conforms_totalShares (m : Minipool) (beacon : Word) :
    ∀ c ∈ (m.totalShares beacon).2, c.Conforms true := by
  unfold totalShares
  split
  · exact fun _ h => nomatch h
  · exact conforms_shareCalls m _ _ _

theorem conforms_completeSharesPlan (beacons : List Word) :
    (completeSharesPlan beacons).Conforms true := by
  intro i m m' calls hplan
  unfold completeSharesPlan at hplan
  cases hb : m.binding with
  | error e =>
    rw [hb] at hplan
    cases hplan
  | ok binding =>
    rw [hb] at hplan
    cases hplan
    exact List.forall_mem_append.2 ⟨conforms_beaconShares m _, conforms_totalShares _ _⟩

end Minipool

namespace Node

theorem conforms_detailsCalls (a : Address) : ∀ c ∈ detailsCalls r a, c.Conforms true := by
  simp only [detailsCalls, List.forall_mem_cons, List.not_mem_nil, false_imp_iff, implies_true,
    and_true]
  and_intros <;> exact conforms_typed rfl

theorem conforms_detailsPlan : (detailsPlan r).Conforms true := by
  intro i n n' calls hplan
  cases hplan
  exact conforms_detailsCalls r n.address

theorem conforms_stakeCalls (a : Address) : ∀ c ∈ StakePair.calls r a, c.Conforms true := by
  simp only [StakePair.calls, List.forall_mem_cons, List.not_mem_nil, false_imp_iff, implies_true,
    and_true]
  exact ⟨conforms_typed rfl, conforms_typed rfl⟩

end Node

namespace Network

theorem conforms_detailsCalls (hasFrequencies : Bool) :
    ∀ c ∈ detailsCalls r hasFrequencies, c.Conforms true := by
  cases hasFrequencies <;>
  · simp only [detailsCalls, rewardCalls, poolCalls, balanceCalls, settingCalls, frequencyCalls,
      reportableCalls, List.cons_append, List.nil_append, Bool.false_eq_true, if_true, if_false,
      List.forall_mem_cons, List.not_mem_nil, false_imp_iff, implies_true, and_true]
    and_intros <;> exact conforms_typed rfl

end Network

namespace Proposal

theorem conforms_detailsPlan (contract : Address) : (detailsPlan contract).Conforms true := by
  intro i p p' calls hplan
  cases hplan
  simp only [detailsCalls, List.forall_mem_cons, List.not_mem_nil, false_imp_iff, implies_true,
    and_true]
  and_intros <;> exact conforms_typed rfl

end Proposal

end StakingSnapshot
