import Mathlib.Algebra.Ring.Nat
import StakingSnapshot.Network.EffectiveStake
import StakingSnapshot.Proofs.Node.Fields
import StakingSnapshot.Proofs.Node.Formula

/-!
# The effective stake of the network and those of its nodes

The stake of the network is read by calls of its own, in batches of its own. It is the sum of the
stakes that a snapshot of all nodes records.

* `StakePair.toNat_total`: the sum as a number, which stops at the largest word.
* `Network.effectiveStake_eq_ok_iff`: what the read comes to.
* `Network.effectiveStake_eq_sum`: the sum over a snapshot of the nodes.
-/

namespace StakingSnapshot

open Contract

namespace StakePair

/-- What a stake adds to the sum. -/
def counted (p : StakePair) : Nat :=
  if p.minimum.toNat ≤ p.effective.toNat then p.effective.toNat else 0

/-- **The sum.** -/
theorem toNat_total (pairs : List StakePair) :
    (total pairs).toNat = min Word.maxNat (pairs.map counted).sum := by
  have hfilter : ((pairs.filter fun p => p.minimum.toNat ≤ p.effective.toNat).map
      fun p => p.effective.toNat).sum = (pairs.map counted).sum := by
    induction pairs with
    | nil => rfl
    | cons p pairs ih =>
      rw [List.map_cons, List.sum_cons, ← ih, counted]
      by_cases hp : p.minimum.toNat ≤ p.effective.toNat
      · rw [List.filter_cons_of_pos (by simpa using hp), List.map_cons, List.sum_cons, if_pos hp]
      · rw [List.filter_cons_of_neg (by simpa using hp), if_neg hp, Nat.zero_add]
  rw [total, ← List.foldl_map, Word.toNat_foldl_satAdd, List.map_map]
  exact (Nat.min_comm _ _).trans (congrArg (min Word.maxNat) ((Nat.zero_add _).trans hfilter))

variable {answer : SubCall → CallResult} {r : Registry} {a : Address}

/-- What the calls for the stake of a node come to. -/
theorem applied_calls_iff {p : StakePair} :
    ((∀ c ∈ calls r a, c.Passes true (answer c.sub)) ∧ p = applied answer (calls r a) {}) ↔
      told answer NodeStaking.getNodeMinimumRPLStake (r.address .nodeStaking) a =
          some p.minimum ∧
        told answer NodeStaking.getNodeEffectiveRPLStake (r.address .nodeStaking) a =
          some p.effective := by
  simp only [calls, List.forall_mem_cons, Call.passes_typed_iff]
  constructor
  · rintro ⟨⟨⟨minimum, hminimum⟩, ⟨effective, heffective⟩, -⟩, rfl⟩
    simp only [applied_typed_cons hminimum, applied_typed_cons heffective, applied_nil]
    exact ⟨hminimum, heffective⟩
  · rintro ⟨hminimum, heffective⟩
    refine ⟨⟨⟨_, hminimum⟩, ⟨_, heffective⟩, nofun⟩, ?_⟩
    simp only [applied_typed_cons hminimum, applied_typed_cons heffective, applied_nil]

theorem small_byKey (nodes : List Address) : (Plan.byKey nodes (calls r)).Small := by
  refine Plan.small_byKey fun node => ⟨?_, ?_⟩
  · simp [calls]
  · simp [calls, Call.length_data_typed_le]

end StakePair

namespace Network

variable {σ τ : Type} {o : Observer σ} {o' : Observer τ} {chain : Chain} {r : Registry} {s : σ}

/-- **What the read comes to.** -/
theorem effectiveStake_eq_ok_iff (ho : o.Watches chain) {t : Word} :
    (effectiveStake o r s).value = .ok t ↔
      ∃ nodes, (Node.addresses o r s).value = .ok nodes ∧
        ∃ pairs, List.Forall₂ (fun a (p : StakePair) =>
            told (chain r.block) NodeStaking.getNodeMinimumRPLStake (r.address .nodeStaking) a =
                some p.minimum ∧
              told (chain r.block) NodeStaking.getNodeEffectiveRPLStake
                (r.address .nodeStaking) a = some p.effective) nodes pairs ∧
          StakePair.total pairs = t := by
  simp only [effectiveStake, Read.bind_value_eq_ok_iff, Read.context_value_eq_ok_iff,
    Read.pure_value_eq_ok_iff]
  refine exists_congr fun nodes => and_congr_right fun hnodes => exists_congr fun pairs =>
    and_congr_left fun _ => ?_
  have hmax := ((Node.addresses_eq_ok_iff ho).1 hnodes).1
  have hlen : (List.replicate nodes.length ({} : StakePair)).length ≤ 2 * maxItemCount := by
    rw [List.length_replicate]
    omega
  have hread : ∀ s', (o.scheduler.batchFetch r.block o.config.batchSizes.effectiveStake
      (Plan.byKey nodes (StakePair.calls r)) {} nodes.length s').value = .ok pairs ↔ _ :=
    fun s' => Scheduler.batchQuery_eq_ok_iff ho.answers ho.positive.effectiveStake
      ((StakePair.small_byKey nodes).sized ho.bounded hlen)
  simp only [hread, Plan.filled_byKey_iff, StakePair.applied_calls_iff, exists_and_left,
    exists_eq, and_true]

/-- What a recorded node adds to the sum is its recorded stake. -/
theorem counted_of_recorded {answer : SubCall → CallResult} {a : Address} {n : Node}
    (h : Node.Recorded answer r a n) :
    ∃ p : StakePair,
      (told answer NodeStaking.getNodeMinimumRPLStake (r.address .nodeStaking) a =
          some p.minimum ∧
        told answer NodeStaking.getNodeEffectiveRPLStake (r.address .nodeStaking) a =
          some p.effective) ∧ p.counted = n.effectiveStake.toNat := by
  obtain ⟨stake, htold, hstake⟩ := h.effectiveStake
  refine ⟨⟨n.minimumStake, stake⟩, ⟨h.minimumStake, htold⟩, ?_⟩
  rw [hstake, StakePair.counted]
  split
  · rfl
  · rfl

/-- **Two ways to one sum.** If a snapshot of all nodes ends well, so does the read of the effective
stake of the network, and it is the sum of the effective stakes of the nodes, or the largest word if
the sum is larger. The two reads may put other numbers of items into an aggregate. -/
theorem effectiveStake_eq_sum (ho : o.Watches chain) (ho' : o'.Watches chain) (r : Registry)
    {ns : List Node} (h : (Node.every o r s).value = .ok ns) (s' : τ) :
    ∃ t, (effectiveStake o' r s').value = .ok t ∧
      t.toNat = min Word.maxNat (ns.map fun n => n.effectiveStake.toNat).sum := by
  obtain ⟨nodes, hnodes, hns⟩ := (Node.every_eq_ok_iff ho).1 h
  have hnodes' : (Node.addresses o' r s').value = .ok nodes :=
    (Node.addresses_eq_ok_iff ho').2 ((Node.addresses_eq_ok_iff ho).1 hnodes)
  obtain ⟨pairs, hpairs, hsum⟩ : ∃ pairs, List.Forall₂ (fun a (p : StakePair) =>
      told (chain r.block) NodeStaking.getNodeMinimumRPLStake (r.address .nodeStaking) a =
          some p.minimum ∧
        told (chain r.block) NodeStaking.getNodeEffectiveRPLStake (r.address .nodeStaking) a =
          some p.effective) nodes pairs ∧
      pairs.map StakePair.counted = ns.map fun n => n.effectiveStake.toNat := by
    clear hnodes hnodes' h
    induction hns with
    | nil => exact ⟨[], .nil, rfl⟩
    | cons hn _ ih =>
      obtain ⟨pairs, hpairs, hsum⟩ := ih
      obtain ⟨p, htold, hp⟩ := counted_of_recorded (Node.recorded_of_observed? hn)
      refine ⟨p :: pairs, .cons htold hpairs, ?_⟩
      rw [List.map_cons, List.map_cons, hp, hsum]
  refine ⟨StakePair.total pairs,
    (effectiveStake_eq_ok_iff ho').2 ⟨nodes, hnodes', pairs, hpairs, rfl⟩, ?_⟩
  rw [StakePair.toNat_total, hsum]

open Chain.twoNodes

/-- Of the stakes 4 and 5 only the second counts. -/
theorem effectiveStake_twoNodes :
    (effectiveStake (observer ⟨1, 1, 1, 1, 1, 1, 1, 1⟩) registry ()).value = .ok 5 := by
  have ho : (observer {}).Watches .twoNodes := watches (by decide)
  have ho' : (observer ⟨1, 1, 1, 1, 1, 1, 1, 1⟩).Watches .twoNodes := watches (by decide)
  obtain ⟨ns, hns, hstakes⟩ := exists_every (show ∀ size ∈ BatchSizes.toList {}, 1 ≤ size by decide)
  obtain ⟨t, ht, hsum⟩ := effectiveStake_eq_sum ho ho' registry hns ()
  have hnats : (ns.map fun n => n.effectiveStake.toNat) = [0, 5] := by
    have hfirst := congrArg (List.map fun p : Word × Word => p.1.toNat) hstakes
    rwa [List.map_map] at hfirst
  rw [hnats] at hsum
  obtain rfl : t = 5 := BitVec.eq_of_toNat_eq hsum
  exact ht

end Network

end StakingSnapshot
