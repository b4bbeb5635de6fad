import StakingSnapshot.Node.Snapshot
import StakingSnapshot.Proofs.Snapshot.Reading

/-!
# What the rounds make of a node

The second round asks for the balances of all nodes and of all fee distributors in one list, which
is cut into two again. Wherever the batches fall in it, each node gets its own two balances.

* `forall₂_append_iff`: a list that is related to two lists, one after the other, is cut into two.
* `Node.observed?`: what the rounds make of one address.
* `Node.ofAddresses_eq_ok_iff`: many addresses, in batches of any size; `Node.one_eq_ok_iff`: one
  address; `Node.every_eq_ok_iff`: all that the register tells.
-/

namespace StakingSnapshot

/-- What is related to two lists in a row is made of what is related to each of them. -/
theorem forall₂_append_iff {α β : Type} {R : α → β → Prop} {xs xs' : List α} {ys : List β} :
    List.Forall₂ R (xs ++ xs') ys ↔
      List.Forall₂ R xs (ys.take xs.length) ∧ List.Forall₂ R xs' (ys.drop xs.length) := by
  induction xs generalizing ys with
  | nil => simp
  | cons x xs ih =>
    cases ys with
    | nil => simp
    | cons y ys =>
      simp only [List.cons_append, List.forall₂_cons, List.length_cons, List.take_succ_cons,
        List.drop_succ_cons, ih, and_assoc]

namespace Node

open Contract

/-! ## One address -/

/-- What the rounds make of an address: its details, and with what these tell, the two balances. -/
def observed? (answer : SubCall → CallResult) (r : Registry) (a : Address) : Option Node := do
  let details ← (detailsPlan r).outcome? answer true 0 (ofAddress a)
  let own ← told answer Hub.getEthBalance r.hub details.address
  let distributor ← told answer Hub.getEthBalance r.hub details.distributor
  return countStake { details with balanceEther := own, distributorBalance := distributor }

variable {answer : SubCall → CallResult} {r : Registry} {a : Address} {n : Node}

theorem observed?_eq_some_iff :
    observed? answer r a = some n ↔
      ∃ x, (detailsPlan r).outcome? answer true 0 (ofAddress a) = some x ∧
        ∃ own, told answer Hub.getEthBalance r.hub x.address = some own ∧
          ∃ distributor, told answer Hub.getEthBalance r.hub x.distributor = some distributor ∧
            countStake { x with balanceEther := own, distributorBalance := distributor } = n := by
  simp only [observed?, Option.bind_eq_bind, Option.bind_eq_some_iff, Option.pure_def,
    Option.some.injEq]

theorem small_detailsPlan : (detailsPlan r).Small := by
  intro i m m' calls hplan
  cases hplan
  constructor
  · simp [detailsCalls]
  · simp [detailsCalls, Call.length_data_typed_le]

/-! ## Many addresses -/

/-- Rounds over lists are rounds over each address. -/
theorem forall₂_observed?_iff {as : List Address} {ns : List Node} :
    (∃ xs, List.Forall₂ (fun a x => (detailsPlan r).outcome? answer true 0 (ofAddress a) = some x)
        as xs ∧
      ∃ own, List.Forall₂ (fun x w => told answer Hub.getEthBalance r.hub x.address = some w)
          xs own ∧
        ∃ distributors, List.Forall₂
            (fun x w => told answer Hub.getEthBalance r.hub x.distributor = some w)
            xs distributors ∧
          ns = withBalances xs own distributors) ↔
      List.Forall₂ (fun a n => observed? answer r a = some n) as ns := by
  simp only [observed?_eq_some_iff]
  constructor
  -- All lists have the shape of the list of addresses, on which the induction is.
  · rintro ⟨xs, hdetails, own, hown, distributors, hdistributors, rfl⟩
    induction hdetails generalizing own distributors with
    | nil =>
      cases hown
      exact .nil
    | cons hx _ ih =>
      cases hown with
      | cons hw hown =>
        cases hdistributors with
        | cons hd hdistributors =>
          exact .cons ⟨_, hx, _, hw, _, hd, rfl⟩ (ih _ hown _ hdistributors)
  · intro h
    induction h with
    | nil => exact ⟨[], .nil, [], .nil, [], .nil, rfl⟩
    | cons hn _ ih =>
      obtain ⟨x, hx, w, hw, d, hd, rfl⟩ := hn
      obtain ⟨xs, hdetails, own, hown, distributors, hdistributors, rfl⟩ := ih
      exact ⟨x :: xs, .cons hx hdetails, w :: own, .cons hw hown, d :: distributors,
        .cons hd hdistributors, rfl⟩

section Reads

variable {σ : Type} {o : Observer σ} {chain : Chain} {s : σ}

/-- The round for the balances, cut where the nodes end. -/
theorem balancesRound_eq_ok_iff (ho : o.Watches chain) {xs : List Node}
    (hlen : xs.length ≤ maxItemCount) {balances : List Word} :
    (Snapshot.etherBalances o r (xs.map (fun n => n.address) ++ xs.map fun n => n.distributor)
        s).value = .ok balances ↔
      List.Forall₂ (fun x w => told (chain r.block) Hub.getEthBalance r.hub x.address = some w)
          xs (balances.take xs.length) ∧
        List.Forall₂
          (fun x w => told (chain r.block) Hub.getEthBalance r.hub x.distributor = some w)
          xs (balances.drop xs.length) := by
  rw [Snapshot.etherBalances_eq_ok_iff ho, forall₂_append_iff, List.length_map,
    List.forall₂_map_left_iff, List.forall₂_map_left_iff]
  rw [List.length_append, List.length_map, List.length_map]
  omega

/-- **Many addresses.** Each becomes what the rounds make of it alone. -/
theorem ofAddresses_eq_ok_iff (ho : o.Watches chain) {as : List Address}
    (hlen : as.length ≤ maxItemCount) {ns : List Node} :
    (ofAddresses o r as s).value = .ok ns ↔
      List.Forall₂ (fun a n => observed? (chain r.block) r a = some n) as ns := by
  have hmany : (as.map ofAddress).length ≤ 2 * maxItemCount := by
    rw [List.length_map]
    omega
  simp only [ofAddresses, Read.bind_value_eq_ok_iff, Read.context_value_eq_ok_iff,
    Read.pure_value_eq_ok_iff, ← forall₂_observed?_iff]
  refine exists_congr fun xs => ?_
  rw [ho.batchQuery_eq_ok_iff ho.positive.nodeDetails small_detailsPlan (fun _ => rfl) hmany,
    List.forall₂_map_left_iff]
  refine and_congr_right fun hdetails => ?_
  have hnodes : xs.length ≤ maxItemCount := hdetails.length_eq ▸ hlen
  constructor
  · rintro ⟨balances, hbalances, rfl⟩
    obtain ⟨hown, hdistributors⟩ := (balancesRound_eq_ok_iff ho hnodes).1 hbalances
    exact ⟨_, hown, _, hdistributors, rfl⟩
  · rintro ⟨own, hown, distributors, hdistributors, rfl⟩
    have hcut := hown.length_eq
    refine ⟨own ++ distributors, (balancesRound_eq_ok_iff ho hnodes).2 ?_, ?_⟩
    · rw [List.take_left' hcut.symm, List.drop_left' hcut.symm]
      exact ⟨hown, hdistributors⟩
    · rw [List.take_left' hcut.symm, List.drop_left' hcut.symm]

/-- **One address.** -/
theorem one_eq_ok_iff (ho : o.Watches chain) :
    (one o r a s).value = .ok n ↔ observed? (chain r.block) r a = some n := by
  have hlen : [a].length ≤ maxItemCount := by
    rw [List.length_singleton]
    decide
  simp only [one, Read.bind_value_eq_ok_iff, ofAddresses_eq_ok_iff ho hlen,
    Read.pure_value_eq_ok_iff, exists_forall₂_singleton_iff]

/-- As many addresses as are counted, each the one that the register tells for its index. -/
theorem addresses_eq_ok_iff (ho : o.Watches chain) {as : List Address} :
    (addresses o r s).value = .ok as ↔
      as.length ≤ maxItemCount ∧
        (∃ count, told (chain r.block) NodeManager.getNodeCount (r.address .nodeManager) () =
            some count ∧ as.length = count.toNat) ∧
          ∀ i a, as[i]? = some a →
            told (chain r.block) NodeManager.getNodeAt (r.address .nodeManager)
              (BitVec.ofNat 256 i) = some a := by
  rw [← Snapshot.counted_eq_ok_iff (s := s) (x := Address.zero) (k := .address) ho
    ho.positive.addresses]
  simp only [addresses, Snapshot.counted, Read.bind_value_eq_ok_iff, Read.context_value_eq_ok_iff]
  exact Iff.rfl

/-- All nodes. -/
theorem every_eq_ok_iff (ho : o.Watches chain) {ns : List Node} :
    (every o r s).value = .ok ns ↔
      ∃ as, (addresses o r s).value = .ok as ∧
        List.Forall₂ (fun a n => observed? (chain r.block) r a = some n) as ns := by
  rw [every, Snapshot.logged_value, Read.bind_value_eq_ok_iff]
  refine exists_congr fun as => and_congr_right fun has => ofAddresses_eq_ok_iff ho ?_
  exact ((addresses_eq_ok_iff ho).1 has).1

end Reads

end Node

end StakingSnapshot
