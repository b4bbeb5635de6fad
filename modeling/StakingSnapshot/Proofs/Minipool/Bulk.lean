import StakingSnapshot.Proofs.Minipool.Fields

/-!
# Many minipools and one

A bulk read is a read of one minipool for each address that the register tells.

* `Minipool.Selection`: which minipools a bulk read is for.
* `Minipool.Selection.read_eq_ok_iff`: what a bulk read comes to.
* `Minipool.Selection.read_agrees_with_one`: each minipool of a bulk read is what is read of its
  address alone.
-/

namespace StakingSnapshot

namespace Minipool

open Contract

/-- Which minipools a bulk read is for: all of them, or those of a node. -/
inductive Selection where
  | all
  | ofNode (node : Address)

namespace Selection

variable {σ τ : Type}

/-- The bulk read. -/
def read (o : Observer σ) (r : Registry) : Selection → Read σ (List Minipool)
  | all => every o r
  | ofNode node => Minipool.ofNode o r node

/-- How many minipools the register counts. -/
def count? (answer : SubCall → CallResult) (r : Registry) : Selection → Option Word
  | all => told answer MinipoolManager.getMinipoolCount (r.address .minipoolManager) ()
  | ofNode node =>
    told answer MinipoolManager.getNodeMinipoolCount (r.address .minipoolManager) node

/-- The address that the register tells for an index. -/
def address? (answer : SubCall → CallResult) (r : Registry) (i : Nat) : Selection → Option Address
  | all =>
    told answer MinipoolManager.getMinipoolAt (r.address .minipoolManager) (BitVec.ofNat 256 i)
  | ofNode node =>
    told answer MinipoolManager.getNodeMinipoolAt (r.address .minipoolManager)
      (node, BitVec.ofNat 256 i)

/-- The read of the addresses. -/
def addresses (o : Observer σ) (r : Registry) : Selection → Read σ (List Address)
  | all => Minipool.addresses o r
  | ofNode node => addressesOfNode o r node

variable {o : Observer σ} {o' : Observer τ} {chain : Chain} {r : Registry} {sel : Selection}
  {s : σ}

/-- As many addresses as are counted, each the one that the register tells for its index. -/
theorem addresses_eq_ok_iff (ho : o.Watches chain) {as : List Address} :
    (sel.addresses o r s).value = .ok as ↔
      as.length ≤ maxItemCount ∧
        (∃ n, sel.count? (chain r.block) r = some n ∧ as.length = n.toNat) ∧
          ∀ i a, as[i]? = some a → sel.address? (chain r.block) r i = some a := by
  cases sel with
  | all => exact Snapshot.counted_eq_ok_iff (k := .address) ho ho.positive.addresses
  | ofNode node => exact Snapshot.counted_eq_ok_iff (k := .address) ho ho.positive.addresses

/-- To know which minipools there are, only the register is asked. -/
theorem names_of_asked_addresses {c : SubCall} (h : (sel.addresses o r s).Asked c) :
    (c.Names MinipoolManager.getMinipoolCount ∨ c.Names MinipoolManager.getMinipoolAt) ∨
      c.Names MinipoolManager.getNodeMinipoolCount ∨
        c.Names MinipoolManager.getNodeMinipoolAt := by
  cases sel with
  | all => exact .inl (Snapshot.names_of_asked_counted (k := .address) h)
  | ofNode node => exact .inr (Snapshot.names_of_asked_counted (k := .address) h)

/-- A bulk read reads addresses, and then the minipools at them. -/
theorem read_eq (sel : Selection) : ∃ entity text, sel.read o r =
    Snapshot.logged entity r.blockNumber List.length
      ((sel.addresses o r).context text >>= ofAddresses o r) := by
  cases sel with
  | all => exact ⟨_, _, rfl⟩
  | ofNode node => exact ⟨_, _, rfl⟩

/-- **Bulk reads.** They come to as many minipools as are counted, each of them what the rounds make
of the address at its index. -/
theorem read_eq_ok_iff (ho : o.Watches chain) {ms : List Minipool} :
    (sel.read o r s).value = .ok ms ↔
      ms.length ≤ maxItemCount ∧
        (∃ n, sel.count? (chain r.block) r = some n ∧ ms.length = n.toNat) ∧
          ∀ i m, ms[i]? = some m → sel.address? (chain r.block) r i = some m.address ∧
            observed? (chain r.block) o.probe r m.address = some m := by
  have hread : (sel.read o r s).value = .ok ms ↔ ∃ as, (sel.addresses o r s).value = .ok as ∧
      List.Forall₂ (fun a m => observed? (chain r.block) o.probe r a = some m) as ms := by
    obtain ⟨entity, text, heq⟩ := read_eq (o := o) (r := r) sel
    rw [heq, Snapshot.logged_value, Read.bind_value_eq_ok_iff]
    simp only [Read.context_value_eq_ok_iff]
    refine exists_congr fun as => and_congr_right fun has => ofAddresses_eq_ok_iff ho ?_
    have hmax := ((addresses_eq_ok_iff ho).1 has).1
    omega
  rw [hread]
  constructor
  · rintro ⟨as, has, hms⟩
    obtain ⟨hmax, hcount, hat⟩ := (addresses_eq_ok_iff ho).1 has
    have hlen := hms.length_eq
    refine ⟨hlen ▸ hmax, hlen ▸ hcount, fun i m hm => ?_⟩
    obtain ⟨hi, rfl⟩ := List.getElem?_eq_some_iff.1 hm
    have hobserved := (List.forall₂_iff_get.1 hms).2 i (hlen ▸ hi) hi
    have haddress := (recorded_of_observed? hobserved).address
    have hindex := hat i _ (List.getElem?_eq_getElem (hlen ▸ hi))
    simp only [List.get_eq_getElem] at hobserved haddress
    rw [haddress]
    exact ⟨hindex, hobserved⟩
  · rintro ⟨hmax, hcount, hat⟩
    refine ⟨ms.map address, (addresses_eq_ok_iff ho).2 ⟨?_, ?_, fun i a ha => ?_⟩, ?_⟩
    · rwa [List.length_map]
    · rwa [List.length_map]
    · rw [List.getElem?_map, Option.map_eq_some_iff] at ha
      obtain ⟨m, hm, rfl⟩ := ha
      exact (hat i m hm).1
    · rw [List.forall₂_map_left_iff, List.forall₂_same]
      intro m hm
      obtain ⟨i, hi⟩ := List.mem_iff_getElem?.1 hm
      exact (hat i m hi).2

/-- The minipools of a bulk read, each by its address. -/
theorem observed?_of_mem (ho : o.Watches chain) {ms : List Minipool}
    (h : (sel.read o r s).value = .ok ms) {m : Minipool} (hm : m ∈ ms) :
    observed? (chain r.block) o.probe r m.address = some m := by
  obtain ⟨i, hi⟩ := List.mem_iff_getElem?.1 hm
  exact (((read_eq_ok_iff ho).1 h).2.2 i m hi).2

/-- **Many minipools and one.** A bulk read that ends well has as many minipools as the register
counts, each at the index of its address, and each equal to what is read of its address alone. So a
minipool is the same in every other bulk read that it is part of. The other reads may put other
numbers of items into an aggregate, and may ask another client. -/
theorem read_agrees_with_one (ho : o.Watches chain) (ho' : o'.Watches chain)
    (hprobe : o'.probe = o.probe) {ms : List Minipool} (h : (sel.read o r s).value = .ok ms) :
    (∃ n, sel.count? (chain r.block) r = some n ∧ ms.length = n.toNat) ∧
      (∀ i m, ms[i]? = some m → sel.address? (chain r.block) r i = some m.address ∧
        ∀ s', (one o' r m.address s').value = .ok m) ∧
      ∀ sel' : Selection, ∀ s' ms', (sel'.read o' r s').value = .ok ms' →
        ∀ m ∈ ms, ∀ m' ∈ ms', m'.address = m.address → m' = m := by
  obtain ⟨-, hcount, hat⟩ := (read_eq_ok_iff ho).1 h
  refine ⟨hcount, fun i m hm => ?_, fun sel' s' ms' h' m hm m' hm' haddress => ?_⟩
  · obtain ⟨hindex, hobserved⟩ := hat i m hm
    rw [← hprobe] at hobserved
    exact ⟨hindex, fun s' => (one_eq_ok_iff ho').2 hobserved⟩
  · have hobserved := observed?_of_mem ho h hm
    have hobserved' := observed?_of_mem ho' h' hm'
    rw [hprobe, haddress, hobserved] at hobserved'
    exact (Option.some.inj hobserved').symm

end Selection

end Minipool

/-! ## A chain with two minipools -/

namespace Chain

open Contract

/-- A chain with two minipools, at the addresses 0 and 1. Their versions are 1 and 3, each holds 1,
and their refunds are 1 and 2. -/
def twoMinipools : Chain := fun _ c =>
  let data :=
    if c.Names MinipoolManager.getMinipoolCount then Abi.word 2
    else if c.Names MinipoolManager.getMinipoolAt then Abi.word (Bytes.toNat (c.data.drop 4))
    else if c.Names Versioned.version then Abi.word (1 + 2 * c.target.bits.toNat)
    else if c.Names Delegate.getNodeRefundBalance then Abi.word (1 + c.target.bits.toNat)
    else if c.Names MinipoolManager.getMinipoolPubkey ∨
        c.Names MinipoolManager.getMinipoolWithdrawalCredentials then Abi.word 32 ++ Abi.word 0
    else Abi.word 1
  ⟨true, data⟩

namespace twoMinipools

/-- The contracts of the chain. -/
def registry : Registry where
  blockNumber := 7
  storage := ⟨8⟩
  hub := ⟨9⟩
  protocol := ⟨1, 2, 0⟩
  deployments := .ofFn fun _ => { address := ⟨10⟩ }

/-- An observer of the chain with the given sizes of batches. -/
def observer (sizes : BatchSizes) : Observer Unit :=
  ⟨{ batchSizes := sizes }, .ofChain twoMinipools ⟨9⟩ 1, ⟨1⟩⟩

theorem watches {sizes : BatchSizes} (h : ∀ size ∈ sizes.toList, 1 ≤ size) :
    (observer sizes).Watches twoMinipools where
  answers := client_answersFor _ _
  bounded := bounded_of_short fun block c => by
    have hempty : (Abi.word 32 ++ Abi.word 0).length ≤ 64 := by decide
    simp only [twoMinipools]
    repeat' split
    all_goals first | exact Abi.length_word_le _ | exact hempty
  sizes := h

end twoMinipools

end Chain

namespace Minipool.Selection

open Chain.twoMinipools

/-- Both minipools in one aggregate, and each of them alone. -/
theorem read_twoMinipools :
    ∃ ms, (all.read (observer {}) registry ()).value = .ok ms ∧
      ms.map version = [1, 3] ∧
        ∀ m ∈ ms, (one (observer ⟨1, 1, 1, 1, 1, 1, 1, 1⟩) registry m.address ()).value = .ok m := by
  have ho : (observer {}).Watches .twoMinipools := watches (by decide)
  have ho' : (observer ⟨1, 1, 1, 1, 1, 1, 1, 1⟩).Watches .twoMinipools := watches (by decide)
  let observe (a : Address) : Option Minipool :=
    observed? (Chain.twoMinipools registry.block) (observer {}).probe registry a
  obtain ⟨m, hm, hfirst⟩ := Option.map_eq_some_iff.1
    (show (observe ⟨0⟩).map (fun m => (m.address, m.version)) = some (⟨0⟩, 1) by decide +kernel)
  obtain ⟨m', hm', hsecond⟩ := Option.map_eq_some_iff.1
    (show (observe ⟨1⟩).map (fun m => (m.address, m.version)) = some (⟨1⟩, 3) by decide +kernel)
  obtain ⟨haddress, hversion⟩ := Prod.mk.inj hfirst
  obtain ⟨haddress', hversion'⟩ := Prod.mk.inj hsecond
  have hread : (all.read (observer {}) registry ()).value = .ok [m, m'] := by
    refine (read_eq_ok_iff ho).2 ⟨show 2 ≤ maxItemCount by decide, ⟨2, by decide +kernel, rfl⟩, fun i x hx => ?_⟩
    match i with
    | 0 =>
      cases hx
      rw [haddress]
      exact ⟨by decide +kernel, hm⟩
    | 1 =>
      cases hx
      rw [haddress']
      exact ⟨by decide +kernel, hm'⟩
    | _ + 2 => cases hx
  have hagrees := (read_agrees_with_one ho ho' rfl hread).2.1
  refine ⟨[m, m'], hread, by simp [hversion, hversion'], fun x hx => ?_⟩
  obtain ⟨i, hi⟩ := List.mem_iff_getElem?.1 hx
  exact (hagrees i x hi).2 ()

end Minipool.Selection

end StakingSnapshot
