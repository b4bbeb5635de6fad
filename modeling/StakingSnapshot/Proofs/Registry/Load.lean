import StakingSnapshot.Proofs.Snapshot.AllOrNothing
import StakingSnapshot.Proofs.Version.Resolution

/-!
# What a registry holds

One aggregate asks for all contracts, two calls for each of them. The answers fill the entries from
the first to the last. An entry is looked up at the place where its contract is declared, and since
contracts are asked for in this order, each name gets the answers to its own two calls. The release
of the network follows from two of the contracts that were found.

* `Deployment.Told`: what is known about a contract is what the storage contract tells about it.
* `ContractName.zipIdx_all`, `Deployments.entries_eq_map`: names and entries have the same places.
* `Deployments.applied_calls_iff`: what the calls for all contracts come to.
* `Registry.load_eq_ok_iff`: what a load comes to; `Registry.getElem?_toList`: the contracts of a
  registry in order.
* `Registry.load_correct`: the loads of every observer that can be made.
-/

namespace StakingSnapshot

open Contract

/-- What is known about a contract is what the storage contract tells about it. -/
structure Deployment.Told (answer : SubCall → CallResult) (storage : Address) (n : ContractName)
    (d : Deployment) : Prop where
  address : told answer Storage.getAddress storage (StorageKey.contractAddress n.key) =
    some d.address
  abi : told answer Storage.getString storage (StorageKey.contractAbi n.key) = some d.abi

/-- Only one thing is told. -/
theorem Deployment.Told.eq {answer : SubCall → CallResult} {storage : Address} {n : ContractName}
    {d d' : Deployment} (h : d.Told answer storage n) (h' : d'.Told answer storage n) : d = d' := by
  obtain ⟨address, abi⟩ := d
  obtain rfl := Option.some.inj (h.address.symm.trans h'.address)
  obtain rfl := Option.some.inj (h.abi.symm.trans h'.abi)
  rfl

/-! ## Entries and their places -/

namespace ContractName

theorem nodup_all : all.Nodup := by decide

/-- Two contracts do not share a place. -/
theorem ctorIdx_inj {n m : ContractName} (h : n.ctorIdx = m.ctorIdx) : n = m := by
  have hplace := getElem?_all n
  rw [h, getElem?_all] at hplace
  exact (Option.some.inj hplace).symm

/-- The contract at a place is declared there. -/
theorem ctorIdx_getElem_all {i : Nat} (h : i < all.length) : all[i].ctorIdx = i := by
  have hplace : all[all[i].ctorIdx]? = all[i]? :=
    (getElem?_all all[i]).trans (List.getElem?_eq_getElem h).symm
  exact (List.getElem?_inj (ctorIdx_lt _) nodup_all).1 hplace

/-- A contract that is met at a place is declared there. -/
theorem zipIdx_all : all.zipIdx = all.map fun n => (n, n.ctorIdx) := by
  refine List.ext_getElem (by simp) fun i h _ => ?_
  simp [ctorIdx_getElem_all]

end ContractName

namespace Deployments

variable {n m : ContractName} {d d' : Deployments}

theorem entries_eq_map (d : Deployments) : d.entries = ContractName.all.map d := by
  refine List.ext_getElem (by rw [d.length_entries, List.length_map]) fun i _ h => ?_
  rw [List.length_map] at h
  simp [get, ContractName.ctorIdx_getElem_all h]

/-- Entries are the same if all contracts have the same ones. -/
@[ext]
theorem ext (h : ∀ n, d n = d' n) : d = d' := by
  have hentries : d.entries = d'.entries := by
    rw [entries_eq_map, entries_eq_map, funext h]
  cases d
  cases d'
  cases hentries
  rfl

theorem get_ofFn (f : ContractName → Deployment) (n : ContractName) : ofFn f n = f n := by
  have hplace := ContractName.getElem?_all n
  simp [get, ofFn, (List.getElem?_eq_some_iff.1 hplace).2]

theorem modify_self (n : ContractName) (f : Deployment → Deployment) (d : Deployments) :
    modify n.ctorIdx f d n = f (d n) := by
  simp [get, modify]

theorem modify_of_ne (h : n ≠ m) (f : Deployment → Deployment) (d : Deployments) :
    modify m.ctorIdx f d n = d n := by
  have hplace : m.ctorIdx ≠ n.ctorIdx := fun heq => h (ContractName.ctorIdx_inj heq.symm)
  simp [get, modify, hplace]

end Deployments

/-! ## One aggregate for all contracts -/

namespace Deployments

variable {answer : SubCall → CallResult} {storage : Address} {n m : ContractName}
  {names : List ContractName} {d : Deployments}

/-- Each contract has the entry at its own place. -/
theorem calls_eq (storage : Address) :
    calls storage = ContractName.all.flatMap fun n => callsFor storage n n.ctorIdx := by
  rw [calls, ContractName.zipIdx_all, List.flatMap_map]

/-- The two calls for a contract fill its entry. -/
theorem told_callsFor
    (hall : ∀ c ∈ callsFor storage n n.ctorIdx, c.Passes true (answer c.sub)) :
    (applied answer (callsFor storage n n.ctorIdx) d n).Told answer storage n := by
  simp only [callsFor, List.forall_mem_cons, Call.passes_typed_iff] at hall
  obtain ⟨⟨_, haddress⟩, ⟨_, habi⟩, -⟩ := hall
  simp only [callsFor, applied_typed_cons haddress, applied_typed_cons habi, applied_nil,
    modify_self]
  exact ⟨haddress, habi⟩

/-- They do not touch the entry of another contract. -/
theorem keeps_callsFor (h : n ≠ m) {P : Deployment → Prop} :
    ∀ c ∈ callsFor storage m m.ctorIdx, c.Keeps fun d : Deployments => P (d n) := by
  simp only [callsFor, List.forall_mem_cons, List.not_mem_nil, false_imp_iff, implies_true,
    and_true]
  and_intros
  all_goals
    refine Call.keeps_typed fun v d hd => ?_
    rwa [modify_of_ne h]

/-- **Contract after contract.** Each gets the answers to its own calls. -/
theorem told_flatMap (hnodup : names.Nodup)
    (hall : ∀ c ∈ names.flatMap fun n => callsFor storage n n.ctorIdx,
      c.Passes true (answer c.sub))
    (hn : n ∈ names) :
    (applied answer (names.flatMap fun n => callsFor storage n n.ctorIdx) d n).Told
      answer storage n := by
  induction names generalizing d with
  | nil => cases hn
  | cons m names ih =>
    obtain ⟨hm, hnodup⟩ := List.nodup_cons.1 hnodup
    rw [List.flatMap_cons] at hall ⊢
    obtain ⟨hfirst, hrest⟩ := List.forall_mem_append.1 hall
    rw [applied_append]
    rcases List.mem_cons.1 hn with rfl | hn
    · -- The contracts behind it have other names, and so other places.
      refine applied_of_keeps (P := fun d : Deployments => (d n).Told answer storage n) answer
        (fun c hc => ?_) (told_callsFor hfirst)
      obtain ⟨m, hmem, hc⟩ := List.mem_flatMap.1 hc
      have hne : n ≠ m := fun heq => hm (heq ▸ hmem)
      exact keeps_callsFor hne c hc
    · exact ih hnodup hrest hn

/-- **All contracts.** -/
theorem applied_calls_iff :
    ((∀ c ∈ calls storage, c.Passes true (answer c.sub)) ∧
        d = applied answer (calls storage) empty) ↔
      ∀ n, (d n).Told answer storage n := by
  have hfilled : (∀ c ∈ calls storage, c.Passes true (answer c.sub)) →
      ∀ n, (applied answer (calls storage) empty n).Told answer storage n := by
    rw [calls_eq]
    exact fun hall n => told_flatMap ContractName.nodup_all hall (ContractName.mem_all n)
  constructor
  · rintro ⟨hall, rfl⟩
    exact hfilled hall
  · intro h
    have hall : ∀ c ∈ calls storage, c.Passes true (answer c.sub) := by
      intro c hc
      obtain ⟨⟨n, i⟩, -, hc⟩ := List.mem_flatMap.1 hc
      rcases List.mem_pair.1 hc with rfl | rfl
      · exact Call.passes_typed_iff.2 ⟨_, (h n).address⟩
      · exact Call.passes_typed_iff.2 ⟨_, (h n).abi⟩
    exact ⟨hall, ext fun n => (h n).eq (hfilled hall n)⟩

/-- The calls for all contracts are few and short. -/
theorem sized_calls {chain : Chain} (hbounded : chain.Bounded) {block : BlockRef} :
    Sized (chain block) ((calls storage).map Call.sub) := by
  refine hbounded.sized ?_ fun c hc => ?_
  · have hlength : (calls storage).length = 44 := rfl
    rw [hlength]
    decide
  · obtain ⟨⟨n, i⟩, -, hc⟩ := List.mem_flatMap.1 hc
    rcases List.mem_pair.1 hc with rfl | rfl
    · exact Call.length_data_typed_le
    · exact Call.length_data_typed_le

end Deployments

/-! ## The whole load -/

namespace Registry

variable {σ : Type} {o : Observer σ} {chain : Chain} {block? : Option BlockNumber} {r : Registry}
  {s : σ}

/-- **What a load comes to.** -/
theorem load_eq_ok_iff (ho : o.Watches chain) :
    (load o block? s).value = .ok r ↔
      (chooseBlock o block? s).value = .ok r.blockNumber ∧
        o.config.storageAddress = .ok r.storage ∧ r.hub = o.scheduler.hub ∧
          (∀ n, (r.deployments n).Told (chain r.block) r.storage n) ∧
            ∃ staking manager,
              o.probe.found (chain r.block) (r.address .nodeStaking) = some staking ∧
              o.probe.found (chain r.block) (r.address .nodeManager) = some manager ∧
              r.protocol = .detect staking manager := by
  simp only [load, loadAt, Read.bind_value_eq_ok_iff, Read.context_value_eq_ok_iff,
    Read.pure_value_eq_ok_iff,
    Scheduler.query_eq_ok_iff ho.answers (Deployments.sized_calls ho.bounded),
    Deployments.applied_calls_iff,
    VersionProbe.resolveAll_eq_ok_iff ho.answers ho.bounded ho.positive.versions
      (Snapshot.length_pair_le _ _)]
  constructor
  · rintro ⟨number, hnumber, storage, hstorage, deployments, htold, versions, hversions, rfl⟩
    cases hversions with
    | cons hstaking hrest =>
      cases hrest with
      | cons hmanager hnil =>
        cases hnil
        exact ⟨hnumber, hstorage, rfl, htold, _, _, hstaking, hmanager, rfl⟩
  · rintro ⟨hnumber, hstorage, hhub, htold, staking, manager, hstaking, hmanager, hprotocol⟩
    refine ⟨_, hnumber, _, hstorage, _, htold, [staking, manager],
      .cons hstaking (.cons hmanager .nil), ?_⟩
    obtain ⟨number, storage, hub, protocol, deployments⟩ := r
    obtain rfl : hub = o.scheduler.hub := hhub
    obtain rfl : protocol = .detect staking manager := hprotocol
    rfl

/-- Each contract stands beside its own entry. -/
theorem toList_eq (r : Registry) :
    r.toList = ContractName.all.map fun n => (n, r.deployments n) := by
  calc r.toList
      = (ContractName.all.map id).zip (ContractName.all.map r.deployments) := by
        rw [toList, Deployments.entries_eq_map, List.map_id]
    _ = ContractName.all.map fun n => (n, r.deployments n) := List.zip_map'

/-- Each contract has the place in the list at which it is declared. -/
theorem getElem?_toList (r : Registry) (n : ContractName) :
    r.toList[n.ctorIdx]? = some (n, r.deployments n) := by
  rw [toList_eq, List.getElem?_map, ContractName.getElem?_all, Option.map_some]

theorem map_fst_toList (r : Registry) : r.toList.map Prod.fst = ContractName.all := by
  rw [toList_eq, List.map_map]
  exact List.map_id _

/-- A load fails if the storage contract does not tell the address or the interface of a contract,
whatever else it tells. -/
theorem load_of_not_told (ho : o.Watches chain) {n : ContractName}
    (h : ∀ number storage, (chooseBlock o block? s).value = .ok number →
      o.config.storageAddress = .ok storage →
        told (chain (.pinned number)) Storage.getAddress storage
            (StorageKey.contractAddress n.key) = none ∨
          told (chain (.pinned number)) Storage.getString storage
            (StorageKey.contractAbi n.key) = none) :
    ∃ e, (load o block? s).value = .error e := by
  cases hload : (load o block? s).value with
  | error e => exact ⟨e, rfl⟩
  | ok r =>
    obtain ⟨hnumber, hstorage, -, htold, -⟩ := (load_eq_ok_iff ho).1 hload
    rcases h _ _ hnumber hstorage with hnone | hnone
    · exact absurd (hnone.symm.trans (htold n).address) nofun
    · exact absurd (hnone.symm.trans (htold n).abi) nofun

end Registry

/-- What an observer that could be made is made of. -/
theorem Observer.eq_of_make? {σ : Type} {config : Config} {client : Client σ} {o : Observer σ}
    (h : make? config client = .ok o) :
    o = ⟨config, ⟨client, config.hub, config.concurrency⟩, ⟨config.fallbackVersion⟩⟩ :=
  (make?_eq_ok_iff.1 h).2

namespace Registry

variable {σ : Type}

/-- **Loads are correct.** For every configuration with which an observer can be made, and every
client that answers for a chain: a registry that is loaded holds for each contract the address and
the interface that the storage contract tells for this contract's name, at the place where the
contract is declared. Its hub and its storage contract are the configured ones, and its release is
that of the versions found at the loaded addresses of the stakes and of the nodes, in this order,
where a contract that does not answer has the configured version. If the address or the interface of
one contract is not told, the load fails, whatever is told of the others. -/
theorem load_correct {config : Config} {client : Client σ} {o : Observer σ}
    (hmade : Observer.make? config client = .ok o) {chain : Chain}
    (hchain : client.AnswersFor config.hub chain) (hbounded : chain.Bounded)
    (block? : Option BlockNumber) (s : σ) :
    (∀ r, (load o block? s).value = .ok r →
      (∀ n, told (chain r.block) Storage.getAddress r.storage (StorageKey.contractAddress n.key) =
          some (r.address n) ∧
        told (chain r.block) Storage.getString r.storage (StorageKey.contractAbi n.key) =
          some (r.deployments n).abi) ∧
      (r.toList.map Prod.fst = ContractName.all ∧
        ∀ n, r.toList[n.ctorIdx]? = some (n, r.deployments n)) ∧
      r.hub = config.hub ∧ config.storage = some r.storage ∧
      (chooseBlock o block? s).value = .ok r.blockNumber ∧
      ∃ staking manager,
        VersionProbe.found ⟨config.fallbackVersion⟩ (chain r.block) (r.address .nodeStaking) =
          some staking ∧
        VersionProbe.found ⟨config.fallbackVersion⟩ (chain r.block) (r.address .nodeManager) =
          some manager ∧
        r.protocol = .detect staking manager) ∧
    ∀ (n : ContractName) number storage, (chooseBlock o block? s).value = .ok number →
      config.storage = some storage →
        (told (chain (.pinned number)) Storage.getAddress storage
            (StorageKey.contractAddress n.key) = none ∨
          told (chain (.pinned number)) Storage.getString storage
            (StorageKey.contractAbi n.key) = none) →
        ∃ e, (load o block? s).value = .error e := by
  obtain ⟨-, hroom⟩ := Observer.of_make? hmade
  obtain rfl := Observer.eq_of_make? hmade
  have ho : Observer.Watches
      ⟨config, ⟨client, config.hub, config.concurrency⟩, ⟨config.fallbackVersion⟩⟩ chain :=
    ⟨hchain, hbounded, hroom⟩
  have hstorage : ∀ a, config.storageAddress = .ok a ↔ config.storage = some a := fun a => by
    unfold Config.storageAddress
    cases config.storage <;> simp
  refine ⟨fun r hload => ?_, fun n number storage hnumber hconfigured hnone => ?_⟩
  · obtain ⟨hnumber, hconfigured, hhub, htold, hversions⟩ := (load_eq_ok_iff ho).1 hload
    exact ⟨fun n => ⟨(htold n).address, (htold n).abi⟩, ⟨map_fst_toList r, getElem?_toList r⟩,
      hhub, (hstorage _).1 hconfigured, hnumber, hversions⟩
  · refine load_of_not_told (n := n) ho fun number' storage' hnumber' hconfigured' => ?_
    obtain rfl := Except.ok.inj (hnumber.symm.trans hnumber')
    obtain rfl := Option.some.inj (hconfigured.symm.trans ((hstorage _).1 hconfigured'))
    exact hnone

end Registry

/-! ## A chain whose addresses are cut from keys -/

namespace Chain

/-- A chain on which the address of a contract is the end of its key, no contract has an interface
and none tells its version. -/
def keyed : Chain := fun _ c =>
  if c.Names Storage.getAddress then
    ⟨true, Abi.word (Bytes.toNat (c.data.drop 4) % Address.count)⟩
  else ⟨c.Names Storage.getString, Abi.word 32 ++ Abi.word 0⟩

namespace keyed

variable {block : BlockRef} {storage : Address} {key : Abi.Key}

theorem bounded : keyed.Bounded := bounded_of_short fun block c => by
  have hempty : (Abi.word 32 ++ Abi.word 0).length ≤ 64 := by decide
  simp only [keyed]
  split
  · exact Abi.length_word_le _
  · exact hempty

theorem told_getAddress : told (keyed block) Storage.getAddress storage key =
    some ⟨BitVec.ofNat 160 (key.bits.toNat % Address.count)⟩ := by
  have hkey : Bytes.toNat (Abi.word key.bits.toNat) = key.bits.toNat :=
    Abi.toNat_word (Nat.le_of_lt_succ key.bits.isLt)
  have hcut : (Storage.getAddress.callData key).drop 4 = Abi.word key.bits.toNat :=
    List.drop_left' (Bytes.length_ofNat 4 _)
  have hlt : key.bits.toNat % Address.count < Address.count := Nat.mod_lt _ (by decide)
  have hword : key.bits.toNat % Address.count ≤ Word.maxNat :=
    Nat.le_trans (Nat.mod_le _ _) (Nat.le_of_lt_succ key.bits.isLt)
  have hanswer : keyed block ⟨storage, Storage.getAddress.callData key⟩ =
      ⟨true, Abi.word (key.bits.toNat % Address.count)⟩ := by
    rw [keyed, if_pos (SubCall.names_callData Storage.getAddress storage key), hcut, hkey]
  refine told_eq_some_iff.2 ⟨by rw [hanswer], ?_⟩
  rw [hanswer]
  exact ((Abi.Reader.reads_below hword hlt).map _).exactly

theorem told_getString : told (keyed block) Storage.getString storage key = some "" := by
  have hnames : SubCall.Names ⟨storage, Storage.getString.callData key⟩ Storage.getString :=
    SubCall.names_callData Storage.getString storage key
  have hother : ¬ SubCall.Names ⟨storage, Storage.getString.callData key⟩ Storage.getAddress :=
    fun h => absurd (hnames.selector_eq h) (by decide)
  have hanswer : keyed block ⟨storage, Storage.getString.callData key⟩ =
      ⟨true, Abi.word 32 ++ Abi.word 0⟩ := by
    rw [keyed, if_neg hother, decide_eq_true hnames]
  refine told_eq_some_iff.2 ⟨by rw [hanswer], ?_⟩
  rw [hanswer]
  decide +kernel

theorem found {p : VersionProbe} {a : Address} : p.found (keyed block) a = some p.fallback := by
  have hnames : (VersionProbe.call a).sub.Names Versioned.version := Call.names_typed_iff.2 rfl
  have haddress : ¬ (VersionProbe.call a).sub.Names Storage.getAddress :=
    fun h => absurd (hnames.selector_eq h) (by decide)
  have hstring : ¬ (VersionProbe.call a).sub.Names Storage.getString :=
    fun h => absurd (hnames.selector_eq h) (by decide)
  have hanswer : (keyed block (VersionProbe.call a).sub).success = false := by
    rw [keyed, if_neg haddress, decide_eq_false hstring]
  rw [VersionProbe.found, hanswer]
  rfl

end keyed

end Chain

namespace Registry

/-- The address of one of the contracts, and the first release, since no version is told. -/
theorem load_correct_keyed :
    ∃ o r, Observer.make? { storage := some ⟨8⟩ } (Chain.keyed.client ({} : Config).hub) = .ok o ∧
      (load o (some 5) ()).value = .ok r ∧
      r.address .tokenRETH = ⟨BitVec.ofNat 160
        ((StorageKey.contractAddress "rocketTokenRETH").bits.toNat % Address.count)⟩ ∧
      r.toList[17]? = some (.tokenRETH, r.deployments .tokenRETH) ∧ r.protocol = ⟨1, 0, 0⟩ := by
  obtain ⟨o, ho⟩ : ∃ o, Observer.make? { storage := some ⟨8⟩ }
    (Chain.keyed.client ({} : Config).hub) = .ok o := ⟨_, rfl⟩
  have hchain := Chain.client_answersFor .keyed ({} : Config).hub
  have hwatches : o.Watches .keyed := by
    obtain rfl := Observer.eq_of_make? ho
    exact ⟨hchain, Chain.keyed.bounded, (Observer.of_make? ho).2⟩
  obtain ⟨r, hr⟩ : ∃ r, (load o (some 5) ()).value = .ok r := by
    obtain rfl := Observer.eq_of_make? ho
    let cut (n : ContractName) : Deployment :=
      ⟨⟨BitVec.ofNat 160 ((StorageKey.contractAddress n.key).bits.toNat % Address.count)⟩, ""⟩
    have htold (n : ContractName) :
        (Deployments.ofFn cut n).Told (Chain.keyed (.pinned 5)) ⟨8⟩ n := by
      rw [Deployments.get_ofFn]
      exact ⟨Chain.keyed.told_getAddress, Chain.keyed.told_getString⟩
    exact ⟨⟨5, ⟨8⟩, _, _, .ofFn cut⟩, (load_eq_ok_iff hwatches).2 ⟨rfl, rfl, rfl,
      htold, 1, 1, Chain.keyed.found, Chain.keyed.found, rfl⟩⟩
  obtain ⟨⟨htold, ⟨-, hat⟩, -, hstorage, -, staking, manager, hstaking, hmanager, hprotocol⟩, -⟩ :=
    And.imp_left (fun h => h r hr) (load_correct ho hchain Chain.keyed.bounded (some 5) ())
  refine ⟨o, r, ho, hr, ?_, hat .tokenRETH, ?_⟩
  · have hkey : ContractName.tokenRETH.key = "rocketTokenRETH" := by decide
    rw [← hkey]
    exact (Option.some.inj (Chain.keyed.told_getAddress.symm.trans (htold .tokenRETH).1)).symm
  · have hnone : ∀ a, VersionProbe.found ⟨1⟩ (Chain.keyed r.block) a = some 1 := fun a =>
      Chain.keyed.found
    obtain rfl := Option.some.inj ((hnone _).symm.trans hstaking)
    obtain rfl := Option.some.inj ((hnone _).symm.trans hmanager)
    exact hprotocol

end Registry

end StakingSnapshot
