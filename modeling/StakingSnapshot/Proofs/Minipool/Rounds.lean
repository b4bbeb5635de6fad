import StakingSnapshot.Minipool.Snapshot
import StakingSnapshot.Proofs.Version.Resolution

/-!
# What the rounds make of a minipool

Each round treats a minipool by itself, so that what is read of an address does not depend on the
addresses beside it.

* `Minipool.detailsPlan_eq_ok_iff`, `Minipool.sharesPlan_eq_ok_iff`: what the rounds register.
* `Minipool.observed?`: what the rounds make of one address.
* `Minipool.ofAddresses_eq_ok_iff`: many addresses, in batches of any size; `Minipool.one_eq_ok_iff`:
  one address.
-/

namespace StakingSnapshot

namespace Minipool

open Contract

variable {r : Registry} {a : Address} {m : Minipool}

/-! ## The two plans -/

/-- What is registered for the details of a minipool, by its binding. -/
theorem detailsPlan_eq_ok_iff {i : Nat} {m' : Minipool} {calls : List (Call Minipool)} :
    detailsPlan r i m = .ok (m', calls) ↔
      (m.binding = .ok .legacy ∧ m' = m.withoutAtlas ∧
        calls = registerCalls r m.address ++ delegateCalls m.address ++
          penaltyCalls r m.address) ∨
      (m.binding = .ok .atlas ∧ m' = m ∧
        calls = registerCalls r m.address ++ delegateCalls m.address ++
          (atlasCalls r m.address ++ penaltyCalls r m.address)) := by
  unfold detailsPlan
  cases hb : m.binding with
  | error e => simp [bind, Except.bind]
  | ok binding =>
    cases binding with
    | legacy => simp [bind, Except.bind, pure, Except.pure, eq_comm]
    | atlas => simp [bind, Except.bind, pure, Except.pure, eq_comm]

/-- What is registered for the shares of a minipool: nothing if there is less than the refund. -/
theorem sharesPlan_eq_ok_iff {i : Nat} {m' : Minipool} {calls : List (Call Minipool)} :
    sharesPlan i m = .ok (m', calls) ↔
      (∃ binding, m.binding = .ok binding) ∧
        ((∃ amount, m.distributable? = some amount ∧ m' = { m with distributable := amount } ∧
            calls = m.shareCalls amount (fun v m => { m with nodeShare := v })
              fun v m => { m with userShare := v }) ∨
          (m.distributable? = none ∧
            m' = { m with distributable := 0, nodeShare := 0, userShare := 0 } ∧ calls = [])) := by
  unfold sharesPlan
  cases hb : m.binding with
  | error e => simp [bind, Except.bind]
  | ok binding =>
    cases hd : m.distributable? with
    | none => simp [bind, Except.bind, pure, Except.pure, eq_comm]
    | some amount => simp [bind, Except.bind, pure, Except.pure, eq_comm]

theorem small_detailsPlan : (detailsPlan r).Small := by
  intro i m m' calls hplan
  rcases detailsPlan_eq_ok_iff.1 hplan with ⟨-, -, rfl⟩ | ⟨-, -, rfl⟩
  · constructor
    · simp [registerCalls, delegateCalls, penaltyCalls]
    · simp [registerCalls, delegateCalls, penaltyCalls, Call.length_data_typed_le]
  · constructor
    · simp [registerCalls, delegateCalls, atlasCalls, penaltyCalls]
    · simp [registerCalls, delegateCalls, atlasCalls, penaltyCalls, Call.length_data_typed_le]

/-- What is registered for details is registered for one of the minipools. -/
theorem mem_registered_details {i : Nat} {xs : List Minipool} {call : Call Minipool}
    (h : call ∈ (detailsPlan r).registered i xs) :
    ∃ x ∈ xs, call ∈ registerCalls r x.address ++ delegateCalls x.address ++
      (atlasCalls r x.address ++ penaltyCalls r x.address) := by
  obtain ⟨k, x, x', calls, hx, hplan, hcall⟩ := Plan.mem_registered h
  refine ⟨x, List.mem_of_getElem? hx, ?_⟩
  rcases detailsPlan_eq_ok_iff.1 hplan with ⟨-, -, rfl⟩ | ⟨-, -, rfl⟩
  · exact List.mem_append.2 ((List.mem_append.1 hcall).imp_right (List.mem_append_right _))
  · exact hcall

/-- What is registered for shares is registered for a minipool that has something to share. -/
theorem mem_registered_shares {i : Nat} {xs : List Minipool} {call : Call Minipool}
    (h : call ∈ sharesPlan.registered i xs) :
    ∃ x ∈ xs, call.target = x.address ∧ ∃ amount, x.distributable? = some amount := by
  obtain ⟨k, x, x', calls, hx, hplan, hcall⟩ := Plan.mem_registered h
  obtain ⟨-, ⟨amount, hamount, -, rfl⟩ | ⟨-, -, rfl⟩⟩ := sharesPlan_eq_ok_iff.1 hplan
  · refine ⟨x, List.mem_of_getElem? hx, ?_, amount, hamount⟩
    rcases List.mem_cons.1 hcall with rfl | hcall
    · rfl
    · obtain rfl := List.mem_singleton.1 hcall
      rfl
  · cases hcall

theorem small_sharesPlan : sharesPlan.Small := by
  intro i m m' calls hplan
  obtain ⟨-, ⟨amount, -, -, rfl⟩ | ⟨-, -, rfl⟩⟩ := sharesPlan_eq_ok_iff.1 hplan
  · exact ⟨by simp [shareCalls], by simp [shareCalls, Call.length_data_typed_le]⟩
  · exact ⟨Nat.zero_le _, by simp⟩

/-! ## One address -/

/-- A minipool of which the address, the version and the balance are known. -/
def start (a : Address) (version : UInt8) (balance : Word) : Minipool :=
  { ofAddress a version with balance := balance }

/-- What the rounds make of an address: its version is found and its balance told, then come the
calls for its details, and with what these tell, the calls for its shares. -/
def observed? (answer : SubCall → CallResult) (p : VersionProbe) (r : Registry) (a : Address) :
    Option Minipool := do
  let version ← p.found answer a
  let balance ← told answer Hub.getEthBalance r.hub a
  let details ← (detailsPlan r).outcome? answer true 0 (start a version balance)
  sharesPlan.outcome? answer true 0 details.interpretCodes

variable {answer : SubCall → CallResult} {p : VersionProbe}

theorem observed?_eq_some_iff :
    observed? answer p r a = some m ↔
      ∃ version, p.found answer a = some version ∧
        ∃ balance, told answer Hub.getEthBalance r.hub a = some balance ∧
          ∃ x, (detailsPlan r).outcome? answer true 0 (start a version balance) = some x ∧
            sharesPlan.outcome? answer true 0 x.interpretCodes = some m := by
  simp only [observed?, Option.bind_eq_bind, Option.bind_eq_some_iff]

/-! ## Many addresses -/

theorem fresh_cons {as : List Address} {version : UInt8} {versions : List UInt8} {balance : Word}
    {balances : List Word} :
    fresh (a :: as) (version :: versions) (balance :: balances) =
      start a version balance :: fresh as versions balances := rfl

theorem length_fresh_le (as : List Address) (versions : List UInt8) (balances : List Word) :
    (fresh as versions balances).length ≤ as.length := by
  rw [fresh, List.length_map, List.length_zip, List.length_zip]
  omega

/-- Minipools that start out with found versions. -/
theorem found_of_mem_fresh {as : List Address} {versions : List UInt8}
    (h : List.Forall₂ (fun a v => p.found answer a = some v) as versions) {balances : List Word}
    {x : Minipool} (hx : x ∈ fresh as versions balances) :
    p.found answer x.address = some x.version := by
  induction h generalizing balances with
  | nil => cases hx
  | cons hversion _ ih =>
    cases balances with
    | nil => cases hx
    | cons balance balances =>
      rw [fresh_cons] at hx
      rcases List.mem_cons.1 hx with rfl | hx
      · exact hversion
      · exact ih hx

/-- Rounds over lists, each of them in the order of the addresses, are rounds over each address. -/
theorem forall₂_observed?_iff {as : List Address} {ms : List Minipool} :
    (∃ versions, List.Forall₂ (fun a v => p.found answer a = some v) as versions ∧
      ∃ balances, List.Forall₂ (fun a w => told answer Hub.getEthBalance r.hub a = some w)
          as balances ∧
        ∃ xs, List.Forall₂ (fun x y => (detailsPlan r).outcome? answer true 0 x = some y)
            (fresh as versions balances) xs ∧
          List.Forall₂ (fun x y => sharesPlan.outcome? answer true 0 x = some y)
            (xs.map interpretCodes) ms) ↔
      List.Forall₂ (fun a m => observed? answer p r a = some m) as ms := by
  simp only [observed?_eq_some_iff]
  constructor
  -- All lists have the shape of the list of versions, on which the induction is.
  · rintro ⟨versions, hversions, balances, hbalances, xs, hdetails, hshares⟩
    induction hversions generalizing balances xs ms with
    | nil =>
      cases hbalances
      cases hdetails
      cases hshares
      exact .nil
    | cons hversion _ ih =>
      cases hbalances with
      | cons hbalance hbalances =>
        rw [fresh_cons] at hdetails
        cases hdetails with
        | cons hx hdetails =>
          cases hshares with
          | cons hm hshares =>
            exact .cons ⟨_, hversion, _, hbalance, _, hx, hm⟩ (ih _ hbalances _ hdetails hshares)
  · intro h
    induction h with
    | nil => exact ⟨[], .nil, [], .nil, [], .nil, .nil⟩
    | cons hm _ ih =>
      obtain ⟨version, hversion, balance, hbalance, x, hx, hm⟩ := hm
      obtain ⟨versions, hversions, balances, hbalances, xs, hdetails, hshares⟩ := ih
      exact ⟨version :: versions, .cons hversion hversions, balance :: balances,
        .cons hbalance hbalances, x :: xs, .cons hx hdetails, .cons hm hshares⟩

section Reads

variable {σ : Type} {o : Observer σ} {chain : Chain} {s : σ}

/-- The round for the details. -/
theorem detailsRound_eq_ok_iff (ho : o.Watches chain) {xs ys : List Minipool}
    (hlen : xs.length ≤ 2 * maxItemCount) :
    (o.scheduler.batchQuery r.block o.config.batchSizes.minipoolDetails (detailsPlan r) xs
        s).value = .ok ys ↔
      List.Forall₂ (fun x y => (detailsPlan r).outcome? (chain r.block) true 0 x = some y) xs ys :=
  ho.batchQuery_eq_ok_iff ho.positive.minipoolDetails small_detailsPlan
    (fun _ => rfl) hlen

/-- The round for the shares. -/
theorem sharesRound_eq_ok_iff (ho : o.Watches chain) {xs ys : List Minipool}
    (hlen : xs.length ≤ 2 * maxItemCount) :
    (o.scheduler.batchQuery r.block o.config.batchSizes.minipoolDetails sharesPlan xs
        s).value = .ok ys ↔
      List.Forall₂ (fun x y => sharesPlan.outcome? (chain r.block) true 0 x = some y) xs ys :=
  ho.batchQuery_eq_ok_iff ho.positive.minipoolDetails small_sharesPlan
    (fun _ => rfl) hlen

/-- The rounds after the versions are known. -/
theorem ofVersions_eq_ok_iff (ho : o.Watches chain) {as : List Address}
    (hlen : as.length ≤ 2 * maxItemCount) {versions : List UInt8} {ms : List Minipool} :
    (ofVersions o r as versions s).value = .ok ms ↔
      ∃ balances, List.Forall₂
          (fun a w => told (chain r.block) Hub.getEthBalance r.hub a = some w) as balances ∧
        ∃ xs, List.Forall₂ (fun x y => (detailsPlan r).outcome? (chain r.block) true 0 x = some y)
            (fresh as versions balances) xs ∧
          List.Forall₂ (fun x y => sharesPlan.outcome? (chain r.block) true 0 x = some y)
            (xs.map interpretCodes) ms := by
  simp only [ofVersions, Read.bind_value_eq_ok_iff, Read.context_value_eq_ok_iff,
    Snapshot.etherBalances_eq_ok_iff ho hlen]
  refine exists_congr fun balances => and_congr_right fun hbalances => exists_congr fun xs => ?_
  rw [detailsRound_eq_ok_iff ho (Nat.le_trans (length_fresh_le as versions balances) hlen)]
  refine and_congr_right fun hdetails => sharesRound_eq_ok_iff ho ?_
  rw [List.length_map, ← hdetails.length_eq]
  exact Nat.le_trans (length_fresh_le as versions balances) hlen

/-- What versions come to, if they are read. -/
theorem found_of_resolved (ho : o.Watches chain) {as : List Address}
    (hlen : as.length ≤ 2 * maxItemCount) {text : String} {versions : List UInt8}
    (h : ((o.probe.resolveAll o.scheduler r.block o.config.batchSizes.versions as).context text
      s).value = .ok versions) :
    List.Forall₂ (fun a v => o.probe.found (chain r.block) a = some v) as versions := by
  exact (VersionProbe.resolveAll_eq_ok_iff ho.answers ho.bounded ho.positive.versions hlen).1
    (Read.context_value_eq_ok_iff.1 h)

/-- **Many addresses.** Each becomes what the rounds make of it alone. -/
theorem ofAddresses_eq_ok_iff (ho : o.Watches chain) {as : List Address}
    (hlen : as.length ≤ 2 * maxItemCount) {ms : List Minipool} :
    (ofAddresses o r as s).value = .ok ms ↔
      List.Forall₂ (fun a m => observed? (chain r.block) o.probe r a = some m) as ms := by
  rw [ofAddresses, Read.bind_value_eq_ok_iff, ← forall₂_observed?_iff]
  refine exists_congr fun versions => ?_
  rw [Read.context_value_eq_ok_iff,
    VersionProbe.resolveAll_eq_ok_iff ho.answers ho.bounded ho.positive.versions hlen]
  exact and_congr_right fun _ => ofVersions_eq_ok_iff ho hlen

theorem length_singleton_le (a : Address) : [a].length ≤ 2 * maxItemCount := by
  rw [List.length_singleton]
  decide

/-- **One address.** -/
theorem one_eq_ok_iff (ho : o.Watches chain) :
    (one o r a s).value = .ok m ↔ observed? (chain r.block) o.probe r a = some m := by
  have hlen := length_singleton_le a
  simp only [one, Read.bind_value_eq_ok_iff, Read.context_value_eq_ok_iff,
    VersionProbe.resolve_eq_ok_iff ho.answers ho.bounded, Read.pure_value_eq_ok_iff]
  constructor
  · rintro ⟨version, hversion, ms, hms, hlast⟩
    have hrounds := forall₂_observed?_iff.1
      ⟨[version], .cons hversion .nil, (ofVersions_eq_ok_iff ho hlen).1 hms⟩
    exact (exists_forall₂_singleton_iff
      (R := fun a m => observed? (chain r.block) o.probe r a = some m)).1 ⟨ms, hrounds, hlast⟩
  · intro hm
    obtain ⟨version, hversion, balance, hbalance, x, hdetails, hshares⟩ :=
      observed?_eq_some_iff.1 hm
    refine ⟨version, hversion, [m], ?_, rfl⟩
    exact (ofVersions_eq_ok_iff ho hlen).2
      ⟨[balance], .cons hbalance .nil, [x], .cons hdetails .nil, .cons hshares .nil⟩

end Reads

end Minipool

end StakingSnapshot
