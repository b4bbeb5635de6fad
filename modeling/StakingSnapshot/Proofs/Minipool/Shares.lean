import StakingSnapshot.Proofs.Minipool.Bulk

/-!
# Whose shares are asked for

The shares of a minipool are asked for in a read that ends well only if the refund is not larger
than the balance.

* `SubCall.AsksShare`: a call for a share of a balance.
* `Minipool.shared_of_asked_one`, `Minipool.Selection.shared_of_asked_read`: such a call is sent to
  minipools only that have something to share.
* `Minipool.snapshot_recorded`: what one read and bulk reads record, and what they do not ask.
-/

namespace StakingSnapshot

open Contract

/-- The call asks for a share of a balance. -/
def SubCall.AsksShare (c : SubCall) : Prop :=
  c.Names Delegate.calculateNodeShare ∨ c.Names Delegate.calculateUserShare

namespace Minipool

/-- The method is for a share of a balance. -/
def SharesBalance {α : Type} {k : Abi.Kind} (m : Abi.Method α k) : Prop :=
  m.selector = Delegate.calculateNodeShare.selector ∨
    m.selector = Delegate.calculateUserShare.selector

instance {α : Type} {k : Abi.Kind} (m : Abi.Method α k) : Decidable (SharesBalance m) :=
  inferInstanceAs (Decidable (_ ∨ _))

/-- A call for another method does not ask for a share. -/
theorem not_asksShare {α : Type} {k : Abi.Kind} {m : Abi.Method α k} {c : SubCall}
    (h : c.Names m) (hm : ¬ SharesBalance m) : ¬ c.AsksShare := by
  rintro (hnode | huser)
  · exact hm (.inl (h.selector_eq hnode))
  · exact hm (.inr (h.selector_eq huser))

theorem asksShare_typed_iff {S α : Type} [Abi.Arguments α] {k : Abi.Kind} {m : Abi.Method α k}
    {target : Address} {args : α} {store : k.Value → S → S} :
    (Call.typed m target args store).sub.AsksShare ↔ SharesBalance m :=
  or_congr Call.names_typed_iff Call.names_typed_iff

/-- The calls for details do not ask for shares. -/
theorem not_asksShare_details (r : Registry) (a : Address) :
    ∀ call ∈ registerCalls r a ++ delegateCalls a ++ (atlasCalls r a ++ penaltyCalls r a),
      ¬ call.sub.AsksShare := by
  simp only [registerCalls, delegateCalls, atlasCalls, penaltyCalls, List.cons_append,
    List.nil_append, List.forall_mem_cons, asksShare_typed_iff, List.not_mem_nil, false_imp_iff,
    implies_true, and_true]
  decide

variable {σ : Type} {o : Observer σ} {chain : Chain} {r : Registry} {a : Address} {m : Minipool}
  {c : SubCall} {s : σ}

/-- **The round for the shares.** If it ends well, it asks only those minipools of which the refund
is not larger than the balance. -/
theorem shared_of_asked_sharesRound (ho : o.Watches chain) {xs ms : List Minipool}
    (hlen : xs.length ≤ 2 * maxItemCount)
    (h : (o.scheduler.batchQuery r.block o.config.batchSizes.minipoolDetails sharesPlan xs
      s).value = .ok ms)
    (hc : (o.scheduler.batchQuery r.block o.config.batchSizes.minipoolDetails sharesPlan xs
      s).Asked c) :
    ∃ m ∈ ms, m.address = c.target ∧ m.refund.toNat ≤ m.balance.toNat := by
  obtain ⟨call, hcall, rfl⟩ := List.mem_map.1 (Scheduler.registered_of_asked_batchQuery hc)
  obtain ⟨x, hx, htarget, amount, hamount⟩ := mem_registered_shares hcall
  have hshares := (sharesRound_eq_ok_iff ho hlen).1 h
  obtain ⟨i, hi, rfl⟩ := List.mem_iff_getElem.1 hx
  have hi' : i < ms.length := hshares.length_eq ▸ hi
  have hm : sharesPlan.outcome? (chain r.block) true 0 xs[i] = some ms[i] :=
    (List.forall₂_iff_get.1 hshares).2 i hi hi'
  refine ⟨ms[i], List.getElem_mem hi', ?_⟩
  obtain ⟨_, -, _, -, _, -, hm⟩ | ⟨hnone, -⟩ := sharesPlan_outcome hm
  · rw [hm]
    exact ⟨htarget.symm, (Word.toNat_of_sub? hamount).1⟩
  · rw [hnone] at hamount
    cases hamount

/-- **The rounds after the versions are known.** If they end well, shares are asked only of those
minipools of which the refund is not larger than the balance. -/
theorem shared_of_asked_ofVersions (ho : o.Watches chain) {as : List Address}
    (hlen : as.length ≤ 2 * maxItemCount) {versions : List UInt8} {ms : List Minipool}
    (h : (ofVersions o r as versions s).value = .ok ms)
    (hc : (ofVersions o r as versions s).Asked c) (hshare : c.AsksShare) :
    ∃ m ∈ ms, m.address = c.target ∧ m.refund.toNat ≤ m.balance.toNat := by
  obtain ⟨balances, -, h, hc | hc⟩ := Read.asked_bind_of_ok h hc
  · have hnames := Snapshot.names_of_asked_etherBalances (Read.asked_context_iff.1 hc)
    exact absurd hshare (not_asksShare hnames (by decide))
  obtain ⟨xs, hxs, h, hc | hc⟩ := Read.asked_bind_of_ok h hc
  · obtain ⟨call, hcall, rfl⟩ :=
      List.mem_map.1 (Scheduler.registered_of_asked_batchQuery (Read.asked_context_iff.1 hc))
    obtain ⟨x, -, hmem⟩ := mem_registered_details hcall
    exact absurd hshare (not_asksShare_details r x.address call hmem)
  · have hfresh := Nat.le_trans (length_fresh_le as versions balances) hlen
    have hdetails := (detailsRound_eq_ok_iff ho hfresh).1 (Read.context_value_eq_ok_iff.1 hxs)
    refine shared_of_asked_sharesRound ho ?_ (Read.context_value_eq_ok_iff.1 h)
      (Read.asked_context_iff.1 hc)
    rwa [List.length_map, ← hdetails.length_eq]

/-- One minipool. -/
theorem shared_of_asked_one (ho : o.Watches chain) (h : (one o r a s).value = .ok m)
    (hc : (one o r a s).Asked c) (hshare : c.AsksShare) : m.refund.toNat ≤ m.balance.toNat := by
  have hone := (one_eq_ok_iff ho).1 h
  obtain ⟨version, hversion, h, hc | hc⟩ := Read.asked_bind_of_ok h hc
  · have hnames := VersionProbe.names_of_asked_resolve (Read.asked_context_iff.1 hc)
    exact absurd hshare (not_asksShare hnames (by decide))
  obtain ⟨ms, hms, -, hc | hc⟩ := Read.asked_bind_of_ok h hc
  · have hlen := length_singleton_le a
    obtain ⟨m', hm', -, hle⟩ := shared_of_asked_ofVersions ho hlen hms hc hshare
    have hfound := (VersionProbe.resolve_eq_ok_iff ho.answers ho.bounded).1
      (Read.context_value_eq_ok_iff.1 hversion)
    have hrounds := forall₂_observed?_iff.1
      ⟨[version], .cons hfound .nil, (ofVersions_eq_ok_iff ho hlen).1 hms⟩
    cases hrounds with
    | cons hobserved hnil =>
      cases hnil
      obtain rfl := List.mem_singleton.1 hm'
      obtain rfl := Option.some.inj (hone.symm.trans hobserved)
      exact hle
  · exact absurd hc Read.not_asked_pure

/-- To know which minipools there are, no shares are asked. -/
theorem Selection.not_asksShare_of_asked_addresses {sel : Selection}
    (h : (sel.addresses o r s).Asked c) : ¬ c.AsksShare := by
  rcases names_of_asked_addresses h with (hnames | hnames) | hnames | hnames
  all_goals exact not_asksShare hnames (by decide)

/-- A bulk read. -/
theorem Selection.shared_of_asked_read (ho : o.Watches chain) {sel : Selection}
    {ms : List Minipool} (h : (sel.read o r s).value = .ok ms) (hc : (sel.read o r s).Asked c)
    (hshare : c.AsksShare) :
    ∃ m ∈ ms, m.address = c.target ∧ m.refund.toNat ≤ m.balance.toNat := by
  obtain ⟨entity, text, heq⟩ := read_eq (o := o) (r := r) sel
  rw [heq] at h hc
  rw [Snapshot.logged_value] at h
  rw [Snapshot.asked_logged_iff] at hc
  obtain ⟨as, has, h, hc | hc⟩ := Read.asked_bind_of_ok h hc
  · exact absurd hshare (not_asksShare_of_asked_addresses (Read.asked_context_iff.1 hc))
  obtain ⟨versions, hversions, h, hc | hc⟩ := Read.asked_bind_of_ok h hc
  · have hnames := VersionProbe.names_of_asked_resolveAll (Read.asked_context_iff.1 hc)
    exact absurd hshare (not_asksShare hnames (by decide))
  · have hlen := ((addresses_eq_ok_iff ho).1 (Read.context_value_eq_ok_iff.1 has)).1
    exact shared_of_asked_ofVersions ho (by omega) h hc hshare

/-- **What is recorded of a minipool.** In a read that ends well, of one minipool or of many, each
field holds what the contracts tell. If the refund of a minipool is larger than its balance, its
shares are not asked for. -/
theorem snapshot_recorded (ho : o.Watches chain) (r : Registry) :
    (∀ a s m, (one o r a s).value = .ok m →
      Recorded (chain r.block) o.probe r a m ∧
        (m.balance.toNat < m.refund.toNat →
          ∀ c, (one o r a s).Asked c → c.target = a → ¬ c.AsksShare)) ∧
    ∀ sel : Selection, ∀ s ms, (sel.read o r s).value = .ok ms → ∀ m ∈ ms,
      Recorded (chain r.block) o.probe r m.address m ∧
        (m.balance.toNat < m.refund.toNat →
          ∀ c, (sel.read o r s).Asked c → c.target = m.address → ¬ c.AsksShare) := by
  constructor
  · intro a s m h
    refine ⟨recorded_of_observed? ((one_eq_ok_iff ho).1 h), fun hlt c hc _ hshare => ?_⟩
    exact Nat.not_le_of_lt hlt (shared_of_asked_one ho h hc hshare)
  · intro sel s ms h m hm
    have hobserved := Selection.observed?_of_mem ho h hm
    refine ⟨recorded_of_observed? hobserved, fun hlt c hc htarget hshare => ?_⟩
    obtain ⟨m', hm', haddress, hle⟩ := Selection.shared_of_asked_read ho h hc hshare
    -- An address may be in the list twice, but then it is the same minipool both times.
    have hobserved' := Selection.observed?_of_mem ho h hm'
    rw [haddress, htarget, hobserved] at hobserved'
    obtain rfl := Option.some.inj hobserved'
    exact Nat.not_le_of_lt hlt hle

open Chain.twoMinipools

/-- Of two minipools the first has nothing left without its refund, and the shares of nothing are
asked for. The refund of the second is larger than its balance, and nothing is. -/
theorem snapshot_recorded_twoMinipools :
    (∃ m, (one (observer {}) registry ⟨0⟩ ()).value = .ok m ∧ m.distributable = 0 ∧
      told (Chain.twoMinipools registry.block) Delegate.calculateNodeShare ⟨0⟩ 0 =
        some m.nodeShare) ∧
    ∃ m, (one (observer {}) registry ⟨1⟩ ()).value = .ok m ∧ m.nodeShare = 0 ∧
      ∀ c, (one (observer {}) registry ⟨1⟩ ()).Asked c → c.target = ⟨1⟩ → ¬ c.AsksShare := by
  have ho : (observer {}).Watches .twoMinipools := watches (by decide)
  have hsnapshot := (snapshot_recorded ho registry).1
  let observe (a : Address) : Option Minipool :=
    observed? (Chain.twoMinipools registry.block) (observer {}).probe registry a
  constructor
  · obtain ⟨m, hm, hwords⟩ := Option.map_eq_some_iff.1
      (show (observe ⟨0⟩).map (fun m => (m.balance, m.refund, m.distributable)) = some (1, 1, 0) by
        decide +kernel)
    simp only [Prod.mk.injEq] at hwords
    obtain ⟨hbalance, hrefund, hdistributable⟩ := hwords
    have hread := (one_eq_ok_iff (s := ()) ho).2 hm
    have hshared := (hsnapshot _ _ _ hread).1.shared (by rw [hbalance, hrefund])
    rw [hdistributable] at hshared
    exact ⟨m, hread, hdistributable, hshared.2.1⟩
  · obtain ⟨m, hm, hwords⟩ := Option.map_eq_some_iff.1
      (show (observe ⟨1⟩).map (fun m => (m.balance, m.refund)) = some (1, 2) by decide +kernel)
    obtain ⟨hbalance, hrefund⟩ := Prod.mk.inj hwords
    have hread := (one_eq_ok_iff (s := ()) ho).2 hm
    have hlt : m.balance.toNat < m.refund.toNat := by
      rw [hbalance, hrefund]
      decide
    obtain ⟨hrecorded, hsilent⟩ := hsnapshot _ _ _ hread
    exact ⟨m, hread, (hrecorded.withheld hlt).2.1, hsilent hlt⟩

end Minipool

end StakingSnapshot
