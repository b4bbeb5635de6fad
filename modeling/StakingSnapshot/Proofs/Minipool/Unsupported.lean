import Mathlib.Data.Nat.Find
import StakingSnapshot.Proofs.Minipool.Bulk
import StakingSnapshot.Proofs.Schedule.Withheld
import StakingSnapshot.Proofs.Version.Binding

/-!
# Minipools that cannot be read

A minipool of a version without a binding ends the round for the details before its batch is sent.

* `Minipool.BindsFirst`: a plan that looks at the binding first. All plans for minipools do, so a
  batch with such a minipool is never sent (`Minipool.supports_of_registers`).
* `Minipool.FirstUnsupported`: the minipool that the fault is about.
* `Minipool.Refuses`: what a read of such minipools sends, and how it ends;
  `Minipool.refuses_ofVersions` follows the rounds.
* `Minipool.RefusesUnsupported`: one minipool, bulk reads, and complete shares;
  `Minipool.unsupported_refused`.
-/

namespace StakingSnapshot

namespace Minipool

open Contract

/-! ## Plans for minipools -/

section Plans

variable {plan : Plan Minipool} {r : Registry} {i : Nat} {xs : List Minipool}

/-- The plan fails for a minipool that has no binding. -/
def BindsFirst (plan : Plan Minipool) : Prop :=
  ∀ i m e, m.binding = .error e → plan i m = .error e

theorem bindsFirst_detailsPlan : BindsFirst (detailsPlan r) := by
  intro i m e h
  rw [detailsPlan, h]
  rfl

theorem bindsFirst_sharesPlan : BindsFirst sharesPlan := by
  intro i m e h
  rw [sharesPlan, h]
  rfl

theorem bindsFirst_completeSharesPlan (beacons : List Word) :
    BindsFirst (completeSharesPlan beacons) := by
  intro i m e h
  rw [completeSharesPlan, h]
  rfl

/-- If a minipool can register its calls, its version has a binding. -/
theorem supports_of_plan (hplan : BindsFirst plan) {x x' : Minipool} {calls : List (Call Minipool)}
    (h : plan i x = .ok (x', calls)) : Binding.Supports x.version := by
  refine (Binding.exists_ofVersion_iff (a := x.address)).1 ?_
  cases hb : x.binding with
  | ok b => exact ⟨b, hb⟩
  | error e =>
    rw [hplan i x e hb] at h
    cases h

theorem supports_of_registers (hplan : BindsFirst plan) (h : plan.Registers i xs) :
    ∀ x ∈ xs, Binding.Supports x.version := by
  intro x hx
  obtain ⟨k, hk⟩ := List.mem_iff_getElem?.1 hx
  obtain ⟨x', calls, hregister⟩ := h k x hk
  exact supports_of_plan hplan hregister

/-- Minipools whose versions have bindings can register the calls for their details. -/
theorem exists_detailsPlan {m : Minipool} (h : Binding.Supports m.version) :
    ∃ m' calls, detailsPlan r i m = .ok (m', calls) := by
  obtain ⟨b, hb⟩ := (Binding.exists_ofVersion_iff (a := m.address)).2 h
  have hbinding : m.binding = .ok b := hb
  cases b with
  | legacy => exact ⟨_, _, detailsPlan_eq_ok_iff.2 (.inl ⟨hbinding, rfl, rfl⟩)⟩
  | atlas => exact ⟨_, _, detailsPlan_eq_ok_iff.2 (.inr ⟨hbinding, rfl, rfl⟩)⟩

/-- Only a minipool of a version with a binding becomes anything. -/
theorem supports_of_observed? {answer : SubCall → CallResult} {p : VersionProbe} {a : Address}
    {m : Minipool} (h : observed? answer p r a = some m) {v : UInt8}
    (hv : p.found answer a = some v) : Binding.Supports v := by
  obtain ⟨v', hv', balance, -, x, hdetails, -⟩ := observed?_eq_some_iff.1 h
  obtain rfl := Option.some.inj (hv.symm.trans hv')
  obtain ⟨x', calls, hplan, -⟩ := Plan.outcome?_eq_some_iff.1 hdetails
  exact supports_of_plan bindsFirst_detailsPlan hplan

end Plans

/-! ## Lists of addresses -/

section Addresses

variable {answer : SubCall → CallResult} {p : VersionProbe} {r : Registry} {as : List Address}
  {versions : List UInt8} {balances : List Word}

/-- The minipools that the round for the details starts with. -/
theorem getElem?_fresh_iff
    (hversions : List.Forall₂ (fun a v => p.found answer a = some v) as versions)
    (hbalances : List.Forall₂ (fun a w => told answer Hub.getEthBalance r.hub a = some w) as
      balances) {i : Nat} {x : Minipool} :
    (fresh as versions balances)[i]? = some x ↔
      ∃ a, as[i]? = some a ∧ ∃ v, p.found answer a = some v ∧
        ∃ w, told answer Hub.getEthBalance r.hub a = some w ∧ x = start a v w := by
  induction hversions generalizing balances i with
  | nil =>
    cases hbalances
    constructor
    · intro h
      cases h
    · rintro ⟨a, h, -⟩
      cases h
  | cons hversion _ ih =>
    cases hbalances with
    | cons hbalance hbalances =>
      rw [fresh_cons]
      cases i with
      | succ i => exact ih hbalances
      | zero =>
        constructor
        · intro h
          cases h
          exact ⟨_, rfl, _, hversion, _, hbalance, rfl⟩
        · rintro ⟨a, ha, v, hv, w, hw, rfl⟩
          cases ha
          obtain rfl := Option.some.inj (hversion.symm.trans hv)
          obtain rfl := Option.some.inj (hbalance.symm.trans hw)
          rfl

/-- If the minipools of a batch have bindings, so have the versions found at its addresses. -/
theorem supports_at_batch
    (hversions : List.Forall₂ (fun a v => p.found answer a = some v) as versions)
    (hbalances : List.Forall₂ (fun a w => told answer Hub.getEthBalance r.hub a = some w) as
      balances) {size k : Nat}
    (h : ∀ x ∈ batchItems size (fresh as versions balances) k, Binding.Supports x.version) :
    ∀ a ∈ batchItems size as k, ∃ v, p.found answer a = some v ∧ Binding.Supports v := by
  intro a ha
  obtain ⟨j, hj⟩ := List.mem_iff_getElem?.1 ha
  obtain ⟨hlt, hindex⟩ := Scheduler.getElem?_batchItems.1 hj
  have hmem : a ∈ as := batchItems_subset ha
  obtain ⟨v, hv⟩ := exists_forall₂_iff.1 ⟨_, hversions⟩ a hmem
  obtain ⟨w, hw⟩ := exists_forall₂_iff.1 ⟨_, hbalances⟩ a hmem
  have hfresh := (getElem?_fresh_iff hversions hbalances).2 ⟨a, hindex, v, hv, w, hw, rfl⟩
  exact ⟨v, hv, h _ (List.mem_of_getElem? (Scheduler.getElem?_batchItems.2 ⟨hlt, hfresh⟩))⟩

/-- What the round for the details makes of one address. -/
def detailed? (answer : SubCall → CallResult) (p : VersionProbe) (r : Registry) (a : Address) :
    Option Minipool := do
  let version ← p.found answer a
  let balance ← told answer Hub.getEthBalance r.hub a
  (detailsPlan r).outcome? answer true 0 (start a version balance)

theorem detailed?_eq {a : Address} {v : UInt8} {w : Word} (hv : p.found answer a = some v)
    (hw : told answer Hub.getEthBalance r.hub a = some w) :
    detailed? answer p r a = (detailsPlan r).outcome? answer true 0 (start a v w) := by
  simp only [detailed?, hv, hw, Option.bind_eq_bind, Option.bind_some]

/-- At an index is the first address whose version has no binding. -/
structure FirstUnsupported (answer : SubCall → CallResult) (p : VersionProbe) (as : List Address)
    (i : Nat) (a : Address) (v : UInt8) : Prop where
  address : as[i]? = some a
  version : p.found answer a = some v
  unsupported : ¬ Binding.Supports v
  before : ∀ j < i, ∀ b, as[j]? = some b → ∃ w, p.found answer b = some w ∧ Binding.Supports w

/-- If each address has a version, and one of them a version without a binding, there is a first one
of these. -/
theorem exists_firstUnsupported (hversions : ∀ a ∈ as, ∃ v, p.found answer a = some v)
    (h : ∃ a ∈ as, ∃ v, p.found answer a = some v ∧ ¬ Binding.Supports v) :
    ∃ i a v, FirstUnsupported answer p as i a v := by
  classical
  have hindex : ∃ i : Nat, ∃ a, as[i]? = some a ∧
      ∃ v, p.found answer a = some v ∧ ¬ Binding.Supports v := by
    obtain ⟨a, ha, h⟩ := h
    obtain ⟨i, hi⟩ := List.mem_iff_getElem?.1 ha
    exact ⟨i, a, hi, h⟩
  obtain ⟨a, ha, v, hv, hbad⟩ := Nat.find_spec hindex
  refine ⟨Nat.find hindex, a, v, ha, hv, hbad, fun j hj b hb => ?_⟩
  obtain ⟨w, hw⟩ := hversions b (List.mem_of_getElem? hb)
  refine ⟨w, hw, Classical.byContradiction fun hbad' => ?_⟩
  exact Nat.find_min hindex hj ⟨b, hb, w, hw, hbad'⟩

end Addresses

/-! ## Reads -/

variable {σ : Type}

/-- The request asks for versions of contracts at the addresses, or for their balances, and for
nothing else. -/
def ProbesOnly (r : Registry) (as : List Address) (request : Request) : Prop :=
  ∀ c, request.Asks c → ∃ a ∈ as,
    c = (VersionProbe.call a).sub ∨ c = ⟨r.hub, Hub.getEthBalance.callData a⟩

/-- The request is for the details of a batch of the minipools, and each minipool of the batch has a
version with a binding. -/
def IsSupportedBatch (o : Observer σ) (chain : Chain) (r : Registry) (as : List Address)
    (request : Request) : Prop :=
  let size := o.config.batchSizes.minipoolDetails
  ∃ versions balances k,
    List.Forall₂ (fun a v => o.probe.found (chain r.block) a = some v) as versions ∧
    List.Forall₂ (fun a w => told (chain r.block) Hub.getEthBalance r.hub a = some w) as balances ∧
    request ∈ o.scheduler.batchRequests true r.block size (detailsPlan r)
      (fresh as versions balances) k ∧
    ∀ a ∈ batchItems size as k, ∃ v, o.probe.found (chain r.block) a = some v ∧ Binding.Supports v

/-- All versions and balances are told, and so are the details of the addresses in the batches
before one. -/
structure AnsweredBefore (o : Observer σ) (chain : Chain) (r : Registry) (as : List Address)
    (k : Nat) : Prop where
  versions : ∀ a ∈ as, ∃ v, o.probe.found (chain r.block) a = some v
  balances : ∀ a ∈ as, ∃ w, told (chain r.block) Hub.getEthBalance r.hub a = some w
  details : ∀ j < k * o.config.batchSizes.minipoolDetails, ∀ a, as[j]? = some a →
    ∃ m, detailed? (chain r.block) o.probe r a = some m

/-- The fault for the minipool at index `i` of `count`, read in batches of `size`. -/
def refusal (size count i : Nat) (a : Address) (v : UInt8) : Fault :=
  .context "error getting minipool details r1"
    (.context (Scheduler.batchContext (i / size) (i / size * size)
      (min (i / size * size + size) count)) (.unsupportedVersion a v))

/-- How a read ends of minipools at addresses of which some have a version without a binding.
`before` are the requests by which the addresses were found. -/
structure Refuses {β : Type} (o : Observer σ) (chain : Chain) (r : Registry) (as : List Address)
    (before : List Request) (x : Outcome σ (Except Fault β)) : Prop where
  /-- It fails. -/
  fails : ∀ b, x.value ≠ .ok b
  /-- No contract is asked for more than its version and its balance, if a minipool in its batch has
  no binding. -/
  sent : ∀ request ∈ x.sent, request ∈ before ∨ ProbesOnly r as request ∨
    IsSupportedBatch o chain r as request
  /-- If everything that comes before is answered, the fault is about the first such minipool. -/
  fault : ∀ i a v, FirstUnsupported (chain r.block) o.probe as i a v →
    AnsweredBefore o chain r as (i / o.config.batchSizes.minipoolDetails) →
      x.value = .error (refusal o.config.batchSizes.minipoolDetails as.length i a v)

namespace Refuses

variable {o : Observer σ} {chain : Chain} {r : Registry} {as : List Address}
  {before : List Request} {β γ : Type} {s : σ}

theorem congr {x y : Outcome σ (Except Fault β)} (h : Refuses o chain r as before x)
    (hvalue : y.value = x.value) (hsent : y.sent = x.sent) : Refuses o chain r as before y := by
  obtain ⟨hfails, hall, hfault⟩ := h
  rw [← hvalue] at hfails hfault
  rw [← hsent] at hall
  exact ⟨hfails, hall, hfault⟩

/-- What comes after a refusal is not reached. -/
theorem bind {m : Read σ γ} {f : γ → Read σ β} (h : Refuses o chain r as before (m s)) :
    Refuses o chain r as before ((m >>= f) s) := by
  obtain ⟨hfails, hall, hfault⟩ := h
  cases hm : (m s).value with
  | ok c => exact absurd hm (hfails c)
  | error e =>
    rw [hm] at hfault
    rw [Read.bind_of_error hm]
    refine ⟨nofun, hall, fun i a v hi hk => ?_⟩
    rw [Except.error.inj (hfault i a v hi hk)]

/-- What comes before a refusal, if it only looks for the addresses, their versions and balances. -/
theorem after {m : Read σ γ} {f : γ → Read σ β}
    (hsent : ∀ request ∈ (m s).sent, request ∈ before ∨ ProbesOnly r as request)
    (hok : ∀ k, AnsweredBefore o chain r as k → ∃ c, (m s).value = .ok c)
    (hf : ∀ c, (m s).value = .ok c → ∀ t, Refuses o chain r as [] (f c t)) :
    Refuses o chain r as before ((m >>= f) s) := by
  refine ⟨fun b hb => ?_, fun request hrequest => ?_, fun i a v hi hk => ?_⟩
  · obtain ⟨c, hc, hb⟩ := Read.bind_value_eq_ok_iff.1 hb
    exact (hf c hc _).fails b hb
  · rcases Read.mem_sent_bind_iff.1 hrequest with hrequest | ⟨c, hc, hrequest⟩
    · exact (hsent request hrequest).imp_right .inl
    · exact .inr (((hf c hc _).sent request hrequest).resolve_left List.not_mem_nil)
  · obtain ⟨c, hc⟩ := hok _ hk
    rw [Read.bind_of_ok hc]
    exact (hf c hc _).fault i a v hi hk

end Refuses

section Rounds

variable {o : Observer σ} {chain : Chain} {r : Registry} {as : List Address} {s : σ}

/-- The round for the details does not end well. -/
theorem not_ok_detailsRound (ho : o.Watches chain) {xs : List Minipool}
    (hlen : xs.length ≤ 2 * maxItemCount) (h : ∃ x ∈ xs, ¬ Binding.Supports x.version)
    (ys : List Minipool) :
    (o.scheduler.batchQuery r.block o.config.batchSizes.minipoolDetails (detailsPlan r) xs
      s).value ≠ .ok ys := by
  intro hys
  obtain ⟨x, hx, hbad⟩ := h
  obtain ⟨y, hy⟩ := exists_forall₂_iff.1 ⟨ys, (detailsRound_eq_ok_iff ho hlen).1 hys⟩ x hx
  obtain ⟨x', calls, hplan, -⟩ := Plan.outcome?_eq_some_iff.1 hy
  exact hbad (supports_of_plan bindsFirst_detailsPlan hplan)

/-- **The round for the details.** -/
theorem refuses_detailsRound (ho : o.Watches chain) (hlen : as.length ≤ 2 * maxItemCount)
    {versions : List UInt8} {balances : List Word}
    (hversions : List.Forall₂ (fun a v => o.probe.found (chain r.block) a = some v) as versions)
    (hbalances : List.Forall₂
      (fun a w => told (chain r.block) Hub.getEthBalance r.hub a = some w) as balances)
    (hbad : ∃ a ∈ as, ∃ v, o.probe.found (chain r.block) a = some v ∧ ¬ Binding.Supports v) :
    Refuses o chain r as []
      ((o.scheduler.batchQuery r.block o.config.batchSizes.minipoolDetails (detailsPlan r)
        (fresh as versions balances)).context "error getting minipool details r1" s) := by
  have hfresh := Nat.le_trans (length_fresh_le as versions balances) hlen
  refine ⟨fun ys hys => ?_, fun request hrequest => .inr (.inr ?_), fun i a v hi hk => ?_⟩
  · obtain ⟨a, ha, v, hv, hbad⟩ := hbad
    obtain ⟨i, hi⟩ := List.mem_iff_getElem?.1 ha
    obtain ⟨w, hw⟩ := exists_forall₂_iff.1 ⟨_, hbalances⟩ a ha
    have hx := (getElem?_fresh_iff hversions hbalances).2 ⟨a, hi, v, hv, w, hw, rfl⟩
    exact not_ok_detailsRound ho hfresh ⟨_, List.mem_of_getElem? hx, hbad⟩ ys
      (Read.context_value_eq_ok_iff.1 hys)
  · have hsent : (o.scheduler.batchQuery r.block o.config.batchSizes.minipoolDetails
        (detailsPlan r) (fresh as versions balances) s).sent = _ := List.append_nil _
    rw [Read.sent_context, hsent] at hrequest
    obtain ⟨k, hk, hregisters⟩ := Scheduler.registers_of_sent_fill hrequest
    exact ⟨versions, balances, k, hversions, hbalances, hk,
      supports_at_batch hversions hbalances
        (supports_of_registers bindsFirst_detailsPlan hregisters)⟩
  · have hlength : (fresh as versions balances).length = as.length := by
      rw [fresh, List.length_map, List.length_zip, List.length_zip, ← hversions.length_eq,
        ← hbalances.length_eq]
      omega
    obtain ⟨w, hw⟩ := hk.balances a (List.mem_of_getElem? hi.address)
    have hfault : o.scheduler.FirstFault true r.block o.config.batchSizes.minipoolDetails
        (detailsPlan r) (fresh as versions balances) s
        (i / o.config.batchSizes.minipoolDetails) (.unsupportedVersion a v) := by
      refine Scheduler.firstFault_of_error ho.answers ho.positive.minipoolDetails
        (small_detailsPlan.sized ho.bounded hfresh)
        ((getElem?_fresh_iff hversions hbalances).2 ⟨a, hi.address, v, hi.version, w, hw, rfl⟩)
        (bindsFirst_detailsPlan _ _ _ (Binding.ofVersion_of_not_supports hi.unsupported))
        (fun j hj y hy => ?_) fun j hj y hy => ?_
      · obtain ⟨b, hb, v', hv', w', hw', rfl⟩ := (getElem?_fresh_iff hversions hbalances).1 hy
        obtain ⟨v'', hv'', hsupports⟩ := hi.before j hj b hb
        obtain rfl := Option.some.inj (hv'.symm.trans hv'')
        exact exists_detailsPlan hsupports
      · obtain ⟨b, hb, v', hv', w', hw', rfl⟩ := (getElem?_fresh_iff hversions hbalances).1 hy
        obtain ⟨m, hm⟩ := hk.details j hj b hb
        rw [detailed?_eq hv' hw'] at hm
        exact ⟨m, hm⟩
    rw [Read.context_value,
      (Scheduler.batchQuery_reportsFirstFault ho.positive.minipoolDetails).value hfault, hlength]
    rfl

/-- The rounds after the versions are known. -/
theorem refuses_ofVersions (ho : o.Watches chain) (hlen : as.length ≤ 2 * maxItemCount)
    {versions : List UInt8}
    (hversions : List.Forall₂ (fun a v => o.probe.found (chain r.block) a = some v) as versions)
    (hbad : ∃ a ∈ as, ∃ v, o.probe.found (chain r.block) a = some v ∧ ¬ Binding.Supports v) :
    Refuses o chain r as [] (ofVersions o r as versions s) := by
  refine Refuses.after (fun request hrequest => .inr fun c hc => ?_) (fun k hk => ?_)
    fun balances hbalances t => ?_
  · rw [Read.sent_context] at hrequest
    obtain ⟨a, ha, rfl⟩ := Snapshot.mem_of_asked_etherBalances ⟨request, hrequest, hc⟩
    exact ⟨a, ha, .inr rfl⟩
  · obtain ⟨balances, hbalances⟩ := exists_forall₂_iff.2 hk.balances
    exact ⟨balances, Read.context_value_eq_ok_iff.2
      ((Snapshot.etherBalances_eq_ok_iff ho hlen).2 hbalances)⟩
  · have htold := (Snapshot.etherBalances_eq_ok_iff ho hlen).1
      (Read.context_value_eq_ok_iff.1 hbalances)
    exact (refuses_detailsRound ho hlen hversions htold hbad).bind

/-- Many addresses. -/
theorem refuses_ofAddresses (ho : o.Watches chain) (hlen : as.length ≤ 2 * maxItemCount)
    (hbad : ∃ a ∈ as, ∃ v, o.probe.found (chain r.block) a = some v ∧ ¬ Binding.Supports v) :
    Refuses o chain r as [] (ofAddresses o r as s) := by
  refine Refuses.after (fun request hrequest => .inr fun c hc => ?_) (fun k hk => ?_)
    fun versions hversions t => ?_
  · rw [Read.sent_context] at hrequest
    obtain ⟨a, ha, rfl⟩ := VersionProbe.mem_of_asked_resolveAll ⟨request, hrequest, hc⟩
    exact ⟨a, ha, .inl rfl⟩
  · obtain ⟨versions, hversions⟩ := exists_forall₂_iff.2 hk.versions
    exact ⟨versions, Read.context_value_eq_ok_iff.2
      ((VersionProbe.resolveAll_eq_ok_iff ho.answers ho.bounded ho.positive.versions hlen).2
        hversions)⟩
  · exact refuses_ofVersions ho hlen (found_of_resolved ho hlen hversions) hbad

/-- One address. -/
theorem refuses_one (ho : o.Watches chain) {a : Address} {v : UInt8}
    (hv : o.probe.found (chain r.block) a = some v) (hbad : ¬ Binding.Supports v) :
    Refuses o chain r [a] [] (one o r a s) := by
  refine Refuses.after (fun request hrequest => .inr fun c hc => ?_) (fun k hk => ?_)
    fun version hversion t => ?_
  · rw [Read.sent_context] at hrequest
    exact ⟨a, .head _, .inl (VersionProbe.eq_of_asked_resolve ⟨request, hrequest, hc⟩)⟩
  · exact ⟨v, Read.context_value_eq_ok_iff.2
      ((VersionProbe.resolve_eq_ok_iff ho.answers ho.bounded).2 hv)⟩
  · have hfound := (VersionProbe.resolve_eq_ok_iff ho.answers ho.bounded).1
      (Read.context_value_eq_ok_iff.1 hversion)
    exact (refuses_ofVersions ho (length_singleton_le a) (.cons hfound .nil)
      ⟨a, .head _, v, hv, hbad⟩).bind

/-- Bulk reads. -/
theorem Selection.refuses_read (ho : o.Watches chain) {sel : Selection}
    (has : (sel.addresses o r s).value = .ok as)
    (hbad : ∃ a ∈ as, ∃ v, o.probe.found (chain r.block) a = some v ∧ ¬ Binding.Supports v) :
    Refuses o chain r as (sel.addresses o r s).sent (sel.read o r s) := by
  obtain ⟨entity, text, heq⟩ := read_eq (o := o) (r := r) sel
  rw [heq]
  have hmax := ((addresses_eq_ok_iff ho).1 has).1
  refine Refuses.congr (Refuses.after ?_ ?_ ?_) Snapshot.logged_value Snapshot.sent_logged
  · intro request hrequest
    rw [Read.sent_context] at hrequest
    exact .inl hrequest
  · exact fun _ _ => ⟨as, Read.context_value_eq_ok_iff.2 has⟩
  · intro as' has' t
    obtain rfl := Except.ok.inj (has.symm.trans (Read.context_value_eq_ok_iff.1 has'))
    exact refuses_ofAddresses ho (by omega) hbad

/-- The batches of the round for the details side by side. -/
theorem supports_of_sent_details (ho : o.Watches chain) {versions : List UInt8}
    {balances : List Word}
    (hversions : List.Forall₂ (fun a v => o.probe.found (chain r.block) a = some v) as versions)
    (hbalances : List.Forall₂
      (fun a w => told (chain r.block) Hub.getEthBalance r.hub a = some w) as balances)
    {replies : Replies} {p : Pool fun _ : Unit => List Minipool}
    (h : (o.scheduler.pool true r.block o.config.batchSizes.minipoolDetails (detailsPlan r)
      (fresh as versions balances)).Reaches replies p)
    {k : Nat} {t : (_ : Unit) × Seat (List Minipool)} (ht : p.seats[k]? = some t)
    (hsent : t.2.isInFlight = true ∨ t.2.endedWell = true) :
    ∀ a ∈ batchItems o.config.batchSizes.minipoolDetails as k,
      ∃ v, o.probe.found (chain r.block) a = some v ∧ Binding.Supports v := by
  exact supports_at_batch hversions hbalances
    (supports_of_registers bindsFirst_detailsPlan
      (Scheduler.registers_of_sent ho.positive.minipoolDetails h ht hsent))

/-- Complete shares, batch after batch. -/
theorem supports_of_sent_completeShares {beacons : List Word} {ms : List Minipool}
    {request : Request} (h : request ∈ (completeShares o r beacons ms s).sent) :
    ∃ k, request ∈ o.scheduler.batchRequests true r.block o.config.batchSizes.completeShares
        (completeSharesPlan beacons) ms k ∧
      ∀ m ∈ batchItems o.config.batchSizes.completeShares ms k, Binding.Supports m.version := by
  unfold completeShares at h
  split at h
  case isTrue => cases h
  case isFalse =>
    rw [Session.bind_apply] at h
    rcases List.mem_append.1 h with h | h
    · obtain ⟨k, hk, hregisters⟩ := Scheduler.registers_of_sent_fill h
      exact ⟨k, hk, supports_of_registers (bindsFirst_completeSharesPlan beacons) hregisters⟩
    · cases h

end Rounds

/-- Minipools of versions without a binding are refused. -/
structure RefusesUnsupported (o : Observer σ) (chain : Chain) (r : Registry) : Prop where
  /-- One minipool, -/
  single : ∀ a v, o.probe.found (chain r.block) a = some v → ¬ Binding.Supports v →
    ∀ s, Refuses o chain r [a] [] (one o r a s)
  /-- and many, once it is known which they are. -/
  bulk : ∀ (sel : Selection) s as, (sel.addresses o r s).value = .ok as →
    (∃ a ∈ as, ∃ v, o.probe.found (chain r.block) a = some v ∧ ¬ Binding.Supports v) →
      Refuses o chain r as (sel.addresses o r s).sent (sel.read o r s)
  /-- For that the register is asked, and no minipool. -/
  register : ∀ (sel : Selection) s c, (sel.addresses o r s).Asked c →
    (c.Names MinipoolManager.getMinipoolCount ∨ c.Names MinipoolManager.getMinipoolAt) ∨
      c.Names MinipoolManager.getNodeMinipoolCount ∨ c.Names MinipoolManager.getNodeMinipoolAt
  /-- If the register tells such a minipool, no bulk read ends well. -/
  fails : ∀ (sel : Selection) n i a v, sel.count? (chain r.block) r = some n → i < n.toNat →
    sel.address? (chain r.block) r i = some a → o.probe.found (chain r.block) a = some v →
      ¬ Binding.Supports v → ∀ s ms, (sel.read o r s).value ≠ .ok ms
  /-- There is a first one that the fault can be about. -/
  first : ∀ as, (∀ a ∈ as, ∃ v, o.probe.found (chain r.block) a = some v) →
    (∃ a ∈ as, ∃ v, o.probe.found (chain r.block) a = some v ∧ ¬ Binding.Supports v) →
      ∃ i a v, FirstUnsupported (chain r.block) o.probe as i a v
  /-- Batches side by side are not sent either, in whatever order they go and whatever is
  answered. -/
  open_details : ∀ as versions balances,
    List.Forall₂ (fun a v => o.probe.found (chain r.block) a = some v) as versions →
    List.Forall₂ (fun a w => told (chain r.block) Hub.getEthBalance r.hub a = some w) as
      balances →
    ∀ replies p, (o.scheduler.pool true r.block o.config.batchSizes.minipoolDetails
        (detailsPlan r) (fresh as versions balances)).Reaches replies p →
      ∀ k t, p.seats[k]? = some t → t.2.isInFlight = true ∨ t.2.endedWell = true →
        ∀ a ∈ batchItems o.config.batchSizes.minipoolDetails as k,
          ∃ v, o.probe.found (chain r.block) a = some v ∧ Binding.Supports v
  /-- Complete shares, batch after batch, -/
  shares : ∀ beacons ms s, ∀ request ∈ (completeShares o r beacons ms s).sent,
    ∃ k, request ∈ o.scheduler.batchRequests true r.block o.config.batchSizes.completeShares
        (completeSharesPlan beacons) ms k ∧
      ∀ m ∈ batchItems o.config.batchSizes.completeShares ms k, Binding.Supports m.version
  /-- and side by side. -/
  open_shares : ∀ beacons ms replies p,
    (o.scheduler.pool true r.block o.config.batchSizes.completeShares
        (completeSharesPlan beacons) ms).Reaches replies p →
      ∀ k t, p.seats[k]? = some t → t.2.isInFlight = true ∨ t.2.endedWell = true →
        ∀ m ∈ batchItems o.config.batchSizes.completeShares ms k, Binding.Supports m.version

/-- **Minipools that cannot be read.** If the version of some minipool has no binding, no read of it
ends well. Contracts of its batch are asked for their versions and balances only, and if everything
that comes before is answered, the fault is about the first such minipool. No complete shares are
asked for in its batch. -/
theorem unsupported_refused {o : Observer σ} {chain : Chain} (ho : o.Watches chain) (r : Registry) :
    RefusesUnsupported o chain r where
  single a v hv hbad s := refuses_one ho hv hbad
  bulk sel s as has hbad := Selection.refuses_read ho has hbad
  register sel s c h := Selection.names_of_asked_addresses h
  fails sel n i a v hn hi ha hv hbad s ms hms := by
    obtain ⟨-, ⟨n', hn', hlen⟩, hat⟩ := (Selection.read_eq_ok_iff ho).1 hms
    obtain rfl := Option.some.inj (hn.symm.trans hn')
    obtain ⟨haddress, hobserved⟩ := hat i _ (List.getElem?_eq_getElem (hlen ▸ hi))
    obtain rfl := Option.some.inj (ha.symm.trans haddress)
    exact hbad (supports_of_observed? hobserved hv)
  first as hversions hbad := exists_firstUnsupported hversions hbad
  open_details as versions balances hversions hbalances replies p h k t ht hsent :=
    supports_of_sent_details ho hversions hbalances h ht hsent
  shares beacons ms s request h := supports_of_sent_completeShares h
  open_shares beacons ms replies p h k t ht hsent := by
    exact supports_of_registers (bindsFirst_completeSharesPlan beacons)
      (Scheduler.registers_of_sent ho.positive.completeShares h ht hsent)

end Minipool

namespace Chain.twoMinipools

/-- The chain with a third minipool, at the address 2, of version 5. -/
def withThird : Chain := fun block c =>
  if c.Names Contract.MinipoolManager.getMinipoolCount then ⟨true, Abi.word 3⟩
  else twoMinipools block c

/-- An observer of that chain, which reads the details of two minipools at once. -/
def pairObserver : Observer Unit :=
  ⟨{ batchSizes := { minipoolDetails := 2 } }, .ofChain withThird ⟨9⟩ 1, ⟨1⟩⟩

theorem watches_withThird : pairObserver.Watches withThird := by
  have hwatches : (observer {}).Watches twoMinipools := watches (by decide)
  refine ⟨client_answersFor _ _, fun block c => ?_, by decide⟩
  unfold withThird
  split
  · exact (by decide : (Abi.word 3).length ≤ Word.maxNat64)
  · exact hwatches.bounded block c

end Chain.twoMinipools

namespace Minipool

open Contract Chain.twoMinipools

/-- Of three minipools in batches of two the last one cannot be read. -/
theorem unsupported_refused_withThird :
    (Selection.all.read pairObserver registry ()).value =
      .error (.context "error getting minipool details r1"
        (.context "batch 1 [2, 3)" (.unsupportedVersion ⟨2⟩ 5))) := by
  have hsome : ∀ {α : Type} {x : Option α}, x.isSome = true → ∃ a, x = some a :=
    Option.isSome_iff_exists.1
  let answer := withThird registry.block
  let as : List Address := [⟨0⟩, ⟨1⟩, ⟨2⟩]
  have has : (Selection.all.addresses pairObserver registry ()).value = .ok as := by
    refine (Selection.addresses_eq_ok_iff watches_withThird).2
      ⟨by decide, ⟨3, by decide +kernel, rfl⟩, fun i a ha => ?_⟩
    match i with
    | 0 => cases ha; decide +kernel
    | 1 => cases ha; decide +kernel
    | 2 => cases ha; decide +kernel
    | _ + 3 => cases ha
  have hfound : ∀ a ∈ as, (pairObserver.probe.found answer a).isSome = true := by decide +kernel
  have hbalance : ∀ a ∈ as, (told answer Hub.getEthBalance registry.hub a).isSome = true := by
    decide +kernel
  have hdetailed : ∀ a ∈ as.take 2,
      (detailed? answer pairObserver.probe registry a).isSome = true := by decide +kernel
  have hthird : pairObserver.probe.found answer ⟨2⟩ = some 5 := by decide +kernel
  have hfirst : FirstUnsupported answer pairObserver.probe as 2 ⟨2⟩ 5 := by
    refine ⟨rfl, hthird, by decide, fun j hj b hb => ?_⟩
    match j with
    | 0 => cases hb; exact ⟨1, by decide +kernel, by decide⟩
    | 1 => cases hb; exact ⟨3, by decide +kernel, by decide⟩
  have hanswered : AnsweredBefore pairObserver withThird registry as 1 := by
    refine ⟨fun a ha => hsome (hfound a ha), fun a ha => hsome (hbalance a ha), ?_⟩
    intro j (hj : j < 2) a ha
    refine hsome (hdetailed a (List.mem_of_getElem? (i := j) ?_))
    rw [List.getElem?_take, if_pos hj, ha]
  have hrefused := (unsupported_refused watches_withThird registry).bulk .all () as has
    ⟨⟨2⟩, by decide, 5, hthird, by decide⟩
  rw [hrefused.fault 2 ⟨2⟩ 5 hfirst hanswered]
  exact congrArg Except.error (by decide +kernel)

end Minipool

end StakingSnapshot
