import StakingSnapshot.Proofs.Minipool.Atlas
import StakingSnapshot.Proofs.Minipool.Bulk
import StakingSnapshot.Proofs.Snapshot.Same

/-!
# Older minipools do not depend on what the newer delegates tell

Reads are followed twice: once for what they ask, and once against a second chain that may answer
otherwise where an older minipool is not to be asked.

* `Minipool.not_asksAtlas_of_asked_one`, `Minipool.Selection.not_asksAtlas_of_asked_read`: what is
  sent; `Minipool.not_asksAtlas_of_open`: also side by side.
* `Minipool.same_one`, `Minipool.Selection.same_read`: the two chains cannot be told apart;
  `Minipool.reaches_of_beyondAtlas`: neither can they side by side.
* `Minipool.atlas_by_version`: older and newer minipools.
-/

namespace StakingSnapshot

namespace Minipool

open Contract

variable {σ τ : Type} {o : Observer σ} {o' : Observer τ} {chain chain' : Chain} {r : Registry}
  {a : Address} {s : σ} {s' : τ}

/-- The round for the details does not ask a minipool of another version than 3. -/
theorem not_asksAtlas_fresh {answer : SubCall → CallResult} {p : VersionProbe}
    (hnot : p.found answer a ≠ some 3) {as : List Address} {versions : List UInt8}
    (h : List.Forall₂ (fun a v => p.found answer a = some v) as versions) (balances : List Word) :
    ∀ c ∈ ((detailsPlan r).registered 0 (fresh as versions balances)).map Call.sub,
      ¬ c.AsksAtlas r a := by
  refine not_asksAtlas_details fun x hx haddress hversion => hnot ?_
  rw [← haddress, ← hversion]
  exact found_of_mem_fresh h hx

/-! ## What is asked -/

section Asked

variable {c : SubCall}

theorem not_asksAtlas_of_asked_ofVersions (hnot : o.probe.found (chain r.block) a ≠ some 3)
    {as : List Address} {versions : List UInt8}
    (hfound : List.Forall₂ (fun a v => o.probe.found (chain r.block) a = some v) as versions)
    (h : (ofVersions o r as versions s).Asked c) : ¬ c.AsksAtlas r a := by
  rcases Read.asked_bind_iff.1 h with h | ⟨balances, -, h⟩
  · exact not_asksAtlas (Snapshot.names_of_asked_etherBalances (Read.asked_context_iff.1 h))
      (by decide)
  rcases Read.asked_bind_iff.1 h with h | ⟨ms, -, h⟩
  · exact not_asksAtlas_fresh hnot hfound balances c
      (Scheduler.registered_of_asked_batchQuery (Read.asked_context_iff.1 h))
  · exact not_asksAtlas_shares c
      (Scheduler.registered_of_asked_batchQuery (Read.asked_context_iff.1 h))

/-- One minipool. -/
theorem not_asksAtlas_of_asked_one (ho : o.Watches chain)
    (hnot : o.probe.found (chain r.block) a ≠ some 3) {b : Address} (h : (one o r b s).Asked c) :
    ¬ c.AsksAtlas r a := by
  rcases Read.asked_bind_iff.1 h with h | ⟨version, hversion, h⟩
  · exact not_asksAtlas (VersionProbe.names_of_asked_resolve (Read.asked_context_iff.1 h))
      (by decide)
  rcases Read.asked_bind_iff.1 h with h | ⟨ms, -, h⟩
  · have hfound := (VersionProbe.resolve_eq_ok_iff ho.answers ho.bounded).1
      (Read.context_value_eq_ok_iff.1 hversion)
    exact not_asksAtlas_of_asked_ofVersions hnot (.cons hfound .nil) h
  · exact absurd h Read.not_asked_pure

namespace Selection

variable {sel : Selection}

theorem not_asksAtlas_of_asked_addresses (h : (sel.addresses o r s).Asked c) :
    ¬ c.AsksAtlas r a := by
  rcases names_of_asked_addresses h with (hnames | hnames) | hnames | hnames
  all_goals exact not_asksAtlas hnames (by decide)

/-- Many minipools. -/
theorem not_asksAtlas_of_asked_read (ho : o.Watches chain)
    (hnot : o.probe.found (chain r.block) a ≠ some 3) (h : (sel.read o r s).Asked c) :
    ¬ c.AsksAtlas r a := by
  obtain ⟨entity, text, heq⟩ := read_eq (o := o) (r := r) sel
  rw [heq, Snapshot.asked_logged_iff] at h
  rcases Read.asked_bind_iff.1 h with h | ⟨as, has, h⟩
  · exact not_asksAtlas_of_asked_addresses (Read.asked_context_iff.1 h)
  rcases Read.asked_bind_iff.1 h with h | ⟨versions, hversions, h⟩
  · exact not_asksAtlas (VersionProbe.names_of_asked_resolveAll (Read.asked_context_iff.1 h))
      (by decide)
  · have hmax := ((addresses_eq_ok_iff ho).1 (Read.context_value_eq_ok_iff.1 has)).1
    exact not_asksAtlas_of_asked_ofVersions hnot (found_of_resolved ho (by omega) hversions) h

end Selection

/-- The batches of the round for the details side by side. -/
theorem not_asksAtlas_of_open (ho : o.Watches chain)
    (hnot : o.probe.found (chain r.block) a ≠ some 3) {as : List Address} {versions : List UInt8}
    (hfound : List.Forall₂ (fun a v => o.probe.found (chain r.block) a = some v) as versions)
    {balances : List Word} {replies : Replies} {p : Pool fun _ : Unit => List Minipool}
    (h : (o.scheduler.pool true r.block o.config.batchSizes.minipoolDetails (detailsPlan r)
      (fresh as versions balances)).Reaches replies p)
    {t : (_ : Unit) × Seat (List Minipool)} (ht : t ∈ p.seats)
    {prepared : Prepared (List Minipool)} (hopen : t.2.phase = .inFlight prepared) :
    ∀ call ∈ prepared.calls, ¬ call.sub.AsksAtlas r a := by
  intro call hcall
  obtain ⟨k, hk⟩ := List.mem_iff_getElem?.1 ht
  exact not_asksAtlas_fresh hnot hfound balances _
    (Scheduler.registered_of_open ho.positive.minipoolDetails h hk hopen hcall)

end Asked

/-! ## Two chains -/

/-- The chains give the same answers, except to what an older minipool is not asked for. -/
def AgreeBeyondAtlas (chain chain' : Chain) (r : Registry) (a : Address) : Prop :=
  ∀ c : SubCall, ¬ c.AsksAtlas r a → chain' r.block c = chain r.block c

theorem AgreeBeyondAtlas.of_names (h : AgreeBeyondAtlas chain chain' r a) {α : Type} {k : Abi.Kind}
    {m : Abi.Method α k} (hm : ¬ IsAtlas m) {c : SubCall} (hc : c.Names m) :
    chain' r.block c = chain r.block c :=
  h c (not_asksAtlas hc hm)

section Same

variable (ht : o.Twins o' chain chain') (hagree : AgreeBeyondAtlas chain chain' r a)
  (hnot : o.probe.found (chain r.block) a ≠ some 3)

include ht hagree hnot

theorem same_ofVersions {as : List Address} (hlen : as.length ≤ 2 * maxItemCount)
    {versions : List UInt8}
    (hfound : List.Forall₂ (fun a v => o.probe.found (chain r.block) a = some v) as versions) :
    (ofVersions o r as versions s).Same (ofVersions o' r as versions s') := by
  unfold ofVersions
  simp only [ht.config]
  refine Read.same_bind (Read.same_context _ ?_) fun balances _ t t' => ?_
  · exact Snapshot.same_etherBalances ht hlen fun c hc => hagree.of_names (by decide) hc
  have hfresh := Nat.le_trans (length_fresh_le as versions balances) hlen
  refine Read.same_bind (Read.same_context _ ?_) fun ms hms t t' => Read.same_context _ ?_
  · exact ht.same_batchQuery small_detailsPlan hfresh fun c hc =>
      hagree c (not_asksAtlas_fresh hnot hfound balances c hc)
  · have hdetails := (detailsRound_eq_ok_iff ht.watches hfresh).1
      (Read.context_value_eq_ok_iff.1 hms)
    refine ht.same_batchQuery small_sharesPlan ?_ fun c hc => hagree c (not_asksAtlas_shares c hc)
    rwa [List.length_map, ← hdetails.length_eq]

/-- One minipool. -/
theorem same_one (b : Address) : (one o r b s).Same (one o' r b s') := by
  unfold one
  simp only [ht.probe]
  refine Read.same_bind (Read.same_context _ ?_) fun version hversion t t' => ?_
  · exact VersionProbe.same_resolve ht (hagree.of_names (by decide) (Call.names_typed_iff.2 rfl))
  refine Read.same_bind ?_ fun _ _ t t' => Read.same_pure _ t t'
  have hfound := (VersionProbe.resolve_eq_ok_iff ht.watches.answers ht.watches.bounded).1
    (Read.context_value_eq_ok_iff.1 hversion)
  exact same_ofVersions ht hagree hnot (length_singleton_le b) (.cons hfound .nil)

theorem same_ofAddresses {as : List Address} (hlen : as.length ≤ 2 * maxItemCount) :
    (ofAddresses o r as s).Same (ofAddresses o' r as s') := by
  unfold ofAddresses
  simp only [ht.probe, ht.config]
  refine Read.same_bind (Read.same_context _ ?_) fun versions hversions t t' => ?_
  · exact VersionProbe.same_resolveAll ht hlen fun b _ =>
      hagree.of_names (by decide) (Call.names_typed_iff.2 rfl)
  · exact same_ofVersions ht hagree hnot hlen (found_of_resolved ht.watches hlen hversions)

omit hnot in
theorem Selection.same_addresses {sel : Selection} :
    (sel.addresses o r s).Same (sel.addresses o' r s') := by
  cases sel with
  | all =>
    simp only [addresses, Minipool.addresses, ht.config]
    exact Snapshot.same_counted (k := .address) ht (fun c => hagree.of_names (by decide))
      fun c => hagree.of_names (by decide)
  | ofNode node =>
    simp only [addresses, addressesOfNode, ht.config]
    exact Snapshot.same_counted (k := .address) ht (fun c => hagree.of_names (by decide))
      fun c => hagree.of_names (by decide)

/-- Many minipools. -/
theorem Selection.same_read {sel : Selection} :
    (sel.read o r s).Same (sel.read o' r s') := by
  have hrest : ∀ text : String, (((sel.addresses o r).context text >>= ofAddresses o r) s).Same
      (((sel.addresses o' r).context text >>= ofAddresses o' r) s') := by
    intro text
    refine Read.same_bind (Read.same_context text (same_addresses ht hagree)) fun as has t t' => ?_
    have hmax := ((addresses_eq_ok_iff ht.watches).1 (Read.context_value_eq_ok_iff.1 has)).1
    exact same_ofAddresses ht hagree hnot (by omega)
  cases sel with
  | all => exact Snapshot.same_logged _ _ _ (hrest _)
  | ofNode node => exact Snapshot.same_logged _ _ _ (hrest _)

/-- The batches of the round for the details side by side. -/
theorem reaches_of_beyondAtlas (s' : τ) {as : List Address} (hlen : as.length ≤ 2 * maxItemCount)
    {versions : List UInt8}
    (hfound : List.Forall₂ (fun a v => o.probe.found (chain r.block) a = some v) as versions)
    {balances : List Word} {p : Pool fun _ : Unit => List Minipool}
    (h : (o.scheduler.pool true r.block o.config.batchSizes.minipoolDetails (detailsPlan r)
      (fresh as versions balances)).Reaches (o.scheduler.client.Gives o.scheduler.hub) p) :
    (o'.scheduler.pool true r.block o'.config.batchSizes.minipoolDetails (detailsPlan r)
      (fresh as versions balances)).Reaches (o'.scheduler.client.Gives o'.scheduler.hub) p := by
  have hfresh := Nat.le_trans (length_fresh_le as versions balances) hlen
  rw [ht.config]
  exact Scheduler.reaches_of_same ht.scheduler s' ht.watches.positive.minipoolDetails
    (small_detailsPlan.sized ht.watches.bounded hfresh)
    (fun c hc => hagree c (not_asksAtlas_fresh hnot hfound balances c hc)) h

end Same

/-! ## Older and newer minipools -/

/-- Reads do not depend on what a minipool is not to be asked for. -/
structure IgnoresAtlas (o : Observer σ) (chain : Chain) (r : Registry) (a : Address) : Prop where
  /-- They do not ask for it, -/
  silent_one : ∀ s c, (one o r a s).Asked c → ¬ c.AsksAtlas r a
  silent_read : ∀ (sel : Selection) s c, (sel.read o r s).Asked c → ¬ c.AsksAtlas r a
  silent_open : ∀ as versions balances,
    List.Forall₂ (fun a v => o.probe.found (chain r.block) a = some v) as versions →
      ∀ replies p, (o.scheduler.pool true r.block o.config.batchSizes.minipoolDetails
          (detailsPlan r) (fresh as versions balances)).Reaches replies p →
        ∀ t ∈ p.seats, ∀ prepared, t.2.phase = .inFlight prepared →
          ∀ call ∈ prepared.calls, ¬ call.sub.AsksAtlas r a
  /-- record nothing in its place, -/
  lacks_one : ∀ s m, (one o r a s).value = .ok m → LacksAtlas m
  lacks_read : ∀ (sel : Selection) s ms, (sel.read o r s).value = .ok ms →
    ∀ m ∈ ms, m.address = a → LacksAtlas m
  /-- and cannot tell chains apart that differ in it alone. -/
  same_one : ∀ {τ : Type} (o' : Observer τ) chain', o.Twins o' chain chain' →
    AgreeBeyondAtlas chain chain' r a → ∀ s s', (one o r a s).Same (one o' r a s')
  same_read : ∀ {τ : Type} (o' : Observer τ) chain', o.Twins o' chain chain' →
    AgreeBeyondAtlas chain chain' r a →
      ∀ (sel : Selection) s s', (sel.read o r s).Same (sel.read o' r s')
  same_open : ∀ {τ : Type} (o' : Observer τ) chain', o.Twins o' chain chain' →
    AgreeBeyondAtlas chain chain' r a → τ →
      ∀ as versions balances, as.length ≤ 2 * maxItemCount →
        List.Forall₂ (fun a v => o.probe.found (chain r.block) a = some v) as versions →
          ∀ p, (o.scheduler.pool true r.block o.config.batchSizes.minipoolDetails (detailsPlan r)
              (fresh as versions balances)).Reaches (o.scheduler.client.Gives o.scheduler.hub) p →
            (o'.scheduler.pool true r.block o'.config.batchSizes.minipoolDetails (detailsPlan r)
              (fresh as versions balances)).Reaches
                (o'.scheduler.client.Gives o'.scheduler.hub) p

/-- **What only the newer delegates tell.** Whatever versions are beside it and whatever version the
probe falls back to, a minipool of version 1 or 2 is not asked, and what is read does not depend on
what it would have answered. One of version 3 is asked, and what it answers is recorded. -/
theorem atlas_by_version (ho : o.Watches chain) (r : Registry) :
    (∀ a v, o.probe.found (chain r.block) a = some v → v = 1 ∨ v = 2 →
      IgnoresAtlas o chain r a) ∧
    ∀ a, o.probe.found (chain r.block) a = some 3 →
      (∀ s m, (one o r a s).value = .ok m → AtlasTells (chain r.block) r a m) ∧
        ∀ (sel : Selection) s ms, (sel.read o r s).value = .ok ms →
          ∀ m ∈ ms, m.address = a → AtlasTells (chain r.block) r a m := by
  refine ⟨fun a v hv holder => ?_, fun a hv => ⟨fun s m h => ?_, fun sel s ms h m hm ha => ?_⟩⟩
  · have hnot : o.probe.found (chain r.block) a ≠ some 3 := by
      rw [hv]
      rcases holder with rfl | rfl <;> decide
    exact {
      silent_one := fun s c => not_asksAtlas_of_asked_one ho hnot
      silent_read := fun sel s c => Selection.not_asksAtlas_of_asked_read ho hnot
      silent_open := fun as versions balances hfound replies p h t ht prepared =>
        not_asksAtlas_of_open ho hnot hfound h ht
      lacks_one := fun s m h => lacksAtlas_of_observed? ((one_eq_ok_iff ho).1 h) hv holder
      lacks_read := fun sel s ms h m hm ha => by
        subst ha
        exact lacksAtlas_of_observed? (Selection.observed?_of_mem ho h hm) hv holder
      same_one := fun o' chain' ht hagree s s' => Minipool.same_one ht hagree hnot a
      same_read := fun o' chain' ht hagree sel s s' => Selection.same_read ht hagree hnot
      same_open := fun o' chain' ht hagree s' as versions balances hlen hfound p =>
        reaches_of_beyondAtlas ht hagree hnot s' hlen hfound }
  · exact atlasTells_of_observed? ((one_eq_ok_iff ho).1 h) hv
  · subst ha
    exact atlasTells_of_observed? (Selection.observed?_of_mem ho h hm) hv

end Minipool

namespace Chain.twoMinipools

instance (r : Registry) (a : Address) (c : SubCall) : Decidable (c.AsksAtlas r a) :=
  inferInstanceAs (Decidable
    ((c.target = a ∧
        ∃ w ∈ Contract.AtlasDelegate.selectors, c.data.take 4 = Bytes.ofNat 4 w.toNat) ∨
      (c.target = r.address .minipoolBondReducer ∧
        (∃ w ∈ Contract.BondReducer.selectors, c.data.take 4 = Bytes.ofNat 4 w.toNat) ∧
          c.data.drop 4 = Abi.Arguments.encode a)))

/-- The chain, if the minipool at the address 0 fails where only the newer ones answer. -/
def reverting : Chain := fun block c =>
  if c.AsksAtlas registry ⟨0⟩ then ⟨false, []⟩ else twoMinipools block c

/-- An observer of that chain. -/
def revertingObserver : Observer Unit := ⟨{}, .ofChain reverting ⟨9⟩ 1, ⟨1⟩⟩

theorem twins : (observer {}).Twins revertingObserver twoMinipools reverting := by
  have hwatches : (observer {}).Watches twoMinipools := watches (by decide)
  refine ⟨hwatches, ⟨client_answersFor _ _, fun block c => ?_, by decide⟩, rfl, rfl, rfl, rfl⟩
  unfold reverting
  split
  · exact Nat.zero_le _
  · exact hwatches.bounded block c

end Chain.twoMinipools

namespace Minipool

open Contract Chain.twoMinipools

/-- Of two minipools the first has version 1. Whether it answers or fails where it is not asked, the
same is read of both. The second has version 3 and is asked. -/
theorem atlas_by_version_twoMinipools :
    (Selection.all.read (observer {}) registry ()).Same
        (Selection.all.read revertingObserver registry ()) ∧
      (∃ m, (one (observer {}) registry ⟨0⟩ ()).value = .ok m ∧ m.isVacant = false) ∧
        ∃ m, (one (observer {}) registry ⟨1⟩ ()).value = .ok m ∧ m.isVacant = true := by
  have ho : (observer {}).Watches .twoMinipools := watches (by decide)
  obtain ⟨holder, hnewer⟩ := atlas_by_version ho registry
  have hignores := holder ⟨0⟩ 1 (by decide +kernel) (.inl rfl)
  have hagree : AgreeBeyondAtlas .twoMinipools reverting registry ⟨0⟩ := fun c hc => if_neg hc
  have hread : ∀ a, (observed? (Chain.twoMinipools registry.block) (observer {}).probe registry
      a).isSome = true → ∃ m, (one (observer {}) registry a ()).value = .ok m := by
    intro a h
    obtain ⟨m, hm⟩ := Option.isSome_iff_exists.1 h
    exact ⟨m, (one_eq_ok_iff ho).2 hm⟩
  obtain ⟨m, hm⟩ := hread ⟨0⟩ (by decide +kernel)
  obtain ⟨m', hm'⟩ := hread ⟨1⟩ (by decide +kernel)
  refine ⟨hignores.same_read _ _ twins hagree _ _ _, ⟨m, hm, (hignores.lacks_one _ m hm).isVacant⟩,
    m', hm', ?_⟩
  have htold := ((hnewer ⟨1⟩ (by decide +kernel)).1 _ m' hm').isVacant
  have hvacant : told (Chain.twoMinipools registry.block) AtlasDelegate.getVacant ⟨1⟩ () =
      some true := by decide +kernel
  exact Option.some.inj (htold.symm.trans hvacant)

end Minipool

end StakingSnapshot
