import StakingSnapshot.Proofs.Schedule.Unreadable
import StakingSnapshot.Proofs.Version.Resolution

/-!
# Many contracts have the versions that each of them has

The version of a contract is found alone or together with those of others, in batches. Against a
chain both ways come to the same, also where contracts come up more than once, where they do not
answer, and where they answer something that is no version.

* `VersionProbe.Garbled`: a contract answers something that is no version.
* `VersionProbe.resolve_of_garbled`, `VersionProbe.resolveAll_of_garbled`: then there is no version
  for it, and none for any of the others.
* `VersionProbe.Agrees`: what one contract and many have to do with each other;
  `VersionProbe.resolveAll_agrees`: against every chain they do so.
-/

namespace StakingSnapshot

variable {σ : Type}

namespace VersionProbe

variable {p : VersionProbe} {answer : SubCall → CallResult} {a : Address} {targets : List Address}
  {size : Nat}

/-! ## Answers that are no version -/

/-- The contract succeeds with data that is not the layout of a version. -/
def Garbled (answer : SubCall → CallResult) (a : Address) : Prop :=
  (answer (call a).sub).success = true ∧
    ∀ v : UInt8, (answer (call a).sub).data ≠ Abi.Kind.uint8.encode v

/-- Why a garbled answer ends a read. -/
def garbledFault (a : Address) : Fault := .decode a "version()" Abi.malformedText

theorem garbled_iff :
    Garbled answer a ↔ (answer (call a).sub).success = true ∧
      Abi.Kind.uint8.decode (answer (call a).sub).data = none := by
  rw [Option.eq_none_iff_forall_ne_some]
  exact and_congr_right fun _ => forall_congr' fun v =>
    not_congr Abi.Kind.decode_uint8_eq_some_iff.symm

theorem fault?_call_eq_some_iff {e : Fault} :
    (call a).fault? (answer (call a).sub) = some e ↔ Garbled answer a ∧ e = garbledFault a := by
  rw [garbled_iff]
  exact Call.fault?_typed_eq_some_iff

theorem fault?_call_eq_none_iff :
    (call a).fault? (answer (call a).sub) = none ↔ ¬ Garbled answer a := by
  constructor
  · intro h hgarbled
    rw [fault?_call_eq_some_iff.2 ⟨hgarbled, rfl⟩] at h
    cases h
  · intro h
    rw [Option.eq_none_iff_forall_ne_some]
    exact fun e he => h (fault?_call_eq_some_iff.1 he).1

/-- The first garbled answer is what many calls end with. -/
theorem faultIn?_map_call_eq_some_iff {e : Fault} :
    faultIn? answer (targets.map call) = some e ↔
      ∃ front a back, targets = front ++ a :: back ∧ (Garbled answer a ∧ e = garbledFault a) ∧
        ∀ b ∈ front, ¬ Garbled answer b := by
  rw [faultIn?, List.findSome?_map, List.findSome?_eq_some_iff]
  simp only [Function.comp_apply, fault?_call_eq_some_iff, fault?_call_eq_none_iff]

theorem faultIn?_map_call_eq_none_iff :
    faultIn? answer (targets.map call) = none ↔ ∀ a ∈ targets, ¬ Garbled answer a := by
  rw [faultIn?, List.findSome?_map, List.findSome?_eq_none_iff]
  simp only [Function.comp_apply, fault?_call_eq_none_iff]

/-! ## Batches -/

/-- How the items of many contracts register their calls. -/
def probes (targets : List Address) : Plan UInt8 := Plan.byKey targets fun a => [call a]

theorem registers_probes (i : Nat) (xs : List UInt8) : (probes targets).Registers i xs :=
  fun _ _ _ => ⟨_, _, rfl⟩

/-- A batch calls the contracts at its indices. -/
theorem registered_batchItems (size : Nat) (targets : List Address) (k : Nat) :
    (probes targets).registered (k * size)
        (batchItems size (List.replicate targets.length 0) k) =
      (batchItems size targets k).map call := by
  rw [probes, Plan.registered_byKey, Scheduler.length_batchItems, List.length_replicate,
    ← List.length_drop, ← List.take_eq_take_min, ← List.map_eq_flatMap]
  rfl

/-- The first garbled answer of a batch, by its index. -/
theorem faultIn?_batch_eq_some_iff {k : Nat} {e : Fault} :
    faultIn? answer ((batchItems size targets k).map call) = some e ↔
      ∃ (j : Nat) (a : Address), (j < size ∧ targets[k * size + j]? = some a) ∧
        (Garbled answer a ∧ e = garbledFault a) ∧
          ∀ j' < j, ∀ b, targets[k * size + j']? = some b → ¬ Garbled answer b := by
  rw [faultIn?_map_call_eq_some_iff]
  constructor
  · rintro ⟨front, a, back, hsplit, ha, hfront⟩
    have hget : ∀ j : Nat, (batchItems size targets k)[j]? = (front ++ a :: back)[j]? := by
      intro j
      rw [hsplit]
    have hlast : (batchItems size targets k)[front.length]? = some a := by
      rw [hget, List.getElem?_append_right (Nat.le_refl _), Nat.sub_self]
      rfl
    obtain ⟨hj, hlast⟩ := Scheduler.getElem?_batchItems.1 hlast
    refine ⟨front.length, a, ⟨hj, hlast⟩, ha, fun j' hj' b hb => ?_⟩
    have hb' := Scheduler.getElem?_batchItems.2 ⟨Nat.lt_trans hj' hj, hb⟩
    rw [hget, List.getElem?_append_left hj'] at hb'
    exact hfront b (List.mem_of_getElem? hb')
  · rintro ⟨j, a, hj, ha, hbefore⟩
    have hget := Scheduler.getElem?_batchItems.2 hj
    obtain ⟨hlt, rfl⟩ := List.getElem?_eq_some_iff.1 hget
    refine ⟨(batchItems size targets k).take j, _, (batchItems size targets k).drop (j + 1), ?_, ha,
      fun b hb => ?_⟩
    · rw [← List.drop_eq_getElem_cons hlt, List.take_append_drop]
    · obtain ⟨j', hj', rfl⟩ := List.mem_take_iff_getElem.1 hb
      have hget' := List.getElem?_eq_getElem (l := batchItems size targets k) (i := j') (by omega)
      exact hbefore j' (by omega) _ (Scheduler.getElem?_batchItems.1 hget').2

section Reads

variable {q : Scheduler σ} {chain : Chain} {block : BlockRef}

theorem resolve_of_garbled (hchain : q.client.AnswersFor q.hub chain)
    (hsized : Sized (chain block) [(call a).sub]) (h : Garbled (chain block) a) (s : σ) :
    (p.resolve q block a s).value = .error (garbledFault a) := by
  have hfault : faultIn? (chain block) [call a] = some (garbledFault a) :=
    faultIn?_map_call_eq_some_iff.2 ⟨[], a, [], rfl, ⟨h, rfl⟩, nofun⟩
  have hsized' : Sized (chain block) ([call a].map Call.sub) := hsized
  rw [resolve, Read.bind_of_error (Scheduler.flexQuery_of_unreadable hchain hsized' hfault 0 s)]

/-- The calls of the items are the calls of the contracts. -/
theorem sized_probes
    (hsized : Sized (chain block) (targets.map fun a => (call a).sub)) :
    Sized (chain block) (((probes targets).registered 0
      (List.replicate targets.length 0)).map Call.sub) := by
  rw [probes, registered_byKey, List.map_map]
  exact hsized

/-- **A garbled answer among many.** There are no versions, and the fault is that of the first
contract whose answer is garbled. -/
theorem resolveAll_of_garbled (hchain : q.client.AnswersFor q.hub chain) (hsize : 1 ≤ size)
    (hsized : Sized (chain block) (targets.map fun a => (call a).sub)) {i : Nat}
    (hi : targets[i]? = some a) (h : Garbled (chain block) a)
    (hbefore : ∀ j < i, ∀ b, targets[j]? = some b → ¬ Garbled (chain block) b) (s : σ) :
    (p.resolveAll q block size targets s).value =
      .error (.context (Scheduler.batchContext (i / size) (i / size * size)
        (min (i / size * size + size) targets.length)) (garbledFault a)) := by
  have hindex : i / size * size + i % size = i := Nat.div_add_mod' i size
  have hlt := (List.getElem?_eq_some_iff.1 hi).1
  have hlen : (List.replicate targets.length (0 : UInt8)).length = targets.length :=
    List.length_replicate
  have hfirst : q.FirstFault false block size (probes targets)
      (List.replicate targets.length 0) s (i / size) (garbledFault a) := by
    refine Scheduler.firstFault_of_unreadable hchain (sized_probes hsized)
      (fun _ => registers_probes _ _) (by rw [hlen]; omega) (fun k hk => ?_) ?_
    · rw [registered_batchItems, faultIn?_map_call_eq_none_iff]
      intro b hb
      obtain ⟨j, hj⟩ := List.mem_iff_getElem?.1 hb
      obtain ⟨hj, hb⟩ := Scheduler.getElem?_batchItems.1 hj
      have hmul := Nat.mul_le_mul_right size (Nat.succ_le_of_lt hk)
      rw [Nat.succ_mul] at hmul
      exact hbefore _ (by omega) b hb
    · rw [registered_batchItems, faultIn?_batch_eq_some_iff]
      refine ⟨i % size, a, ⟨Nat.mod_lt i hsize, ?_⟩, ⟨h, rfl⟩, fun j hj b hb => ?_⟩
      · rw [hindex]
        exact hi
      · exact hbefore _ (by omega) b hb
  have hvalue := (Scheduler.flexBatchQuery_reportsFirstFault hsize).value hfirst
  rw [hlen] at hvalue
  have hfetch : (q.flexBatchFetch block size (Plan.byKey targets fun a => [call a]) 0
      targets.length s).value = _ := hvalue
  rw [resolveAll, Read.bind_of_error hfetch]

/-! ## Side by side -/

section Pools

variable {r : Pool fun _ : Unit => List UInt8}

/-- If all batches ended well, the slots and the flags that they hold make the versions. -/
theorem forall₂_found_of_ended (hchain : q.client.AnswersFor q.hub chain) (hsize : 1 ≤ size)
    (hsized : Sized (chain block) (targets.map fun a => (call a).sub))
    (hreaches : (q.pool false block size (probes targets)
      (List.replicate targets.length 0)).Reaches (q.client.Gives q.hub) r)
    (hok : ∀ t ∈ r.seats, ∃ flags, t.2.result? = some (.ok flags)) :
    List.Forall₂ (fun a v => p.found (chain block) a = some v) targets
      ((r.seats.flatMap fun t => t.2.slots).zipWith
        (fun version ok => if ok then version else p.fallback)
        (r.seats.flatMap fun t => t.2.flags)) := by
  have hfollows := Scheduler.follows_seats hchain hsize (sized_probes hsized) hreaches
  have hfilled := Scheduler.filled_of_parts hfollows fun s hs => by
    obtain ⟨t, ht, rfl⟩ := List.mem_map.1 hs
    exact hok t ht
  rw [chunks_flatten hsize, List.map_map, List.flatMap_map, probes, Plan.filled_byKey_iff]
    at hfilled
  exact (forall₂_found hfilled.1 hfilled.2).1 rfl

/-- A batch that ended with a fault has the fault of its first contract whose answer is garbled. -/
theorem garbled_of_ended (hchain : q.client.AnswersFor q.hub chain) (hsize : 1 ≤ size)
    (hsized : Sized (chain block) (targets.map fun a => (call a).sub))
    (hreaches : (q.pool false block size (probes targets)
      (List.replicate targets.length 0)).Reaches (q.client.Gives q.hub) r) {k : Nat}
    {t : (_ : Unit) × Seat (List UInt8)} (ht : r.seats[k]? = some t) {e : Fault}
    (hended : t.2.result? = some (.error e)) :
    ∃ (j : Nat) (a : Address), (j < size ∧ targets[k * size + j]? = some a) ∧
      (Garbled (chain block) a ∧ e = garbledFault a) ∧
        ∀ j' < j, ∀ b, targets[k * size + j']? = some b → ¬ Garbled (chain block) b := by
  have hfault := Scheduler.faultIn_of_ended hchain hsize (sized_probes hsized) hreaches ht
    (registers_probes _ _) hended
  rwa [registered_batchItems, faultIn?_batch_eq_some_iff] at hfault

end Pools

end Reads

/-! ## One and many -/

/-- How one contract and many are asked for their versions against a chain that answers by
`answer`. -/
structure Agrees (p : VersionProbe) (q : Scheduler σ) (block : BlockRef) (size : Nat)
    (targets : List Address) (answer : SubCall → CallResult) : Prop where
  /-- A contract that tells a version has this version. -/
  told : ∀ a ∈ targets, ∀ v : UInt8, answer (call a).sub = ⟨true, Abi.Kind.uint8.encode v⟩ →
    ∀ s, (p.resolve q block a s).value = .ok v
  /-- A contract that does not answer has the version to fall back to. -/
  reverted : ∀ a ∈ targets, (answer (call a).sub).success = false →
    ∀ s, (p.resolve q block a s).value = .ok p.fallback
  /-- No other contract has it: the version goes with the one to fall back to only if the contract
  does not answer. -/
  fallback_iff : ∀ a ∈ targets, ∀ s,
    (∀ v, ((⟨v⟩ : VersionProbe).resolve q block a s).value = .ok v) ↔
      (answer (call a).sub).success = false
  /-- A contract whose answer is garbled has no version. -/
  garbled : ∀ a ∈ targets, Garbled answer a →
    ∀ s, (p.resolve q block a s).value = .error (.decode a "version()" Abi.malformedText)
  /-- Many contracts have versions exactly if each of them has one. -/
  exists_iff : ∀ s s', (∃ vs, (p.resolveAll q block size targets s).value = .ok vs) ↔
    ∀ a ∈ targets, ∃ v, (p.resolve q block a s').value = .ok v
  /-- Then there is a version for each, which is its own. -/
  ok_iff : ∀ s s' vs, (p.resolveAll q block size targets s).value = .ok vs ↔
    vs.length = targets.length ∧ ∀ (i : Nat) a v, targets[i]? = some a → vs[i]? = some v →
      (p.resolve q block a s').value = .ok v
  /-- A garbled answer among those of many ends the read. The fault is that of the first one. -/
  garbled_first : ∀ (i : Nat) a, targets[i]? = some a → Garbled answer a →
    (∀ j < i, ∀ b, targets[j]? = some b → ¬ Garbled answer b) →
      ∀ s, (p.resolveAll q block size targets s).value =
        .error (.context (Scheduler.batchContext (i / size) (i / size * size)
          (min (i / size * size + size) targets.length))
            (.decode a "version()" Abi.malformedText))
  /-- If the batches go side by side and all of them end well, what they hold makes the same
  versions. -/
  sideBySide : ∀ r, (q.pool false block size (probes targets)
      (List.replicate targets.length 0)).Reaches (q.client.Gives q.hub) r →
    (∀ t ∈ r.seats, ∃ flags, t.2.result? = some (.ok flags)) →
      ∀ s, (p.resolveAll q block size targets s).value =
        .ok ((r.seats.flatMap fun t => t.2.slots).zipWith
          (fun version ok => if ok then version else p.fallback)
          (r.seats.flatMap fun t => t.2.flags))
  /-- If one of them ends with a fault, it is that of a contract of this batch whose answer is
  garbled. -/
  sideBySide_fault : ∀ r, (q.pool false block size (probes targets)
      (List.replicate targets.length 0)).Reaches (q.client.Gives q.hub) r →
    ∀ (k : Nat) t e, r.seats[k]? = some t → t.2.result? = some (.error e) →
      ∃ (j : Nat) (a : Address), (j < size ∧ targets[k * size + j]? = some a) ∧
        (Garbled answer a ∧ e = .decode a "version()" Abi.malformedText) ∧
          ∀ j' < j, ∀ b, targets[k * size + j']? = some b → ¬ Garbled answer b

/-- **One and many.** Against every chain, contracts have the same versions together as alone. -/
theorem resolveAll_agrees (p : VersionProbe) {q : Scheduler σ} {chain : Chain}
    (hchain : q.client.AnswersFor q.hub chain) {block : BlockRef} {size : Nat} (hsize : 1 ≤ size)
    {targets : List Address}
    (hsized : Sized (chain block) (targets.map fun a => (call a).sub)) :
    p.Agrees q block size targets (chain block) := by
  have hone : ∀ a ∈ targets, Sized (chain block) [(call a).sub] := fun a ha =>
    hsized.of_sublist (List.singleton_sublist.2 (List.mem_map_of_mem ha))
  have hresolve : ∀ (p : VersionProbe), ∀ a ∈ targets, ∀ v s,
      (p.resolve q block a s).value = .ok v ↔ p.found (chain block) a = some v :=
    fun _ a ha _ _ => resolve_eq_ok_iff_of_sized hchain (hone a ha)
  have hreverted : ∀ (p : VersionProbe) a, (chain block (call a).sub).success = false →
      p.found (chain block) a = some p.fallback := by
    intro p a h
    rw [found, h]
    rfl
  have hall : ∀ s vs, (p.resolveAll q block size targets s).value = .ok vs ↔
      List.Forall₂ (fun a v => p.found (chain block) a = some v) targets vs :=
    fun _ _ => resolveAll_eq_ok_iff_of_sized hchain hsize hsized
  constructor
  case told =>
    intro a ha v h s
    rw [hresolve p a ha, found, h]
    exact Abi.Kind.decode_uint8_eq_some_iff.2 rfl
  case reverted => exact fun a ha h s => (hresolve p a ha _ s).2 (hreverted p a h)
  case fallback_iff =>
    intro a ha s
    constructor
    · -- What a contract tells cannot be two versions at once.
      intro h
      have hzero := (hresolve ⟨0⟩ a ha 0 s).1 (h 0)
      have hone := (hresolve ⟨1⟩ a ha 1 s).1 (h 1)
      cases hr : (chain block (call a).sub).success with
      | false => rfl
      | true =>
        simp only [found, hr, if_true] at hzero hone
        rw [hzero] at hone
        cases hone
    · exact fun h v => (hresolve ⟨v⟩ a ha v s).2 (hreverted ⟨v⟩ a h)
  case garbled => exact fun a ha h => resolve_of_garbled hchain (hone a ha) h
  case exists_iff =>
    intro s s'
    simp only [hall, exists_forall₂_iff]
    exact forall₂_congr fun a ha => exists_congr fun v => (hresolve p a ha v s').symm
  case ok_iff =>
    intro s s' vs
    rw [hall, forall₂_iff_getElem?]
    refine and_congr_right fun _ => forall_congr' fun i => forall₂_congr fun a v => ?_
    exact forall_congr' fun ha => imp_congr_right fun _ =>
      (hresolve p a (List.mem_of_getElem? ha) v s').symm
  case garbled_first =>
    exact fun i a hi h hbefore => resolveAll_of_garbled hchain hsize hsized hi h hbefore
  case sideBySide =>
    intro r hreaches hok s
    exact (hall s _).2 (forall₂_found_of_ended hchain hsize hsized hreaches hok)
  case sideBySide_fault =>
    exact fun r hreaches k t e ht hended => garbled_of_ended hchain hsize hsized hreaches ht hended

/-- A chain on which the first contract has version three, the second one does not answer, and the
third one answers a number that is too large for a version. -/
def threeContracts : Chain := fun _ c =>
  if c.target = ⟨1⟩ then ⟨true, Abi.word 3⟩
  else if c.target = ⟨2⟩ then ⟨false, []⟩
  else ⟨true, Abi.word 256⟩

/-- The contracts in batches of two, where the second one comes up twice and ends a batch. With the
third one among them, at the end, there are no versions. -/
theorem resolveAll_threeContracts :
    let q := Scheduler.ofChain threeContracts ⟨0⟩ 1
    ((⟨7⟩ : VersionProbe).resolveAll q .latest 2 [⟨1⟩, ⟨2⟩, ⟨1⟩, ⟨2⟩, ⟨1⟩] ()).value =
        .ok [3, 7, 3, 7, 3] ∧
      ((⟨7⟩ : VersionProbe).resolveAll q .latest 2 [⟨1⟩, ⟨2⟩, ⟨1⟩, ⟨3⟩] ()).value =
        .error (.context "batch 1 [2, 4)" (.decode ⟨3⟩ "version()" "<abi>")) := by
  have hchain : (Scheduler.ofChain threeContracts ⟨0⟩ 1).client.AnswersFor ⟨0⟩ threeContracts :=
    Chain.client_answersFor _ _
  refine ⟨?_, ?_⟩
  · have h : (⟨7⟩ : VersionProbe).Agrees (.ofChain threeContracts ⟨0⟩ 1) .latest 2
        [⟨1⟩, ⟨2⟩, ⟨1⟩, ⟨2⟩, ⟨1⟩] (threeContracts .latest) :=
      resolveAll_agrees _ hchain (by decide) ⟨by decide, by decide, by decide⟩
    have hfirst := h.told ⟨1⟩ (by decide) 3 (by decide +kernel) ()
    have hsecond := h.reverted ⟨2⟩ (by decide) (by decide +kernel) ()
    refine (h.ok_iff () () _).2 ⟨rfl, fun i a v ha hv => ?_⟩
    rcases i with _ | _ | _ | _ | _ | i <;> cases ha <;> cases hv
    · exact hfirst
    · exact hsecond
    · exact hfirst
    · exact hsecond
    · exact hfirst
  · have h : (⟨7⟩ : VersionProbe).Agrees (.ofChain threeContracts ⟨0⟩ 1) .latest 2
        [⟨1⟩, ⟨2⟩, ⟨1⟩, ⟨3⟩] (threeContracts .latest) :=
      resolveAll_agrees _ hchain (by decide) ⟨by decide, by decide, by decide⟩
    refine h.garbled_first 3 ⟨3⟩ rfl (garbled_iff.2 (by decide +kernel)) (fun j hj b hb => ?_) ()
    rw [garbled_iff]
    obtain rfl | rfl | rfl : j = 0 ∨ j = 1 ∨ j = 2 := by omega
    all_goals
      cases hb
      decide +kernel

end VersionProbe

end StakingSnapshot
