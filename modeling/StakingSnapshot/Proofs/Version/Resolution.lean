import StakingSnapshot.Proofs.Snapshot.Reading

/-!
# Which version a contract has

* `VersionProbe.found`: the version by what a contract answers; none if it answers something that
  is no version.
* `VersionProbe.resolve_eq_ok_iff`, `VersionProbe.resolveAll_eq_ok_iff`: one contract and many, in
  batches of any size, have the versions that are found. They are about chains all of whose answers
  are bounded, `resolve_eq_ok_iff_of_sized` and `resolveAll_eq_ok_iff_of_sized` about calls that fit
  into a machine.
-/

namespace StakingSnapshot

variable {σ S : Type}

namespace Call

theorem passes_false_iff {c : Call S} {r : CallResult} : c.Passes false r ↔ c.Readable r :=
  ⟨fun h => h.readable, fun h => ⟨nofun, h⟩⟩

end Call

/-- Calls that are groups of their own have the flags of their results. -/
theorem groupFlags_single (answer : SubCall → CallResult) (calls : List (Call S)) :
    groupFlags (calls.map fun _ => 1) (answersTo answer calls) =
      calls.map fun c => (answer c.sub).success := by
  induction calls with
  | nil => rfl
  | cons c calls ih =>
    have hfirst : [answer c.sub].all (fun r => r.success) = (answer c.sub).success :=
      Bool.and_true _
    rw [List.map_cons, List.map_cons, ← ih, ← hfirst]
    rfl

/-- One aggregate whose calls may fail, against a chain. -/
theorem Scheduler.flexQuery_eq_ok_iff {q : Scheduler σ} {chain : Chain}
    (hchain : q.client.AnswersFor q.hub chain) {block : BlockRef} {calls : List (Call S)}
    (hsized : Sized (chain block) (calls.map Call.sub)) {slots slots' : S} {flags : List Bool}
    {s : σ} :
    (q.flexQuery block calls slots s).value = .ok (slots', flags) ↔
      (∀ c ∈ calls, c.Readable (chain block c.sub)) ∧
        slots' = applied (chain block) calls slots ∧
          flags = calls.map fun c => (chain block c.sub).success := by
  have hvalue : (q.run (Job.ofCalls false block (.ok calls)) slots s).value =
      (Job.ofCalls false block (.ok calls)).outcome (chain block) slots :=
    Job.run_value hchain (Job.fits_ofCalls hsized) s
  have hread : (q.flexQuery block calls slots s).value = .ok (slots', flags) ↔
      (q.run (Job.ofCalls false block (.ok calls)) slots s).value = (slots', .ok flags) :=
    map_both_eq_ok_iff
  rw [hread, hvalue, Job.outcome_eq_ok_iff, ← groupFlags_single]
  constructor
  · rintro ⟨_, _, hprepare, hall, rfl, rfl⟩
    cases hprepare
    exact ⟨fun c hc => (hall c hc).readable, rfl, rfl⟩
  · rintro ⟨hall, rfl, rfl⟩
    exact ⟨_, _, rfl, fun c hc => Call.passes_false_iff.2 (hall c hc), rfl, rfl⟩

namespace VersionProbe

variable {p : VersionProbe} {answer : SubCall → CallResult} {a : Address}

/-- The version by what the contract answers. Where the call fails it is the one to fall back to,
and where the data is no version there is none. -/
def found (p : VersionProbe) (answer : SubCall → CallResult) (a : Address) : Option UInt8 :=
  let r := answer (call a).sub
  if r.success then Abi.Kind.uint8.decode r.data else some p.fallback

/-- What is found is what a flexible read comes to. -/
theorem found_eq_some_iff {v : UInt8} :
    p.found answer a = some v ↔ (call a).Readable (answer (call a).sub) ∧
      v = if (answer (call a).sub).success then applied answer [call a] 0 else p.fallback := by
  have hreadable : (call a).Readable (answer (call a).sub) ↔ _ := Call.readable_typed_iff
  rw [hreadable, found]
  cases hr : (answer (call a).sub).success with
  | false => simp [eq_comm]
  | true =>
    rw [if_pos rfl, if_pos rfl]
    constructor
    · intro hv
      have htold : told answer Contract.Versioned.version a () = some v :=
        told_eq_some_iff.2 ⟨hr, hv⟩
      exact ⟨fun _ => ⟨v, hv⟩, (Call.applied_value_iff.2 htold).2⟩
    · rintro ⟨hdata, rfl⟩
      obtain ⟨w, hw⟩ := hdata rfl
      have htold : told answer Contract.Versioned.version a () = some w :=
        told_eq_some_iff.2 ⟨hr, hw⟩
      have hslot : w = applied answer [call a] 0 := (Call.applied_value_iff.2 htold).2
      rw [← hslot, hw]

theorem length_data_le (a : Address) : (call a).data.length ≤ 128 :=
  Abi.length_callData_le Contract.Versioned.version ()

section Reads

variable {q : Scheduler σ} {chain : Chain} {block : BlockRef} {s : σ}

/-- **One contract.** -/
theorem resolve_eq_ok_iff_of_sized (hchain : q.client.AnswersFor q.hub chain)
    (hsized : Sized (chain block) [(call a).sub]) {v : UInt8} :
    (p.resolve q block a s).value = .ok v ↔ p.found (chain block) a = some v := by
  rw [resolve, Read.bind_value_eq_ok_iff, found_eq_some_iff]
  have hread : ∀ version flags, (q.flexQuery block [call a] 0 s).value = .ok (version, flags) ↔ _ :=
    fun version flags => Scheduler.flexQuery_eq_ok_iff hchain hsized
  simp only [Prod.exists, hread, List.forall_mem_singleton, Read.pure_value_eq_ok_iff]
  constructor
  · rintro ⟨_, _, ⟨hall, rfl, rfl⟩, rfl⟩
    exact ⟨hall, rfl⟩
  · rintro ⟨hall, rfl⟩
    exact ⟨_, _, ⟨hall, rfl, rfl⟩, rfl⟩

theorem resolve_eq_ok_iff (hchain : q.client.AnswersFor q.hub chain) (hbounded : chain.Bounded)
    {v : UInt8} :
    (p.resolve q block a s).value = .ok v ↔ p.found (chain block) a = some v := by
  have hone : 1 ≤ Word.maxNat64 := by decide
  have hsized : Sized (chain block) ([call a].map Call.sub) := by
    refine hbounded.sized hone fun c hc => ?_
    obtain rfl := List.mem_singleton.1 hc
    exact length_data_le a
  exact resolve_eq_ok_iff_of_sized hchain hsized

theorem small_byKey (targets : List Address) :
    (Plan.byKey targets fun a => [call a]).Small :=
  Plan.small_byKey fun a =>
    ⟨Nat.succ_le_succ (Nat.zero_le _), List.forall_mem_singleton.2 (length_data_le a)⟩

/-- Versions and flags side by side, for each contract. -/
theorem forall₂_found {targets : List Address} {versions vs : List UInt8} {flags : List Bool}
    (h : List.Forall₂ (fun a v => (∀ c ∈ [call a], c.Passes false (answer c.sub)) ∧
      v = applied answer [call a] 0) targets versions)
    (hflags : flags = targets.map fun a => [call a].all fun c => (answer c.sub).success) :
    vs = versions.zipWith (fun v ok => if ok then v else p.fallback) flags ↔
      List.Forall₂ (fun a v => p.found answer a = some v) targets vs := by
  subst hflags
  induction h generalizing vs with
  | nil =>
    constructor
    · rintro rfl
      exact .nil
    · intro h
      cases h
      rfl
  | @cons a v targets versions hv _ ih =>
    obtain ⟨hall, rfl⟩ := hv
    have hreadable := (hall _ (.head _)).readable
    have hflag : [call a].all (fun c => (answer c.sub).success) = (answer (call a).sub).success :=
      Bool.and_true _
    rw [List.map_cons, List.zipWith_cons_cons, hflag]
    constructor
    · rintro rfl
      exact .cons (found_eq_some_iff.2 ⟨hreadable, rfl⟩) (ih.1 rfl)
    · intro h
      cases h with
      | cons hfound hrest => rw [(found_eq_some_iff.1 hfound).2, ih.2 hrest]

/-- The calls for many contracts are the calls for each of them. -/
theorem registered_byKey (targets : List Address) :
    (Plan.byKey targets fun a => [call a]).registered 0 (List.replicate targets.length 0) =
      targets.map call := by
  have hall := Plan.registered_byKey targets (fun a => [call a]) 0
    (List.replicate targets.length (0 : UInt8))
  rwa [List.drop_zero, List.length_replicate, List.take_length,
    ← List.map_eq_flatMap] at hall

/-- **Many contracts.** -/
theorem resolveAll_eq_ok_iff_of_sized (hchain : q.client.AnswersFor q.hub chain) {size : Nat}
    (hsize : 1 ≤ size) {targets : List Address}
    (hsized : Sized (chain block) (targets.map fun a => (call a).sub)) {vs : List UInt8} :
    (p.resolveAll q block size targets s).value = .ok vs ↔
      List.Forall₂ (fun a v => p.found (chain block) a = some v) targets vs := by
  have hregistered : ((Plan.byKey targets fun a => [call a]).registered 0
      (List.replicate targets.length 0)).map Call.sub = targets.map fun a => (call a).sub := by
    rw [registered_byKey, List.map_map]
    rfl
  have hread : ∀ versions flags s', (q.flexBatchFetch block size
      (Plan.byKey targets fun a => [call a]) 0 targets.length s').value =
        .ok (versions, flags) ↔ _ :=
    fun versions flags s' =>
      Scheduler.flexBatchQuery_eq_ok_iff hchain hsize (hregistered ▸ hsized)
  rw [resolveAll, Read.bind_value_eq_ok_iff]
  simp only [Prod.exists, hread, Plan.filled_byKey_iff, Read.pure_value_eq_ok_iff]
  constructor
  · rintro ⟨versions, flags, ⟨hversions, hflags⟩, rfl⟩
    exact (forall₂_found hversions hflags).1 rfl
  · intro h
    obtain ⟨versions, hversions⟩ : ∃ versions, List.Forall₂
        (fun a v => (∀ c ∈ [call a], c.Passes false (chain block c.sub)) ∧
          v = applied (chain block) [call a] 0) targets versions := by
      refine exists_forall₂_iff.2 fun a ha => ?_
      obtain ⟨v, hv⟩ := exists_forall₂_iff.1 ⟨vs, h⟩ a ha
      refine ⟨_, ?_, rfl⟩
      rw [List.forall_mem_singleton]
      exact Call.passes_false_iff.2 (found_eq_some_iff.1 hv).1
    exact ⟨versions, _, ⟨hversions, rfl⟩, ((forall₂_found hversions rfl).2 h).symm⟩

theorem resolveAll_eq_ok_iff (hchain : q.client.AnswersFor q.hub chain)
    (hbounded : chain.Bounded) {size : Nat} (hsize : 1 ≤ size) {targets : List Address}
    (hlen : targets.length ≤ 2 * maxItemCount) {vs : List UInt8} :
    (p.resolveAll q block size targets s).value = .ok vs ↔
      List.Forall₂ (fun a v => p.found (chain block) a = some v) targets vs := by
  have hmax : 2 * maxItemCount ≤ Word.maxNat64 := by decide
  have hsized : Sized (chain block) ((targets.map call).map Call.sub) := by
    refine hbounded.sized ?_ fun c hc => ?_
    · rw [List.length_map]
      exact Nat.le_trans hlen hmax
    · obtain ⟨a, -, rfl⟩ := List.mem_map.1 hc
      exact length_data_le a
  rw [List.map_map] at hsized
  exact resolveAll_eq_ok_iff_of_sized hchain hsize hsized

/-- To find a version, nothing else is asked. -/
theorem eq_of_asked_resolve {c : SubCall} (h : (p.resolve q block a s).Asked c) :
    c = (call a).sub := by
  rcases Read.asked_bind_iff.1 h with h | ⟨_, _, h⟩
  · exact List.mem_singleton.1 (Scheduler.registered_of_asked_flexQuery h)
  · exact absurd h Read.not_asked_pure

theorem mem_of_asked_resolveAll {size : Nat} {targets : List Address} {c : SubCall}
    (h : (p.resolveAll q block size targets s).Asked c) : ∃ a ∈ targets, c = (call a).sub := by
  rcases Read.asked_bind_iff.1 h with h | ⟨_, _, h⟩
  · obtain ⟨probe, hprobe, rfl⟩ := List.mem_map.1 (Scheduler.registered_of_asked_flexBatchQuery h)
    obtain ⟨a, ha, hmem⟩ := Plan.mem_registered_byKey hprobe
    obtain rfl := List.mem_singleton.1 hmem
    exact ⟨a, ha, rfl⟩
  · exact absurd h Read.not_asked_pure

theorem names_of_asked_resolve {c : SubCall} (h : (p.resolve q block a s).Asked c) :
    c.Names Contract.Versioned.version := by
  rw [eq_of_asked_resolve h]
  exact Call.names_typed_iff.2 rfl

theorem names_of_asked_resolveAll {size : Nat} {targets : List Address} {c : SubCall}
    (h : (p.resolveAll q block size targets s).Asked c) : c.Names Contract.Versioned.version := by
  obtain ⟨a, -, rfl⟩ := mem_of_asked_resolveAll h
  exact Call.names_typed_iff.2 rfl

end Reads

end VersionProbe

end StakingSnapshot
