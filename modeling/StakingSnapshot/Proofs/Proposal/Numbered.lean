import StakingSnapshot.Proofs.Schedule.Trace
import StakingSnapshot.Proofs.Session.Conduct
import StakingSnapshot.Proofs.Snapshot.Counts

/-!
# All proposals, by number

Proposals have the numbers from 1 on, and items of a batch the indices from 0 on.

* `Proposal.one_eq_ok_iff`: one proposal, which is what is made of its number.
* `Proposal.exists_observed?_iff`: when something is made of a number.
* `Proposal.AskedAbout`: the questions for proposals; `Proposal.askedAbout_ofIds`.
* `Proposal.Numbered`: what a snapshot of all proposals has and has asked for;
  `Proposal.every_numbered`.
-/

namespace StakingSnapshot

namespace Proposal

open Contract

section Observed

variable {answer : SubCall → CallResult} {contract : Address} {id : UInt64}

/-- Something is made of a number if all calls for it succeed and return what can be read. -/
theorem exists_observed?_iff :
    (∃ p, observed? answer contract id = some p) ↔
      ∀ c ∈ detailsCalls contract id, c.Passes true (answer c.sub) := by
  constructor
  · rintro ⟨p, hp⟩
    obtain ⟨x, hx, -⟩ := Option.map_eq_some_iff.1 hp
    obtain ⟨_, _, hplan, hall, -⟩ := Plan.outcome?_eq_some_iff.1 hx
    cases hplan
    exact hall
  · intro hall
    exact ⟨_, Option.map_eq_some_iff.2 ⟨_, Plan.outcome?_eq_some_iff.2 ⟨_, _, rfl, hall, rfl⟩, rfl⟩⟩

theorem length_detailsCalls : (detailsCalls contract id).length = 20 := rfl

/-- Nobody but the contract of proposals is called. -/
theorem target_detailsCalls : ∀ c ∈ detailsCalls contract id, c.target = contract := by
  have htargets : (detailsCalls contract id).map (fun c => c.target) =
      List.replicate 20 contract := rfl
  exact fun c hc => List.eq_of_mem_replicate (htargets ▸ List.mem_map_of_mem hc)

end Observed

/-! ## The questions -/

section Questions

variable {σ : Type}

/-- Aggregates at the block of the registry, one for each batch of proposals, with the calls for
each of them in turn. -/
structure AskedAbout (o : Observer σ) (r : Registry) (ids : List UInt64) (sent : List Request) :
    Prop where
  batches : sent.length = (ids.length + o.config.batchSizes.proposalDetails - 1) /
    o.config.batchSizes.proposalDetails
  pinned : ∀ request ∈ sent, request.IsSent o.scheduler.hub r.block
  calls : sent.flatMap Request.calls =
    ids.flatMap fun id => (detailsCalls (r.address .daoProtocolProposal) id).map Call.sub

namespace AskedAbout

variable {o : Observer σ} {r : Registry} {ids : List UInt64} {sent : List Request}

theorem length_calls (h : AskedAbout o r ids sent) :
    (sent.flatMap Request.calls).length = 20 * ids.length := by
  rw [h.calls, List.length_flatMap]
  simp only [List.length_map, length_detailsCalls, List.map_const', List.sum_replicate_nat]
  exact Nat.mul_comm _ _

theorem target_calls (h : AskedAbout o r ids sent) :
    ∀ c ∈ sent.flatMap Request.calls, c.target = r.address .daoProtocolProposal := by
  intro c hc
  rw [h.calls] at hc
  obtain ⟨id, -, hc⟩ := List.mem_flatMap.1 hc
  obtain ⟨call, hcall, rfl⟩ := List.mem_map.1 hc
  exact target_detailsCalls call hcall

end AskedAbout

/-- The calls of an item are those for its number. -/
theorem callsAt_detailsPlan {contract : Address} {ids : List UInt64} {i : Nat} {p : Proposal}
    (h : (ids.map ofId)[i]? = some p) :
    (detailsPlan contract).callsAt (ids.map ofId) i = (detailsCalls contract p.id).map Call.sub := by
  rw [Plan.callsAt, h]
  rfl

/-- **The questions for proposals.** Whoever answers, a read that ends well has asked about each
number. -/
theorem askedAbout_ofIds {o : Observer σ} (hsize : 0 < o.config.batchSizes.proposalDetails)
    {r : Registry} {ids : List UInt64} {s : σ} {ps : List Proposal}
    (h : (ofIds o r ids s).value = .ok ps) : AskedAbout o r ids (ofIds o r ids s).sent := by
  obtain ⟨items, hitems, -⟩ := Read.bind_value_eq_ok_iff.1 h
  rw [Read.context_value_eq_ok_iff] at hitems
  have htraced := Scheduler.batchQuery_traced o.scheduler r.block hsize
    (detailsPlan (r.address .daoProtocolProposal)) (ids.map ofId) s
  have hcalls : ∀ i < (ids.map ofId).length,
      (detailsPlan (r.address .daoProtocolProposal)).callsAt (ids.map ofId) i ≠ [] := by
    intro i hi
    rw [callsAt_detailsPlan (List.getElem?_eq_getElem hi)]
    exact List.cons_ne_nil _ _
  have hsent : (ofIds o r ids s).sent = (o.scheduler.batchQuery r.block
      o.config.batchSizes.proposalDetails (detailsPlan (r.address .daoProtocolProposal))
      (ids.map ofId) s).sent := by
    rw [ofIds, Read.bind_of_ok (Read.context_value_eq_ok_iff.2 hitems), Read.sent_context]
    exact List.append_nil _
  rw [hsent]
  constructor
  case batches =>
    rw [htraced.sent items hitems, Scheduler.aggregates_eq_map hsize hcalls, List.length_map,
      List.length_range, List.length_map]
  case pinned =>
    intro request hrequest
    rw [htraced.sent items hitems, Scheduler.aggregates_eq_map hsize hcalls] at hrequest
    obtain ⟨k, -, rfl⟩ := List.mem_map.1 hrequest
    exact ⟨_, rfl⟩
  case calls =>
    rw [htraced.calls items hitems, Plan.flatMap_callsAt fun i p hp => callsAt_detailsPlan hp,
      List.flatMap_map]
    rfl

/-- The count is asked for by one question. -/
theorem sent_count {o : Observer σ} {r : Registry} {s : σ} {n : Nat}
    (h : (count o r s).value = .ok n) :
    (count o r s).sent =
      [Snapshot.question o r.block (r.address .daoProtocolProposal) Proposals.getTotal ()] := by
  obtain ⟨raw, hraw, -⟩ := Read.bind_value_eq_ok_iff.1 h
  rw [count, Read.bind_of_ok hraw, Read.sent_context, Snapshot.sent_wordOf]
  exact List.append_nil _

end Questions

/-! ## The snapshot -/

section Reads

variable {σ τ : Type} {o : Observer σ} {o' : Observer τ} {chain : Chain} {r : Registry} {s : σ}

/-- **One proposal.** -/
theorem one_eq_ok_iff (ho : o.Watches chain) {id : UInt64} {p : Proposal} :
    (one o r id s).value = .ok p ↔
      observed? (chain r.block) (r.address .daoProtocolProposal) id = some p := by
  have hlen : [id].length ≤ 2 * maxItemCount := by
    rw [List.length_singleton]
    decide
  simp only [one, Read.bind_value_eq_ok_iff, Read.pure_value_eq_ok_iff, ofIds_eq_ok_iff ho hlen,
    exists_forall₂_singleton_iff]

/-- What a snapshot of all proposals has and has asked for. Another observer of the chain may read
them one by one. -/
structure Numbered (o : Observer σ) (o' : Observer τ) (chain : Chain) (r : Registry)
    (sent : List Request) (ps : List Proposal) : Prop where
  /-- There are as many as the contract counts. -/
  count : ∃ total, told (chain r.block) Proposals.getTotal (r.address .daoProtocolProposal) () =
    some total ∧ ps.length = total.toNat
  /-- Numbers are larger than indices by one. -/
  number : ∀ i p, ps[i]? = some p → p.id.toNat = i + 1
  /-- Each field is what its own method tells about the number. -/
  recorded : ∀ p ∈ ps, Recorded (chain r.block) (r.address .daoProtocolProposal) p.id p
  /-- A read of the number alone comes to the same. -/
  alone : ∀ p ∈ ps, ∀ s', (one o' r p.id s').value = .ok p
  /-- The count is asked for first, and then there is one aggregate for each batch of numbers, with
  twenty calls for each of them, all to the contract of proposals. -/
  asked : ∃ batches, sent =
      Snapshot.question o r.block (r.address .daoProtocolProposal) Proposals.getTotal () ::
        batches ∧
    AskedAbout o r (ps.map Proposal.id) batches ∧
    batches.length = (ps.length + o.config.batchSizes.proposalDetails - 1) /
      o.config.batchSizes.proposalDetails ∧
    (batches.flatMap Request.calls).length = 20 * ps.length ∧
    ∀ c ∈ batches.flatMap Request.calls, c.target = r.address .daoProtocolProposal

/-- The numbers that were read are those that the proposals have. -/
theorem map_id_eq_numbers {answer : SubCall → CallResult} {contract : Address} {ps : List Proposal}
    (h : ∀ i p, ps[i]? = some p → observed? answer contract (UInt64.ofNat (i + 1)) = some p) :
    (List.range' 1 ps.length).map UInt64.ofNat = ps.map Proposal.id := by
  refine List.ext_getElem? fun i => ?_
  by_cases hi : i < ps.length
  · rw [getElem?_numbers hi, List.getElem?_map, List.getElem?_eq_getElem hi, Option.map_some]
    exact congrArg some (recorded_of_observed? (h i _ (List.getElem?_eq_getElem hi))).id.symm
  · rw [List.getElem?_eq_none (by simpa using hi), List.getElem?_eq_none (by simpa using hi)]

theorem numbered_of_every (ho : o.Watches chain) (ho' : o'.Watches chain) {ps : List Proposal}
    (h : (every o r s).value = .ok ps) : Numbered o o' chain r (every o r s).sent ps := by
  obtain ⟨-, hcount, hat⟩ := (every_eq_ok_iff ho).1 h
  have hentries := Snapshot.enumerates_proposals ho h
  have hids := map_id_eq_numbers hat
  have hrecorded : ∀ p ∈ ps, Recorded (chain r.block) (r.address .daoProtocolProposal) p.id p := by
    intro p hp
    obtain ⟨i, hi⟩ := List.mem_iff_getElem?.1 hp
    exact (hentries.entry i p hi).2
  constructor
  case count => exact hcount
  case number => exact fun i p hp => (hentries.entry i p hp).1
  case recorded => exact hrecorded
  case alone =>
    intro p hp s'
    obtain ⟨i, hi⟩ := List.mem_iff_getElem?.1 hp
    have hobserved := hat i p hi
    rw [← (recorded_of_observed? hobserved).id] at hobserved
    exact (one_eq_ok_iff ho').2 hobserved
  case asked =>
    rw [every, Snapshot.logged_value] at h
    obtain ⟨n, hn, hread⟩ := Read.bind_value_eq_ok_iff.1 h
    -- The number that was read is that of the proposals, so their numbers are known, too.
    obtain ⟨total, htotal, hlength⟩ := hcount
    obtain ⟨-, total', htotal', rfl⟩ := (count_eq_ok_iff ho).1 hn
    obtain rfl := Option.some.inj (htotal.symm.trans htotal')
    rw [← hlength, hids] at hread
    have hasked := askedAbout_ofIds ho.positive.proposalDetails hread
    refine ⟨_, ?_, hasked, ?_, ?_, hasked.target_calls⟩
    · rw [every, Snapshot.sent_logged, Read.bind_of_ok hn, ← hlength, hids, sent_count hn]
      rfl
    · rw [hasked.batches, List.length_map]
    · rw [hasked.length_calls, List.length_map]

/-- Something is read if the contract counts no more than the limit allows, and if all calls for the
numbers up to the count go well. -/
theorem exists_every_iff (ho : o.Watches chain) :
    (∃ ps, (every o r s).value = .ok ps) ↔
      ∃ total, told (chain r.block) Proposals.getTotal (r.address .daoProtocolProposal) () =
          some total ∧ total.toNat ≤ maxItemCount ∧
        ∀ i < total.toNat, ∀ c ∈ detailsCalls (r.address .daoProtocolProposal)
          (UInt64.ofNat (i + 1)), c.Passes true (chain r.block c.sub) := by
  constructor
  · rintro ⟨ps, h⟩
    obtain ⟨hmax, ⟨total, htotal, hlength⟩, hat⟩ := (every_eq_ok_iff ho).1 h
    refine ⟨total, htotal, hlength ▸ hmax, fun i hi => exists_observed?_iff.1 ?_⟩
    rw [← hlength] at hi
    exact ⟨_, hat i _ (List.getElem?_eq_getElem hi)⟩
  · rintro ⟨total, htotal, hmax, hpasses⟩
    have hlength : ((List.range' 1 total.toNat).map UInt64.ofNat).length = total.toNat := by
      rw [List.length_map, List.length_range']
    obtain ⟨ps, hps⟩ : ∃ ps, List.Forall₂ (fun id p => observed? (chain r.block)
        (r.address .daoProtocolProposal) id = some p)
        ((List.range' 1 total.toNat).map UInt64.ofNat) ps := by
      refine exists_forall₂_iff.2 fun id hid => exists_observed?_iff.2 ?_
      obtain ⟨i, hi⟩ := List.mem_iff_getElem?.1 hid
      have hlt : i < total.toNat := hlength ▸ (List.getElem?_eq_some_iff.1 hi).1
      rw [getElem?_numbers hlt, Option.some.injEq] at hi
      exact hi ▸ hpasses i hlt
    refine ⟨ps, ?_⟩
    rw [every, Snapshot.logged_value, Read.bind_value_eq_ok_iff]
    refine ⟨total.toNat, (count_eq_ok_iff ho).2 ⟨hmax, total, htotal, rfl⟩, ?_⟩
    exact (ofIds_eq_ok_iff ho (by rw [hlength]; omega)).2 hps

/-- **All proposals, by number.** A snapshot of all proposals that ends well has as many as the
contract counts, in the order of their numbers, and each field holds what its own method tells; to
read a single number comes to the same. It asks for the count, and then puts twenty calls for each
number, in as many aggregates as there are batches. It ends well exactly if the contract counts no
more than the limit allows and each of the calls succeeds and returns what can be read; if a single
one does not, there is no list. -/
theorem every_numbered (ho : o.Watches chain) (ho' : o'.Watches chain) (r : Registry) (s : σ) :
    (∀ ps, (every o r s).value = .ok ps → Numbered o o' chain r (every o r s).sent ps) ∧
      ((∃ ps, (every o r s).value = .ok ps) ↔
        ∃ total, told (chain r.block) Proposals.getTotal (r.address .daoProtocolProposal) () =
            some total ∧ total.toNat ≤ maxItemCount ∧
          ∀ i < total.toNat, ∀ c ∈ detailsCalls (r.address .daoProtocolProposal)
            (UInt64.ofNat (i + 1)), c.Passes true (chain r.block c.sub)) :=
  ⟨fun _ h => numbered_of_every ho ho' h, exists_every_iff ho⟩

end Reads

end Proposal

/-! ## A chain with two proposals -/

namespace Chain

open Contract
open Chain.twoNodes (registry)

/-- A chain with two proposals, of the blocks 101 and 102, without messages and payloads. -/
def twoProposals : Chain := fun _ c =>
  let data :=
    if c.Names Proposals.getTotal then Abi.word 2
    else if c.Names Proposals.getProposalBlock then Abi.word (100 + Bytes.toNat (c.data.drop 4))
    else if c.Names Proposals.getMessage then Abi.word 32 ++ Abi.word 0
    else if c.Names Proposals.getPayload then Abi.word 32 ++ Abi.word 0
    else Abi.word 1
  ⟨true, data⟩

namespace twoProposals

/-- An observer of the chain with the given sizes of batches. -/
def observer (sizes : BatchSizes) : Observer Unit :=
  ⟨{ batchSizes := sizes }, .ofChain twoProposals ⟨9⟩ 1, ⟨1⟩⟩

theorem watches {sizes : BatchSizes} (h : ∀ size ∈ sizes.toList, 1 ≤ size) :
    (observer sizes).Watches twoProposals where
  answers := client_answersFor _ _
  bounded := bounded_of_short fun block c => by
    have hempty : (Abi.word 32 ++ Abi.word 0).length ≤ 64 := by decide
    simp only [twoProposals]
    repeat' split
    all_goals first | exact Abi.length_word_le _ | exact hempty
  sizes := h

end twoProposals

end Chain

namespace Proposal

open Contract Chain.twoProposals
open Chain.twoNodes (registry)

/-- Two proposals, read one by one in a snapshot and by themselves. -/
theorem every_numbered_twoProposals :
    ∃ ps, (every (observer ⟨1, 1, 1, 1, 1, 1, 1, 1⟩) registry ()).value = .ok ps ∧
      ps.map (fun p => (p.id, p.targetBlock.raw)) = [(1, 101), (2, 102)] ∧
      (∀ p ∈ ps, (one (observer {}) registry p.id ()).value = .ok p) ∧
      (every (observer ⟨1, 1, 1, 1, 1, 1, 1, 1⟩) registry ()).sent.length = 3 := by
  have ho : (observer ⟨1, 1, 1, 1, 1, 1, 1, 1⟩).Watches .twoProposals := watches (by decide)
  have ho' : (observer {}).Watches .twoProposals := watches (by decide)
  obtain ⟨hall, hiff⟩ := every_numbered ho ho' registry ()
  have htotal : told (Chain.twoProposals registry.block) Proposals.getTotal
      (registry.address .daoProtocolProposal) () = some 2 := by decide +kernel
  have hpasses : ∀ i < 2, ∀ c ∈ detailsCalls (registry.address .daoProtocolProposal)
      (UInt64.ofNat (i + 1)), c.Passes true (Chain.twoProposals registry.block c.sub) := by
    decide +kernel
  obtain ⟨ps, hps⟩ := hiff.2 ⟨2, htotal, by decide, hpasses⟩
  obtain ⟨⟨total, htotal', hlength⟩, hnumber, hrecorded, halone, batches, hsent, -, hbatches, -⟩ :=
    hall ps hps
  obtain rfl := Option.some.inj (htotal.symm.trans htotal')
  obtain ⟨p, q, rfl⟩ := List.length_eq_two.1 hlength
  have hp : p.id = 1 := UInt64.toNat_inj.1 (hnumber 0 p rfl)
  have hq : q.id = 2 := UInt64.toNat_inj.1 (hnumber 1 q rfl)
  have hblock : ∀ id : UInt64, id = 1 ∨ id = 2 → told (Chain.twoProposals registry.block)
      Proposals.getProposalBlock (registry.address .daoProtocolProposal)
      (BitVec.ofNat 256 id.toNat) = some (BitVec.ofNat 256 (100 + id.toNat)) := by
    rintro id (rfl | rfl) <;> decide +kernel
  have hpblock := (hrecorded p (.head _)).targetBlock.symm.trans (hblock p.id (.inl hp))
  have hqblock := (hrecorded q (.tail _ (.head _))).targetBlock.symm.trans (hblock q.id (.inr hq))
  refine ⟨[p, q], hps, ?_, fun x hx => halone x hx (), ?_⟩
  · rw [List.map_cons, List.map_cons, List.map_nil, Option.some.inj hpblock,
      Option.some.inj hqblock, hp, hq]
    rfl
  · rw [hsent, List.length_cons, hbatches]
    simp [observer]

end Proposal

end StakingSnapshot
