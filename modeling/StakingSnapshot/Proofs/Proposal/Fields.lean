import StakingSnapshot.Proofs.Snapshot.Reading
import StakingSnapshot.Proposal.Snapshot

/-!
# What the fields of a proposal hold

* `Proposal.ContractTells`: the fields that one call each fills; `Proposal.recorded_of_outcome`
  follows the calls.
* `Proposal.ofIds_eq_ok_iff`: proposals by number, in batches of any size.
* `Proposal.count_eq_ok_iff`, `Proposal.every_eq_ok_iff`: all that the contract counts.
-/

namespace StakingSnapshot

namespace Proposal

open Contract

/-! ## One proposal -/

/-- What the contract tells about the proposal with a number is in its place. -/
structure ContractTells (answer : SubCall → CallResult) (contract : Address) (i : Word)
    (p : Proposal) : Prop where
  proposer : told answer Proposals.getProposer contract i = some p.proposer
  targetBlock : told answer Proposals.getProposalBlock contract i = some p.targetBlock.raw
  message : told answer Proposals.getMessage contract i = some p.message
  votingStart : told answer Proposals.getStart contract i = some p.votingStart.raw
  phase1End : told answer Proposals.getPhase1End contract i = some p.phase1End.raw
  phase2End : told answer Proposals.getPhase2End contract i = some p.phase2End.raw
  expiry : told answer Proposals.getExpires contract i = some p.expiry.raw
  created : told answer Proposals.getCreated contract i = some p.created.raw
  powerRequired : told answer Proposals.getVotingPowerRequired contract i =
    some p.powerRequired.raw
  powerFor : told answer Proposals.getVotingPowerFor contract i = some p.powerFor.raw
  powerAgainst : told answer Proposals.getVotingPowerAgainst contract i = some p.powerAgainst.raw
  powerAbstained : told answer Proposals.getVotingPowerAbstained contract i =
    some p.powerAbstained.raw
  powerToVeto : told answer Proposals.getVotingPowerVeto contract i = some p.powerToVeto.raw
  isDestroyed : told answer Proposals.getDestroyed contract i = some p.isDestroyed
  isFinalised : told answer Proposals.getFinalised contract i = some p.isFinalised
  isExecuted : told answer Proposals.getExecuted contract i = some p.isExecuted
  isVetoed : told answer Proposals.getVetoed contract i = some p.isVetoed
  vetoQuorum : told answer Proposals.getProposalVetoQuorum contract i = some p.vetoQuorum.raw
  payload : told answer Proposals.getPayload contract i = some p.payload
  stateCode : told answer Proposals.getState contract i = some p.stateCode.raw

/-- What is recorded of a number. -/
structure Recorded (answer : SubCall → CallResult) (contract : Address) (id : UInt64)
    (p : Proposal) : Prop extends ContractTells answer contract (BitVec.ofNat 256 id.toNat) p where
  id : p.id = id
  /-- The code has the meaning of what was just read. -/
  state : p.state = .ofCode p.stateCode.raw

/-- What becomes of a number: the details, and then the meaning of the code among them. -/
def observed? (answer : SubCall → CallResult) (contract : Address) (id : UInt64) :
    Option Proposal :=
  ((detailsPlan contract).outcome? answer true 0 (ofId id)).map interpretCode

variable {answer : SubCall → CallResult} {contract : Address} {id : UInt64} {p : Proposal}

/-- **What is recorded.** -/
theorem recorded_of_observed? (h : observed? answer contract id = some p) :
    Recorded answer contract id p := by
  obtain ⟨x, hx, rfl⟩ := Option.map_eq_some_iff.1 h
  obtain ⟨_, _, hplan, hall, rfl⟩ := Plan.outcome?_eq_some_iff.1 hx
  cases hplan
  simp only [detailsCalls, ofId, List.forall_mem_cons, Call.passes_typed_iff] at hall
  obtain ⟨⟨_, hproposer⟩, ⟨_, hblock⟩, ⟨_, hmessage⟩, ⟨_, hstart⟩, ⟨_, hphase1⟩, ⟨_, hphase2⟩,
    ⟨_, hexpiry⟩, ⟨_, hcreated⟩, ⟨_, hrequired⟩, ⟨_, hfor⟩, ⟨_, hagainst⟩, ⟨_, habstained⟩,
    ⟨_, hveto⟩, ⟨_, hdestroyed⟩, ⟨_, hfinalised⟩, ⟨_, hexecuted⟩, ⟨_, hvetoed⟩, ⟨_, hquorum⟩,
    ⟨_, hpayload⟩, ⟨_, hstate⟩, -⟩ := hall
  simp only [detailsCalls, ofId, applied_typed_cons hproposer, applied_typed_cons hblock,
    applied_typed_cons hmessage, applied_typed_cons hstart, applied_typed_cons hphase1,
    applied_typed_cons hphase2, applied_typed_cons hexpiry, applied_typed_cons hcreated,
    applied_typed_cons hrequired, applied_typed_cons hfor, applied_typed_cons hagainst,
    applied_typed_cons habstained, applied_typed_cons hveto, applied_typed_cons hdestroyed,
    applied_typed_cons hfinalised, applied_typed_cons hexecuted, applied_typed_cons hvetoed,
    applied_typed_cons hquorum, applied_typed_cons hpayload, applied_typed_cons hstate,
    applied_nil]
  exact {
    toContractTells := ⟨hproposer, hblock, hmessage, hstart, hphase1, hphase2, hexpiry, hcreated,
      hrequired, hfor, hagainst, habstained, hveto, hdestroyed, hfinalised, hexecuted, hvetoed,
      hquorum, hpayload, hstate⟩
    id := rfl
    state := rfl }

theorem small_detailsPlan : (detailsPlan contract).Small := by
  intro i p p' calls hplan
  cases hplan
  constructor
  · simp [detailsCalls]
  · simp [detailsCalls, Call.length_data_typed_le]

/-! ## Many proposals -/

section Reads

variable {σ : Type} {o : Observer σ} {chain : Chain} {r : Registry} {s : σ}

/-- **Proposals by number.** Each becomes what is made of its number alone. -/
theorem ofIds_eq_ok_iff (ho : o.Watches chain) {ids : List UInt64}
    (hlen : ids.length ≤ 2 * maxItemCount) {ps : List Proposal} :
    (ofIds o r ids s).value = .ok ps ↔
      List.Forall₂
        (fun id p => observed? (chain r.block) (r.address .daoProtocolProposal) id = some p)
        ids ps := by
  have hmany : (ids.map ofId).length ≤ 2 * maxItemCount := by rwa [List.length_map]
  simp only [ofIds, Read.bind_value_eq_ok_iff, Read.context_value_eq_ok_iff,
    Read.pure_value_eq_ok_iff,
    ho.batchQuery_eq_ok_iff ho.positive.proposalDetails small_detailsPlan (fun _ => rfl) hmany,
    List.forall₂_map_left_iff, observed?, Option.map_eq_some_iff]
  constructor
  · rintro ⟨xs, hxs, rfl⟩
    rw [List.forall₂_map_right_iff]
    exact hxs.imp fun _ x hx => ⟨x, hx, rfl⟩
  · intro h
    induction h with
    | nil => exact ⟨[], .nil, rfl⟩
    | cons hp _ ih =>
      obtain ⟨x, hx, rfl⟩ := hp
      obtain ⟨xs, hxs, rfl⟩ := ih (by rw [List.length_cons] at hlen; omega)
        (by rw [List.map_cons, List.length_cons] at hmany; omega)
      exact ⟨x :: xs, .cons hx hxs, rfl⟩

/-- The number of proposals. -/
theorem count_eq_ok_iff (ho : o.Watches chain) {n : Nat} :
    (count o r s).value = .ok n ↔
      n ≤ maxItemCount ∧ ∃ total, told (chain r.block) Proposals.getTotal
        (r.address .daoProtocolProposal) () = some total ∧ n = total.toNat := by
  simp only [count, Read.bind_value_eq_ok_iff, Read.context_value_eq_ok_iff,
    Snapshot.wordOf_eq_ok_iff ho]
  constructor
  · rintro ⟨total, htotal, hn⟩
    obtain ⟨rfl, hmax⟩ := itemCount_eq_ok_iff.1 hn
    exact ⟨hmax, total, htotal, rfl⟩
  · rintro ⟨hmax, total, htotal, rfl⟩
    exact ⟨total, htotal, itemCount_eq_ok_iff.2 ⟨rfl, hmax⟩⟩

/-- The number of the proposal at an index of a snapshot. -/
theorem getElem?_numbers {total i : Nat} (hi : i < total) :
    ((List.range' 1 total).map UInt64.ofNat)[i]? = some (UInt64.ofNat (i + 1)) := by
  rw [List.getElem?_map, List.getElem?_range' hi, Option.map_some, Nat.one_mul, Nat.add_comm]

/-- **All proposals.** As many as are counted, each what is made of its number. -/
theorem every_eq_ok_iff (ho : o.Watches chain) {ps : List Proposal} :
    (every o r s).value = .ok ps ↔
      ps.length ≤ maxItemCount ∧
        (∃ total, told (chain r.block) Proposals.getTotal (r.address .daoProtocolProposal) () =
            some total ∧ ps.length = total.toNat) ∧
          ∀ i p, ps[i]? = some p → observed? (chain r.block) (r.address .daoProtocolProposal)
            (UInt64.ofNat (i + 1)) = some p := by
  rw [every, Snapshot.logged_value, Read.bind_value_eq_ok_iff]
  simp only [count_eq_ok_iff ho]
  have hlength : ∀ n, ((List.range' 1 n).map UInt64.ofNat).length = n := fun n => by
    rw [List.length_map, List.length_range']
  constructor
  · rintro ⟨n, ⟨hmax, htotal⟩, hread⟩
    have hps := (ofIds_eq_ok_iff ho (by rw [hlength]; omega)).1 hread
    rw [forall₂_iff_getElem?, hlength] at hps
    obtain ⟨rfl, hat⟩ := hps
    refine ⟨hmax, htotal, fun i p hp => hat i _ _ (getElem?_numbers ?_) hp⟩
    exact (List.getElem?_eq_some_iff.1 hp).1
  · rintro ⟨hmax, htotal, hat⟩
    refine ⟨ps.length, ⟨hmax, htotal⟩, (ofIds_eq_ok_iff ho (by rw [hlength]; omega)).2 ?_⟩
    rw [forall₂_iff_getElem?, hlength]
    refine ⟨rfl, fun i id p hid hp => ?_⟩
    rw [getElem?_numbers (List.getElem?_eq_some_iff.1 hp).1, Option.some.injEq] at hid
    subst hid
    exact hat i p hp

end Reads

end Proposal

end StakingSnapshot
