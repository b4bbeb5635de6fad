import StakingSnapshot.Proofs.Minipool.Rounds

/-!
# What the fields of a minipool hold

Each round is followed through its calls: what they store is what the contracts tell, and what was
stored before stays.

* `Minipool.RegisterTells`, `Minipool.DelegateTells`, `Minipool.StorageTells`: the fields that one
  list of calls fills.
* `Minipool.Described`: the minipool between the two rounds.
* `Minipool.Recorded`: the minipool at the end; `Minipool.recorded_of_observed?`.
-/

namespace StakingSnapshot

namespace Minipool

open Contract

variable {answer : SubCall → CallResult} {p : VersionProbe} {r : Registry} {a : Address}
  {m : Minipool}

/-! ## One list of calls after another -/

/-- What the register of minipools tells about an address is in its place. -/
structure RegisterTells (answer : SubCall → CallResult) (r : Registry) (a : Address)
    (m : Minipool) : Prop where
  isKnown : told answer MinipoolManager.getMinipoolExists (r.address .minipoolManager) a =
    some m.isKnown
  pubkey : told answer MinipoolManager.getMinipoolPubkey (r.address .minipoolManager) a =
    some m.pubkey
  withdrawalCredentials : told answer MinipoolManager.getMinipoolWithdrawalCredentials
    (r.address .minipoolManager) a = some m.withdrawalCredentials
  isSlashed : told answer MinipoolManager.getMinipoolRPLSlashed (r.address .minipoolManager) a =
    some m.isSlashed
  depositCode : told answer MinipoolManager.getMinipoolDepositType (r.address .minipoolManager) a =
    some m.depositCode.raw

/-- What the delegate at an address tells is in its place. -/
structure DelegateTells (answer : SubCall → CallResult) (a : Address) (m : Minipool) : Prop where
  statusCode : told answer Delegate.getStatus a () = some m.statusCode.raw
  statusBlock : told answer Delegate.getStatusBlock a () = some m.statusBlock
  statusTime : told answer Delegate.getStatusTime a () = some m.statusTime.raw
  isFinalised : told answer Delegate.getFinalised a () = some m.isFinalised
  nodeFee : told answer Delegate.getNodeFee a () = some m.nodeFee
  nodeDeposit : told answer Delegate.getNodeDepositBalance a () = some m.nodeDeposit
  nodeDepositAssigned : told answer Delegate.getNodeDepositAssigned a () =
    some m.nodeDepositAssigned
  userDeposit : told answer Delegate.getUserDepositBalance a () = some m.userDeposit
  userDepositAssigned : told answer Delegate.getUserDepositAssigned a () =
    some m.userDepositAssigned
  userDepositAssignedTime : told answer Delegate.getUserDepositAssignedTime a () =
    some m.userDepositAssignedTime.raw
  usesLatestDelegate : told answer Delegate.getUseLatestDelegate a () = some m.usesLatestDelegate
  delegate : told answer Delegate.getDelegate a () = some m.delegate
  previousDelegate : told answer Delegate.getPreviousDelegate a () = some m.previousDelegate
  effectiveDelegate : told answer Delegate.getEffectiveDelegate a () = some m.effectiveDelegate
  node : told answer Delegate.getNodeAddress a () = some m.node
  refund : told answer Delegate.getNodeRefundBalance a () = some m.refund

/-- What the storage contract tells about the penalties of an address is in its place. -/
structure StorageTells (answer : SubCall → CallResult) (r : Registry) (a : Address)
    (m : Minipool) : Prop where
  penaltyCount : told answer Storage.getUint r.storage (StorageKey.penaltyCount a) =
    some m.penaltyCount
  penaltyRate : told answer Storage.getUint r.storage (StorageKey.penaltyRate a) =
    some m.penaltyRate

/-- What no call for the details fills: the minipool is as it was at the start, and no code has been
interpreted. -/
structure Untouched (a : Address) (version : UInt8) (balance : Word) (m : Minipool) : Prop where
  address : m.address = a
  version : m.version = version
  balance : m.balance = balance
  status : m.statusCode.kept = none
  deposit : m.depositCode.kept = none
  nodeShareOfTotal : m.nodeShareOfTotal = 0
  userShareOfTotal : m.userShareOfTotal = 0
  nodeShareOfBeacon : m.nodeShareOfBeacon = 0
  userShareOfBeacon : m.userShareOfBeacon = 0

section Calls

variable {version : UInt8} {balance : Word} {x : Minipool}

theorem untouched_start : Untouched a version balance (start a version balance) := by
  constructor <;> rfl

theorem Untouched.withoutAtlas (h : Untouched a version balance m) :
    Untouched a version balance m.withoutAtlas :=
  { h with }

/-- The calls to the register fill its fields. -/
theorem registerTells_applied (hall : ∀ c ∈ registerCalls r a, c.Passes true (answer c.sub))
    (h : Untouched a version balance x) :
    RegisterTells answer r a (applied answer (registerCalls r a) x) ∧
      Untouched a version balance (applied answer (registerCalls r a) x) := by
  simp only [registerCalls, List.forall_mem_cons, Call.passes_typed_iff] at hall
  obtain ⟨⟨_, hknown⟩, ⟨_, hpubkey⟩, ⟨_, hcredentials⟩, ⟨_, hslashed⟩, ⟨_, hdeposit⟩, -⟩ := hall
  simp only [registerCalls, applied_typed_cons hknown, applied_typed_cons hpubkey,
    applied_typed_cons hcredentials, applied_typed_cons hslashed, applied_typed_cons hdeposit,
    applied_nil]
  exact ⟨⟨hknown, hpubkey, hcredentials, hslashed, hdeposit⟩, { h with deposit := rfl }⟩

/-- The calls to the delegate fill its fields. -/
theorem delegateTells_applied (hall : ∀ c ∈ delegateCalls a, c.Passes true (answer c.sub))
    (h : Untouched a version balance x) :
    DelegateTells answer a (applied answer (delegateCalls a) x) ∧
      Untouched a version balance (applied answer (delegateCalls a) x) := by
  simp only [delegateCalls, List.forall_mem_cons, Call.passes_typed_iff] at hall
  obtain ⟨⟨_, hstatus⟩, ⟨_, hblock⟩, ⟨_, htime⟩, ⟨_, hfinalised⟩, ⟨_, hfee⟩, ⟨_, hnode⟩,
    ⟨_, hnodeAssigned⟩, ⟨_, huser⟩, ⟨_, huserAssigned⟩, ⟨_, hassignedTime⟩, ⟨_, hlatest⟩,
    ⟨_, hdelegate⟩, ⟨_, hprevious⟩, ⟨_, heffective⟩, ⟨_, haddress⟩, ⟨_, hrefund⟩, -⟩ := hall
  simp only [delegateCalls, applied_typed_cons hstatus, applied_typed_cons hblock,
    applied_typed_cons htime, applied_typed_cons hfinalised, applied_typed_cons hfee,
    applied_typed_cons hnode, applied_typed_cons hnodeAssigned, applied_typed_cons huser,
    applied_typed_cons huserAssigned, applied_typed_cons hassignedTime,
    applied_typed_cons hlatest, applied_typed_cons hdelegate, applied_typed_cons hprevious,
    applied_typed_cons heffective, applied_typed_cons haddress, applied_typed_cons hrefund,
    applied_nil]
  exact ⟨⟨hstatus, hblock, htime, hfinalised, hfee, hnode, hnodeAssigned, huser, huserAssigned,
    hassignedTime, hlatest, hdelegate, hprevious, heffective, haddress, hrefund⟩,
    { h with status := rfl }⟩

/-- The calls to the storage contract fill the penalties. -/
theorem storageTells_applied (hall : ∀ c ∈ penaltyCalls r a, c.Passes true (answer c.sub)) :
    StorageTells answer r a (applied answer (penaltyCalls r a) x) := by
  simp only [penaltyCalls, List.forall_mem_cons, Call.passes_typed_iff] at hall
  obtain ⟨⟨_, hcount⟩, ⟨_, hrate⟩, -⟩ := hall
  simp only [penaltyCalls, applied_typed_cons hcount, applied_typed_cons hrate, applied_nil]
  exact ⟨hcount, hrate⟩

/-- What the calls to the register filled, the calls to the delegate do not touch. -/
theorem keeps_delegateCalls : ∀ c ∈ delegateCalls a, c.Keeps (RegisterTells answer r a) := by
  simp only [delegateCalls, List.forall_mem_cons, List.not_mem_nil, false_imp_iff, implies_true,
    and_true]
  and_intros
  all_goals exact Call.keeps_typed fun _ _ h => { h with }

/-- The calls after those that every minipool answers do not touch what these filled. -/
theorem keeps_backCalls :
    ∀ c ∈ atlasCalls r a ++ penaltyCalls r a, c.Keeps fun m =>
      RegisterTells answer r a m ∧ DelegateTells answer a m ∧ Untouched a version balance m := by
  simp only [atlasCalls, penaltyCalls, List.cons_append, List.nil_append, List.forall_mem_cons,
    List.not_mem_nil, false_imp_iff, implies_true, and_true]
  and_intros
  all_goals
    exact Call.keeps_typed fun _ _ h => ⟨{ h.1 with }, { h.2.1 with }, { h.2.2 with }⟩

end Calls

/-! ## The two rounds -/

/-- The minipool after the round for its details. -/
structure Described (answer : SubCall → CallResult) (r : Registry) (a : Address)
    (version : UInt8) (balance : Word) (m : Minipool) : Prop extends
  RegisterTells answer r a m, DelegateTells answer a m, StorageTells answer r a m,
  Untouched a version balance m

/-- The calls for the details: those that all minipools answer, then others of which the last are
for the penalties. -/
theorem detailsPlan_split {version : UInt8} {balance : Word} {i : Nat} {x : Minipool}
    {calls : List (Call Minipool)}
    (h : detailsPlan r i (start a version balance) = .ok (x, calls)) :
    ∃ middle ⊆ atlasCalls r a, Untouched a version balance x ∧
      calls = registerCalls r a ++ (delegateCalls a ++ (middle ++ penaltyCalls r a)) := by
  rcases detailsPlan_eq_ok_iff.1 h with ⟨-, rfl, rfl⟩ | ⟨-, rfl, rfl⟩
  · exact ⟨[], List.nil_subset _, untouched_start.withoutAtlas, List.append_assoc _ _ _⟩
  · exact ⟨atlasCalls r a, List.Subset.refl _, untouched_start, List.append_assoc _ _ _⟩

/-- **The round for the details.** -/
theorem described_of_outcome {version : UInt8} {balance : Word} {x : Minipool}
    (h : (detailsPlan r).outcome? answer true 0 (start a version balance) = some x) :
    Described answer r a version balance x := by
  obtain ⟨x', calls, hplan, hall, rfl⟩ := Plan.outcome?_eq_some_iff.1 h
  obtain ⟨middle, hmiddle, huntouched, rfl⟩ := detailsPlan_split hplan
  simp only [List.forall_mem_append] at hall
  obtain ⟨hregisterCalls, hdelegateCalls, -, hpenaltyCalls⟩ := hall
  have hback : ∀ c ∈ middle ++ penaltyCalls r a, c ∈ atlasCalls r a ++ penaltyCalls r a :=
    fun c hc => List.mem_append.2 ((List.mem_append.1 hc).imp_left fun hc => hmiddle hc)
  -- One list of calls after another, with what the lists before it filled.
  obtain ⟨hregister, huntouched⟩ := registerTells_applied hregisterCalls huntouched
  obtain ⟨hdelegate, huntouched⟩ := delegateTells_applied hdelegateCalls huntouched
  have hregister := applied_of_keeps answer keeps_delegateCalls hregister
  obtain ⟨hregister, hdelegate, huntouched⟩ := applied_of_keeps answer
    (fun c hc => keeps_backCalls c (hback c hc)) ⟨hregister, hdelegate, huntouched⟩
  rw [applied_append, applied_append]
  rw [applied_append] at hregister hdelegate huntouched ⊢
  exact { hregister, hdelegate, huntouched, storageTells_applied hpenaltyCalls with }

/-- Codes that have not been interpreted are, and nothing else changes. -/
theorem interpretCodes_of_fresh (hstatus : m.statusCode.kept = none)
    (hdeposit : m.depositCode.kept = none) :
    m.interpretCodes =
      { m with
        status := .ofCode m.statusCode.raw
        statusCode := ⟨m.statusCode.raw, some (.ofCode m.statusCode.raw)⟩
        deposit := .ofCode m.depositCode.raw
        depositCode := ⟨m.depositCode.raw, some (.ofCode m.depositCode.raw)⟩ } := by
  simp only [interpretCodes, Parameter.formatted, hstatus, hdeposit]
  rfl

/-- **The round for the shares.** If the refund is not larger than the balance, the shares are what
the delegate tells for the difference, and otherwise they are nothing. No other field changes. -/
theorem sharesPlan_outcome {i : Nat} {x : Minipool}
    (h : sharesPlan.outcome? answer true i x = some m) :
    (∃ amount, x.distributable? = some amount ∧
      ∃ node, told answer Delegate.calculateNodeShare x.address amount = some node ∧
        ∃ user, told answer Delegate.calculateUserShare x.address amount = some user ∧
          m = { x with distributable := amount, nodeShare := node, userShare := user }) ∨
    (x.distributable? = none ∧
      m = { x with distributable := 0, nodeShare := 0, userShare := 0 }) := by
  obtain ⟨x', calls, hplan, hall, rfl⟩ := Plan.outcome?_eq_some_iff.1 h
  obtain ⟨-, ⟨amount, hamount, rfl, rfl⟩ | ⟨hnone, rfl, rfl⟩⟩ := sharesPlan_eq_ok_iff.1 hplan
  · simp only [shareCalls, List.forall_mem_cons, Call.passes_typed_iff] at hall
    obtain ⟨⟨node, hnode⟩, ⟨user, huser⟩, -⟩ := hall
    refine .inl ⟨amount, hamount, node, hnode, user, huser, ?_⟩
    simp only [shareCalls, applied_typed_cons hnode, applied_typed_cons huser, applied_nil]
  · exact .inr ⟨hnone, rfl⟩

/-! ## The whole record -/

/-- What is recorded of an address. -/
structure Recorded (answer : SubCall → CallResult) (p : VersionProbe) (r : Registry) (a : Address)
    (m : Minipool) : Prop extends
    RegisterTells answer r a m, DelegateTells answer a m, StorageTells answer r a m where
  address : m.address = a
  version : p.found answer a = some m.version
  balance : told answer Hub.getEthBalance r.hub a = some m.balance
  /-- The codes have the meaning of what was just read. -/
  status : m.status = .ofCode m.statusCode.raw
  deposit : m.deposit = .ofCode m.depositCode.raw
  /-- The shares are those of the balance without the refund, also if this is zero. -/
  shared : m.refund.toNat ≤ m.balance.toNat →
    m.distributable.toNat = m.balance.toNat - m.refund.toNat ∧
      told answer Delegate.calculateNodeShare a m.distributable = some m.nodeShare ∧
        told answer Delegate.calculateUserShare a m.distributable = some m.userShare
  /-- There is nothing to share if the refund is larger. -/
  withheld : m.balance.toNat < m.refund.toNat →
    m.distributable = 0 ∧ m.nodeShare = 0 ∧ m.userShare = 0
  /-- Nothing is said about balances on the beacon chain. -/
  nodeShareOfTotal : m.nodeShareOfTotal = 0
  userShareOfTotal : m.userShareOfTotal = 0
  nodeShareOfBeacon : m.nodeShareOfBeacon = 0
  userShareOfBeacon : m.userShareOfBeacon = 0

/-- **Both rounds.** -/
theorem recorded_of_observed? (h : observed? answer p r a = some m) : Recorded answer p r a m := by
  obtain ⟨version, hversion, balance, hbalance, x, hdetails, hshares⟩ := observed?_eq_some_iff.1 h
  have hx := described_of_outcome hdetails
  obtain rfl := hx.address
  obtain rfl := hx.version
  obtain rfl := hx.balance
  rw [interpretCodes_of_fresh hx.status hx.deposit] at hshares
  obtain ⟨amount, hamount, node, hnode, user, huser, rfl⟩ | ⟨hnone, rfl⟩ :=
    sharesPlan_outcome hshares
  · obtain ⟨hle, hdiff⟩ := Word.toNat_of_sub? hamount
    exact { hx with
      address := rfl, version := hversion, balance := hbalance, status := rfl, deposit := rfl
      shared := fun _ => ⟨hdiff, hnode, huser⟩
      withheld := fun hlt => absurd hle (Nat.not_le_of_lt hlt) }
  · exact { hx with
      address := rfl, version := hversion, balance := hbalance, status := rfl, deposit := rfl
      shared := fun hle => absurd (hnone.symm.trans (Word.sub?_eq_some hle)) nofun
      withheld := fun _ => ⟨rfl, rfl, rfl⟩ }

end Minipool

end StakingSnapshot
