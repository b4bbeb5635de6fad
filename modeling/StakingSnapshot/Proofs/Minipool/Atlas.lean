import StakingSnapshot.Proofs.Minipool.Fields
import StakingSnapshot.Proofs.Version.Binding

/-!
# What only the newer delegates tell

A minipool of version 3 is asked about its vacancy, its early distribution and the reduction of its
bond. One of version 1 or 2 is not.

* `SubCall.AsksAtlas`: a call about these things. `Minipool.not_asksAtlas_details` and
  `Minipool.not_asksAtlas_shares`: neither round registers one for an older minipool, whatever else
  is in its batch.
* `Minipool.LacksAtlas`, `Minipool.AtlasTells`: the fields without an answer, and with what is told;
  `Minipool.lacksAtlas_of_observed?`, `Minipool.atlasTells_of_observed?`.
-/

namespace StakingSnapshot

open Contract

/-! ## The calls -/

/-- The selectors of the methods that only the newer delegates have. -/
def Contract.AtlasDelegate.selectors : List UInt32 :=
  [getUserDistributed.selector, getVacant.selector, getPreMigrationBalance.selector]

/-- The selectors of the methods of the reducer of bonds. -/
def Contract.BondReducer.selectors : List UInt32 :=
  [getReduceBondTime.selector, getReduceBondCancelled.selector, getReduceBondValue.selector,
    getLastBondReductionTime.selector, getLastBondReductionPrevValue.selector,
    getLastBondReductionPrevNodeFee.selector]

namespace SubCall

/-- The call asks for what only a minipool with a newer delegate has: it is for its delegate, or for
the reducer of bonds and about the minipool. -/
def AsksAtlas (r : Registry) (a : Address) (c : SubCall) : Prop :=
  (c.target = a ∧ c.NamesOneOf AtlasDelegate.selectors) ∨
    (c.target = r.address .minipoolBondReducer ∧ c.NamesOneOf BondReducer.selectors ∧
      c.data.drop 4 = Abi.Arguments.encode a)

end SubCall

namespace Minipool

/-- The method is one that the newer delegates alone have, or one of the reducer of bonds. -/
def IsAtlas {α : Type} {k : Abi.Kind} (m : Abi.Method α k) : Prop :=
  m.selector ∈ AtlasDelegate.selectors ∨ m.selector ∈ BondReducer.selectors

instance {α : Type} {k : Abi.Kind} (m : Abi.Method α k) : Decidable (IsAtlas m) :=
  inferInstanceAs (Decidable (_ ∨ _))

section Calls

variable {r : Registry} {a b : Address} {α : Type} {k : Abi.Kind} {m : Abi.Method α k}

/-- A call for another method does not ask. -/
theorem not_asksAtlas {c : SubCall} (h : c.Names m) (hm : ¬ IsAtlas m) : ¬ c.AsksAtlas r a := by
  rintro (⟨-, hdelegate⟩ | ⟨-, hreducer, -⟩)
  · exact hm (.inl (h.namesOneOf_iff.1 hdelegate))
  · exact hm (.inr (h.namesOneOf_iff.1 hreducer))

/-- What the call of a method asks. -/
theorem asksAtlas_typed_iff [Abi.Arguments α] {S : Type} {target : Address} {args : α}
    {store : k.Value → S → S} :
    (Call.typed m target args store).sub.AsksAtlas r a ↔
      (target = a ∧ m.selector ∈ AtlasDelegate.selectors) ∨
        (target = r.address .minipoolBondReducer ∧ m.selector ∈ BondReducer.selectors ∧
          Abi.Arguments.encode args = Abi.Arguments.encode a) := by
  have hnames : (Call.typed m target args store).sub.Names m := Call.names_typed_iff.2 rfl
  have hargs : (Call.typed m target args store).sub.data.drop 4 = Abi.Arguments.encode args :=
    List.drop_left' (Bytes.length_ofNat 4 _)
  rw [SubCall.AsksAtlas, hnames.namesOneOf_iff, hnames.namesOneOf_iff, hargs]
  rfl

/-- Addresses differ in what is sent of them. -/
theorem encode_address_injective (h : Abi.Arguments.encode a = Abi.Arguments.encode b) : a = b := by
  have hread : ∀ c : Address, Bytes.toNat (Abi.Arguments.encode c) = c.bits.toNat := fun c =>
    Abi.toNat_word (Nat.le_trans (Nat.le_of_lt c.bits.isLt) (by decide))
  have hbits := congrArg Bytes.toNat h
  rw [hread, hread] at hbits
  obtain ⟨bits⟩ := a
  obtain ⟨bits'⟩ := b
  exact congrArg Address.mk (BitVec.eq_of_toNat_eq hbits)

/-- The calls that every minipool answers do not ask. -/
theorem not_asksAtlas_common :
    ∀ call ∈ registerCalls r b ++ delegateCalls b ++ penaltyCalls r b,
      ¬ call.sub.AsksAtlas r a := by
  simp only [registerCalls, delegateCalls, penaltyCalls, List.cons_append, List.nil_append,
    List.forall_mem_cons, List.not_mem_nil, false_imp_iff, implies_true, and_true]
  and_intros
  all_goals exact not_asksAtlas (Call.names_typed_iff.2 rfl) (by decide)

/-- The calls for another minipool do not ask about this one. -/
theorem not_asksAtlas_of_ne (hne : b ≠ a) : ∀ call ∈ atlasCalls r b, ¬ call.sub.AsksAtlas r a := by
  have hdelegate : ∀ {k : Abi.Kind} {m : Abi.Method Unit k} {store : k.Value → Minipool → Minipool},
      m.selector ∉ BondReducer.selectors → ¬ (Call.typed m b () store).sub.AsksAtlas r a := by
    intro k m store hm hasks
    rcases asksAtlas_typed_iff.1 hasks with ⟨htarget, -⟩ | ⟨-, hm', -⟩
    · exact hne htarget
    · exact hm hm'
  have hreducer : ∀ {k : Abi.Kind} {m : Abi.Method Address k} {target : Address}
      {store : k.Value → Minipool → Minipool},
      m.selector ∉ AtlasDelegate.selectors → ¬ (Call.typed m target b store).sub.AsksAtlas r a := by
    intro k m target store hm hasks
    rcases asksAtlas_typed_iff.1 hasks with ⟨-, hm'⟩ | ⟨-, -, hargs⟩
    · exact hm hm'
    · exact hne (encode_address_injective hargs)
  simp only [atlasCalls, List.forall_mem_cons, List.not_mem_nil, false_imp_iff, implies_true,
    and_true]
  exact ⟨hdelegate (by decide), hdelegate (by decide), hdelegate (by decide),
    hreducer (by decide), hreducer (by decide), hreducer (by decide), hreducer (by decide),
    hreducer (by decide), hreducer (by decide)⟩

/-! ## The rounds -/

/-- What is registered for details: the calls that every minipool answers, and those that only the
ones of version 3 do. -/
theorem mem_registered_details_of_version {i : Nat} {xs : List Minipool} {call : Call Minipool}
    (h : call ∈ (detailsPlan r).registered i xs) :
    ∃ x ∈ xs, call ∈ registerCalls r x.address ++ delegateCalls x.address ++
        penaltyCalls r x.address ∨
      (x.version = 3 ∧ call ∈ atlasCalls r x.address) := by
  obtain ⟨k, x, x', calls, hx, hplan, hcall⟩ := Plan.mem_registered h
  refine ⟨x, List.mem_of_getElem? hx, ?_⟩
  rcases detailsPlan_eq_ok_iff.1 hplan with ⟨-, -, rfl⟩ | ⟨hbinding, -, rfl⟩
  · exact .inl hcall
  · have hversion := Binding.ofVersion_eq_atlas_iff.1 hbinding
    rcases List.mem_append.1 hcall with hcall | hcall
    · exact .inl (List.mem_append_left _ hcall)
    · rcases List.mem_append.1 hcall with hcall | hcall
      · exact .inr ⟨hversion, hcall⟩
      · exact .inl (List.mem_append_right _ hcall)

/-- The round for the details asks a minipool only if it has version 3. -/
theorem not_asksAtlas_details {xs : List Minipool} (h : ∀ x ∈ xs, x.address = a → x.version ≠ 3) :
    ∀ c ∈ ((detailsPlan r).registered 0 xs).map Call.sub, ¬ c.AsksAtlas r a := by
  rw [List.forall_mem_map]
  intro call hcall
  obtain ⟨x, hx, hcommon | ⟨hversion, hatlas⟩⟩ := mem_registered_details_of_version hcall
  · exact not_asksAtlas_common call hcommon
  · exact not_asksAtlas_of_ne (fun haddress => h x hx haddress hversion) call hatlas

/-- The round for the shares asks nobody. -/
theorem not_asksAtlas_shares {xs : List Minipool} :
    ∀ c ∈ (sharesPlan.registered 0 xs).map Call.sub, ¬ c.AsksAtlas r a := by
  rw [List.forall_mem_map]
  intro call hcall
  obtain ⟨_, x, _, calls, -, hplan, hmem⟩ := Plan.mem_registered hcall
  obtain ⟨-, ⟨amount, -, -, rfl⟩ | ⟨-, -, rfl⟩⟩ := sharesPlan_eq_ok_iff.1 hplan
  · rcases List.mem_cons.1 hmem with rfl | hmem
    · exact not_asksAtlas (Call.names_typed_iff.2 rfl) (by decide)
    · obtain rfl := List.mem_singleton.1 hmem
      exact not_asksAtlas (Call.names_typed_iff.2 rfl) (by decide)
  · cases hmem

end Calls

/-! ## The fields -/

/-- Nothing is recorded that only the newer delegates tell. -/
structure LacksAtlas (m : Minipool) : Prop where
  userDistributed : m.userDistributed = false
  isVacant : m.isVacant = false
  preMigrationBalance : m.preMigrationBalance = 0
  reductionTime : m.reductionTime = .ofRaw 0
  reductionCancelled : m.reductionCancelled = false
  reductionBond : m.reductionBond = 0
  lastReductionTime : m.lastReductionTime = .ofRaw 0
  lastReductionPreviousBond : m.lastReductionPreviousBond = 0
  lastReductionPreviousFee : m.lastReductionPreviousFee = 0

/-- What the delegate at an address and the reducer of bonds tell about it is in its place. -/
structure AtlasTells (answer : SubCall → CallResult) (r : Registry) (a : Address) (m : Minipool) :
    Prop where
  userDistributed : told answer AtlasDelegate.getUserDistributed a () = some m.userDistributed
  isVacant : told answer AtlasDelegate.getVacant a () = some m.isVacant
  preMigrationBalance : told answer AtlasDelegate.getPreMigrationBalance a () =
    some m.preMigrationBalance
  reductionTime : told answer BondReducer.getReduceBondTime (r.address .minipoolBondReducer) a =
    some m.reductionTime.raw
  reductionCancelled : told answer BondReducer.getReduceBondCancelled
    (r.address .minipoolBondReducer) a = some m.reductionCancelled
  reductionBond : told answer BondReducer.getReduceBondValue (r.address .minipoolBondReducer) a =
    some m.reductionBond
  lastReductionTime : told answer BondReducer.getLastBondReductionTime
    (r.address .minipoolBondReducer) a = some m.lastReductionTime.raw
  lastReductionPreviousBond : told answer BondReducer.getLastBondReductionPrevValue
    (r.address .minipoolBondReducer) a = some m.lastReductionPreviousBond
  lastReductionPreviousFee : told answer BondReducer.getLastBondReductionPrevNodeFee
    (r.address .minipoolBondReducer) a = some m.lastReductionPreviousFee

section Fields

variable {answer : SubCall → CallResult} {p : VersionProbe} {r : Registry} {a : Address}
  {m x : Minipool}

theorem lacksAtlas_withoutAtlas : LacksAtlas m.withoutAtlas := by
  constructor <;> rfl

/-- The calls that every minipool answers leave the fields as they are. -/
theorem keeps_common (b : Address) :
    ∀ c ∈ registerCalls r b ++ delegateCalls b ++ penaltyCalls r b, c.Keeps LacksAtlas := by
  simp only [registerCalls, delegateCalls, penaltyCalls, List.cons_append, List.nil_append,
    List.forall_mem_cons, List.not_mem_nil, false_imp_iff, implies_true, and_true]
  and_intros
  all_goals exact Call.keeps_typed fun _ _ h => { h with }

/-- The calls that only the newer delegates answer fill the fields, and those for the penalties
leave them as they are. -/
theorem atlasTells_applied (hall : ∀ c ∈ atlasCalls r a, c.Passes true (answer c.sub)) :
    AtlasTells answer r a
      (applied answer (penaltyCalls r a) (applied answer (atlasCalls r a) x)) := by
  have hkeeps : ∀ c ∈ penaltyCalls r a, c.Keeps (AtlasTells answer r a) := by
    simp only [penaltyCalls, List.forall_mem_cons, List.not_mem_nil, false_imp_iff, implies_true,
      and_true]
    and_intros
    all_goals exact Call.keeps_typed fun _ _ h => { h with }
  refine applied_of_keeps answer hkeeps ?_
  simp only [atlasCalls, List.forall_mem_cons, Call.passes_typed_iff] at hall
  obtain ⟨⟨_, hdistributed⟩, ⟨_, hvacant⟩, ⟨_, hmigration⟩, ⟨_, htime⟩, ⟨_, hcancelled⟩, ⟨_, hbond⟩,
    ⟨_, hlastTime⟩, ⟨_, hlastBond⟩, ⟨_, hlastFee⟩, -⟩ := hall
  simp only [atlasCalls, applied_typed_cons hdistributed, applied_typed_cons hvacant,
    applied_typed_cons hmigration, applied_typed_cons htime, applied_typed_cons hcancelled,
    applied_typed_cons hbond, applied_typed_cons hlastTime, applied_typed_cons hlastBond,
    applied_typed_cons hlastFee, applied_nil]
  exact ⟨hdistributed, hvacant, hmigration, htime, hcancelled, hbond, hlastTime, hlastBond,
    hlastFee⟩

/-- The round for the shares, and giving codes their meaning, do not touch these fields. -/
theorem LacksAtlas.of_sharesRound (hx : LacksAtlas x)
    (h : sharesPlan.outcome? answer true 0 x.interpretCodes = some m) : LacksAtlas m := by
  obtain ⟨_, -, _, -, _, -, rfl⟩ | ⟨-, rfl⟩ := sharesPlan_outcome h
  · exact { hx with }
  · exact { hx with }

theorem AtlasTells.of_sharesRound (hx : AtlasTells answer r a x)
    (h : sharesPlan.outcome? answer true 0 x.interpretCodes = some m) :
    AtlasTells answer r a m := by
  obtain ⟨_, -, _, -, _, -, rfl⟩ | ⟨-, rfl⟩ := sharesPlan_outcome h
  · exact { hx with }
  · exact { hx with }

/-- **Older minipools.** -/
theorem lacksAtlas_of_observed? (h : observed? answer p r a = some m) {v : UInt8}
    (hv : p.found answer a = some v) (holder : v = 1 ∨ v = 2) : LacksAtlas m := by
  obtain ⟨v', hv', balance, -, x, hdetails, hshares⟩ := observed?_eq_some_iff.1 h
  obtain rfl := Option.some.inj (hv.symm.trans hv')
  refine LacksAtlas.of_sharesRound ?_ hshares
  obtain ⟨x', calls, hplan, -, rfl⟩ := Plan.outcome?_eq_some_iff.1 hdetails
  have hlegacy : (start a v balance).binding = .ok .legacy :=
    Binding.ofVersion_eq_legacy_iff.2 holder
  rcases detailsPlan_eq_ok_iff.1 hplan with ⟨-, rfl, rfl⟩ | ⟨hatlas, -, -⟩
  · exact applied_of_keeps answer (keeps_common _) lacksAtlas_withoutAtlas
  · rw [hlegacy] at hatlas
    cases hatlas

/-- **Newer minipools.** -/
theorem atlasTells_of_observed? (h : observed? answer p r a = some m)
    (hv : p.found answer a = some 3) : AtlasTells answer r a m := by
  obtain ⟨v, hv', balance, -, x, hdetails, hshares⟩ := observed?_eq_some_iff.1 h
  obtain rfl := Option.some.inj (hv.symm.trans hv')
  refine AtlasTells.of_sharesRound ?_ hshares
  obtain ⟨x', calls, hplan, hall, rfl⟩ := Plan.outcome?_eq_some_iff.1 hdetails
  have hatlas : (start a 3 balance).binding = .ok .atlas := Binding.ofVersion_eq_atlas_iff.2 rfl
  rcases detailsPlan_eq_ok_iff.1 hplan with ⟨hlegacy, -, -⟩ | ⟨-, rfl, rfl⟩
  · rw [hatlas] at hlegacy
    cases hlegacy
  · rw [applied_append, applied_append]
    refine atlasTells_applied fun c hc => hall c ?_
    exact List.mem_append_right _ (List.mem_append_left _ hc)

end Fields

end Minipool

end StakingSnapshot
