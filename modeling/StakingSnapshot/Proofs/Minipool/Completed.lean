import StakingSnapshot.Proofs.Call.Strict
import StakingSnapshot.Proofs.Minipool.Bulk
import StakingSnapshot.Proofs.Minipool.CompleteShares

/-!
# What complete shares hold

The shares of a balance on the beacon chain and those of everything a minipool holds are judged
each by itself: there is nothing to share, and they are cleared, or the delegate tells them. What
stood in the four fields before does not matter in either case.

* `Minipool.total`: what a minipool holds, as a number; `Minipool.total?_eq_some_iff`.
* `Minipool.SharesOf`: the two shares of an amount; `Minipool.Opened`: how they are asked for, and
  `Minipool.Opened.sharesOf`: what the answers make of them.
* `Minipool.Completed`: a minipool with complete shares; `Minipool.outcome?_eq_some_iff_completed`.
* `SubCall.AsksShareOf`: a call for a share of an amount; `Minipool.not_asksShareOf_zero`.
* `Minipool.completeShares_completed`: many minipools, in batches of any size and in any order.
-/

namespace StakingSnapshot

open Contract

/-- A method's data says which word it is called with. -/
theorem Abi.Method.word_of_callData {k l : Abi.Kind} {m : Abi.Method Word k}
    {m' : Abi.Method Word l} {w w' : Word} (h : m.callData w = m'.callData w') : w = w' := by
  have hword : Abi.word w.toNat = Abi.word w'.toNat :=
    List.append_inj_right h ((Bytes.length_ofNat 4 _).trans (Bytes.length_ofNat 4 _).symm)
  exact BitVec.eq_of_toNat_eq
    (Abi.word_injective w.toNat_le_maxNat w'.toNat_le_maxNat hword)

/-- The call asks for a share of an amount. -/
def SubCall.AsksShareOf (c : SubCall) (w : Word) : Prop :=
  c.data = Delegate.calculateNodeShare.callData w ∨ c.data = Delegate.calculateUserShare.callData w

theorem SubCall.AsksShareOf.unique {c : SubCall} {w w' : Word} (h : c.AsksShareOf w)
    (h' : c.AsksShareOf w') : w = w' := by
  rcases h with h | h
  all_goals
    rcases h' with h' | h'
    all_goals exact Abi.Method.word_of_callData (h.symm.trans h')

namespace Minipool

variable {answer : SubCall → CallResult} {a : Address} {m : Minipool} {beacon : Word}

/-! ## Amounts and shares -/

/-- What the minipool holds together with a balance on the beacon chain, of which a word holds as
much as it can, without the refund. It is negative if the refund is larger. -/
def total (m : Minipool) (beacon : Word) : Int :=
  ((min (beacon.toNat + m.balance.toNat) Word.maxNat : Nat) : Int) - m.refund.toNat

theorem total?_eq_some_iff {w : Word} :
    m.total? beacon = some w ↔ (w.toNat : Int) = m.total beacon ∧ 0 < m.total beacon := by
  have hsum := Word.toNat_satAdd beacon m.balance
  rw [total?, Option.filter_eq_some_iff, decide_eq_true_eq]
  unfold total
  constructor
  · rintro ⟨hsub, hpos⟩
    obtain ⟨hle, hdiff⟩ := Word.toNat_of_sub? hsub
    omega
  · rintro ⟨hw, hpos⟩
    have hle : m.refund.toNat ≤ (beacon.satAdd m.balance).toNat := by omega
    have hdiff := BitVec.toNat_sub_of_le (BitVec.le_def.2 hle)
    refine ⟨?_, by omega⟩
    rw [Word.sub?_eq_some hle]
    exact congrArg some (BitVec.eq_of_toNat_eq (by omega))

theorem total_nonpos_of_total? (h : m.total? beacon = none) : m.total beacon ≤ 0 := by
  by_contra hpos
  have hbound : m.total beacon ≤ Word.maxNat := by
    unfold total
    omega
  have hw : ((BitVec.ofNat 256 (m.total beacon).toNat).toNat : Int) = m.total beacon := by
    have hfits : (m.total beacon).toNat < 2 ^ 256 :=
      Nat.lt_of_le_of_lt (show _ ≤ Word.maxNat by omega) (by decide)
    rw [BitVec.toNat_ofNat, Nat.mod_eq_of_lt hfits]
    omega
  have hsome := total?_eq_some_iff.2 ⟨hw, by omega⟩
  rw [h] at hsome
  cases hsome

/-- The node's and the users' share of an amount. They are nothing unless there is something to
share, and otherwise what the delegate at an address tells. -/
structure SharesOf (answer : SubCall → CallResult) (a : Address) (amount : Int)
    (shares : Word × Word) : Prop where
  nothing : amount ≤ 0 → shares = (0, 0)
  asked : 0 < amount → ∃ w : Word, (w.toNat : Int) = amount ∧
    told answer Delegate.calculateNodeShare a w = some shares.1 ∧
      told answer Delegate.calculateUserShare a w = some shares.2

section SharesOf

variable {amount : Int} {w : Word} {shares shares' : Word × Word}

theorem sharesOf_nothing (h : amount ≤ 0) : SharesOf answer a amount (0, 0) :=
  ⟨fun _ => rfl, fun hpos => absurd h (by omega)⟩

theorem sharesOf_word (hw : (w.toNat : Int) = amount) (hpos : 0 < amount)
    (hnode : told answer Delegate.calculateNodeShare a w = some shares.1)
    (huser : told answer Delegate.calculateUserShare a w = some shares.2) :
    SharesOf answer a amount shares :=
  ⟨fun h => absurd h (by omega), fun _ => ⟨w, hw, hnode, huser⟩⟩

/-- An amount that is not zero is one word only. -/
theorem SharesOf.told (h : SharesOf answer a amount shares) (hw : (w.toNat : Int) = amount)
    (hpos : 0 < amount) :
    StakingSnapshot.told answer Delegate.calculateNodeShare a w = some shares.1 ∧
      StakingSnapshot.told answer Delegate.calculateUserShare a w = some shares.2 := by
  obtain ⟨w', hw', htold⟩ := h.asked hpos
  obtain rfl : w' = w := BitVec.eq_of_toNat_eq (by omega)
  exact htold

theorem SharesOf.unique (h : SharesOf answer a amount shares)
    (h' : SharesOf answer a amount shares') : shares = shares' := by
  by_cases hpos : 0 < amount
  · obtain ⟨w, hw, hnode, huser⟩ := h.asked hpos
    obtain ⟨hnode', huser'⟩ := h'.told hw hpos
    rw [hnode] at hnode'
    rw [huser] at huser'
    exact Prod.ext (Option.some.inj hnode') (Option.some.inj huser')
  · rw [h.nothing (by omega), h'.nothing (by omega)]

end SharesOf

/-! ## The calls for one amount -/

section ShareCalls

variable {w : Word} {storeNode storeUser : Word → Minipool → Minipool}

theorem passes_shareCalls_iff :
    (∀ c ∈ m.shareCalls w storeNode storeUser, c.Passes true (answer c.sub)) ↔
      (∃ node, told answer Delegate.calculateNodeShare m.address w = some node) ∧
        ∃ user, told answer Delegate.calculateUserShare m.address w = some user := by
  simp only [shareCalls, List.forall_mem_cons, Call.passes_typed_iff, List.not_mem_nil,
    false_imp_iff, implies_true, and_true]

theorem asksShareOf_shareCalls :
    ∀ c ∈ m.shareCalls w storeNode storeUser, c.sub.AsksShareOf w := by
  simp only [shareCalls, List.forall_mem_cons, List.not_mem_nil, false_imp_iff, implies_true,
    and_true]
  exact ⟨.inl rfl, .inr rfl⟩

end ShareCalls

/-- What is registered for the shares of an amount, which belong in two fields: nothing, and the
fields are cleared, or the calls for the shares, which write both fields. -/
inductive Opened (m : Minipool) (amount : Int) (look : Minipool → Word × Word) :
    Minipool × List (Call Minipool) → Prop
  | nothing {x : Minipool} (hle : amount ≤ 0) (hx : look x = (0, 0)) : Opened m amount look (x, [])
  | asked {w : Word} {storeNode storeUser : Word → Minipool → Minipool}
    (hw : (w.toNat : Int) = amount) (hpos : 0 < amount)
    (hnode : ∀ v x, look (storeNode v x) = (v, (look x).2))
    (huser : ∀ v x, look (storeUser v x) = ((look x).1, v)) :
    Opened m amount look (m, m.shareCalls w storeNode storeUser)

namespace Opened

variable {amount : Int} {look : Minipool → Word × Word} {p : Minipool × List (Call Minipool)}

/-- What the answers leave in the two fields, whatever these held. -/
theorem sharesOf (h : Opened m amount look p)
    (hall : ∀ c ∈ p.2, c.Passes true (answer c.sub)) {x : Minipool} (hx : look x = look p.1) :
    SharesOf answer m.address amount (look (applied answer p.2 x)) := by
  cases h with
  | nothing hle hzero =>
    rw [applied_nil, hx, hzero]
    exact sharesOf_nothing hle
  | asked hw hpos hnode huser =>
    obtain ⟨⟨node, hn⟩, user, hu⟩ := passes_shareCalls_iff.1 hall
    rw [shareCalls, applied_typed_cons hn, applied_typed_cons hu, applied_nil, huser, hnode]
    exact sharesOf_word hw hpos hn hu

/-- If the delegate tells the shares, the read goes on. -/
theorem passes (h : Opened m amount look p) {shares : Word × Word}
    (hshares : SharesOf answer m.address amount shares) :
    ∀ c ∈ p.2, c.Passes true (answer c.sub) := by
  cases h with
  | nothing => exact nofun
  | asked hw hpos =>
    obtain ⟨hnode, huser⟩ := hshares.told hw hpos
    exact passes_shareCalls_iff.2 ⟨⟨_, hnode⟩, _, huser⟩

/-- Shares are asked only if there is something to share. -/
theorem asksShareOf (h : Opened m amount look p) :
    ∀ c ∈ p.2, ∃ w : Word, w.toNat ≠ 0 ∧ c.sub.AsksShareOf w := by
  cases h with
  | nothing => exact nofun
  | asked hw hpos => exact fun c hc => ⟨_, by omega, asksShareOf_shareCalls c hc⟩

theorem small (h : Opened m amount look p) :
    p.2.length ≤ 2 ∧ ∀ c ∈ p.2, c.data.length ≤ 128 := by
  cases h with
  | nothing => exact ⟨Nat.zero_le _, nofun⟩
  | asked => exact ⟨Nat.le_refl 2, by simp [shareCalls, Call.length_data_typed_le]⟩

end Opened

/-- The shares of the balance on the beacon chain. -/
def ofBeacon (m : Minipool) : Word × Word := (m.nodeShareOfBeacon, m.userShareOfBeacon)

/-- The shares of everything the minipool holds. -/
def ofTotal (m : Minipool) : Word × Word := (m.nodeShareOfTotal, m.userShareOfTotal)

theorem opened_beaconShares (m : Minipool) (beacon : Word) :
    Opened m beacon.toNat ofBeacon (m.beaconShares beacon) := by
  unfold beaconShares
  split
  case isTrue hzero => exact .nothing (by omega) rfl
  case isFalse hne => exact .asked rfl (by omega) (fun _ _ => rfl) fun _ _ => rfl

theorem opened_totalShares (m : Minipool) (beacon : Word) :
    Opened m (m.total beacon) ofTotal (m.totalShares beacon) := by
  unfold totalShares
  split
  case h_1 hnone => exact .nothing (total_nonpos_of_total? hnone) rfl
  case h_2 w hsome =>
    obtain ⟨hw, hpos⟩ := total?_eq_some_iff.1 hsome
    exact .asked hw hpos (fun _ _ => rfl) fun _ _ => rfl

/-- Neither amount touches the shares of the other. -/
theorem spares_ofTotal (m : Minipool) (beacon : Word) :
    ∀ c ∈ (m.beaconShares beacon).2, c.Spares ofTotal := by
  unfold beaconShares
  split
  · exact nofun
  · exact spares_shareCalls (fun _ _ => rfl) fun _ _ => rfl

theorem spares_ofBeacon (m : Minipool) (beacon : Word) :
    (m.totalShares beacon).1.ofBeacon = m.ofBeacon ∧
      ∀ c ∈ (m.totalShares beacon).2, c.Spares ofBeacon := by
  unfold totalShares
  split
  · exact ⟨rfl, nofun⟩
  · exact ⟨rfl, spares_shareCalls (fun _ _ => rfl) fun _ _ => rfl⟩

/-! ## One minipool -/

/-- A minipool with complete shares: each pair is that of its amount, and nothing else has
changed. -/
structure Completed (answer : SubCall → CallResult) (beacon : Word) (m y : Minipool) : Prop where
  supported : ∃ binding, m.binding = .ok binding
  beyond : y.beyondShares = m.beyondShares
  ofBeacon : SharesOf answer m.address beacon.toNat (y.nodeShareOfBeacon, y.userShareOfBeacon)
  ofTotal : SharesOf answer m.address (m.total beacon) (y.nodeShareOfTotal, y.userShareOfTotal)

/-- The minipool with other complete shares. -/
def withShares (m : Minipool) (ofBeacon ofTotal : Word × Word) : Minipool :=
  { m with
    nodeShareOfBeacon := ofBeacon.1
    userShareOfBeacon := ofBeacon.2
    nodeShareOfTotal := ofTotal.1
    userShareOfTotal := ofTotal.2 }

theorem Completed.unique {y y' : Minipool} (h : Completed answer beacon m y)
    (h' : Completed answer beacon m y') : y = y' :=
  calc
    y = y.beyondShares.withShares y.ofBeacon y.ofTotal := rfl
    _ = y'.beyondShares.withShares y'.ofBeacon y'.ofTotal :=
      congr (congr (congrArg withShares (h.beyond.trans h'.beyond.symm))
        (h.ofBeacon.unique h'.ofBeacon)) (h.ofTotal.unique h'.ofTotal)
    _ = y' := rfl

/-- The shares that a minipool had before do not matter. -/
theorem Completed.congr {m' y : Minipool} (h : Completed answer beacon m y)
    (hm : m'.beyondShares = m.beyondShares) : Completed answer beacon m' y := by
  have hbinding : m'.binding = m.binding := (congrArg binding hm :)
  have haddress : m'.address = m.address := (congrArg address hm :)
  have htotal : m'.total beacon = m.total beacon := (congrArg (total · beacon) hm :)
  exact {
    supported := hbinding ▸ h.supported
    beyond := h.beyond.trans hm.symm
    ofBeacon := haddress ▸ h.ofBeacon
    ofTotal := haddress ▸ htotal ▸ h.ofTotal }

variable {beacons : List Word} {i : Nat} {y : Minipool}

/-- What is registered for the complete shares of a minipool. -/
theorem completeSharesPlan_eq_ok_iff {m' : Minipool} {calls : List (Call Minipool)} :
    completeSharesPlan beacons i m = .ok (m', calls) ↔
      (∃ binding, m.binding = .ok binding) ∧
        let first := m.beaconShares (beacons.getD i 0)
        let second := first.1.totalShares (beacons.getD i 0)
        m' = second.1 ∧ calls = first.2 ++ second.2 := by
  unfold completeSharesPlan
  cases hb : m.binding with
  | error e => simp [bind, Except.bind]
  | ok binding => simp [bind, Except.bind, pure, Except.pure, eq_comm]

theorem completed_of_outcome?
    (h : (completeSharesPlan beacons).outcome? answer true i m = some y) :
    Completed answer (beacons.getD i 0) m y := by
  obtain ⟨m', calls, hplan, hall, rfl⟩ := Plan.outcome?_eq_some_iff.1 h
  have hbeyond : (applied answer calls m').beyondShares = m.beyondShares := by
    obtain ⟨hregistered, hspares⟩ := spares_completeSharesPlan beacons i m m' calls hplan
    exact (Call.look_applied_of_spares hspares m').trans hregistered
  obtain ⟨hsupported, rfl, rfl⟩ := completeSharesPlan_eq_ok_iff.1 hplan
  generalize beacons.getD i 0 = beacon at *
  obtain ⟨hfirst, hsecond⟩ := List.forall_mem_append.1 hall
  -- The second registration finds the minipool as the first has left it.
  obtain ⟨hopened, -⟩ := m.spares_beaconShares beacon
  have haddress : (m.beaconShares beacon).1.address = m.address := (congrArg address hopened :)
  have htotal : (m.beaconShares beacon).1.total beacon = m.total beacon :=
    (congrArg (total · beacon) hopened :)
  obtain ⟨hkept, hspares⟩ := (m.beaconShares beacon).1.spares_ofBeacon beacon
  rw [applied_append] at hbeyond ⊢
  refine ⟨hsupported, hbeyond, ?_, ?_⟩
  · have hshares := (m.opened_beaconShares beacon).sharesOf hfirst hkept
    rwa [← Call.look_applied_of_spares hspares] at hshares
  · rw [← haddress, ← htotal]
    exact ((m.beaconShares beacon).1.opened_totalShares beacon).sharesOf hsecond
      (Call.look_applied_of_spares (m.spares_ofTotal beacon) _)

/-- **One minipool.** It gets complete shares exactly if its version is supported and its delegate
tells the shares of both amounts, as far as there is something to share. -/
theorem outcome?_eq_some_iff_completed :
    (completeSharesPlan beacons).outcome? answer true i m = some y ↔
      Completed answer (beacons.getD i 0) m y := by
  refine ⟨completed_of_outcome?, fun h => ?_⟩
  obtain ⟨hopened, -⟩ := m.spares_beaconShares (beacons.getD i 0)
  have hfirst := (m.opened_beaconShares (beacons.getD i 0)).passes h.ofBeacon
  have hsecond := (opened_totalShares _ (beacons.getD i 0)).passes (h.congr hopened).ofTotal
  obtain ⟨y', hy'⟩ : ∃ y', (completeSharesPlan beacons).outcome? answer true i m = some y' :=
    ⟨_, Plan.outcome?_eq_some_iff.2 ⟨_, _, completeSharesPlan_eq_ok_iff.2 ⟨h.supported, rfl, rfl⟩,
      List.forall_mem_append.2 ⟨hfirst, hsecond⟩, rfl⟩⟩
  rw [hy']
  exact congrArg some ((completed_of_outcome? hy').unique h)

/-! ## What is asked -/

/-- No call is registered for the shares of nothing. -/
theorem not_asksShareOf_zero {xs : List Minipool} {c : SubCall}
    (h : c ∈ ((completeSharesPlan beacons).registered i xs).map Call.sub) :
    ¬ c.AsksShareOf 0 := by
  obtain ⟨call, hcall, rfl⟩ := List.mem_map.1 h
  obtain ⟨k, x, x', calls, -, hplan, hcall⟩ := Plan.mem_registered hcall
  obtain ⟨-, -, rfl⟩ := completeSharesPlan_eq_ok_iff.1 hplan
  obtain ⟨w, hne, hw⟩ : ∃ w : Word, w.toNat ≠ 0 ∧ call.sub.AsksShareOf w := by
    rcases List.mem_append.1 hcall with hfirst | hsecond
    · exact (opened_beaconShares _ _).asksShareOf call hfirst
    · exact (opened_totalShares _ _).asksShareOf call hsecond
  intro hzero
  rw [hw.unique hzero] at hne
  exact hne rfl

/-- What is registered for so many minipools fits into a machine. -/
theorem sized_completeSharesPlan {chain : Chain} (hchain : chain.Bounded) {block : BlockRef}
    {ms : List Minipool} (hfits : 4 * ms.length ≤ Word.maxNat64) :
    Sized (chain block) (((completeSharesPlan beacons).registered 0 ms).map Call.sub) := by
  have hsmall : ∀ i x x' calls, completeSharesPlan beacons i x = .ok (x', calls) →
      calls.length ≤ 4 ∧ ∀ c ∈ calls, c.data.length ≤ 128 := by
    intro i x x' calls hplan
    obtain ⟨-, -, rfl⟩ := completeSharesPlan_eq_ok_iff.1 hplan
    obtain ⟨hfirst, hfirstData⟩ := (x.opened_beaconShares (beacons.getD i 0)).small
    obtain ⟨hsecond, hsecondData⟩ :=
      ((x.beaconShares (beacons.getD i 0)).1.opened_totalShares (beacons.getD i 0)).small
    rw [List.length_append]
    exact ⟨Nat.add_le_add hfirst hsecond, List.forall_mem_append.2 ⟨hfirstData, hsecondData⟩⟩
  refine hchain.sized ?_ fun c hc => ?_
  · refine Nat.le_trans (Plan.length_registered_le (fun i x x' calls hplan => ?_) 0 ms) hfits
    exact (hsmall i x x' calls hplan).1
  · obtain ⟨k, x, x', calls, -, hplan, hc⟩ := Plan.mem_registered hc
    exact (hsmall _ x x' calls hplan).2 c hc

/-! ## Many minipools -/

/-- Minipools with complete shares, each with the balance that has its index. -/
structure EachCompleted (answer : SubCall → CallResult) (beacons : List Word)
    (ms ys : List Minipool) : Prop where
  length : ys.length = ms.length
  entry : ∀ (i : Nat) b m y, beacons[i]? = some b → ms[i]? = some m → ys[i]? = some y →
    Completed answer b m y

theorem filled_iff_eachCompleted {ms ys : List Minipool} (hlen : ms.length = beacons.length) :
    (∃ flags, (completeSharesPlan beacons).Filled answer true 0 ms ys flags) ↔
      EachCompleted answer beacons ms ys := by
  simp only [Plan.filled_iff_outcome?, Nat.zero_add, outcome?_eq_some_iff_completed]
  constructor
  · rintro ⟨hys, h⟩
    refine ⟨hys, fun i b m y hb hm hy => ?_⟩
    have hentry := h i m y hm hy
    rwa [List.getD_eq_getElem?_getD, hb] at hentry
  · rintro ⟨hys, h⟩
    refine ⟨hys, fun i m y hm hy => ?_⟩
    have hi : i < beacons.length := hlen ▸ (List.getElem?_eq_some_iff.1 hm).1
    have hb := List.getElem?_eq_getElem hi
    rw [List.getD_eq_getElem?_getD, hb]
    exact h i _ m y hb hm hy

theorem length_eq_of_beyondShares {ms ms' : List Minipool}
    (h : ms'.map beyondShares = ms.map beyondShares) : ms'.length = ms.length := by
  have hlen := congrArg List.length h
  rwa [List.length_map, List.length_map] at hlen

/-- The shares that the minipools had before do not matter. -/
theorem EachCompleted.congr {ms ms' ys : List Minipool} (h : EachCompleted answer beacons ms ys)
    (hsame : ms'.map beyondShares = ms.map beyondShares) : EachCompleted answer beacons ms' ys := by
  have hlen := length_eq_of_beyondShares hsame
  refine ⟨h.length.trans hlen.symm, fun i b m' y hb hm' hy => ?_⟩
  have hi : i < ms.length := hlen ▸ (List.getElem?_eq_some_iff.1 hm').1
  have hm := List.getElem?_eq_getElem hi
  refine (h.entry i b _ y hb hm hy).congr ?_
  have hbeyond := congrArg (·[i]?) hsame
  rw [List.getElem?_map, List.getElem?_map, hm', hm] at hbeyond
  exact Option.some.inj hbeyond

variable {σ : Type} {o : Observer σ} {chain : Chain} {r : Registry} {ms : List Minipool} {s : σ}

/-- In batches of any size. -/
theorem completeShares_eq_ok_iff (ho : o.Watches chain) (hlen : ms.length = beacons.length)
    (hfits : 4 * ms.length ≤ Word.maxNat64) {ys : List Minipool} :
    (completeShares o r beacons ms s).value = (ys, .ok ()) ↔
      EachCompleted (chain r.block) beacons ms ys := by
  have hfill : ∀ flags, (o.scheduler.fill true r.block o.config.batchSizes.completeShares
      (completeSharesPlan beacons) ms s).value = (ys, .ok flags) ↔
        (completeSharesPlan beacons).Filled (chain r.block) true 0 ms ys flags := fun _ =>
    Scheduler.fill_eq_ok_iff ho.answers ho.positive.completeShares
      (sized_completeSharesPlan ho.bounded hfits)
  rw [completeShares_value hlen, ← filled_iff_eachCompleted hlen, ← exists_congr hfill]
  obtain ⟨zs, e | flags⟩ := (o.scheduler.fill true r.block o.config.batchSizes.completeShares
    (completeSharesPlan beacons) ms s).value
  · simp [withContext, Except.map, Except.mapError]
  · simp [withContext, Except.map, Except.mapError]

/-- What is asked was registered, whoever answers. -/
theorem registered_of_asked_completeShares {c : SubCall}
    (h : (completeShares o r beacons ms s).Asked c) :
    c ∈ ((completeSharesPlan beacons).registered 0 ms).map Call.sub := by
  unfold completeShares at h
  split at h
  case isTrue =>
    obtain ⟨_, hnil, -⟩ := h
    cases hnil
  case isFalse =>
    obtain ⟨request, hrequest, hc⟩ := h
    rcases List.mem_append.1 hrequest with hfill | hnil
    · exact Scheduler.registered_of_asked_fill ⟨request, hfill, hc⟩
    · cases hnil

/-- **Complete shares.** If there are as many balances as minipools, and four times as many can be
counted with 64 bits, as with all records in a machine:

* the read ends well exactly if each minipool, with the balance at its index, gets complete shares,
  and then it has these;
* neither the shares that the minipools had before nor the size of the batches matters;
* so it is when the batches run side by side, in any order of moves;
* whoever answers and however the read ends, no call for the shares of nothing is sent. -/
theorem completeShares_completed (ho : o.Watches chain) (r : Registry)
    (hlen : ms.length = beacons.length) (hfits : 4 * ms.length ≤ Word.maxNat64) :
    let plan := completeSharesPlan beacons
    (∀ s ys, (completeShares o r beacons ms s).value = (ys, .ok ()) ↔
      EachCompleted (chain r.block) beacons ms ys) ∧
    (∀ ms' : List Minipool, ms'.map beyondShares = ms.map beyondShares →
      ∀ {τ : Type} (o' : Observer τ), o'.Watches chain → ∀ s s' ys,
        (completeShares o' r beacons ms' s').value = (ys, .ok ()) ↔
          (completeShares o r beacons ms s).value = (ys, .ok ())) ∧
    (∀ p, (o.scheduler.pool true r.block o.config.batchSizes.completeShares plan ms).Reaches
        (o.scheduler.client.Gives o.scheduler.hub) p →
      (∀ t ∈ p.seats, ∃ flags, t.2.result? = some (.ok flags)) →
        EachCompleted (chain r.block) beacons ms (p.seats.flatMap fun t => t.2.slots)) ∧
    ∀ {τ : Type} (o' : Observer τ),
      (∀ s c, (completeShares o' r beacons ms s).Asked c → ¬ c.AsksShareOf 0) ∧
      ∀ size, 0 < size → ∀ replies p,
        (o'.scheduler.pool true r.block size plan ms).Reaches replies p →
          ∀ t ∈ p.seats, ∀ prepared, t.2.phase = .inFlight prepared →
            ∀ c ∈ prepared.calls, ¬ c.sub.AsksShareOf 0 := by
  intro plan
  refine ⟨fun s ys => completeShares_eq_ok_iff ho hlen hfits, ?_, ?_, fun o' => ⟨?_, ?_⟩⟩
  · intro ms' hsame τ o' ho' s s' ys
    have hlen' := length_eq_of_beyondShares hsame
    rw [completeShares_eq_ok_iff ho' (hlen'.trans hlen) (hlen' ▸ hfits),
      completeShares_eq_ok_iff ho hlen hfits]
    exact ⟨fun h => h.congr hsame.symm, fun h => h.congr hsame⟩
  · intro p h hok
    have hsize := ho.positive.completeShares
    have hfollows := Scheduler.follows_seats ho.answers hsize
      (sized_completeSharesPlan ho.bounded hfits) h
    have hfilled := Scheduler.filled_of_parts hfollows fun s hs => by
      obtain ⟨t, ht, rfl⟩ := List.mem_map.1 hs
      exact hok t ht
    rw [chunks_flatten hsize, List.map_map] at hfilled
    exact (filled_iff_eachCompleted hlen).1 ⟨_, hfilled⟩
  · exact fun s c hc => not_asksShareOf_zero (registered_of_asked_completeShares hc)
  · intro size hsize replies p h t ht prepared hopen c hc
    obtain ⟨k, hk⟩ := List.mem_iff_getElem?.1 ht
    exact not_asksShareOf_zero (Scheduler.registered_of_open hsize h hk hopen hc)

/-! ## A chain that halves -/

/-- A chain on which the share of an amount is half of it. -/
def halving : Chain := fun _ c => ⟨true, Abi.word (Bytes.toNat (c.data.drop 4) / 2)⟩

/-- An observer of the chain with batches of two minipools. -/
def halvingObserver : Observer Unit :=
  ⟨{ batchSizes := { completeShares := 2 } }, .ofChain halving ⟨9⟩ 1, ⟨1⟩⟩

theorem watches_halving : halvingObserver.Watches halving where
  answers := Chain.client_answersFor _ _
  bounded := Chain.bounded_of_short fun _ _ => Abi.length_word_le _
  sizes := by decide

/-- Nothing is left of the first minipool without its refund, nothing of the second is on the beacon
chain, and of the third there is more than a word can say. The shares that they had are gone. -/
theorem completeShares_completed_halving :
    let stale : Minipool := { version := 3, balance := 6 }
    let first := { stale with refund := 9 }.withShares (7, 7) (7, 7)
    let second := { stale with refund := 2 }.withShares (7, 7) (7, 7)
    let third := stale.withShares (7, 7) (7, 7)
    let largest : Word := BitVec.allOnes 256
    (completeShares halvingObserver blankRegistry [2, 0, largest] [first, second, third] ()).value =
      ([first.withShares (1, 1) (0, 0), second.withShares (0, 0) (2, 2),
        third.withShares (largest / 2, largest / 2) (largest / 2, largest / 2)], .ok ()) := by
  intro stale first second third largest
  obtain ⟨hread, -⟩ := completeShares_completed watches_halving blankRegistry
    (show [first, second, third].length = [2, 0, largest].length from rfl) (by decide)
  refine (hread _ _).2 ⟨rfl, fun i b m y hb hm hy => ?_⟩
  match i with
  | 0 =>
    cases hb
    cases hm
    cases hy
    refine ⟨⟨_, rfl⟩, rfl, ?_, sharesOf_nothing (by decide)⟩
    exact sharesOf_word rfl (by decide) (by decide +kernel) (by decide +kernel)
  | 1 =>
    cases hb
    cases hm
    cases hy
    refine ⟨⟨_, rfl⟩, rfl, sharesOf_nothing (by decide), ?_⟩
    exact sharesOf_word (w := 4) (by decide) (by decide) (by decide +kernel) (by decide +kernel)
  | 2 =>
    cases hb
    cases hm
    cases hy
    refine ⟨⟨_, rfl⟩, rfl, ?_, ?_⟩
    · exact sharesOf_word rfl (by decide) (by decide +kernel) (by decide +kernel)
    · exact sharesOf_word (w := largest) (by decide) (by decide) (by decide +kernel)
        (by decide +kernel)
  | i + 3 => cases hb

end Minipool

end StakingSnapshot
