import StakingSnapshot.Minipool.Shares
import StakingSnapshot.Proofs.Schedule.Frame

/-!
# What complete shares leave alone

Complete shares are filled into minipools that the caller keeps, also when the read fails. The
registration of the calls and the answers to them change four fields and nothing else.

* `Minipool.beyondShares`: a minipool without these four fields;
  `Minipool.spares_completeSharesPlan`: what is left of it is never changed.
* `Minipool.completeShares_frame`: whatever is answered, however the read ends, and at every moment.
-/

namespace StakingSnapshot

namespace Minipool

/-- The minipool with nothing in the four fields that complete shares fill. -/
def beyondShares (m : Minipool) : Minipool :=
  { m with
    nodeShareOfBeacon := 0
    userShareOfBeacon := 0
    nodeShareOfTotal := 0
    userShareOfTotal := 0 }

section Plan

variable {m : Minipool}

theorem spares_shareCalls {κ : Type} {look : Minipool → κ} {amount : Word}
    {storeNode storeUser : Word → Minipool → Minipool}
    (hnode : ∀ v m, look (storeNode v m) = look m) (huser : ∀ v m, look (storeUser v m) = look m) :
    ∀ c ∈ m.shareCalls amount storeNode storeUser, c.Spares look := by
  simp only [shareCalls, List.forall_mem_cons, List.not_mem_nil, false_imp_iff, implies_true,
    and_true]
  exact ⟨Call.spares_typed hnode, Call.spares_typed huser⟩

theorem spares_beaconShares (m : Minipool) (beacon : Word) :
    (m.beaconShares beacon).1.beyondShares = m.beyondShares ∧
      ∀ c ∈ (m.beaconShares beacon).2, c.Spares beyondShares := by
  unfold beaconShares
  split
  · exact ⟨rfl, nofun⟩
  · exact ⟨rfl, spares_shareCalls (fun _ _ => rfl) fun _ _ => rfl⟩

theorem spares_totalShares (m : Minipool) (beacon : Word) :
    (m.totalShares beacon).1.beyondShares = m.beyondShares ∧
      ∀ c ∈ (m.totalShares beacon).2, c.Spares beyondShares := by
  unfold totalShares
  split
  · exact ⟨rfl, nofun⟩
  · exact ⟨rfl, spares_shareCalls (fun _ _ => rfl) fun _ _ => rfl⟩

/-- Neither the registration, which may clear shares at once, nor an answer changes another
field. -/
theorem spares_completeSharesPlan (beacons : List Word) :
    (completeSharesPlan beacons).Spares beyondShares := by
  intro i m m' calls hplan
  unfold completeSharesPlan at hplan
  cases hb : m.binding with
  | error e =>
    rw [hb] at hplan
    cases hplan
  | ok binding =>
    rw [hb] at hplan
    obtain ⟨hfirst, hfirstCalls⟩ := m.spares_beaconShares (beacons.getD i 0)
    obtain ⟨hsecond, hsecondCalls⟩ :=
      (m.beaconShares (beacons.getD i 0)).1.spares_totalShares (beacons.getD i 0)
    cases hplan
    exact ⟨hsecond.trans hfirst, List.forall_mem_append.2 ⟨hfirstCalls, hsecondCalls⟩⟩

end Plan

variable {σ : Type}

/-- What comes of the batches, if there are as many balances as minipools. -/
theorem completeShares_value {o : Observer σ} {r : Registry} {beacons : List Word}
    {ms : List Minipool} (hlen : ms.length = beacons.length) (s : σ) :
    (completeShares o r beacons ms s).value =
      let filled := (o.scheduler.fill true r.block o.config.batchSizes.completeShares
        (completeSharesPlan beacons) ms s).value
      (filled.1, withContext "error calculating minipool shares" (filled.2.map fun _ => ())) := by
  rw [completeShares, if_neg (not_not_intro hlen)]
  rfl

/-- **The frame of complete shares.** Whatever the client answers:

* if there are not as many balances as minipools, the read fails for that cause, asks nothing and
  gives back the minipools as they were;
* the minipools that are given back are as many as before and in the same order, and each differs
  from what it was in the four shares at most, whether the read ends well or fails;
* so it is at every moment when the batches go side by side, and those that have not registered
  their calls are as they were;
* if the read fails with the batches one after another, it is for the cause of the first batch that
  fails, and the minipools behind this batch are as they were. -/
theorem completeShares_frame (o : Observer σ) (r : Registry) (beacons : List Word)
    (ms : List Minipool) :
    let size := o.config.batchSizes.completeShares
    let plan := completeSharesPlan beacons
    (ms.length ≠ beacons.length → ∀ s, completeShares o r beacons ms s =
      ⟨(ms, .error (.config
        s!"got {beacons.length} beacon balances for {ms.length} minipools")), s, [], []⟩) ∧
    (∀ s, (completeShares o r beacons ms s).value.1.map beyondShares = ms.map beyondShares) ∧
    (0 < size → ∀ replies p, (o.scheduler.pool true r.block size plan ms).Reaches replies p →
      (p.seats.flatMap fun t => t.2.slots).map beyondShares = ms.map beyondShares ∧
      ∀ (k : Nat) t, p.seats[k]? = some t → t.2.phase = .waiting ∨ t.2.phase = .admitted →
        t.2.slots = batchItems size ms k) ∧
    (ms.length = beacons.length → 0 < size → ∀ s e,
      (completeShares o r beacons ms s).value.2 = .error e →
        ∃ k cause, o.scheduler.FirstFault true r.block size plan ms s k cause ∧
          e = .context "error calculating minipool shares" (.context
            (Scheduler.batchContext k (k * size) (min (k * size + size) ms.length)) cause) ∧
          (completeShares o r beacons ms s).value.1.drop ((k + 1) * size) =
            ms.drop ((k + 1) * size)) := by
  have hspares := spares_completeSharesPlan beacons
  refine ⟨fun hlen s => ?_, fun s => ?_, fun hsize replies p hp => ?_,
    fun hlen hsize s e he => ?_⟩
  · rw [completeShares, if_pos hlen]
    rfl
  · unfold completeShares
    split
    · rfl
    · exact Scheduler.map_fill hspares
  · refine ⟨Scheduler.map_slots hspares hsize hp, fun k t ht hphase => ?_⟩
    exact (Scheduler.began_of_reaches hsize hp ht).slots hphase
  · rw [completeShares_value hlen] at he ⊢
    dsimp only at he ⊢
    cases hfill : (o.scheduler.fill true r.block o.config.batchSizes.completeShares
        (completeSharesPlan beacons) ms s).value.2 with
    | ok flags =>
      rw [hfill] at he
      cases he
    | error e' =>
      obtain ⟨k, cause, hfirst⟩ := Scheduler.exists_firstFault hsize hfill
      refine ⟨k, cause, hfirst, ?_, Scheduler.drop_fill_of_firstFault hsize hfirst⟩
      rw [(Scheduler.fill_of_firstFault hsize hfirst).1] at he
      exact (Except.error.inj he).symm

/-! ## A client that answers nothing -/

/-- An observer whose client answers nothing, with batches of one minipool. -/
def deafObserver : Observer Unit where
  config := { batchSizes := { completeShares := 1 } }
  scheduler := ⟨⟨fun _ _ _ s => (.error (.transport "no answer"), s), fun s => (.ok 0, s)⟩, ⟨9⟩, 1⟩
  probe := ⟨1⟩

/-- A registry that no read asks about. -/
def blankRegistry : Registry := ⟨7, ⟨8⟩, ⟨9⟩, ⟨1, 2, 0⟩, Deployments.empty⟩

/-- A minipool with balances and with shares that have been filled in before. -/
def filledMinipool : Minipool :=
  { version := 3, balance := 5, nodeShareOfBeacon := 7, nodeShareOfTotal := 7 }

/-- The registration has cleared a share of the first minipool when its batch fails. The second
one, which is in the batch behind it, is as it was. -/
theorem completeShares_frame_deafObserver :
    let ms := [filledMinipool, filledMinipool]
    let out := completeShares deafObserver blankRegistry [0, 0] ms ()
    out.value.2.toOption = none ∧
      out.value.1.map (fun m => (m.nodeShareOfBeacon, m.nodeShareOfTotal)) = [(0, 7), (7, 7)] ∧
      out.value.1.map beyondShares = ms.map beyondShares ∧
      out.value.1.drop 1 = [filledMinipool] := by
  intro ms out
  obtain ⟨-, hframe, -, hfault⟩ := completeShares_frame deafObserver blankRegistry [0, 0] ms
  have hends : out.value.2.toOption = none := by decide +kernel
  have hshares : out.value.1.map (fun m => (m.nodeShareOfBeacon, m.nodeShareOfTotal)) =
      [(0, 7), (7, 7)] := by
    decide +kernel
  refine ⟨hends, hshares, hframe (), ?_⟩
  cases he : out.value.2 with
  | ok u =>
    rw [he] at hends
    cases hends
  | error e =>
    obtain ⟨k, cause, hfirst, -, hbehind⟩ := hfault rfl (by decide) () e he
    have hbatch : (deafObserver.scheduler.runBatch true blankRegistry.block 1
        (completeSharesPlan [0, 0]) ms 0 ()).value.2.toOption = none := by
      decide +kernel
    obtain rfl : k = 0 := by
      by_contra hk
      obtain ⟨flags, hok⟩ := hfirst.before 0 (Nat.pos_of_ne_zero hk)
      have hsome : some flags = none := (congrArg Except.toOption hok).symm.trans hbatch
      cases hsome
    exact hbehind

end Minipool

end StakingSnapshot
