import StakingSnapshot.Proofs.Config.Settings
import StakingSnapshot.Proofs.Snapshot.AllOrNothing

/-!
# Configurations that can be used

With a configuration that could be loaded an observer can be made, and no read of an observer that
could be made finds batches without room.

* `Answered.Says`: an answer that is a fault of the client's own. If an answer is the reason for a
  fault of the configuration, it is one (`Answered.says_of_failure?`).
* `Outcome.KeepsRoom`: a session that does not fail for want of room; `Outcome.Judged.keepsRoom`.
* `Config.Accepted`, `Config.Runs`: what a configuration is good for.
* `Config.loaded_usable`: all of these.
-/

namespace StakingSnapshot

variable {σ α β : Type}

/-- The most permits that there can be. -/
def Pool.maxPermits : Nat := Nat.pow 2 61 - 1

/-! ## Faults of the client's own -/

namespace Answered

variable {a : Answered} {cause : Fault}

/-- The client itself has answered with the fault. -/
def Says (cause : Fault) : Answered → Prop
  | head answer => failureOf answer = some cause
  | aggregate _ _ _ answer => failureOf answer = some cause

/-- Nothing is wrong with the configuration if a reply cannot be read. -/
theorem says_of_failure? (h : a.failure? = some cause) (hkind : cause.kind = .config) :
    a.Says cause := by
  cases a with
  | head answer => exact h
  | aggregate target body block answer =>
    cases answer with
    | error e => exact h
    | ok data =>
      simp only [failure?] at h
      split at h
      · cases h
        cases hkind
      · split at h
        · cases h
          cases hkind
        · split at h
          · cases h
            cases hkind
          · obtain ⟨p, -, hp⟩ := List.exists_of_findSome?_eq_some h
            cases (SubCall.kind_of_complaint? hp).symm.trans hkind

theorem FailsByTransport.isRetryable (h : a.FailsByTransport) (htold : a.Says cause) :
    cause.isRetryable = true := by
  have hanswer : ∀ {α : Type} {answer : Except Fault α}, OnlyTransport answer →
      failureOf answer = some cause → cause.isRetryable = true := by
    intro α answer honly hfailure
    cases answer with
    | ok _ => cases hfailure
    | error e =>
      obtain rfl := Option.some.inj hfailure
      rw [Fault.isRetryable_root]
      exact honly e rfl
  cases a with
  | head answer => exact hanswer h htold
  | aggregate target body block answer => exact hanswer h htold

end Answered

/-! ## Sessions in which batches have room -/

/-- The session, which asked the client in its state, does not fail for want of room. -/
structure Outcome.KeepsRoom (client : Client σ) (s : σ) (x : Outcome σ β)
    (result : Except Fault α) : Prop where
  /-- If this is what it fails with, the client has said so itself. -/
  own : ∀ e, result = .error e → e.root = Scheduler.noRoom →
    ∃ a ∈ client.replay x.sent s, a.Says Scheduler.noRoom
  /-- A client whose own faults are about the way to the chain does not say so. -/
  never : client.FailsByTransport → ∀ e, result = .error e → e.root ≠ Scheduler.noRoom

theorem Outcome.Judged.keepsRoom {client : Client σ} {R : List Request → Fault → Prop} {s : σ}
    {x : Outcome σ β} {result : Except Fault α} (h : x.Judged client R s (failureOf result))
    (hR : ∀ sent cause, R sent cause → cause ≠ Scheduler.noRoom) : x.KeepsRoom client s result := by
  have hown : ∀ e, result = .error e → e.root = Scheduler.noRoom →
      ∃ a ∈ client.replay x.sent s, a.Says Scheduler.noRoom := by
    rintro e rfl hroot
    have hverdict : Verdict (R x.sent) (client.replay x.sent s) (some e.root) := h.verdict
    rw [hroot] at hverdict
    cases hverdict with
    | failed before last ends sound root =>
      refine ⟨last, ?_, Answered.says_of_failure? root rfl⟩
      rw [ends]
      exact List.mem_concat_self
    | refused sound root => exact absurd rfl (hR _ _ root)
  refine ⟨hown, fun hclient e he hroot => ?_⟩
  obtain ⟨a, ha, htold⟩ := hown e he hroot
  cases (hclient.replay x.sent s a ha).isRetryable htold

namespace Scheduler

theorem ne_noRoom_of_decode {cause : Fault} (h : cause.kind = .decode) : cause ≠ noRoom := by
  rintro rfl
  cases h

/-- The texts of other faults begin with another letter. -/
theorem config_ne_noRoom {text : String} (h : text.toList.head? ≠ some 'b') :
    Fault.config text ≠ noRoom := by
  rintro ⟨⟩
  exact h rfl

end Scheduler

theorem BatchSizes.positive_iff {b : BatchSizes} : b.Positive ↔ ∀ size ∈ b.toList, 0 < size := by
  refine ⟨fun h => ?_, positive_of_forall⟩
  simp [toList, h.addresses, h.versions, h.balances, h.nodeDetails, h.minipoolDetails,
    h.completeShares, h.effectiveStake, h.proposalDetails]

namespace Config

/-- An observer can be made with the configuration, whatever the client. -/
structure Accepted (processors : Option Nat) (c : Config) : Prop where
  valid : c.validate = .ok ()
  made : ∀ {σ : Type} (client : Client σ), ∃ o, Observer.make? c client = .ok o
  /-- There are enough permits, if there are for all processors. -/
  permits : initialConcurrency processors ≤ Pool.maxPermits → c.concurrency ≤ Pool.maxPermits

/-- What comes of the configuration and a client. -/
structure Runs (c : Config) (client : Client σ) : Prop where
  made : (∃ o, Observer.make? c client = .ok o) ↔ 1 ≤ c.concurrency ∧ c.batchSizes.Positive
  getter : ∀ o, Observer.make? c client = .ok o → ∀ (r : Registry) {α : Type}
    (g : Snapshot.Getter α) s, (g.read o r s).KeepsRoom client s (g.read o r s).value
  shares : ∀ o, Observer.make? c client = .ok o → ∀ r beacons ms s,
    (Minipool.completeShares o r beacons ms s).KeepsRoom client s
      (Minipool.completeShares o r beacons ms s).value.2
  registry : ∀ o, Observer.make? c client = .ok o → ∀ block? s,
    (Registry.load o block? s).KeepsRoom client s (Registry.load o block? s).value

theorem exists_make?_iff {c : Config} {client : Client σ} :
    (∃ o, Observer.make? c client = .ok o) ↔ 1 ≤ c.concurrency ∧ c.batchSizes.Positive := by
  simp only [Observer.make?_eq_ok_iff, exists_and_left, exists_eq, and_true,
    BatchSizes.positive_iff, Nat.succ_le_iff]

theorem Loaded.accepted {processors : Option Nat} {lookup : String → Option String} {c : Config}
    (h : Loaded processors lookup c) : Accepted processors c := by
  have hsizes : c.batchSizes.Positive := by
    rw [h.sizes]
    constructor <;> decide
  constructor
  case valid =>
    exact validate_eq_ok_iff.2 ⟨h.concurrency_pos, BatchSizes.positive_iff.1 hsizes⟩
  case made => exact fun client => exists_make?_iff.2 ⟨h.concurrency_pos, hsizes⟩
  case permits =>
    intro hinitial
    refine h.concurrency.holds (P := (· ≤ Pool.maxPermits)) ?_ hinitial
    rintro limit ⟨n, -, rfl⟩
    exact (Nat.min_le_right n maxConcurrency).trans (by decide)

theorem runs (c : Config) (client : Client σ) : Runs c client where
  made := exists_make?_iff
  getter o ho r _ g s := by
    obtain ⟨rfl, hroom⟩ := Observer.of_make? ho
    exact (g.judged_read hroom r s).keepsRoom fun sent cause hcause =>
      Scheduler.ne_noRoom_of_decode (g.only_refuses o r s sent cause hcause)
  shares o ho r beacons ms s := by
    obtain ⟨rfl, hroom⟩ := Observer.of_make? ho
    refine (Minipool.judged_completeShares hroom).keepsRoom fun sent cause hcause => ?_
    rcases Minipool.only_refusesShares s sent cause hcause with hdecode | ⟨_, _, rfl⟩
    · exact Scheduler.ne_noRoom_of_decode hdecode
    · exact Scheduler.config_ne_noRoom (by simp [toString])
  registry o ho block? s := by
    obtain ⟨rfl, hroom⟩ := Observer.of_make? ho
    refine (Registry.judged_load hroom).keepsRoom fun sent cause hcause => ?_
    rw [Registry.only_lacksStorage s sent cause hcause]
    exact Scheduler.config_ne_noRoom (by simp [toString])

/-- **A configuration that can be loaded can be used.** Of the settings that are looked up by name,
only an address that is none is refused. All others are what they show, or else as if they were not
there, and an observer can be made with them. With a configuration of any origin an observer can be
made exactly if an aggregate may be open and batches of every kind have room for an item, and then
no read fails for want of room. -/
theorem loaded_usable :
    (∀ processors lookup, Loads processors lookup ∧
      ∀ c, ofLookup lookup processors = .ok c → Accepted processors c) ∧
    ∀ {σ : Type} (c : Config) (client : Client σ), c.concurrency ≤ Pool.maxPermits →
      Runs c client := by
  refine ⟨fun processors lookup => ⟨loads processors lookup, fun c hc => ?_⟩, fun c client _ => ?_⟩
  · exact (ofLookup_eq_ok_iff.1 hc).2.accepted
  · exact runs c client

/-- Settings of all kinds: with a sign and blanks, beyond what may be set, too large for a byte, and
blank. -/
def mixed (storage : Option String) (name : String) : Option String :=
  if name = storageName then storage
  else if name = timeoutName then some " +2500\n"
  else if name = concurrencyName then some "1000"
  else if name = fallbackName then some "256"
  else if name = hubName then some "\t"
  else none

/-- A number with a sign counts, one beyond what may be set is cut off, and what shows nothing does
not count. With the configuration nodes are read in batches that have room. With one that has no
room for balances no observer is made, and if it were, it would find out. An address that is too
short is refused. -/
theorem loaded_usable_mixed :
    let c : Config := { timeoutMs := 2500, concurrency := 64 }
    let narrow : Config := { batchSizes := { balances := 0 } }
    ofLookup (mixed none) = .ok c ∧
      (∃ o, Observer.make? c Snapshot.unreachable = .ok o ∧ ∀ r e,
        (Snapshot.Getter.nodes.read o r ()).value = .error e → e.root ≠ Scheduler.noRoom) ∧
      (¬ ∃ o, Observer.make? narrow Snapshot.unreachable = .ok o) ∧
      (∀ r, ((Snapshot.Getter.etherBalances []).read
        ⟨narrow, ⟨Snapshot.unreachable, narrow.hub, 1⟩, ⟨1⟩⟩ r ()).value =
          .error Scheduler.noRoom) ∧
      ofLookup (mixed (some "0x12")) = .error (misread storageName "0x12") := by
  intro c narrow
  obtain ⟨hloads, hruns⟩ := loaded_usable
  have hread : ofLookup (mixed none) = .ok c := by decide +kernel
  have haccepted := (hloads none (mixed none)).2 c hread
  refine ⟨hread, ?_, ?_, fun r => rfl, ?_⟩
  · obtain ⟨o, ho⟩ := haccepted.made Snapshot.unreachable
    have hpermits : c.concurrency ≤ Pool.maxPermits := haccepted.permits (by decide)
    refine ⟨o, ho, fun r => ?_⟩
    exact ((hruns c Snapshot.unreachable hpermits).getter o ho r .nodes ()).never
      Snapshot.unreachable_failsByTransport
  · rw [(hruns narrow Snapshot.unreachable (by decide)).made]
    rintro ⟨-, hpositive⟩
    exact absurd hpositive.balances (by decide)
  · refine (hloads none _).1.storage "0x12" ⟨⟨rfl, by decide⟩, fun a ha => ?_⟩
    have hrefused : Address.parse "0x12" = .error (.invalidAddress "0x12") := by decide +kernel
    cases hrefused.symm.trans ha

end Config

end StakingSnapshot
