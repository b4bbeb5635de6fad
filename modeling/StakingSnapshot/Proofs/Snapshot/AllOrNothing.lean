import StakingSnapshot.Proofs.Minipool.Refusal
import StakingSnapshot.Proofs.Session.Lost
import StakingSnapshot.Proofs.Snapshot.Getter

/-!
# Snapshots are complete, or fail with the first failure

Whatever the client answers, a snapshot that ends well has read everything that it asked for, and
one that does not fails with the first failure that it met, and asks nothing behind it.

* `Outcome.AllOrNothing`: how a session ends; `Outcome.Judged.allOrNothing`.
* `Refusal.Only`: all that is refused has a property. `Refusal.IsFinal`: what is refused once will
  be refused again.
* `Observer.make?_eq_ok_iff`: which observers there are.
* `Snapshot.Getter.refuses`: what each getter refuses.
* `Snapshot.AllOrNothing`: getters, complete shares and the registry;
  `Snapshot.complete_or_first_failure`.
-/

namespace StakingSnapshot

variable {σ α β : Type}

/-! ## How a session ends -/

/-- The session asked the client in its state. It ends with all that it asked for, or with the first
failure. -/
structure Outcome.AllOrNothing (client : Client σ) (Refused : List Request → Fault → Prop) (s : σ)
    (x : Outcome σ β) (result : Except Fault α) : Prop where
  /-- The client ends in the state after all the questions. -/
  chain : x.chain = client.after x.sent s
  /-- If the session ends well, it went on with every answer. -/
  complete : ∀ v, result = .ok v → ∀ a ∈ client.replay x.sent s, a.IsSound
  /-- If not, the cause is the failure of the last answer, and it went on with those before; or it
  went on with every answer, and refused something behind the last one. -/
  failed : ∀ e, result = .error e →
    (∃ before last, client.replay x.sent s = before ++ [last] ∧ (∀ a ∈ before, a.IsSound) ∧
      last.failure? = some e.root) ∨
    (∀ a ∈ client.replay x.sent s, a.IsSound) ∧ Refused x.sent e.root
  /-- Contexts do not change the class. -/
  kind : ∀ e, result = .error e → e.kind = e.root.kind ∧ e.isRetryable = e.root.isRetryable
  /-- The fault may pass exactly if the failure of some answer is about the way to the chain. -/
  retryable : ∀ e, result = .error e →
    (e.isRetryable = true ↔ ∃ a ∈ client.replay x.sent s, ∃ text, a.failure? = some (.transport text))
  /-- If the client's own faults are no others, this is if some answer was lost. -/
  lost : client.FailsByTransport → ∀ e, result = .error e →
    (e.isRetryable = true ↔ ∃ a ∈ client.replay x.sent s, a.IsLost)

/-- The cause is the way to the chain exactly if some answer has such a failure. -/
theorem Verdict.transport_iff {R : Fault → Prop} {t : List Answered} {cause : Fault}
    (h : Verdict R t (some cause)) (hR : ∀ cause, R cause → cause.isRetryable = false) :
    (∃ text, cause = .transport text) ↔ ∃ a ∈ t, ∃ text, a.failure? = some (.transport text) := by
  cases h with
  | failed before last ends sound root =>
    subst ends
    constructor
    · rintro ⟨text, rfl⟩
      exact ⟨last, List.mem_concat_self, text, root⟩
    · rintro ⟨a, ha, text, htext⟩
      rcases List.mem_append.1 ha with ha | ha
      · rw [sound a ha] at htext
        cases htext
      · obtain rfl := List.mem_singleton.1 ha
        exact ⟨text, Option.some.inj (root.symm.trans htext)⟩
  | refused sound root =>
    constructor
    · rintro ⟨text, rfl⟩
      cases hR _ root
    · rintro ⟨a, ha, text, htext⟩
      rw [sound a ha] at htext
      cases htext

/-- A verdict on a session that refuses only what stays as it is. -/
theorem Outcome.Judged.allOrNothing {client : Client σ} {R : List Request → Fault → Prop} {s : σ}
    {x : Outcome σ β} {result : Except Fault α} (h : x.Judged client R s (failureOf result))
    (hR : ∀ sent cause, R sent cause → cause.isRetryable = false) :
    x.AllOrNothing client R s result := by
  have hsound : ∀ {t : List Answered}, (∀ a ∈ t, a.failure? = none) → ∀ a ∈ t, a.IsSound :=
    fun ht a ha => Answered.failure?_eq_none_iff.1 (ht a ha)
  have hverdict : ∀ e, result = .error e →
      Verdict (R x.sent) (client.replay x.sent s) (some e.root) := by
    rintro e rfl
    exact h.verdict
  have hretryable : ∀ e, result = .error e → (e.isRetryable = true ↔
      ∃ a ∈ client.replay x.sent s, ∃ text, a.failure? = some (.transport text)) := fun e he =>
    Fault.isRetryable_iff.trans ((hverdict e he).transport_iff (hR x.sent))
  constructor
  case chain => exact h.chain
  case complete =>
    rintro v rfl
    exact hsound h.verdict.sound_of_none
  case failed =>
    intro e he
    cases hverdict e he with
    | failed before last ends sound root => exact .inl ⟨before, last, ends, hsound sound, root⟩
    | refused sound root => exact .inr ⟨hsound sound, root⟩
  case kind => exact fun e _ => ⟨(Fault.kind_root e).symm, (Fault.isRetryable_root e).symm⟩
  case retryable => exact hretryable
  case lost =>
    intro hclient e he
    rw [hretryable e he]
    exact exists_congr fun a => and_congr_right fun ha =>
      Answered.lost_iff (hclient.replay x.sent s a ha)

/-! ## What is refused stays as it is -/

namespace Refusal

/-- Whatever is refused has a property. -/
def Only (P : Fault → Prop) (R : Refusal σ) : Prop := ∀ s sent cause, R s sent cause → P cause

/-- What is refused once will be refused again. -/
def IsFinal (R : Refusal σ) : Prop := ∀ s sent cause, R s sent cause → cause.isRetryable = false

variable {P : Fault → Prop} {R R' : Refusal σ}

theorem Only.isFinal (h : R.Only P) (hP : ∀ cause, P cause → cause.isRetryable = false) :
    R.IsFinal := fun s sent cause hcause => hP cause (h s sent cause hcause)

theorem only_never : (never : Refusal σ).Only P := fun _ _ _ => False.elim

theorem only_after {m : Read σ α} {R : α → Refusal σ} (h : ∀ a, (R a).Only P) :
    (after m R).Only P := by
  rintro s sent cause ⟨a, -, rest, -, hcause⟩
  exact h a _ rest cause hcause

theorem only_either (h : R.Only P) (h' : R'.Only P) : (R.either R').Only P :=
  fun s sent cause hcause => hcause.elim (h s sent cause) (h' s sent cause)

theorem only_tooMany {raw : Word} {target : Address} {method : String} :
    (tooMany raw target method : Refusal σ).Only (·.kind = .decode) := by
  rintro s sent cause ⟨-, -, rfl⟩
  rfl

theorem only_countsTooMany {A : Type} [Abi.Arguments A] {o : Observer σ} {block : BlockRef}
    {target : Address} {m : Abi.Method A .uint256} {args : A} :
    (Snapshot.countsTooMany o block target m args).Only (·.kind = .decode) :=
  only_after fun _ => only_tooMany

end Refusal

theorem Fault.isRetryable_of_decode {f : Fault} (h : f.kind = .decode) : f.isRetryable = false := by
  simp [isRetryable, h]

/-- A version that has no binding is data that cannot be read. -/
theorem FirstFaulty.kind_eq_decode {found : List (Address × UInt8)} {i : Nat} {cause : Fault}
    (h : FirstFaulty Binding.refusal? found i cause) : cause.kind = .decode := by
  obtain ⟨p, -, hp⟩ := h.fault
  unfold Binding.refusal? at hp
  split at hp
  · cases hp
  · cases hp
    rfl

namespace Minipool

variable {o : Observer σ} {r : Registry} {as : List Address}

theorem only_refusesVersions {versions : List UInt8} :
    (refusesVersions o r as versions).Only (·.kind = .decode) := by
  refine Refusal.only_after fun balances => ?_
  rintro s sent cause ⟨i, hfirst, -⟩
  exact hfirst.kind_eq_decode

theorem only_refusesAddresses : (refusesAddresses o r as).Only (·.kind = .decode) :=
  Refusal.only_after fun _ => only_refusesVersions

theorem only_refusesShares {beacons : List Word} {ms : List Minipool} :
    (refusesShares o r beacons ms).Only fun cause => cause.kind = .decode ∨
      ∃ balances minipools : Nat,
        cause = .config s!"got {balances} beacon balances for {minipools} minipools" := by
  rintro s sent cause (⟨-, -, rfl⟩ | ⟨-, i, hfirst, -⟩)
  · exact .inr ⟨_, _, rfl⟩
  · exact .inl hfirst.kind_eq_decode

theorem isFinal_refusesShares {beacons : List Word} {ms : List Minipool} :
    (refusesShares o r beacons ms).IsFinal := by
  refine only_refusesShares.isFinal ?_
  rintro cause (hdecode | ⟨_, _, rfl⟩)
  · exact Fault.isRetryable_of_decode hdecode
  · rfl

end Minipool

theorem Registry.only_lacksStorage {o : Observer σ} {block? : Option BlockNumber} :
    (lacksStorage o block?).Only (· = .config s!"Missing env var: {Config.storageName}") := by
  refine Refusal.only_after fun number => ?_
  rintro s sent cause ⟨-, -, rfl⟩
  rfl

theorem Registry.isFinal_lacksStorage {o : Observer σ} {block? : Option BlockNumber} :
    (lacksStorage o block?).IsFinal := by
  refine only_lacksStorage.isFinal ?_
  rintro cause rfl
  rfl

/-! ## All reads -/

theorem BatchSizes.firstZero?_eq_none_iff {b : BatchSizes} :
    b.firstZero? = none ↔ ∀ size ∈ b.toList, 0 < size := by
  have hsizes : (names.zip b.toList).map Prod.snd = b.toList := rfl
  rw [firstZero?, Option.map_eq_none_iff, List.find?_eq_none]
  conv_rhs => rw [← hsizes, List.forall_mem_map]
  simp [Nat.pos_iff_ne_zero]

/-- A configuration is valid exactly if an aggregate may be open and no batches are without room. -/
theorem Config.validate_eq_ok_iff {c : Config} :
    c.validate = .ok () ↔ 0 < c.concurrency ∧ ∀ size ∈ c.batchSizes.toList, 0 < size := by
  rw [← BatchSizes.firstZero?_eq_none_iff, Nat.pos_iff_ne_zero, validate]
  split
  case isTrue hzero => simp [hzero]
  case isFalse hpos => cases c.batchSizes.firstZero? <;> simp [hpos]

/-- An observer can be made exactly of a configuration that is valid. -/
theorem Observer.make?_eq_ok_iff {config : Config} {client : Client σ} {o : Observer σ} :
    make? config client = .ok o ↔
      (0 < config.concurrency ∧ ∀ size ∈ config.batchSizes.toList, 0 < size) ∧
        o = ⟨config, ⟨client, config.hub, config.concurrency⟩, ⟨config.fallbackVersion⟩⟩ := by
  rw [← Config.validate_eq_ok_iff]
  unfold make? Scheduler.make?
  cases hvalid : config.validate with
  | error e => simp [bind, Except.bind]
  | ok _ =>
    have hpos : config.concurrency ≠ 0 := (Config.validate_eq_ok_iff.1 hvalid).1.ne'
    simp [bind, Except.bind, pure, Except.pure, hpos, eq_comm]

/-- It asks its client, in batches that have room. -/
theorem Observer.of_make? {config : Config} {client : Client σ} {o : Observer σ}
    (h : make? config client = .ok o) : o.scheduler.client = client ∧ o.HasRoom := by
  obtain ⟨⟨-, hroom⟩, rfl⟩ := make?_eq_ok_iff.1 h
  exact ⟨rfl, hroom⟩

namespace Snapshot

/-- What each getter refuses: a count that is too large, and a minipool of a version that has no
binding. -/
def Getter.refuses (o : Observer σ) (r : Registry) : {α : Type} → Getter α → Refusal σ
  | _, etherBalances _ => .never
  | _, minipoolAddresses => Minipool.countsTooMany o r
  | _, minipoolAddressesOfNode a => Minipool.countsTooManyOfNode o r a
  | _, minipool a => Minipool.refusesAddress o r a
  | _, minipoolsOfNode a => (Minipool.countsTooManyOfNode o r a).either
      (.after (Minipool.addressesOfNode o r a) (Minipool.refusesAddresses o r))
  | _, minipools => (Minipool.countsTooMany o r).either
      (.after (Minipool.addresses o r) (Minipool.refusesAddresses o r))
  | _, nodeAddresses => Node.countsTooMany o r
  | _, node _ => .never
  | _, nodes => Node.countsTooMany o r
  | _, network _ => .never
  | _, effectiveStake => Node.countsTooMany o r
  | _, proposalCount => Proposal.countsTooMany o r
  | _, proposal _ => .never
  | _, proposals => Proposal.countsTooMany o r

theorem Getter.only_refuses (o : Observer σ) (r : Registry) (g : Getter α) :
    (g.refuses o r).Only (·.kind = .decode) := by
  cases g with
  | etherBalances _ => exact Refusal.only_never
  | minipoolAddresses => exact Refusal.only_countsTooMany
  | minipoolAddressesOfNode _ => exact Refusal.only_countsTooMany
  | minipool _ => exact Refusal.only_after fun _ => Minipool.only_refusesVersions
  | minipoolsOfNode _ =>
    exact Refusal.only_either Refusal.only_countsTooMany
      (Refusal.only_after fun _ => Minipool.only_refusesAddresses)
  | minipools =>
    exact Refusal.only_either Refusal.only_countsTooMany
      (Refusal.only_after fun _ => Minipool.only_refusesAddresses)
  | nodeAddresses => exact Refusal.only_countsTooMany
  | node _ => exact Refusal.only_never
  | nodes => exact Refusal.only_countsTooMany
  | network _ => exact Refusal.only_never
  | effectiveStake => exact Refusal.only_countsTooMany
  | proposalCount => exact Refusal.only_countsTooMany
  | proposal _ => exact Refusal.only_never
  | proposals => exact Refusal.only_countsTooMany

theorem Getter.isFinal_refuses (o : Observer σ) (r : Registry) (g : Getter α) :
    (g.refuses o r).IsFinal :=
  (g.only_refuses o r).isFinal fun _ => Fault.isRetryable_of_decode

theorem Getter.judged_read {o : Observer σ} (ho : o.HasRoom) (r : Registry) (g : Getter α) (s : σ) :
    (g.read o r).Judged o.scheduler.client (g.refuses o r) s := by
  cases g with
  | etherBalances _ => exact judged_etherBalances ho
  | minipoolAddresses => exact Minipool.judged_addresses ho
  | minipoolAddressesOfNode _ => exact Minipool.judged_addressesOfNode ho
  | minipool _ => exact Minipool.judged_one ho
  | minipoolsOfNode _ => exact Minipool.judged_ofNode ho
  | minipools => exact Minipool.judged_every ho
  | nodeAddresses => exact Node.judged_addresses ho
  | node _ => exact Node.judged_one ho
  | nodes => exact Node.judged_every ho
  | network _ => exact Network.judged_fetch ho
  | effectiveStake => exact Network.judged_effectiveStake ho
  | proposalCount => exact Proposal.judged_count
  | proposal _ => exact Proposal.judged_one ho
  | proposals => exact Proposal.judged_every ho

/-- Every read ends with all that it asked for, or with the first failure. -/
structure AllOrNothing (client : Client σ) (o : Observer σ) : Prop where
  getter : ∀ (r : Registry) {α : Type} (g : Getter α) s,
    (g.read o r s).AllOrNothing client (g.refuses o r s) s (g.read o r s).value
  shares : ∀ r beacons ms s,
    (Minipool.completeShares o r beacons ms s).AllOrNothing client
      (Minipool.refusesShares o r beacons ms s) s (Minipool.completeShares o r beacons ms s).value.2
  registry : ∀ block? s,
    (Registry.load o block? s).AllOrNothing client (Registry.lacksStorage o block? s) s
      (Registry.load o block? s).value

/-- **All or nothing.** -/
theorem complete_or_first_failure {config : Config} {client : Client σ} {o : Observer σ}
    (ho : Observer.make? config client = .ok o) : AllOrNothing client o := by
  obtain ⟨rfl, hroom⟩ := Observer.of_make? ho
  constructor
  case getter => exact fun r _ g s => (g.judged_read hroom r s).allOrNothing (g.isFinal_refuses o r s)
  case shares =>
    exact fun r beacons ms s =>
      (Minipool.judged_completeShares hroom).allOrNothing (Minipool.isFinal_refusesShares s)
  case registry =>
    exact fun block? s => (Registry.judged_load hroom).allOrNothing (Registry.isFinal_lacksStorage s)

/-- A node that cannot be reached. -/
def unreachable : Client Unit :=
  Endpoint.client (fun _ _ => .error (.transport "connection refused")) ⟨"http://localhost", 1000⟩

theorem unreachable_failsByTransport : unreachable.FailsByTransport := by
  refine Endpoint.client_failsByTransport _ fun _ f hf => ?_
  cases hf
  rfl

/-- If the node cannot be reached, a later attempt to load a registry may succeed. -/
theorem complete_or_first_failure_unreachable :
    ∃ o e, Observer.make? { storage := some ⟨1⟩ } unreachable = .ok o ∧
      (Registry.load o (some 7) ()).value = .error e ∧ e.isRetryable = true := by
  obtain ⟨o, ho⟩ : ∃ o, Observer.make? { storage := some ⟨1⟩ } unreachable = .ok o := ⟨_, rfl⟩
  have hvalue : ∃ e, (Registry.load o (some 7) ()).value = .error e := by
    cases ho
    exact ⟨_, rfl⟩
  obtain ⟨e, he⟩ := hvalue
  refine ⟨o, e, ho, he, ?_⟩
  refine (((complete_or_first_failure ho).registry (some 7) ()).lost
    unreachable_failsByTransport e he).2 ?_
  cases ho
  exact ⟨_, .head _, nofun⟩

end Snapshot

end StakingSnapshot
