import Mathlib.Data.List.Forall2
import StakingSnapshot.Proofs.Job.Outcome
import StakingSnapshot.Proofs.Pool.Permits

/-!
# What jobs come to side by side

Whatever the other jobs of a pool do, a job against a chain comes to what it comes to alone.

* `Client.Gives`: the answers that a client may give, in whatever state it is.
* `Seat.Follows`: a job is on the way to its outcome. Every move keeps it there
  (`Seat.follows_move`), so every job of every pool that moves lead to is (`Pool.follows`).
* `Seat.result?`, `Seat.flags`: how a job ended.
* `Pool.partsOf`: the jobs of one read.
-/

namespace StakingSnapshot

/-- The client may give this answer to the aggregate. -/
def Client.Gives {σ : Type} (client : Client σ) (hub : Address) : Replies :=
  fun block body answer => ∃ s, (client.call hub body.encode block s).1 = answer

namespace Seat

variable {S : Type} {chain : Chain} {s₀ s s' : Seat S}

/-- The job that started out as `s₀` is on the way to its outcome against a chain. -/
def Follows (chain : Chain) (s₀ s : Seat S) : Prop :=
  s.job = s₀.job ∧
    match s.phase with
    | .waiting => s.slots = s₀.slots
    | .admitted => s.slots = s₀.slots
    | .inFlight prepared => s₀.job.prepare s₀.slots = (s.slots, .ok prepared)
    | .settled r => s₀.job.outcome (chain s₀.job.block) s₀.slots = (s.slots, r)
    | .finished r => s₀.job.outcome (chain s₀.job.block) s₀.slots = (s.slots, r)
    | .abandoned => True

theorem follows_of_waiting (h : s.phase = .waiting) : Follows chain s s := by
  refine ⟨rfl, ?_⟩
  rw [h]

theorem follows_started (h : Follows chain s₀ s) (hphase : s.phase = .admitted) :
    Follows chain s₀ s.started := by
  obtain ⟨hjob, hslots⟩ := h
  rw [hphase] at hslots
  simp only at hslots
  unfold started
  rw [hjob, hslots]
  rcases hp : s₀.job.prepare s₀.slots with ⟨slots, r⟩
  cases r with
  | error e =>
    refine ⟨rfl, ?_⟩
    simp only [Job.outcome, hp]
  | ok prepared =>
    by_cases hcalls : prepared.calls.isEmpty = true
    · simp only [hcalls, if_true]
      refine ⟨rfl, ?_⟩
      rw [List.isEmpty_iff] at hcalls
      simp only [Job.outcome, hp, hcalls]
      cases s₀.job.strict <;> rfl
    · simp only [hcalls]
      exact ⟨rfl, hp⟩

theorem follows_answered {σ : Type} {client : Client σ} {hub : Address}
    (hchain : client.AnswersFor hub chain) (hfits : s₀.job.Fits chain s₀.slots)
    (h : Follows chain s₀ s) {prepared : Prepared S} (hphase : s.phase = .inFlight prepared)
    {answer : Except Fault Bytes}
    (hgives : client.Gives hub s.job.block (aggregateOf prepared.calls) answer) :
    Follows chain s₀ (s.answered prepared answer) := by
  obtain ⟨hjob, hprepare⟩ := h
  rw [hphase] at hprepare
  rw [hjob] at hgives
  obtain ⟨state, hanswer⟩ := hgives
  obtain ⟨data, hcall, hdata⟩ := hchain s₀.job.block _ state (hfits _ _ hprepare)
  have hanswer : answer = .ok data := hanswer.symm.trans hcall
  have hresults : Reply.decode? data =
      some (answersTo (chain s₀.job.block) prepared.calls) := by
    rw [hdata, List.map_map]
    rfl
  refine ⟨hjob, ?_⟩
  simp only [answered, hjob, hanswer, Job.outcome, hprepare,
    conclude_of_decode? hresults (List.length_map _)]

/-- **One move.** A job that is on the way to its outcome stays there. -/
theorem follows_move {σ : Type} {client : Client σ} {hub : Address}
    (hchain : client.AnswersFor hub chain) (hfits : s₀.job.Fits chain s₀.slots)
    (h : Follows chain s₀ s) {m : Move} (hexpects : s.Expects (client.Gives hub) m)
    (hmove : s.move m = some s') : Follows chain s₀ s' := by
  rcases move_cases hmove with ⟨rfl, hphase, rfl⟩ | ⟨rfl, hphase, rfl⟩ |
    ⟨answer, prepared, rfl, hphase, rfl⟩ | ⟨result, rfl, hphase, rfl⟩ | ⟨rfl, rfl⟩
  · obtain ⟨hjob, hslots⟩ := h
    rw [hphase] at hslots
    exact ⟨hjob, hslots⟩
  · exact follows_started h hphase
  · exact follows_answered hchain hfits h hphase (hexpects prepared hphase)
  · obtain ⟨hjob, hout⟩ := h
    rw [hphase] at hout
    exact ⟨hjob, hout⟩
  · exact ⟨h.1, trivial⟩

/-- The result with which the job is over. -/
def result? (s : Seat S) : Option (Except Fault (List Bool)) :=
  match s.phase with
  | .finished r => some r
  | _ => none

/-- The flags with which the job ended, if it ended well. -/
def flags (s : Seat S) : List Bool :=
  match s.result? with
  | some (.ok flags) => flags
  | _ => []

/-- The job ended well. -/
def endedWell (s : Seat S) : Bool :=
  match s.result? with
  | some (.ok _) => true
  | _ => false

theorem endedWell_iff {s : Seat S} :
    s.endedWell = true ↔ ∃ flags, s.result? = some (.ok flags) := by
  unfold endedWell
  split
  case h_1 flags h => simp [h]
  case h_2 h => simpa using h

theorem flags_of_result? {s : Seat S} {flags : List Bool} (h : s.result? = some (.ok flags)) :
    s.flags = flags := by
  simp only [Seat.flags, h]

/-- A job that is over came to its outcome. -/
theorem outcome_of_follows (h : Follows chain s₀ s) {r : Except Fault (List Bool)}
    (hr : s.result? = some r) :
    s₀.job.outcome (chain s₀.job.block) s₀.slots = (s.slots, r) := by
  obtain ⟨_, hout⟩ := h
  unfold result? at hr
  split at hr
  case h_1 r' hphase =>
    rw [hphase] at hout
    cases hr
    exact hout
  case h_2 => cases hr

end Seat

/-- Two entries of pools that are jobs of the same read and in a relation. -/
inductive SameRead {J : Type} {S : J → Type} (R : ∀ j, Seat (S j) → Seat (S j) → Prop) :
    ((j : J) × Seat (S j)) → ((j : J) × Seat (S j)) → Prop
  | mk {j : J} {s₀ s : Seat (S j)} : R j s₀ s → SameRead R ⟨j, s₀⟩ ⟨j, s⟩

/-- Entries that correspond go on doing so when one of them changes. -/
theorem forall₂_set {α β : Type} {R : α → β → Prop} {l₀ : List α} {l : List β} {i : Nat}
    {b b' : β} (h : List.Forall₂ R l₀ l) (hget : l[i]? = some b)
    (hkeep : ∀ a ∈ l₀, R a b → R a b') : List.Forall₂ R l₀ (l.set i b') := by
  induction h generalizing i with
  | nil => exact .nil
  | cons hab hrest ih =>
    cases i with
    | zero =>
      cases hget
      exact .cons (hkeep _ (.head _) hab) hrest
    | succ i => exact .cons hab (ih hget fun a ha => hkeep a (.tail _ ha))

namespace Pool

variable {J : Type} {S : J → Type} {σ : Type}

/-- **Every interleaving.** Each job of a pool that moves lead to is on the way to its outcome. -/
theorem follows {client : Client σ} {hub : Address} {chain : Chain}
    (hchain : client.AnswersFor hub chain) {p₀ p : Pool S}
    (hwaiting : ∀ t ∈ p₀.seats, t.2.phase = .waiting)
    (hfits : ∀ t ∈ p₀.seats, t.2.job.Fits chain t.2.slots)
    (h : Reaches (client.Gives hub) p₀ p) :
    List.Forall₂ (SameRead fun _ => Seat.Follows chain) p₀.seats p.seats := by
  induction h with
  | refl =>
    rw [List.forall₂_same]
    exact fun t ht => .mk (Seat.follows_of_waiting (hwaiting t ht))
  | step _ hseat hexpects hmove ih =>
    obtain ⟨j, s, s', free, hseat', hstep, _, rfl⟩ := move_eq_some hmove
    rw [hseat] at hseat'
    cases hseat'
    refine forall₂_set ih hseat ?_
    rintro t₀ ht₀ ⟨hfollows⟩
    exact .mk (Seat.follows_move hchain (hfits _ ht₀) hfollows hexpects hstep)

variable [DecidableEq J]

/-- The job, if it is one of the read. -/
def partOf? (j : J) (t : (k : J) × Seat (S k)) : Option (Seat (S j)) :=
  if h : t.1 = j then some (h ▸ t.2) else none

theorem partOf?_self (j : J) (s : Seat (S j)) : partOf? j ⟨j, s⟩ = some s := dif_pos rfl

theorem partOf?_of_ne {j k : J} (h : k ≠ j) (s : Seat (S k)) : partOf? j ⟨k, s⟩ = none :=
  dif_neg h

/-- The jobs of one read, in order. -/
def partsOf (j : J) (seats : List ((k : J) × Seat (S k))) : List (Seat (S j)) :=
  seats.filterMap (partOf? j)

theorem mem_partsOf {j : J} {seats : List ((k : J) × Seat (S k))} {s : Seat (S j)} :
    s ∈ partsOf j seats ↔ ⟨j, s⟩ ∈ seats := by
  unfold partsOf
  rw [List.mem_filterMap]
  constructor
  · rintro ⟨⟨k, t⟩, ht, hpart⟩
    by_cases hk : k = j
    · subst hk
      rw [partOf?_self] at hpart
      cases hpart
      exact ht
    · rw [partOf?_of_ne hk] at hpart
      cases hpart
  · exact fun hs => ⟨_, hs, partOf?_self j s⟩

theorem partsOf_append (j : J) (seats seats' : List ((k : J) × Seat (S k))) :
    partsOf j (seats ++ seats') = partsOf j seats ++ partsOf j seats' :=
  List.filterMap_append

theorem partsOf_map_self (j : J) (parts : List (Seat (S j))) :
    partsOf j (parts.map (Sigma.mk j)) = parts := by
  unfold partsOf
  have hpart : partOf? j ∘ Sigma.mk (β := fun k => Seat (S k)) j = some :=
    funext (partOf?_self j)
  rw [List.filterMap_map, hpart, List.filterMap_some]

theorem partsOf_map_of_ne {j k : J} (h : k ≠ j) (parts : List (Seat (S k))) :
    partsOf j (parts.map (Sigma.mk k)) = [] := by
  unfold partsOf
  rw [List.filterMap_eq_nil_iff]
  intro t ht
  obtain ⟨s, -, rfl⟩ := List.mem_map.1 ht
  exact partOf?_of_ne h s

/-- Of jobs that are listed read by read, those of one read. -/
theorem partsOf_flatMap {reads : List J} (hnodup : reads.Nodup) (parts : ∀ j, List (Seat (S j)))
    (j : J) : partsOf j (reads.flatMap fun k => (parts k).map (Sigma.mk k)) =
      if j ∈ reads then parts j else [] := by
  induction reads with
  | nil => rfl
  | cons k reads ih =>
    obtain ⟨hk, hnodup'⟩ := List.nodup_cons.1 hnodup
    rw [List.flatMap_cons, partsOf_append, ih hnodup']
    by_cases hkj : k = j
    · subst hkj
      rw [partsOf_map_self, if_neg hk, if_pos List.mem_cons_self, List.append_nil]
    · have hmem : j ∈ k :: reads ↔ j ∈ reads := by
        rw [List.mem_cons]
        exact ⟨fun h => h.resolve_left (Ne.symm hkj), .inr⟩
      rw [partsOf_map_of_ne hkj, List.nil_append]
      simp only [hmem]

/-- If the entries of two pools correspond, so do the jobs of each read. -/
theorem forall₂_partsOf {R : ∀ j, Seat (S j) → Seat (S j) → Prop}
    {seats₀ seats : List ((k : J) × Seat (S k))} (h : List.Forall₂ (SameRead R) seats₀ seats)
    (j : J) : List.Forall₂ (R j) (partsOf j seats₀) (partsOf j seats) := by
  induction h with
  | nil => exact .nil
  | cons hhead _ ih =>
    obtain @⟨k, s₀, s, hs⟩ := hhead
    unfold partsOf at ih ⊢
    by_cases hk : k = j
    · subst hk
      rw [List.filterMap_cons_some (partOf?_self k s₀), List.filterMap_cons_some (partOf?_self k s)]
      exact .cons hs ih
    · rw [List.filterMap_cons_none (partOf?_of_ne hk s₀),
        List.filterMap_cons_none (partOf?_of_ne hk s)]
      exact ih

end Pool

end StakingSnapshot
