import Mathlib.Data.List.Forall2
import Mathlib.Data.List.FinRange
import StakingSnapshot.Proofs.Pool.Outcome
import StakingSnapshot.Proofs.Schedule.Batches

/-!
# Interleaved reads

Reads of one scheduler that are under way at once share its permits, and their jobs move in any
order.

* `Operation`: a read in batches or a single aggregate; `Operation.pool`: the jobs of several such
  reads.
* `Scheduler.follows_seats`: the jobs of a read in batches are on the way to their outcomes.
* `Operation.Comes`: what a read comes to against a chain, which no schedule shows in.
* `Operation.run_eq_ok_iff`: the jobs one after another come to it; `Operation.comes_of_parts`: so
  do they in any interleaving.
-/

namespace StakingSnapshot

variable {σ ι S : Type}

/-! ## The jobs of a read in batches -/

namespace Scheduler

variable {chain : Chain} {strict : Bool} {block : BlockRef} {plan : Plan ι}

theorem phase_of_mem_seats {start : Nat} {cs : List (List ι)} {s : Seat (List ι)}
    (h : s ∈ seats strict block plan start cs) : s.phase = .waiting := by
  induction cs generalizing start with
  | nil => cases h
  | cons c cs ih =>
    rcases List.mem_cons.1 h with rfl | hrest
    · rfl
    · exact ih hrest

theorem fits_of_mem_seats {start : Nat} {cs : List (List ι)}
    (hsized : Sized (chain block) ((plan.registered start cs.flatten).map Call.sub))
    {s : Seat (List ι)} (h : s ∈ seats strict block plan start cs) :
    s.job.Fits chain s.slots := by
  induction cs generalizing start with
  | nil => cases h
  | cons c cs ih =>
    rw [List.flatten_cons, Plan.registered_append, List.map_append] at hsized
    rcases List.mem_cons.1 h with rfl | hrest
    · exact Job.fits_ofItems (hsized.of_sublist (List.sublist_append_left _ _))
    · exact ih (hsized.of_sublist (List.sublist_append_right _ _)) hrest

/-- The jobs of a read in batches, in any order of moves, are on the way to their outcomes. -/
theorem follows_seats {q : Scheduler σ} (hchain : q.client.AnswersFor q.hub chain) {size : Nat}
    (hsize : 0 < size) {xs : List ι}
    (hsized : Sized (chain block) ((plan.registered 0 xs).map Call.sub))
    {p : Pool fun _ : Unit => List ι}
    (h : (q.pool strict block size plan xs).Reaches (q.client.Gives q.hub) p) :
    List.Forall₂ (Seat.Follows chain) (seats strict block plan 0 (chunks size xs))
      (p.seats.map fun t => t.2) := by
  rw [← chunks_flatten hsize xs] at hsized
  have hstart : ∀ t ∈ (q.pool strict block size plan xs).seats,
      t.2.phase = .waiting ∧ t.2.job.Fits chain t.2.slots := by
    intro t ht
    obtain ⟨s, hs, rfl⟩ := List.mem_map.1 ht
    exact ⟨phase_of_mem_seats hs, fits_of_mem_seats hsized hs⟩
  have hfollows := Pool.follows hchain (fun t ht => (hstart t ht).1) (fun t ht => (hstart t ht).2) h
  simp only [pool, Pool.ofSeats, List.forall₂_map_left_iff] at hfollows
  rw [List.forall₂_map_right_iff]
  refine hfollows.imp fun s t hst => ?_
  obtain ⟨hfollow⟩ := hst
  exact hfollow

/-- If the jobs of all batches end well, the items are filled. -/
theorem filled_of_parts {start : Nat} {cs : List (List ι)} {parts : List (Seat (List ι))}
    (h : List.Forall₂ (Seat.Follows chain) (seats strict block plan start cs) parts)
    (hok : ∀ s ∈ parts, ∃ flags, s.result? = some (.ok flags)) :
    plan.Filled (chain block) strict start cs.flatten (parts.map Seat.slots).flatten
      (parts.flatMap Seat.flags) := by
  induction cs generalizing start parts with
  | nil =>
    cases h
    exact .nil
  | cons c cs ih =>
    cases h with
    | @cons _ s _ parts hfollows hrest =>
      obtain ⟨⟨flags, hr⟩, hok'⟩ := List.forall_mem_cons.1 hok
      have hfirst := Job.outcome_ofItems_eq_ok_iff.1 (Seat.outcome_of_follows hfollows hr)
      rw [List.flatten_cons, List.map_cons, List.flatten_cons, List.flatMap_cons,
        Seat.flags_of_result? hr]
      exact Plan.filled_append_iff.2 ⟨_, _, _, _, hfirst, ih hrest hok', rfl, rfl⟩

/-- If the items can be filled, the job of no batch ends with a fault. -/
theorem ok_of_filled {start : Nat} {cs : List (List ι)} {parts : List (Seat (List ι))}
    (h : List.Forall₂ (Seat.Follows chain) (seats strict block plan start cs) parts)
    {ys : List ι} {flags : List Bool}
    (hfilled : plan.Filled (chain block) strict start cs.flatten ys flags)
    {s : Seat (List ι)} (hs : s ∈ parts) {r : Except Fault (List Bool)}
    (hr : s.result? = some r) : ∃ flags', r = .ok flags' := by
  induction cs generalizing start parts ys flags with
  | nil =>
    cases h
    cases hs
  | cons c cs ih =>
    cases h with
    | cons hfollows hrest =>
      obtain ⟨ys₁, ys₂, flags₁, flags₂, h₁, h₂, -, -⟩ := Plan.filled_append_iff.1 hfilled
      rcases List.mem_cons.1 hs with rfl | hs'
      · have hout := Seat.outcome_of_follows hfollows hr
        have hfirst : (Job.ofItems strict block plan start).outcome (chain block) c =
            (ys₁, .ok flags₁) :=
          Job.outcome_ofItems_eq_ok_iff.2 h₁
        exact ⟨flags₁, congrArg Prod.snd (hout.symm.trans hfirst)⟩
      · exact ih hrest h₂ hs'

end Scheduler

/-! ## Reads -/

/-- A read of which a scheduler makes jobs. Its slots are of type `S`. -/
inductive Operation : Type → Type 1
  /-- Items are filled in batches. -/
  | batches {ι : Type} (strict : Bool) (block : BlockRef) (size : Nat) (hsize : 0 < size)
    (plan : Plan ι) (items : List ι) : Operation (List ι)
  /-- Slots are filled by one aggregate. -/
  | single {S : Type} (strict : Bool) (block : BlockRef) (calls : List (Call S)) (slots : S) :
    Operation S

namespace Operation

/-- The read with its jobs one after another. -/
def run (q : Scheduler σ) : Operation S → Session σ (S × Except Fault (List Bool))
  | .batches strict block size _ plan items => q.fill strict block size plan items
  | .single strict block calls slots => q.run (Job.ofCalls strict block (.ok calls)) slots

/-- The jobs of the read, none of which has started. -/
def seats : Operation S → List (Seat S)
  | .batches strict block size _ plan items =>
    Scheduler.seats strict block plan 0 (chunks size items)
  | .single strict block calls slots => [Seat.ofJob (Job.ofCalls strict block (.ok calls)) slots]

/-- The slots of the read, put together from those of its jobs. -/
def gather : Operation S → List S → S
  | .batches .., parts => parts.flatten
  | .single _ _ _ slots, parts => parts.headD slots

/-- The calls of the read fit into a machine. -/
def Fits (chain : Chain) : Operation S → Prop
  | .batches _ block _ _ plan items =>
    Sized (chain block) ((plan.registered 0 items).map Call.sub)
  | .single _ block calls _ => Sized (chain block) (calls.map Call.sub)

/-- The slots and the flags that the read comes to against a chain, if it ends well. -/
def Comes (chain : Chain) : Operation S → S → List Bool → Prop
  | .batches strict block _ _ plan items, slots, flags =>
    plan.Filled (chain block) strict 0 items slots flags
  | .single strict block calls slots, slots', flags =>
    (Job.ofCalls strict block (.ok calls)).outcome (chain block) slots = (slots', .ok flags)

variable {chain : Chain} {o : Operation S}

/-- **One after another.** The jobs in order come to what the read comes to. -/
theorem run_eq_ok_iff {q : Scheduler σ} (hchain : q.client.AnswersFor q.hub chain)
    (hfits : o.Fits chain) {slots : S} {flags : List Bool} {s : σ} :
    (o.run q s).value = (slots, .ok flags) ↔ o.Comes chain slots flags := by
  cases o with
  | batches strict block size hsize plan items =>
    exact Scheduler.fill_eq_ok_iff hchain hsize hfits
  | single strict block calls slots₀ =>
    have hvalue : (q.run (Job.ofCalls strict block (.ok calls)) slots₀ s).value = _ :=
      Job.run_value hchain (Job.fits_ofCalls hfits) s
    rw [run, hvalue]
    rfl

/-- **In any interleaving.** If the jobs of a read end well, it comes to what they hold. -/
theorem comes_of_parts {parts : List (Seat S)}
    (h : List.Forall₂ (Seat.Follows chain) o.seats parts)
    (hok : ∀ s ∈ parts, ∃ flags, s.result? = some (.ok flags)) :
    o.Comes chain (o.gather (parts.map Seat.slots)) (parts.flatMap Seat.flags) := by
  cases o with
  | batches strict block size hsize plan items =>
    have hfilled := Scheduler.filled_of_parts h hok
    rw [chunks_flatten hsize] at hfilled
    exact hfilled
  | single strict block calls slots =>
    cases h with
    | @cons _ s _ _ hfollows hnil =>
      cases hnil
      obtain ⟨flags, hr⟩ := hok s (.head _)
      have hout := Seat.outcome_of_follows hfollows hr
      rw [List.flatMap_cons, List.flatMap_nil, List.append_nil, Seat.flags_of_result? hr]
      exact hout

theorem phase_of_mem_seats {s : Seat S} (h : s ∈ o.seats) : s.phase = .waiting := by
  cases o with
  | batches => exact Scheduler.phase_of_mem_seats h
  | single =>
    obtain rfl := List.mem_singleton.1 h
    rfl

theorem fits_of_mem_seats (hfits : o.Fits chain) {s : Seat S} (h : s ∈ o.seats) :
    s.job.Fits chain s.slots := by
  cases o with
  | batches strict block size hsize plan items =>
    refine Scheduler.fits_of_mem_seats ?_ h
    rw [chunks_flatten hsize]
    exact hfits
  | single =>
    obtain rfl := List.mem_singleton.1 h
    exact Job.fits_ofCalls hfits

/-! ## Several reads -/

variable {m : Nat} {T : Fin m → Type}

/-- The jobs of several reads and the permits that they share. -/
def pool (limit : Nat) (ops : ∀ j, Operation (T j)) : Pool T :=
  Pool.ofSeats limit ((List.finRange m).flatMap fun j => (ops j).seats.map (Sigma.mk j))

theorem mem_pool {limit : Nat} {ops : ∀ j, Operation (T j)} {t : (j : Fin m) × Seat (T j)} :
    t ∈ (pool limit ops).seats ↔ t.2 ∈ (ops t.1).seats := by
  obtain ⟨j, s⟩ := t
  simp only [pool, Pool.ofSeats, List.mem_flatMap, List.mem_finRange, true_and, List.mem_map]
  constructor
  · rintro ⟨k, s', hs', heq⟩
    cases heq
    exact hs'
  · exact fun hs => ⟨j, s, hs, rfl⟩

/-- The jobs of each read are those that it made. -/
theorem partsOf_pool (limit : Nat) (ops : ∀ j, Operation (T j)) (j : Fin m) :
    Pool.partsOf j (pool limit ops).seats = (ops j).seats := by
  have hparts := Pool.partsOf_flatMap (List.nodup_finRange m) (fun j => (ops j).seats) j
  rwa [if_pos (List.mem_finRange j)] at hparts

/-- **No schedule shows.** Reads of one scheduler that are under way at once never use more permits
than there are, whatever is answered, and do not get stuck. Against a chain, if no job ends with a
fault, each read ends with the slots and the flags that its jobs give one after another. -/
theorem interleaved_eq_sequential {q : Scheduler σ} (hlimit : 1 ≤ q.limit)
    (ops : ∀ j, Operation (T j)) :
    (∀ replies p, (pool q.limit ops).Reaches replies p →
      p.held + p.free = q.limit ∧ p.inFlight ≤ q.limit ∧
        ∀ answer, (∃ t ∈ p.seats, t.2.isOver = false) → ∃ i p', p.advance answer i = some p') ∧
    ∀ chain, q.client.AnswersFor q.hub chain → (∀ j, (ops j).Fits chain) →
      ∀ p, (pool q.limit ops).Reaches (q.client.Gives q.hub) p →
        (∀ t ∈ p.seats, ∃ flags, t.2.result? = some (.ok flags)) →
        ∀ j s, ((ops j).run q s).value =
          ((ops j).gather ((Pool.partsOf j p.seats).map Seat.slots),
            .ok ((Pool.partsOf j p.seats).flatMap Seat.flags)) := by
  have hwaiting : ∀ t ∈ (pool q.limit ops).seats, t.2.phase = .waiting :=
    fun t ht => phase_of_mem_seats (mem_pool.1 ht)
  refine ⟨fun replies p h => ?_, fun chain hchain hfits p h hok j s => ?_⟩
  · have hpermits : p.held + p.free = q.limit := Pool.held_add_free hwaiting h
    have hflight := p.inFlight_le_held
    exact ⟨hpermits, by omega, fun answer hrest => Pool.exists_advance answer (by omega) hrest⟩
  · have hfollows := Pool.follows hchain hwaiting
      (fun t ht => fits_of_mem_seats (hfits t.1) (mem_pool.1 ht)) h
    have hparts := Pool.forall₂_partsOf hfollows j
    rw [partsOf_pool] at hparts
    exact (run_eq_ok_iff hchain (hfits j)).2
      (comes_of_parts hparts fun t ht => hok _ (Pool.mem_partsOf.1 ht))

/-- Two items in batches of one, and next to them a single aggregate. -/
def twoReads : Fin 2 → Operation (List Bytes)
  | 0 => .batches true (.pinned 7) 1 Nat.one_pos
    (Plan.byIndex fun i => [Call.keep ⟨0⟩ [UInt8.ofNat i]]) [[], []]
  | 1 => .single true .latest [(Call.keep ⟨5⟩ [9]).onItem 1, (Call.keep ⟨5⟩ [8]).onItem 0] [[], []]

/-- The jobs of the two reads with two permits, after they moved in a certain order: the single
aggregate and then the second batch overtake the first batch. -/
def twoReadsPool : Pool fun _ : Fin 2 => List Bytes :=
  let q := Scheduler.ofChain .echo ⟨0⟩ 2
  (pool 2 twoReads).runOrder (fun block body => (q.client.call q.hub body.encode block ()).1)
    [0, 2, 0, 2, 2, 2, 1, 1, 1, 1, 0, 0]

/-- The two reads, in that order of moves. -/
theorem interleaved_twoReads :
    twoReadsPool.held + twoReadsPool.free = 2 ∧
      ((twoReads 0).run (Scheduler.ofChain .echo ⟨0⟩ 2) ()).value =
        ([[0], [1]], .ok [true, true]) ∧
      ((twoReads 1).run (Scheduler.ofChain .echo ⟨0⟩ 2) ()).value =
        ([[8], [9]], .ok [true, true]) := by
  have hreaches : (pool 2 twoReads).Reaches
      ((Chain.echo.client ⟨0⟩).Gives ⟨0⟩) twoReadsPool :=
    Pool.reaches_runOrder (fun _ _ => ⟨(), rfl⟩) .refl _
  have hfits : ∀ j, (twoReads j).Fits Chain.echo := by
    intro j
    match j with
    | 0 => exact ⟨by decide, by decide, by decide⟩
    | 1 => exact ⟨by decide, by decide, by decide⟩
  have hended : ∀ t ∈ twoReadsPool.seats, t.2.endedWell = true := by decide +kernel
  obtain ⟨hsafe, hsame⟩ :=
    interleaved_eq_sequential (q := .ofChain .echo ⟨0⟩ 2) (by decide) twoReads
  have hvalue := hsame Chain.echo (Chain.client_answersFor _ _) hfits _ hreaches
    fun t ht => Seat.endedWell_iff.1 (hended t ht)
  refine ⟨(hsafe _ _ hreaches).1, ?_, ?_⟩
  · rw [hvalue 0 ()]
    decide +kernel
  · rw [hvalue 1 ()]
    decide +kernel

end Operation

end StakingSnapshot
