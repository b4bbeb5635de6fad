import StakingSnapshot.Proofs.Pool.Open
import StakingSnapshot.Proofs.Snapshot.Follows

/-!
# All reads of a registry go to its block

Whatever the client answers, whatever the sizes of the batches, and whether or not a read fails, each
of its aggregates goes to the block of the registry that it is given.

* `Snapshot.Getter.asks_read`, `Minipool.asks_completeShares`, `Registry.asks_loadAt`: each kind of
  read, by the conduct that all its questions are such aggregates.
* `Snapshot.Pinned`: getters, complete shares, batches side by side, and the registry itself;
  `Snapshot.reads_pinned`.
-/

namespace StakingSnapshot

variable {σ : Type} (o : Observer σ) (r : Registry)

/-- The request goes through the hub to the block. -/
abbrev Observer.Sends (block : BlockRef) : Request → Prop := Request.IsSent o.scheduler.hub block

theorem Observer.sends_allowsCalls (block : BlockRef) :
    (Conduct.asking (o.Sends block)).AllowsCalls o.scheduler.hub block :=
  Conduct.asking_allowsCalls _ _

namespace Registry

/-- A given block is not asked for. -/
theorem load_some (n : BlockNumber) : load o (some n) = loadAt o n := pure_bind n (loadAt o)

theorem asks_loadAt (number : BlockNumber) :
    (loadAt o number).Asks (o.Sends (.pinned number)) := by
  have hc := o.sends_allowsCalls (.pinned number)
  have hfollows : (loadAt o number).Follows (.asking (o.Sends (.pinned number))) :=
    (Read.follows_ofExcept _).bind fun _ => (Scheduler.follows_query hc _ _).context.bind fun _ =>
      (VersionProbe.follows_resolveAll hc _ _).context.bind fun _ => Read.follows_pure _
  exact hfollows

theorem blockNumber_of_loadAt {number : BlockNumber} {s : σ}
    (h : (loadAt o number s).value = .ok r) : r.blockNumber = number := by
  obtain ⟨storage, -, h⟩ := Read.bind_value_eq_ok_iff.1 h
  obtain ⟨deployments, -, h⟩ := Read.bind_value_eq_ok_iff.1 h
  obtain ⟨versions, -, h⟩ := Read.bind_value_eq_ok_iff.1 h
  rw [← Read.pure_value_eq_ok_iff.1 h]

end Registry

/-! ## Batches side by side -/

section Pools

variable {block : BlockRef}

/-- The jobs of batches are for the block of the read, and none has started. -/
theorem Scheduler.block_of_mem_seats {ι : Type} {strict : Bool} {plan : Plan ι} {start : Nat}
    {cs : List (List ι)} {t : Seat (List ι)} (h : t ∈ seats strict block plan start cs) :
    t.job.block = block ∧ t.phase = .waiting := by
  induction cs generalizing start with
  | nil => cases h
  | cons c cs ih =>
    rcases List.mem_cons.1 h with rfl | h
    · exact ⟨rfl, rfl⟩
    · exact ih h

/-- Moves do not change the block of a job. -/
theorem Pool.block_of_began {J : Type} {S : J → Type} {seats₀ seats : List ((j : J) × Seat (S j))}
    (h : List.Forall₂ (SameRead fun _ => Seat.Began) seats₀ seats)
    (hblock : ∀ t ∈ seats₀, t.2.job.block = block) : ∀ t ∈ seats, t.2.job.block = block := by
  induction h with
  | nil => exact hblock
  | cons hhead _ ih =>
    obtain ⟨hfirst, hrest⟩ := List.forall_mem_cons.1 hblock
    obtain ⟨hbegan⟩ := hhead
    exact List.forall_mem_cons.2 ⟨hbegan.job ▸ hfirst, ih hrest⟩

end Pools

/-! ## All reads -/

theorem Minipool.asks_completeShares (beacons : List Word) (minipools : List Minipool) :
    (completeShares o r beacons minipools).Asks (o.Sends r.block) :=
  follows_completeShares (o.sends_allowsCalls r.block) beacons minipools

namespace Snapshot

theorem Getter.asks_read {α : Type} (g : Getter α) : (g.read o r).Asks (o.Sends r.block) :=
  g.follows_read (o.sends_allowsCalls r.block) fun _ _ h => absurd h List.not_mem_nil

/-- All reads go to one block. -/
structure Pinned (o : Observer σ) : Prop where
  /-- Getters send aggregates at the block of the registry, and ask nothing else. -/
  getter : ∀ (r : Registry) {α : Type} (g : Getter α), (g.read o r).Asks (o.Sends r.block)
  /-- So do complete shares. -/
  shares : ∀ r beacons minipools,
    (Minipool.completeShares o r beacons minipools).Asks (o.Sends r.block)
  /-- A registry at a given block is asked for at this block. The head is not asked for. -/
  given : ∀ n, (Registry.load o (some n)).Asks (o.Sends (.pinned n)) ∧
    ∀ s r, (Registry.load o (some n) s).value = .ok r → r.blockNumber = n
  /-- A registry at the latest block is asked for at the head, which is asked for once and first. -/
  latest : ∀ s n, (o.scheduler.client.head s).1 = .ok n →
    (∃ rest, (Registry.load o none s).sent = .head :: rest ∧
      ∀ request ∈ rest, o.Sends (.pinned n) request) ∧
    ∀ r, (Registry.load o none s).value = .ok r → r.blockNumber = n
  /-- Without a head nothing else is asked. -/
  headless : ∀ s e, (o.scheduler.client.head s).1 = .error e →
    (Registry.load o none s).sent = [.head]
  /-- Batches side by side go to the same block, in whatever order they go and whatever is
  answered. -/
  side_by_side : ∀ {ι : Type} strict block size (plan : Plan ι) items replies p,
    (o.scheduler.pool strict block size plan items).Reaches replies p →
      ∀ t ∈ p.seats, t.2.job.block = block

/-- **Block pinning.** -/
theorem reads_pinned (o : Observer σ) : Pinned o where
  getter r _ g := g.asks_read o r
  shares r beacons minipools := Minipool.asks_completeShares o r beacons minipools
  given n := by
    rw [Registry.load_some]
    exact ⟨Registry.asks_loadAt o n, fun s r h => Registry.blockNumber_of_loadAt o r h⟩
  latest s n hn := by
    have hvalue : (Registry.chooseBlock o none s).value = .ok n :=
      Read.context_value_eq_ok_iff.2 hn
    rw [Registry.load, Read.bind_of_ok hvalue]
    exact ⟨⟨_, rfl, Registry.asks_loadAt o n _⟩, fun r h => Registry.blockNumber_of_loadAt o r h⟩
  headless s e he := by
    have hvalue : (Registry.chooseBlock o none s).value = .error (.context _ e) :=
      congrArg (withContext _) he
    rw [Registry.load, Read.bind_of_error hvalue]
    rfl
  side_by_side strict block size plan items replies p h t ht := by
    have hseats : ∀ t ∈ (o.scheduler.pool strict block size plan items).seats,
        t.2.job.block = block ∧ t.2.phase = .waiting := by
      intro t ht
      obtain ⟨seat, hseat, rfl⟩ := List.mem_map.1 ht
      exact Scheduler.block_of_mem_seats hseat
    exact Pool.block_of_began (Pool.began (fun t ht => (hseats t ht).2) h)
      (fun t ht => (hseats t ht).1) t ht

/-- A client whose head moves on with every question, and who answers no aggregate. -/
def movingHead : Client Nat where
  call _ _ _ s := (.error (.transport "no contract"), s + 1)
  head s := (.ok (UInt64.ofNat s), s + 1)

/-- From head 7 on, a registry is asked for at block 7. -/
theorem reads_pinned_movingHead :
    let o : Observer Nat := ⟨{ storage := some ⟨1⟩ }, ⟨movingHead, ⟨2⟩, 1⟩, ⟨1⟩⟩
    ∃ body, (Registry.load o none 7).sent = [.head, .aggregate ⟨2⟩ body (.pinned 7)] := by
  intro o
  obtain ⟨⟨rest, hsent, hrest⟩, -⟩ := (reads_pinned o).latest 7 7 rfl
  have hlength : (Registry.load o none 7).sent.length = 2 := rfl
  rw [hsent] at hlength ⊢
  obtain ⟨request, rfl⟩ := List.length_eq_one_iff.1 (Nat.succ.inj hlength)
  obtain ⟨body, rfl⟩ := hrest request (.head _)
  exact ⟨body, rfl⟩

end Snapshot

end StakingSnapshot
