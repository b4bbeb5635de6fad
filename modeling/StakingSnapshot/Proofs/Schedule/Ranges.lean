import Mathlib.Algebra.Order.Floor.Div
import StakingSnapshot.Proofs.Schedule.Failure

/-!
# The batches by index and by item

There are two ways to cut items into batches: `batchRanges` tells the indices of each batch, and a
scheduler takes items off the front of the list (`chunks`). Both cut at the same places.

* `Tiles`: ranges that follow one another. Consecutive ranges cut a list into pieces
  (`Tiles.flatten_slices`) and cover each index once (`Tiles.flatMap_range'`).
* `rangesFrom`: ranges found step by step; `batchRanges_eq_rangesFrom`: they are the batches.
* `Partition`: what the batches of a number of items are like.
* `Scheduler.fillRanges`: fills items range by range; `Scheduler.CutsAt`: a read in batches that
  does so.
* `batchRanges_partition`: the batches by index are such a partition, and every read in batches
  cuts at them.
-/

namespace StakingSnapshot

variable {σ ι : Type}

/-! ## Ranges that follow one another -/

/-- Ranges that follow one another from an index up to another one, none of them empty. A range is
its first index and the first index behind it. -/
inductive Tiles : Nat → Nat → List (Nat × Nat) → Prop where
  | nil {n : Nat} : Tiles n n []
  | cons {a b n : Nat} {rs : List (Nat × Nat)} (hlt : a < b) (hrest : Tiles b n rs) :
    Tiles a n ((a, b) :: rs)

/-- The items of a range. -/
def slice (items : List ι) (r : Nat × Nat) : List ι := items.extract r.1 r.2

theorem length_slice {items : List ι} {r : Nat × Nat} (h : r.2 ≤ items.length) :
    (slice items r).length = r.2 - r.1 := by
  rw [slice, List.length_take, List.length_drop]
  omega

namespace Tiles

variable {a n : Nat} {rs : List (Nat × Nat)}

theorem le (h : Tiles a n rs) : a ≤ n := by
  induction h with
  | nil => exact Nat.le_refl _
  | cons hlt _ ih => omega

theorem lt_of_mem (h : Tiles a n rs) : ∀ r ∈ rs, r.1 < r.2 := by
  induction h with
  | nil => nofun
  | cons hlt _ ih => exact List.forall_mem_cons.2 ⟨hlt, ih⟩

/-- Each index is in one range, and the ranges come in the order of the indices. -/
theorem flatMap_range' (h : Tiles a n rs) :
    rs.flatMap (fun r => List.range' r.1 (r.2 - r.1)) = List.range' a (n - a) := by
  induction h with
  | nil => rw [Nat.sub_self, List.range'_zero, List.flatMap_nil]
  | @cons a b n rs hlt hrest ih =>
    have hle := hrest.le
    have hjoin : List.range' a (b - a) ++ List.range' (a + 1 * (b - a)) (n - b) =
        List.range' a (b - a + (n - b)) := List.range'_append
    rw [show a + 1 * (b - a) = b by omega, show b - a + (n - b) = n - a by omega] at hjoin
    rw [List.flatMap_cons, ih, hjoin]

/-- The pieces of a list are the list, in order. -/
theorem flatten_slices {items : List ι} (h : Tiles a items.length rs) :
    (rs.map (slice items)).flatten = items.drop a := by
  generalize hn : items.length = n at h
  induction h with
  | nil => rw [← hn, List.drop_length, List.map_nil, List.flatten_nil]
  | @cons a b n rs hlt _ ih =>
    have hrest : items.drop b = (items.drop a).drop (b - a) := by
      rw [List.drop_drop]
      congr 1
      omega
    rw [List.map_cons, List.flatten_cons, ih hn, hrest]
    exact List.take_append_drop (b - a) (items.drop a)

end Tiles

/-! ## Step by step -/

/-- The ranges from a start on: as long as an index is left there is one more, and the next start is
`size` further. -/
def rangesFrom (count size start : Nat) : List (Nat × Nat) :=
  if start < count ∧ 0 < size then
    (start, min (start + size) count) :: rangesFrom count size (start + size)
  else []
termination_by count - start

section Steps

variable {count size start : Nat}

theorem rangesFrom_of_lt (hstart : start < count) (hsize : 0 < size) :
    rangesFrom count size start =
      (start, min (start + size) count) :: rangesFrom count size (start + size) := by
  rw [rangesFrom, if_pos ⟨hstart, hsize⟩]

theorem rangesFrom_of_le (hstart : count ≤ start) : rangesFrom count size start = [] := by
  rw [rangesFrom, if_neg fun h => Nat.not_lt_of_le hstart h.1]

/-- The start of the last range is followed by the end, also if a whole step would go beyond. -/
theorem tiles_rangesFrom (hsize : 0 < size) :
    Tiles (min start count) count (rangesFrom count size start) := by
  fun_induction rangesFrom count size start with
  | case1 start h ih =>
    rw [Nat.min_eq_left (Nat.le_of_lt h.1)]
    exact .cons (by omega) ih
  | case2 start h =>
    rw [Nat.min_eq_right (by omega)]
    exact .nil

/-- The batch with a number starts before the end exactly if there are enough batches. -/
theorem lt_batches_iff (hsize : 0 < size) {k : Nat} :
    k < (count + size - 1) / size ↔ k * size < count := by
  have hdiv := Nat.le_div_iff_mul_le (x := k + 1) (y := count + size - 1) hsize
  rw [Nat.succ_mul] at hdiv
  omega

/-- **Multiples and steps.** The starts of the batches are multiples of the size, and each is a step
away from the one before it. -/
theorem batchRanges_eq_rangesFrom (hsize : 0 < size) :
    batchRanges count size = rangesFrom count size 0 := by
  have hrest : ∀ m k, k + m = (count + size - 1) / size →
      (List.range' k m).map (fun k => (k * size, min (k * size + size) count)) =
        rangesFrom count size (k * size) := by
    intro m
    induction m with
    | zero =>
      intro k hk
      have hend : ¬ k * size < count := fun hlt => by
        have := (lt_batches_iff hsize).2 hlt
        omega
      rw [List.range'_zero, List.map_nil, rangesFrom_of_le (Nat.le_of_not_lt hend)]
    | succ m ih =>
      intro k hk
      have hnext := ih (k + 1) (by omega)
      rw [Nat.succ_mul] at hnext
      rw [List.range'_succ, List.map_cons, hnext,
        rangesFrom_of_lt ((lt_batches_iff hsize).1 (by omega)) hsize]
  have hall := hrest _ 0 (Nat.zero_add _)
  rw [Nat.zero_mul] at hall
  rw [batchRanges, if_neg (Nat.ne_of_gt hsize), List.range_eq_range', hall]

theorem getElem?_batchRanges {k : Nat} (hk : k * size < count) (hsize : 0 < size) :
    (batchRanges count size)[k]? = some (k * size, min (k * size + size) count) := by
  rw [batchRanges, if_neg (Nat.ne_of_gt hsize), List.getElem?_map,
    List.getElem?_range ((lt_batches_iff hsize).2 hk), Option.map_some]

/-- Every batch has a number, from which its range follows. -/
theorem exists_of_mem_batchRanges (hsize : 0 < size) {r : Nat × Nat}
    (h : r ∈ batchRanges count size) :
    ∃ k, k * size < count ∧ r = (k * size, min (k * size + size) count) := by
  rw [batchRanges, if_neg (Nat.ne_of_gt hsize)] at h
  obtain ⟨k, hk, rfl⟩ := List.mem_map.1 h
  exact ⟨k, (lt_batches_iff hsize).1 (List.mem_range.1 hk), rfl⟩

theorem tiles_batchRanges (hsize : 0 < size) : Tiles 0 count (batchRanges count size) := by
  rw [batchRanges_eq_rangesFrom hsize]
  exact Nat.zero_min count ▸ tiles_rangesFrom hsize

/-- Taking items off the front cuts where the ranges do. -/
theorem chunks_eq_slices (hsize : 0 < size) (items : List ι) :
    chunks size items = (batchRanges items.length size).map (slice items) := by
  have hrest : ∀ start, chunks size (items.drop start) =
      (rangesFrom items.length size start).map (slice items) := by
    intro start
    generalize hcount : items.length = count
    fun_induction rangesFrom count size start with
    | case1 start h ih =>
      have hne : items.drop start ≠ [] := by
        rw [Ne, List.drop_eq_nil_iff]
        omega
      have hfront : (items.drop start).take size =
          slice items (start, min (start + size) count) := by
        rw [slice, List.extract_eq_take_drop, List.take_eq_take_iff, List.length_drop]
        omega
      rw [chunks_of_pos hsize hne, List.drop_drop, ih, List.map_cons, hfront]
    | case2 start h =>
      rw [List.drop_eq_nil_of_le (by omega), chunks_nil, List.map_nil]
  rw [batchRanges_eq_rangesFrom hsize, ← hrest 0, List.drop_zero]

end Steps

/-! ## Reads in batches -/

/-- The ranges cut `count` indices into batches of `size`. -/
structure Partition (count size : Nat) (rs : List (Nat × Nat)) : Prop where
  /-- There are as many batches as it takes. -/
  length_eq : rs.length = count ⌈/⌉ size
  nonempty : ∀ r ∈ rs, r.1 < r.2
  /-- One after another, they are all indices in order. -/
  covers : rs.flatMap (fun r => List.range' r.1 (r.2 - r.1)) = List.range count
  full : ∀ r ∈ rs.dropLast, r.2 - r.1 = size
  /-- A whole batch behind each start stays within 64 bits, also behind the last one. -/
  fits : ∀ r ∈ rs, r.1 + size ≤ Word.maxNat64

namespace Scheduler

/-- Fills the items range by range, the first of which has the given number, up to the first range
that fails. -/
def fillRanges (q : Scheduler σ) (strict : Bool) (block : BlockRef) (plan : Plan ι)
    (items : List ι) : Nat → List (Nat × Nat) → Session σ (List ι × Except Fault (List Bool))
  | _, [] => pure ([], .ok [])
  | k, (a, b) :: rs => do
    let (filled, r) ← q.run (Job.ofItems strict block plan a) (slice items (a, b))
    match r with
    | .error e => return (filled ++ items.drop b, .error (.context (batchContext k a b) e))
    | .ok flags =>
      let (rest, r') ← fillRanges q strict block plan items (k + 1) rs
      return (filled ++ rest, r'.map (flags ++ ·))

/-- A read of items in batches of `size` goes by these ranges. -/
structure CutsAt (q : Scheduler σ) (strict : Bool) (block : BlockRef) (size : Nat) (plan : Plan ι)
    (items : List ι) (rs : List (Nat × Nat)) : Prop where
  chunks_eq : chunks size items = rs.map (slice items)
  /-- Side by side, each job has the items of its range and starts at the index of the first. -/
  pool_eq : q.pool strict block size plan items =
    Pool.ofSeats q.limit (rs.map fun r =>
      ⟨(), Seat.ofJob (Job.ofItems strict block plan r.1) (slice items r)⟩)
  /-- One after another, too. -/
  fill_eq : q.fill strict block size plan items = q.fillRanges strict block plan items 0 rs
  /-- The range is what a fault tells about its batch. -/
  context : ∀ s k e, q.FirstFault strict block size plan items s k e →
    ∃ r, rs[k]? = some r ∧ (q.fill strict block size plan items s).value.2 =
      .error (.context (batchContext k r.1 r.2) e)

variable {q : Scheduler σ} {strict : Bool} {block : BlockRef} {plan : Plan ι} {items : List ι}
  {rs : List (Nat × Nat)} {a : Nat}

/-- The pieces of the items run as the ranges do. -/
theorem runChunks_slices (h : Tiles a items.length rs) (k : Nat) :
    q.runChunks strict block plan k a (rs.map (slice items)) =
      q.fillRanges strict block plan items k rs := by
  generalize hn : items.length = n at h
  induction h generalizing k with
  | nil => rfl
  | @cons a b n rs hlt hrest ih =>
    have hend : a + (slice items (a, b)).length = b := by
      rw [length_slice (hn ▸ hrest.le)]
      omega
    subst hn
    rw [List.map_cons, runChunks, hend, hrest.flatten_slices, ih _ rfl]
    rfl

theorem seats_slices (h : Tiles a items.length rs) :
    seats strict block plan a (rs.map (slice items)) =
      rs.map fun r => Seat.ofJob (Job.ofItems strict block plan r.1) (slice items r) := by
  generalize hn : items.length = n at h
  induction h with
  | nil => rfl
  | @cons a b n rs hlt hrest ih =>
    have hend : a + (slice items (a, b)).length = b := by
      rw [length_slice (hn ▸ hrest.le)]
      omega
    rw [List.map_cons, seats, hend, ih hn, List.map_cons]

/-- **Every read in batches goes by the ranges of its batches.** -/
theorem cutsAt_batchRanges {size : Nat} (hsize : 0 < size) :
    q.CutsAt strict block size plan items (batchRanges items.length size) where
  chunks_eq := chunks_eq_slices hsize items
  pool_eq := by
    rw [pool, chunks_eq_slices hsize, seats_slices (tiles_batchRanges hsize), List.map_map]
    rfl
  fill_eq := by
    rw [fill, if_neg (Nat.ne_of_gt hsize), chunks_eq_slices hsize,
      runChunks_slices (tiles_batchRanges hsize)]
  context s k e h :=
    ⟨_, getElem?_batchRanges h.exists_batch hsize, (fill_of_firstFault hsize h).1⟩

end Scheduler

section Bounds

variable {count size : Nat}

/-- A batch with another one behind it has its full size. -/
theorem full_of_mem_dropLast (hsize : 0 < size) {r : Nat × Nat}
    (h : r ∈ (batchRanges count size).dropLast) : r.2 - r.1 = size := by
  rw [List.dropLast_eq_take] at h
  obtain ⟨k, hk, rfl⟩ := List.mem_iff_getElem.1 h
  have hlast : k + 1 < (count + size - 1) / size := by
    rw [List.length_take, batchRanges, if_neg (Nat.ne_of_gt hsize), List.length_map,
      List.length_range] at hk
    omega
  have hnext := (lt_batches_iff hsize).1 hlast
  have hrange := getElem?_batchRanges ((lt_batches_iff hsize).1 (Nat.lt_of_succ_lt hlast)) hsize
  obtain ⟨hlt, hget⟩ := List.getElem?_eq_some_iff.1 hrange
  rw [Nat.succ_mul] at hnext
  rw [List.getElem_take, hget]
  dsimp only
  omega

/-- A batch that starts behind another one is not larger than the number of items, and a single
batch starts at zero. -/
theorem add_size_le (hcount : count < 2 ^ 63) (hmax : size < 2 ^ 64) {k : Nat}
    (hk : k * size < count) : k * size + size ≤ Word.maxNat64 := by
  have hmax64 : Word.maxNat64 = 2 ^ 64 - 1 := by decide
  cases k with
  | zero => omega
  | succ k =>
    have hle : size ≤ (k + 1) * size := Nat.le_mul_of_pos_left size (Nat.succ_pos k)
    omega

/-- **The batches.** As many items as a list in memory may have are cut into batches of any size of
64 bits, each index into exactly one, and a scheduler that fills a list of so many items fills the
same batches, with the same numbers and ranges in its faults. -/
theorem batchRanges_partition (hcount : count < 2 ^ 63) (hsize : 1 ≤ size) (hmax : size < 2 ^ 64) :
    Partition count size (batchRanges count size) ∧
      ∀ {σ ι : Type} (q : Scheduler σ) (strict : Bool) (block : BlockRef) (plan : Plan ι)
        (items : List ι), items.length = count →
          q.CutsAt strict block size plan items (batchRanges count size) := by
  refine ⟨⟨?_, ?_, ?_, ?_, ?_⟩, fun q strict block plan items hitems => ?_⟩
  · rw [batchRanges, if_neg (Nat.ne_of_gt hsize), List.length_map, List.length_range,
      Nat.ceilDiv_eq_add_pred_div]
  · exact (tiles_batchRanges hsize).lt_of_mem
  · rw [(tiles_batchRanges hsize).flatMap_range', List.range_eq_range', Nat.sub_zero]
  · exact fun r hr => full_of_mem_dropLast hsize hr
  · intro r hr
    obtain ⟨k, hk, rfl⟩ := exists_of_mem_batchRanges hsize hr
    exact add_size_le hcount hmax hk
  · subst hitems
    exact Scheduler.cutsAt_batchRanges hsize

/-- As many items as there may be, in batches that are larger; and five items in batches of two, of
which the second batch fails. -/
theorem batchRanges_partition_gap :
    Partition (2 ^ 63 - 1) (2 ^ 64 - 1) [(0, 2 ^ 63 - 1)] ∧
      Partition 5 2 [(0, 2), (2, 4), (4, 5)] ∧
      ((Scheduler.ofChain .echo ⟨0⟩ 1).fill true .latest 2 Scheduler.gap
          (List.replicate 5 []) ()).value.2 =
        .error (.context "batch 1 [2, 4)" (.callsFailed [1] 2)) := by
  have hlargest : batchRanges (2 ^ 63 - 1) (2 ^ 64 - 1) = [(0, 2 ^ 63 - 1)] := by decide +kernel
  have hfive : batchRanges 5 2 = [(0, 2), (2, 4), (4, 5)] := by decide
  obtain ⟨hpartition, -⟩ := batchRanges_partition (show 2 ^ 63 - 1 < 2 ^ 63 by decide)
    (show 1 ≤ 2 ^ 64 - 1 by decide) (by decide)
  obtain ⟨hpartition', hcuts⟩ := batchRanges_partition (show 5 < 2 ^ 63 by decide)
    (show 1 ≤ 2 by decide) (by decide)
  rw [hlargest] at hpartition
  rw [hfive] at hpartition' hcuts
  refine ⟨hpartition, hpartition', ?_⟩
  rw [(hcuts _ _ _ _ (List.replicate 5 []) rfl).fill_eq]
  decide +kernel

end Bounds

end StakingSnapshot
