import StakingSnapshot.Bytes

/-!
# Keccak-256

The sponge with 1600 bits of state, 1088 of them exchanged with each block, and the padding
`1 0* 1` in front of which no domain bits stand. `Keccak.digest` is the first 32 bytes of the
state after the last block.

Lane `(x, y)` is the word at index `5 * y + x`; the bytes of a lane come least significant first.
-/

namespace StakingSnapshot

namespace Keccak

/-- The 25 lanes of the state. -/
abbrev State := Vector UInt64 25

/-- The round constants. -/
def roundConstants : List UInt64 :=
  [0x0000000000000001, 0x0000000000008082, 0x800000000000808A, 0x8000000080008000,
    0x000000000000808B, 0x0000000080000001, 0x8000000080008081, 0x8000000000008009,
    0x000000000000008A, 0x0000000000000088, 0x0000000080008009, 0x000000008000000A,
    0x000000008000808B, 0x800000000000008B, 0x8000000000008089, 0x8000000000008003,
    0x8000000000008002, 0x8000000000000080, 0x000000000000800A, 0x800000008000000A,
    0x8000000080008081, 0x8000000000008080, 0x0000000080000001, 0x8000000080008008]

/-- How far each lane is rotated. -/
def offsets : Vector UInt64 25 :=
  #v[0, 1, 62, 28, 27, 36, 44, 6, 55, 20, 3, 10, 43, 25, 39, 41, 45, 15, 21, 8, 18, 2, 61, 56, 14]

/-- Rotation to the left; the amount is below 64. -/
def rotate (a n : UInt64) : UInt64 := if n = 0 then a else (a <<< n) ||| (a >>> (64 - n))

/-- The lane `(x, y)`, both taken modulo 5. -/
def lane (s : State) (x y : Nat) : UInt64 := s[5 * (y % 5) + x % 5]

/-- Every lane takes in the parities of two neighbouring columns. -/
def theta (s : State) : State :=
  let parity : Vector UInt64 5 := Vector.ofFn fun x =>
    lane s x 0 ^^^ lane s x 1 ^^^ lane s x 2 ^^^ lane s x 3 ^^^ lane s x 4
  let change : Vector UInt64 5 := Vector.ofFn fun x =>
    parity[(x.val + 4) % 5] ^^^ rotate parity[(x.val + 1) % 5] 1
  Vector.ofFn fun i => s[i] ^^^ change[i.val % 5]

/-- Every lane is rotated and moves to its new place. -/
def rhoPi (s : State) : State := Vector.ofFn fun i =>
  let x := i.val % 5
  let y := i.val / 5
  let source := 5 * x + (x + 3 * y) % 5
  have : source < 25 := by omega
  rotate s[source] offsets[source]

/-- Every lane takes in what its two neighbours in the row say. -/
def chi (s : State) : State := Vector.ofFn fun i =>
  let x := i.val % 5
  let y := i.val / 5
  s[i] ^^^ (~~~ lane s (x + 1) y &&& lane s (x + 2) y)

/-- One round. -/
def round (s : State) (constant : UInt64) : State :=
  let t := chi (rhoPi (theta s))
  t.set 0 (t[0] ^^^ constant)

/-- The permutation of the state: 24 rounds. -/
def permute (s : State) : State := roundConstants.foldl round s

/-- The number of bytes that a block holds. -/
def rate : Nat := 136

/-- The message filled up to whole blocks. -/
def pad (message : Bytes) : Bytes :=
  let missing := rate - message.length % rate
  if missing = 1 then message ++ [0x81]
  else message ++ 0x01 :: (List.replicate (missing - 2) 0 ++ [0x80])

/-- The lane whose bytes, least significant first, are `bs`. -/
def ofLittleEndian (bs : Bytes) : UInt64 := bs.foldr (fun b a => (a <<< 8) ||| b.toUInt64) 0

/-- The eight bytes of a lane, least significant first. -/
def littleEndian (a : UInt64) : Bytes :=
  (List.range 8).map fun i => (a >>> (8 * i).toUInt64).toUInt8

/-- The lanes of a block, cut off its front eight bytes at a time. -/
def lanes : Nat → Bytes → List UInt64
  | 0, _ => []
  | n + 1, bs => ofLittleEndian (bs.take 8) :: lanes n (bs.drop 8)

/-- The state with the lanes of one block taken in. -/
def absorb (s : State) (block : Bytes) : State :=
  let ls := (lanes 17 block).toArray
  Vector.ofFn fun i => s[i] ^^^ ls.getD i 0

/-- The state after `blocks` whole blocks of the message. -/
def absorbAll : Nat → State → Bytes → State
  | 0, s, _ => s
  | blocks + 1, s, bs =>
    absorbAll blocks (permute (absorb s (bs.take rate))) (bs.drop rate)

/-- The 32 bytes of the message's digest. -/
def digest (message : Bytes) : Bytes :=
  let padded := pad message
  let final := absorbAll (padded.length / rate) (Vector.replicate 25 0) padded
  (final.toList.take 4).flatMap littleEndian

end Keccak

end StakingSnapshot
