import StakingSnapshot.Bytes

/-!
# The layout of contract data

Contract data is a sequence of 32-byte words. A byte string is its length in one word, the bytes,
and zeros up to a whole word. A list of records that have no fixed size is its length, the offset
of each record (counted from behind the length), and the records.

Every value has exactly one layout. The writers (`word`, `blob`, `records`) produce it and the
readers (`Reader.word`, `Reader.blob`, `Reader.records`) go through the data from front to back
and take nothing else: an offset is compared with the place that has been reached, and padding with
zero.
-/

namespace StakingSnapshot

namespace Abi

/-- A number in one word. -/
def word (n : Nat) : Bytes := Bytes.ofNat 32 n

/-- A byte string with its length in front. -/
def blob (bs : Bytes) : Bytes := word bs.length ++ Bytes.pad32 bs

/-- The number of bytes of a byte string's layout. -/
def blobSize (bs : Bytes) : Nat := 32 + bs.length + Bytes.padding bs.length

/-- The offsets of records that follow each other from `place` on. -/
def offsets : Nat → List Bytes → Bytes
  | _, [] => []
  | place, r :: rs => word place ++ offsets (place + r.length) rs

/-- A list of records, each given by its own layout. -/
def records (rs : List Bytes) : Bytes :=
  word rs.length ++ (offsets (32 * rs.length) rs ++ rs.flatten)

/-- A reader takes a value off the front of the data and leaves the rest. -/
abbrev Reader (α : Type) : Type := StateT Bytes Option α

namespace Reader

/-- The next `n` bytes. -/
def take (n : Nat) : Reader Bytes := fun bs => Bytes.split? n bs

/-- The number in the next word. -/
def word : Reader Nat := do return Bytes.toNat (← take 32)

/-- The next word, which must hold `n`. -/
def expect (n : Nat) : Reader Unit := do
  let w ← word
  if w = n then pure () else failure

/-- The next word, which must hold a number below `bound`. -/
def below (bound : Nat) : Reader Nat := do
  let w ← word
  if w < bound then pure w else failure

/-- A byte string with its length in front, whose padding must be zero. -/
def blob : Reader Bytes := do
  let n ← word
  let bs ← take n
  let fill ← take (Bytes.padding n)
  if fill = List.replicate (Bytes.padding n) 0 then pure bs else failure

/-- The numbers in the next `n` words. -/
def words : Nat → Reader (List Nat)
  | 0 => pure []
  | n + 1 => do
    let w ← word
    return w :: (← words n)

/-- Records at the given offsets, the first of which must be `place` and each other one the end
of the record before it. -/
def recordsAt {α : Type} (record : Reader α) (size : α → Nat) : Nat → List Nat → Reader (List α)
  | _, [] => pure []
  | place, o :: os =>
    if o = place then do
      let r ← record
      return r :: (← recordsAt record size (place + size r) os)
    else failure

/-- A list of records, where `size` is the number of bytes that a record takes. -/
def records {α : Type} (record : Reader α) (size : α → Nat) : Reader (List α) := do
  let n ← word
  let os ← words n
  recordsAt record size (32 * n) os

/-- The value of data that holds nothing else. -/
def exactly {α : Type} (r : Reader α) (bs : Bytes) : Option α :=
  match r bs with
  | some (v, []) => some v
  | _ => none

end Reader

end Abi

end StakingSnapshot
