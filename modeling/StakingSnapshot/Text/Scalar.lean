import StakingSnapshot.Fault
import StakingSnapshot.Text
import StakingSnapshot.Word

/-!
# Scalars as people and nodes write them

Addresses, words and byte strings are read from text. Blank characters around the text do not
matter.

* `Address.parse`: 40 digits after at most one mark; the fault shows the text without the blanks.
* `Word.parse`: a hexadecimal number; no digits at all mean zero.
* `Bytes.parse`: pairs of hexadecimal digits.

The block that a read refers to is shown to a node. A read is pinned to the block with a number, or
goes to whatever block is the latest (`BlockRef`, `BlockRef.tag`).
-/

namespace StakingSnapshot

/-- The address that a text shows. -/
def Address.parse (s : String) : Except Fault Address :=
  let cs := Text.trim s.toList
  match Address.ofDigits? cs with
  | some a => .ok a
  | none => .error (.invalidAddress (String.ofList cs))

/-- The word that a text shows in hexadecimal digits. -/
def Word.parse (s : String) : Except Fault Word :=
  match (Hex.number? 16 (Hex.dropMarks (Text.trim s.toList))).bind Word.ofNat? with
  | some w => .ok w
  | none => .error (.encoding s!"Invalid hex U256: {s}")

/-- The bytes that a text shows in hexadecimal digits. Positions in the fault count the bytes of
the text behind its marks. -/
def Bytes.parse (s : String) : Except Fault Bytes :=
  let digits := Hex.dropMarks (Text.trim s.toList)
  (Hex.decode (Bytes.ofText (String.ofList digits))).mapError fun e =>
    .encoding s!"Invalid hex: {e.message}"

/-- The number of a block. -/
abbrev BlockNumber := UInt64

/-- The block that a read refers to; without a number it is the latest one. -/
structure BlockRef where
  /-- The number of the block, if the read is pinned. -/
  number? : Option BlockNumber := none
  deriving DecidableEq, Inhabited

namespace BlockRef

/-- The block with this number. -/
def pinned (n : BlockNumber) : BlockRef := ⟨some n⟩

/-- Whatever block is the latest. -/
def latest : BlockRef := ⟨none⟩

/-- How a node is told the block: its number as a hexadecimal quantity, or a word. -/
def tag (b : BlockRef) : String :=
  match b.number? with
  | some n => "0x" ++ String.ofList (Nat.toDigits 16 n.toNat)
  | none => "latest"

end BlockRef

end StakingSnapshot
