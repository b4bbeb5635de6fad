import StakingSnapshot.Abi.Layout
import StakingSnapshot.Address
import StakingSnapshot.Word

/-!
# What a contract method returns

The kinds of values that the methods return, the layout of each (`Kind.encode`) and its strict
reader (`Kind.decode`). Data is accepted only if it is the layout of the value read, except that
any byte but zero at the end of a boolean's word means true.
-/

namespace StakingSnapshot

namespace Abi

/-- The kinds of values that a method returns. -/
inductive Kind where
  | uint256
  | int256
  | uint8
  | bool
  | address
  | string
  | bytes
  deriving DecidableEq

namespace Kind

/-- The values of a kind. -/
abbrev Value : Kind → Type
  | uint256 => Word
  | int256 => SignedWord
  | uint8 => UInt8
  | bool => Bool
  | address => Address
  | string => String
  | bytes => Bytes

/-- The layout of a returned value. -/
def encode : (k : Kind) → k.Value → Bytes
  | uint256, w => word w.toNat
  | int256, i => word i.bits.toNat
  | uint8, n => word n.toNat
  | bool, b => word b.toNat
  | address, a => word a.bits.toNat
  | string, s => word 32 ++ blob (Bytes.ofText s)
  | bytes, bs => word 32 ++ blob bs

/-- Takes a returned value off the front of the data. -/
def reader : (k : Kind) → Reader k.Value
  | uint256 => do return BitVec.ofNat 256 (← Reader.word)
  | int256 => do return ⟨BitVec.ofNat 256 (← Reader.word)⟩
  | uint8 => do return UInt8.ofNat (← Reader.below 256)
  | bool => do return decide ((← Reader.below 256) ≠ 0)
  | address => do return ⟨BitVec.ofNat 160 (← Reader.below Address.count)⟩
  | string => do
    Reader.expect 32
    let bs ← Reader.blob
    match Bytes.toText? bs with
    | some s => pure s
    | none => failure
  | bytes => do
    Reader.expect 32
    Reader.blob

/-- The value that the data returned by a method holds. -/
def decode (k : Kind) (data : Bytes) : Option k.Value := k.reader.exactly data

end Kind

/-- What is said of data that is not in the one layout of its kind. How it deviates is not told. -/
def malformedText : String := "<abi>"

end Abi

end StakingSnapshot
