import StakingSnapshot.Keccak
import StakingSnapshot.Text

/-!
# Account addresses

* `Address.ofBytes`, `Address.toBytes`: the 20 bytes.
* `Address.hex` writes lower-case digits; `Address.display` chooses the case of each letter by the
  digest of the digits, so that a mistyped address can be told.
* `Address.ofDigits?` reads 40 digits of any case, after at most one `0x` or `0X`.
-/

namespace StakingSnapshot

/-- An account address of 20 bytes. -/
structure Address where
  /-- The bytes as one number, the first byte most significant. -/
  bits : BitVec 160
  deriving DecidableEq, Hashable, Inhabited

namespace Address

/-- The number of addresses. -/
def count : Nat := 0x10000000000000000000000000000000000000000

/-- The address of no account. -/
def zero : Address := ⟨0⟩

/-- The 20 bytes. -/
def toBytes (a : Address) : Bytes := Bytes.ofNat 20 a.bits.toNat

/-- The address with these bytes, of which there are 20. -/
def ofBytes (bs : Bytes) : Address := ⟨BitVec.ofNat 160 (Bytes.toNat bs)⟩

/-- The 40 lower-case digits. -/
def digits (a : Address) : List Char := Hex.encode a.toBytes

/-- `0x` and 40 lower-case digits. -/
def hex (a : Address) : String := Hex.text a.toBytes

/-- Each digit with the nibble of the digest that belongs to it: a letter becomes a capital where
the nibble is at least 8. -/
def capitalise (digits nibbles : List Char) : List Char :=
  List.zipWith
    (fun d n => if 8 ≤ (Hex.value? n.toNat).getD 0 then d.toUpper else d) digits nibbles

/-- `0x` and 40 digits whose letters' case carries the checksum. -/
def display (a : Address) : String :=
  let ds := a.digits
  let digest := Keccak.digest (Bytes.ofText (String.ofList ds))
  "0x" ++ String.ofList (capitalise ds (Hex.encode digest))

/-- The characters without one `0x` or `0X` in front. -/
def dropMark : List Char → List Char
  | '0' :: 'x' :: rest => rest
  | '0' :: 'X' :: rest => rest
  | cs => cs

/-- The address that 40 digits spell, after at most one mark. -/
def ofDigits? (cs : List Char) : Option Address :=
  let ds := dropMark cs
  if ds.length = 40 then
    (ds.mapM fun c => Hex.value? c.toNat).map fun vs =>
      ⟨BitVec.ofNat 160 (vs.foldl (fun n v => 16 * n + v) 0)⟩
  else none

instance : ToString Address := ⟨display⟩

end Address

end StakingSnapshot
