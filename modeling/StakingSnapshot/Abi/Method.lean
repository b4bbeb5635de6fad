import StakingSnapshot.Abi.Kind

/-!
# Contract methods

A method is its name, the four bytes by which a contract knows it, the type of its arguments and
the kind of value that it returns. `Method.callData` is what is sent to call it.
-/

namespace StakingSnapshot

namespace Abi

/-- A key of 32 bytes. -/
structure Key where
  /-- The bytes as one number, the first byte most significant. -/
  bits : BitVec 256
  deriving DecidableEq, Inhabited

/-- The 32 bytes of a key. -/
def Key.toBytes (k : Key) : Bytes := Bytes.ofNat 32 k.bits.toNat

/-- The key with these bytes, of which there are 32. -/
def Key.ofBytes (bs : Bytes) : Key := ⟨BitVec.ofNat 256 (Bytes.toNat bs)⟩

/-- Types whose values are the arguments of a method: the names of the argument types, and the
layout. -/
class Arguments (α : Type) where
  /-- The argument types as a method's signature names them. -/
  typeNames : List String
  /-- The layout of the arguments. -/
  encode : α → Bytes

instance : Arguments Unit := ⟨[], fun _ => []⟩

instance : Arguments Address := ⟨["address"], fun a => word a.bits.toNat⟩

instance : Arguments Word := ⟨["uint256"], fun w => word w.toNat⟩

instance : Arguments Key := ⟨["bytes32"], fun k => word k.bits.toNat⟩

instance : Arguments (Address × Word) :=
  ⟨["address", "uint256"], fun (a, w) => word a.bits.toNat ++ word w.toNat⟩

instance : Arguments String := ⟨["string"], fun s => word 32 ++ blob (Bytes.ofText s)⟩

/-- A method that takes an `α` and returns a value of kind `k`. -/
structure Method (α : Type) (k : Kind) where
  /-- The name alone. -/
  name : String
  /-- The first four bytes of the digest of the signature, as one number. -/
  selector : UInt32

namespace Method

variable {α : Type} [Arguments α] {k : Kind}

/-- The name and the argument types. -/
def signature (m : Method α k) : String :=
  m.name ++ "(" ++ ",".intercalate (Arguments.typeNames α) ++ ")"

/-- The data that calls the method. -/
def callData (m : Method α k) (args : α) : Bytes :=
  Bytes.ofNat 4 m.selector.toNat ++ Arguments.encode args

end Method

end Abi

end StakingSnapshot
