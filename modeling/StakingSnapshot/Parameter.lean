import StakingSnapshot.Json

/-!
# Parameters

A parameter is a raw scalar, kept exactly as a contract returned it, that can be read as a value of
a meaningful type. The value is computed when it is first asked for and then kept until the raw
scalar is written again. What is kept shows in nothing but time: equality and the written form look
at the raw scalar only.
-/

namespace StakingSnapshot

/-- A fixed conversion between raw scalars and values. -/
structure Format (R V : Type) where
  /-- The value of a raw scalar. -/
  toValue : R → V
  /-- The raw scalar of a value. -/
  toRaw : V → R

/-- A raw scalar, and its value if that has been computed. -/
structure Parameter {R V : Type} (F : Format R V) where
  /-- The raw scalar. -/
  raw : R
  /-- The value, if it has been computed. -/
  kept : Option V := none

namespace Parameter

variable {R V : Type} {F : Format R V}

/-- The parameter with a raw scalar. -/
def ofRaw (raw : R) : Parameter F := ⟨raw, none⟩

/-- The parameter with the raw scalar of a value. -/
def ofValue (v : V) : Parameter F := ofRaw (F.toRaw v)

instance [Inhabited R] : Inhabited (Parameter F) := ⟨ofRaw default⟩

/-- The value, and the parameter that keeps it. -/
def formatted (p : Parameter F) : V × Parameter F :=
  match p.kept with
  | some v => (v, p)
  | none => (F.toValue p.raw, ⟨p.raw, some (F.toValue p.raw)⟩)

/-- Writes the raw scalar. -/
def setRaw (_ : Parameter F) (raw : R) : Parameter F := ofRaw raw

/-- Writes the raw scalar of a value. -/
def set (p : Parameter F) (v : V) : Parameter F := p.setRaw (F.toRaw v)

/-- A copy, with the value if that has been computed. -/
def clone (p : Parameter F) : Parameter F := ⟨p.raw, p.kept⟩

instance [BEq R] : BEq (Parameter F) := ⟨fun p q => p.raw == q.raw⟩

/-- How raw scalars are written. -/
class Written (R : Type) where
  /-- The written form. -/
  toJson : R → Json
  /-- The raw scalar of a written form. -/
  ofJson? : Json → Option R

/-- The name of the raw scalar in the written form. -/
def rawName : String := "rawValue"

/-- The written form: the raw scalar under its name. -/
def toJson [Written R] (p : Parameter F) : Json := .obj [(rawName, Written.toJson p.raw)]

/-- The parameter of a written form. Other members do not matter. -/
def ofJson? [Written R] (j : Json) : Option (Parameter F) :=
  match j.fields? [rawName] with
  | some [some raw] => (Written.ofJson? raw).map ofRaw
  | _ => none

/-- The base that the first two characters of a number's text announce, and the digits. -/
def baseAndDigits : List Char → Nat × List Char
  | '0' :: 'x' :: ds | '0' :: 'X' :: ds => (16, ds)
  | '0' :: 'o' :: ds | '0' :: 'O' :: ds => (8, ds)
  | '0' :: 'b' :: ds | '0' :: 'B' :: ds => (2, ds)
  | ds => (10, ds)

/-- The word that a text denotes, in the base that it announces or in decimal. -/
def wordOfText? (s : String) : Option Word :=
  let (base, digits) := baseAndDigits s.toList
  (Hex.number? base digits).bind Word.ofNat?

instance : Written Word where
  toJson := .ofWord
  ofJson?
    | .str s => wordOfText? s
    | j => (j.natUpTo? Word.maxNat64).map fun n => BitVec.ofNat 256 n

instance : Written UInt8 where
  toJson n := .ofNat n.toNat
  ofJson? j := (j.natUpTo? 255).map UInt8.ofNat

end Parameter

end StakingSnapshot
