/-!
# Double-precision numbers

A floating-point number by its 64 bits, with the two directions that conversions need, both in
exact integer arithmetic.

* `Binary64.parts?`: a finite number is `± m * 2 ^ e`.
* `Binary64.ofQuotient`: the double nearest to a quotient of natural numbers; a tie goes to the
  even neighbour, and what is too large becomes infinity.
-/

namespace StakingSnapshot

/-- A double-precision number by its bits. -/
structure Binary64 where
  /-- Sign, exponent and fraction. -/
  bits : UInt64
  deriving DecidableEq, Hashable, Inhabited

namespace Binary64

/-- The magnitude `m * 2 ^ e` of a finite number, and whether the sign bit is set. -/
structure Parts where
  negative : Bool
  mantissa : Nat
  exponent : Int

/-- The exponent field. -/
def field (x : Binary64) : Nat := (x.bits.toNat >>> 52) % 2048

/-- The sign bit. -/
def isNegative (x : Binary64) : Bool := x.bits.toNat >>> 63 = 1

/-- The parts of a finite number. Infinities and what is no number have none. -/
def parts? (x : Binary64) : Option Parts :=
  let fraction := x.bits.toNat % 0x10000000000000
  if x.field = 2047 then none
  else if x.field = 0 then some ⟨x.isNegative, fraction, -1074⟩
  else some ⟨x.isNegative, 0x10000000000000 + fraction, Int.ofNat x.field - 1075⟩

/-- The integer nearest to `num / den`; a tie goes to the even one. -/
def nearestEven (num den : Nat) : Nat :=
  let low := num / den
  let twice := 2 * (num % den)
  if twice < den then low
  else if den < twice then low + 1
  else low + low % 2

/-- The largest `e` with `2 ^ e * den ≤ num`, where both are positive. -/
def scale (num den : Nat) : Int :=
  let e : Int := Int.ofNat num.log2 - Int.ofNat den.log2
  if num <<< (-e).toNat < den <<< e.toNat then e - 1 else e

/-- The double nearest to `num / den`, where `den` is positive. -/
def ofQuotient (num den : Nat) : Binary64 :=
  if num = 0 then ⟨0⟩
  else
    let unit := max (scale num den - 52) (-1074)
    let m := nearestEven (num <<< (-unit).toNat) (den <<< unit.toNat)
    ⟨UInt64.ofNat (min (((unit + 1074).toNat <<< 52) + m) (2047 <<< 52))⟩

/-- The double nearest to `m * 2 ^ e * num / den`. -/
def ofScaled (m : Nat) (e : Int) (num den : Nat) : Binary64 :=
  ofQuotient ((m <<< e.toNat) * num) (den <<< (-e).toNat)

/-- The number nearest to zero with the same magnitude and the sign bit set. -/
def negate (x : Binary64) : Binary64 := ⟨x.bits ^^^ 0x8000000000000000⟩

end Binary64

end StakingSnapshot
