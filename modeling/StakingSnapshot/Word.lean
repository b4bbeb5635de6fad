/-!
# 256-bit words

The scalar of every contract answer. The ring operations of `Word` wrap, as those of every
`BitVec` do; the ones named here say what they do at the ends of the range instead.

* `Word.clamp`: the word nearest to a natural number; `Word.satAdd`, `Word.satMul` clamp the exact
  sum and product.
* `Word.sub?`, `Word.div?`: exact where they answer at all.
* `Word.toUInt64Sat`: the narrowing that every integral parameter reads through.
-/

namespace StakingSnapshot

/-- A 256-bit unsigned word. -/
abbrev Word := BitVec 256

namespace Word

/-- The largest word, as a number. -/
def maxNat : Nat := 0xFFFFFFFFFFFFFFFFFFFFFFFFFFFFFFFFFFFFFFFFFFFFFFFFFFFFFFFFFFFFFFFF

/-- The largest number of 64 bits. -/
def maxNat64 : Nat := 0xFFFFFFFFFFFFFFFF

/-- The word nearest to `n`. -/
def clamp (n : Nat) : Word := BitVec.ofNat 256 (min n maxNat)

@[simp] theorem toNat_clamp (n : Nat) : (clamp n).toNat = min n maxNat := by
  have h : min n maxNat ≤ maxNat := Nat.min_le_right _ _
  rw [clamp, BitVec.toNat_ofNat, Nat.mod_eq_of_lt (Nat.lt_of_le_of_lt h (by decide))]

/-- The word of `n`, if `n` has at most 256 bits. -/
def ofNat? (n : Nat) : Option Word := if n ≤ maxNat then some (BitVec.ofNat 256 n) else none

/-- Addition that stops at the largest word. -/
def satAdd (a b : Word) : Word := clamp (a.toNat + b.toNat)

/-- Multiplication that stops at the largest word. -/
def satMul (a b : Word) : Word := clamp (a.toNat * b.toNat)

/-- The difference, if it is not negative. -/
def sub? (a b : Word) : Option Word := if b.toNat ≤ a.toNat then some (a - b) else none

/-- The quotient rounded down, if the divisor is not zero. -/
def div? (a b : Word) : Option Word := if b.toNat = 0 then none else some (a / b)

/-- The smaller of two words. -/
def least (a b : Word) : Word := if b.toNat ≤ a.toNat then b else a

/-- The word as a 64-bit number, the largest of these when it does not fit. -/
def toUInt64Sat (a : Word) : UInt64 := UInt64.ofNat (min a.toNat maxNat64)

@[simp] theorem toNat_satAdd (a b : Word) :
    (a.satAdd b).toNat = min (a.toNat + b.toNat) maxNat := toNat_clamp _

@[simp] theorem toNat_satMul (a b : Word) :
    (a.satMul b).toNat = min (a.toNat * b.toNat) maxNat := toNat_clamp _

theorem sub?_eq_some {a b : Word} (h : b.toNat ≤ a.toNat) : a.sub? b = some (a - b) := if_pos h

theorem toNat_of_sub? {a b c : Word} (h : a.sub? b = some c) :
    b.toNat ≤ a.toNat ∧ c.toNat = a.toNat - b.toNat := by
  unfold sub? at h
  split at h
  case isTrue hle =>
    cases h
    exact ⟨hle, BitVec.toNat_sub_of_le hle⟩
  case isFalse => cases h

@[simp] theorem toNat_least (a b : Word) : (a.least b).toNat = min a.toNat b.toNat := by
  unfold least
  split <;> omega

@[simp] theorem toNat_toUInt64Sat (a : Word) :
    a.toUInt64Sat.toNat = min a.toNat maxNat64 := by
  have h : min a.toNat maxNat64 ≤ maxNat64 := Nat.min_le_right _ _
  rw [toUInt64Sat, UInt64.toNat_ofNat', Nat.mod_eq_of_lt (Nat.lt_of_le_of_lt h (by decide))]

theorem toNat_le_maxNat (a : Word) : a.toNat ≤ maxNat := Nat.le_of_lt_succ a.isLt

/-- The quotient by zero counts as zero where there is nothing else to put. -/
theorem toNat_getD_div? (a b : Word) : ((a.div? b).getD 0).toNat = a.toNat / b.toNat := by
  unfold div?
  split
  case isTrue hzero => rw [hzero, Nat.div_zero]; rfl
  case isFalse => exact BitVec.toNat_udiv

/-- The word as a hexadecimal quantity: no leading zeros, and `0x0` for zero. -/
def quantity (a : Word) : String := "0x" ++ String.ofList (Nat.toDigits 16 a.toNat)

end Word

/-- A 256-bit word read as a signed number in two's complement. -/
structure SignedWord where
  /-- The bit pattern. -/
  bits : Word
  deriving DecidableEq, Inhabited

/-- The number that the bit pattern denotes. -/
def SignedWord.toInt (a : SignedWord) : Int := a.bits.toInt

end StakingSnapshot
