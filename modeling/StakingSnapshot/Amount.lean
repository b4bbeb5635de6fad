import StakingSnapshot.Binary64
import StakingSnapshot.Word

/-!
# Amounts in wei and in ether

Contracts count in wei, `10 ^ 18` of which make one ether.

* `Amount.toEther`: the word rounded to a double, then divided by `10 ^ 18` and rounded again.
* `Amount.ofEther`: the double times `10 ^ 18`, rounded to a double, and then to an integer, where
  a half goes away from zero. What is not a positive finite number counts as zero, and what is too
  large as the largest word.
-/

namespace StakingSnapshot

namespace Amount

/-- The number of wei in one ether. -/
def weiPerEther : Nat := 1000000000000000000

/-- One ether, in wei. -/
def oneEther : Word := BitVec.ofNat 256 weiPerEther

/-- The amount in ether. -/
def toEther (wei : Word) : Binary64 :=
  match (Binary64.ofQuotient wei.toNat 1).parts? with
  | some p => Binary64.ofScaled p.mantissa p.exponent 1 weiPerEther
  | none => ⟨0⟩

/-- The integer nearest to `m * 2 ^ e`; a half is rounded up. -/
def roundHalfUp (m : Nat) (e : Int) : Nat :=
  let den := 1 <<< (-e).toNat
  (2 * (m <<< e.toNat) + den) / (2 * den)

/-- The amount in wei. -/
def ofEther (ether : Binary64) : Word :=
  match ether.parts? with
  | none => 0
  | some p =>
    if p.negative then 0
    else
      match (Binary64.ofScaled p.mantissa p.exponent weiPerEther 1).parts? with
      | some q => Word.clamp (roundHalfUp q.mantissa q.exponent)
      | none => Word.clamp Word.maxNat

end Amount

end StakingSnapshot
