import StakingSnapshot.Parameter

/-!
# The written form of parameters

A raw scalar is written as a quantity, if it is a word, or as a number, if it is a code. Reading
what was written gives the raw scalar back.

* `Hex.number?_toDigits`: digits spell the number that they were made of, in every base up to 16.
* `Parameter.Faithful`: the raw scalars of which this holds.
* `Parameter.ofJson?_toJson`: then it holds of the parameter, but for what it keeps.
-/

namespace StakingSnapshot

/-! ## Digits -/

namespace Hex

theorem value?_digitChar {d : Nat} (h : d < 16) : value? (Nat.digitChar d).toNat = some d := by
  revert d
  decide

theorem digitChar_ne_underscore {d : Nat} (h : d < 16) : Nat.digitChar d ≠ '_' := by
  revert d
  decide

variable {base : Nat}

theorem stepDigit_digitChar (hbase : base ≤ 16) {d : Nat} (hd : d < base) (n : Nat) :
    stepDigit base (some n) (Nat.digitChar d) = some (base * n + d) := by
  have hd16 : d < 16 := Nat.lt_of_lt_of_le hd hbase
  rw [stepDigit, if_neg (digitChar_ne_underscore hd16), value?_digitChar hd16]
  exact if_pos hd

theorem number?_concat (base : Nat) (cs : List Char) (c : Char) :
    number? base (cs ++ [c]) = stepDigit base (number? base cs) c := List.foldl_append ..

/-- By induction on the number: the last digit is what the base leaves of it. -/
theorem number?_toDigits (hlow : 1 < base) (hhigh : base ≤ 16) (n : Nat) :
    number? base (Nat.toDigits base n) = some n := by
  induction n using Nat.strongRecOn with
  | ind n ih =>
    rw [Nat.toDigits_eq_if hlow]
    split
    case isTrue hlt =>
      have hstep := stepDigit_digitChar hhigh hlt 0
      rwa [Nat.mul_zero, Nat.zero_add] at hstep
    case isFalse hge =>
      have hless : n / base < n := Nat.div_lt_self (by omega) hlow
      have hlast : n % base < base := Nat.mod_lt _ (by omega)
      rw [number?_concat, ih _ hless, stepDigit_digitChar hhigh hlast, Nat.div_add_mod]

end Hex

/-- Every word is one of the numbers that words are made of. -/
theorem Word.ofNat?_toNat (w : Word) : Word.ofNat? w.toNat = some w := by
  rw [Word.ofNat?, if_pos w.toNat_le_maxNat, BitVec.ofNat_toNat, BitVec.setWidth_eq]

namespace Parameter

theorem wordOfText?_quantity (w : Word) : wordOfText? w.quantity = some w := by
  have hmark : w.quantity.toList = '0' :: 'x' :: Nat.toDigits 16 w.toNat := by
    rw [Word.quantity, String.toList_append]
    exact congrArg ("0x".toList ++ ·) String.toList_ofList
  rw [wordOfText?, hmark]
  change (Hex.number? 16 (Nat.toDigits 16 w.toNat)).bind Word.ofNat? = some w
  rw [Hex.number?_toDigits (by decide) (Nat.le_refl _), Option.bind_some, Word.ofNat?_toNat]

/-! ## Raw scalars and parameters -/

/-- The raw scalar that is read from the written form of a raw scalar. -/
def Written.again? {R : Type} [Written R] (raw : R) : Option R :=
  Written.ofJson? (Written.toJson raw)

/-- Every raw scalar is read from its own written form. -/
class Faithful (R : Type) [Written R] : Prop where
  again?_eq : ∀ raw : R, Written.again? raw = some raw

instance : Faithful Word where
  again?_eq := wordOfText?_quantity

instance : Faithful UInt8 where
  again?_eq n := by
    have hle : n.toNat ≤ 255 := Nat.le_of_lt_succ n.toNat_lt
    change ((Json.ofNat n.toNat).natUpTo? 255).map UInt8.ofNat = some n
    rw [Json.ofNat, Json.natUpTo?, if_pos ⟨Int.natCast_nonneg _, hle⟩]
    exact congrArg some (UInt8.ofNat_toNat (x := n))

variable {R V : Type} {F : Format R V} [Written R]

/-- What a parameter keeps is not written. -/
theorem ofJson?_toJson_eq (p : Parameter F) :
    (ofJson? p.toJson : Option (Parameter F)) = (Written.again? p.raw).map ofRaw := rfl

theorem ofJson?_toJson [Faithful R] (p : Parameter F) :
    (ofJson? p.toJson : Option (Parameter F)) = some (ofRaw p.raw) := by
  rw [ofJson?_toJson_eq, Faithful.again?_eq]
  rfl

end Parameter

end StakingSnapshot
