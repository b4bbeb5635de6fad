/-!
# Byte strings

* `Bytes.ofNat w n`: the low `w` bytes of `n`, most significant first; `Bytes.toNat` reads them
  back (`toNat_ofNat`).
* `Bytes.split? n`: exactly the first `n` bytes and what follows them.
* `Bytes.padding`: how many zero bytes fill a string up to whole 32-byte words.
-/

namespace StakingSnapshot

/-- A string of bytes, first byte first. -/
abbrev Bytes := List UInt8

namespace Bytes

/-- The low `w` bytes of `n`, most significant first, in front of `tail`. -/
def ofNatOnto : Nat → Nat → Bytes → Bytes
  | 0, _, tail => tail
  | w + 1, n, tail => ofNatOnto w (n / 256) (UInt8.ofNat n :: tail)

/-- The low `w` bytes of `n`, most significant first. -/
def ofNat (w n : Nat) : Bytes := ofNatOnto w n []

/-- The number whose bytes, most significant first, are `bs`. -/
def toNat (bs : Bytes) : Nat := bs.foldl (fun n b => 256 * n + b.toNat) 0

/-- The first `n` bytes and the rest, or nothing when there are fewer. -/
def split? : Nat → Bytes → Option (Bytes × Bytes)
  | 0, bs => some ([], bs)
  | _ + 1, [] => none
  | n + 1, b :: bs => (split? n bs).map fun (front, rest) => (b :: front, rest)

/-- The number of bytes that fill `n` bytes up to a multiple of 32. -/
def padding (n : Nat) : Nat := (32 - n % 32) % 32

/-- The bytes, filled up with zeros to a multiple of 32. -/
def pad32 (bs : Bytes) : Bytes := bs ++ List.replicate (padding bs.length) 0

/-- The UTF-8 bytes of a text. -/
def ofText (s : String) : Bytes := s.toList.flatMap String.utf8EncodeChar

/-- The text whose UTF-8 bytes these are, if they are valid UTF-8. -/
def toText? (bs : Bytes) : Option String := String.fromUTF8? bs.toByteArray

theorem ofNatOnto_eq (w n : Nat) (tail : Bytes) : ofNatOnto w n tail = ofNat w n ++ tail := by
  induction w generalizing n tail with
  | zero => rfl
  | succ w ih => rw [ofNat, ofNatOnto, ofNatOnto, ih, ih _ [_], List.append_assoc]; rfl

theorem ofNat_succ (w n : Nat) : ofNat (w + 1) n = ofNat w (n / 256) ++ [UInt8.ofNat n] := by
  rw [ofNat, ofNatOnto, ofNatOnto_eq]

@[simp] theorem length_ofNat (w n : Nat) : (ofNat w n).length = w := by
  induction w generalizing n with
  | zero => rfl
  | succ w ih => simp [ofNat_succ, ih]

theorem toNat_append_singleton (bs : Bytes) (b : UInt8) :
    toNat (bs ++ [b]) = 256 * toNat bs + b.toNat := by
  simp [toNat]

/-- Reading back what was written keeps the low bytes. -/
theorem toNat_ofNat (w n : Nat) : toNat (ofNat w n) = n % Nat.pow 256 w := by
  induction w generalizing n with
  | zero => exact (Nat.mod_one n).symm
  | succ w ih =>
    have h : (UInt8.ofNat n).toNat = n % 256 := by simp
    have hp : Nat.pow 256 (w + 1) = 256 * Nat.pow 256 w := Nat.mul_comm _ _
    rw [ofNat_succ, toNat_append_singleton, ih, h, hp, Nat.mod_mul]
    omega

@[simp] theorem split?_append (front rest : Bytes) :
    split? front.length (front ++ rest) = some (front, rest) := by
  induction front with
  | nil => rfl
  | cons b front ih => simp [split?, ih]

/-- What `split?` gives are the two parts of its input, the first of the wanted length. -/
theorem of_split? {n : Nat} {bs front rest : Bytes} (h : split? n bs = some (front, rest)) :
    front.length = n ∧ bs = front ++ rest := by
  induction n generalizing bs front rest with
  | zero => cases h; exact ⟨rfl, rfl⟩
  | succ n ih =>
    cases bs with
    | nil => cases h
    | cons b bs =>
      obtain ⟨⟨f, r⟩, hs, he⟩ := Option.map_eq_some_iff.1 h
      obtain ⟨hl, rfl⟩ := ih hs
      cases he
      exact ⟨by simp [hl], rfl⟩

end Bytes

end StakingSnapshot
