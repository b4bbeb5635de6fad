import Mathlib.Data.List.Forall2
import StakingSnapshot.Proofs.Parameter.Written
import StakingSnapshot.Proofs.Text.Blank
import StakingSnapshot.Text

/-!
# Hexadecimal digits

A digit is a character of `Hex.alphabet`. In small letters it is the digit of its value, so that
what digits spell is told by how it is written: `Hex.Spells`.

* `Hex.value?_eq_some_iff`: the values of characters. `Hex.Values`: those of several characters.
* `Hex.spells_iff_values`: spelling bytes is having the values of their halves.
* `Hex.exists_spells_iff`: digits spell bytes when they come in pairs.
* `Hex.decode_eq_ok_iff`: the reader of bytes takes what spells them.
* `Hex.number?_of_map_toLower`: the reader of numbers does not mind zeros in front, nor the case.
-/

namespace StakingSnapshot

namespace Hex

/-! ## One digit -/

/-- The digits of either case. -/
def alphabet : List Char :=
  ['0', '1', '2', '3', '4', '5', '6', '7', '8', '9', 'a', 'b', 'c', 'd', 'e', 'f',
    'A', 'B', 'C', 'D', 'E', 'F']

/-- The character is a digit of either case. -/
def IsDigit (c : Char) : Prop := c ∈ alphabet

instance : DecidablePred IsDigit := fun c => inferInstanceAs (Decidable (c ∈ alphabet))

variable {c : Char} {v : Nat}

theorem lt_of_value? {code : Nat} (h : value? code = some v) : code < 128 ∧ v < 16 := by
  unfold value? at h
  split at h
  · cases h
    omega
  · split at h
    · cases h
      omega
    · split at h
      · cases h
        omega
      · cases h

/-- What holds of every character below 128 is checked code by code. -/
theorem forall_ascii {P : Char → Prop} (h : ∀ code < 128, P (Char.ofNat code)) (c : Char)
    (hc : c.toNat < 128) : P c := by
  have hcode := h c.toNat hc
  rwa [Char.ofNat_toNat] at hcode

theorem toNat_digit_lt : ∀ v < 16, (digit v).toNat < 128 := by decide

/-- Only below 128 do small letters differ from capital ones. -/
theorem toLower_of_le (h : 128 ≤ c.toNat) : c.toLower = c := by
  unfold Char.toLower
  rw [dif_neg]
  rintro ⟨-, hle⟩
  have hcode : c.toNat ≤ 90 := UInt32.le_iff_toNat_le.1 hle
  omega

/-- A character has a value if it is the digit of the value but for its case. -/
theorem value?_eq_some_iff : value? c.toNat = some v ↔ v < 16 ∧ c.toLower = digit v := by
  by_cases hcode : c.toNat < 128
  · have hc := forall_ascii
      (P := fun c => ∀ v < 16, value? c.toNat = some v ↔ c.toLower = digit v)
      (by decide +kernel) c hcode
    constructor
    · intro h
      have hv := (lt_of_value? h).2
      exact ⟨hv, (hc v hv).1 h⟩
    · rintro ⟨hv, h⟩
      exact (hc v hv).2 h
  · constructor
    · intro h
      exact absurd (lt_of_value? h).1 hcode
    · rintro ⟨hv, h⟩
      rw [toLower_of_le (Nat.le_of_not_lt hcode)] at h
      exact absurd (h ▸ toNat_digit_lt v hv) hcode

theorem isDigit_iff : IsDigit c ↔ ∃ v, value? c.toNat = some v := by
  constructor
  · have hdigits : ∀ c ∈ alphabet, ∃ v < 16, value? c.toNat = some v := by decide
    intro h
    obtain ⟨v, -, hv⟩ := hdigits c h
    exact ⟨v, hv⟩
  · rintro ⟨v, hv⟩
    exact forall_ascii (P := fun c => ∀ v ∈ value? c.toNat, IsDigit c) (by decide +kernel) c
      (lt_of_value? hv).1 v hv

theorem isBlank_of_isDigit (h : IsDigit c) : Text.isBlank c = false := by
  revert c
  unfold IsDigit
  decide

theorem isDigit_ne_x (h : IsDigit c) : c ≠ 'x' := by
  rintro rfl
  revert h
  decide

/-! ## Several digits -/

/-- The values of the characters, all of which are digits. -/
def Values (cs : List Char) (vs : List Nat) : Prop :=
  List.Forall₂ (fun c v => value? c.toNat = some v) cs vs

/-- The upper and the lower half of every byte. -/
def nibbles (bs : Bytes) : List Nat := bs.flatMap fun b => [b.toNat / 16, b.toNat % 16]

/-- In small letters, the characters are how the bytes are written. -/
def Spells (cs : List Char) (bs : Bytes) : Prop := cs.map Char.toLower = encode bs

instance (cs : List Char) (bs : Bytes) : Decidable (Spells cs bs) :=
  inferInstanceAs (Decidable (cs.map Char.toLower = encode bs))

variable {cs : List Char} {vs : List Nat} {bs : Bytes}

@[simp] theorem nibbles_nil : nibbles [] = [] := rfl

@[simp] theorem nibbles_cons (b : UInt8) (bs : Bytes) :
    nibbles (b :: bs) = b.toNat / 16 :: b.toNat % 16 :: nibbles bs := rfl

theorem encode_eq_map (bs : Bytes) : encode bs = (nibbles bs).map digit := by
  rw [nibbles, List.map_flatMap]
  rfl

theorem nibbles_lt (bs : Bytes) : ∀ v ∈ nibbles bs, v < 16 := by
  intro v hv
  obtain ⟨b, -, hv⟩ := List.mem_flatMap.1 hv
  have := b.toNat_lt
  simp only [List.mem_cons, List.not_mem_nil, or_false] at hv
  omega

theorem length_nibbles (bs : Bytes) : (nibbles bs).length = 2 * bs.length := by
  induction bs with
  | nil => rfl
  | cons b bs ih =>
    rw [nibbles_cons]
    simp only [List.length_cons]
    omega

theorem length_encode (bs : Bytes) : (encode bs).length = 2 * bs.length := by
  rw [encode_eq_map, List.length_map, length_nibbles]

/-- A byte is told by its halves. -/
theorem ofNat_halves_eq_iff {x y : Nat} (hx : x < 16) (hy : y < 16) (b : UInt8) :
    UInt8.ofNat (16 * x + y) = b ↔ x = b.toNat / 16 ∧ y = b.toNat % 16 := by
  have hbyte : (UInt8.ofNat (16 * x + y)).toNat = 16 * x + y :=
    UInt8.toNat_ofNat_of_lt (by show 16 * x + y < 256; omega)
  rw [← UInt8.toNat_inj, hbyte]
  omega

/-- Any pairs of values are the halves of bytes. -/
theorem exists_nibbles : ∀ {vs : List Nat}, vs.length % 2 = 0 → (∀ v ∈ vs, v < 16) →
    ∃ bs, nibbles bs = vs
  | [], _, _ => ⟨[], rfl⟩
  | [_], hlen, _ => absurd hlen Nat.one_ne_zero
  | x :: y :: vs, hlen, hlt => by
    have hrest : vs.length % 2 = 0 := by
      simp only [List.length_cons] at hlen
      omega
    obtain ⟨bs, rfl⟩ := exists_nibbles hrest fun v hv => hlt v (by simp [hv])
    have hx : x < 16 := hlt x (by simp)
    have hy : y < 16 := hlt y (by simp)
    obtain ⟨hhigh, hlow⟩ := (ofNat_halves_eq_iff hx hy _).1 rfl
    exact ⟨UInt8.ofNat (16 * x + y) :: bs, by rw [nibbles_cons, ← hhigh, ← hlow]⟩

theorem Values.lt (h : Values cs vs) : ∀ v ∈ vs, v < 16 := by
  induction h with
  | nil => nofun
  | cons hv _ ih => exact List.forall_mem_cons.2 ⟨(lt_of_value? hv).2, ih⟩

theorem values_iff_map (hlt : ∀ v ∈ vs, v < 16) :
    Values cs vs ↔ cs.map Char.toLower = vs.map digit := by
  unfold Values
  induction cs generalizing vs with
  | nil => cases vs <;> simp
  | cons c cs ih =>
    cases vs with
    | nil => simp
    | cons v vs =>
      obtain ⟨hv, hvs⟩ := List.forall_mem_cons.1 hlt
      rw [List.forall₂_cons, ih hvs, value?_eq_some_iff]
      simp [hv]

theorem spells_iff_values : Spells cs bs ↔ Values cs (nibbles bs) := by
  rw [values_iff_map (nibbles_lt bs), ← encode_eq_map, Spells]

theorem exists_values_iff : (∃ vs, Values cs vs) ↔ ∀ c ∈ cs, IsDigit c := by
  unfold Values
  induction cs with
  | nil => simp
  | cons c cs ih =>
    rw [List.forall_mem_cons, ← ih, isDigit_iff]
    simp [List.forall₂_cons_left_iff]

theorem exists_spells_iff :
    (∃ bs, Spells cs bs) ↔ cs.length % 2 = 0 ∧ ∀ c ∈ cs, IsDigit c := by
  simp only [spells_iff_values]
  constructor
  · rintro ⟨bs, h⟩
    have hlen := h.length_eq
    rw [length_nibbles] at hlen
    exact ⟨by omega, exists_values_iff.1 ⟨_, h⟩⟩
  · rintro ⟨hlen, hdigits⟩
    obtain ⟨vs, hvs⟩ := exists_values_iff.2 hdigits
    obtain ⟨bs, rfl⟩ := exists_nibbles (hvs.length_eq ▸ hlen) hvs.lt
    exact ⟨bs, hvs⟩

theorem Spells.isDigit (h : Spells cs bs) : ∀ c ∈ cs, IsDigit c :=
  (exists_spells_iff.1 ⟨bs, h⟩).2

theorem Spells.length_eq (h : Spells cs bs) : cs.length = 2 * bs.length := by
  rw [← length_encode, ← h, List.length_map]

/-- What is written is in small letters already. -/
theorem spells_encode (bs : Bytes) : Spells (encode bs) bs := by
  have : ∀ v < 16, (digit v).toLower = digit v := by decide
  rw [Spells, encode_eq_map, List.map_map]
  exact List.map_congr_left fun v hv => this v (nibbles_lt bs v hv)

/-! ## Reading bytes -/

/-- By the recursion of the reader: each byte takes two characters. -/
theorem decodePairs_eq_ok_iff {position : Nat} {codes : Bytes} :
    decodePairs position codes = .ok bs ↔
      List.Forall₂ (fun code v => value? code.toNat = some v) codes (nibbles bs) := by
  fun_induction decodePairs position codes generalizing bs with
  | case1 => cases bs <;> simp
  | case2 => cases bs <;> simp
  | case3 position a b rest ha => cases bs <;> simp [ha]
  | case4 position a b rest x hb ha => cases bs <;> simp [ha, hb]
  | case5 position a b rest y x hb ha e hrest ih =>
    cases bs with
    | nil => simp
    | cons byte bs => simp [ha, hb, ← ih, hrest]
  | case6 position a b rest y x hb ha front hrest ih =>
    cases bs with
    | nil => simp
    | cons byte bs =>
      have hhalves := ofNat_halves_eq_iff (lt_of_value? ha).2 (lt_of_value? hb).2 byte
      simp only [nibbles_cons, List.forall₂_cons, ha, hb, ← ih, hrest, Except.ok.injEq,
        List.cons.injEq, Option.some.injEq, hhalves, and_assoc]

theorem ofText_ofList (cs : List Char) :
    Bytes.ofText (String.ofList cs) = cs.flatMap String.utf8EncodeChar := by
  rw [Bytes.ofText, String.toList_ofList]

theorem utf8EncodeChar_of_lt (h : c.toNat < 128) :
    String.utf8EncodeChar c = [UInt8.ofNat c.toNat] :=
  if_pos (Nat.le_of_lt_succ h)

/-- A character beyond the first 128 starts with a byte that is no code of a digit. -/
theorem exists_utf8EncodeChar_of_le (h : 128 ≤ c.toNat) :
    ∃ code rest, String.utf8EncodeChar c = code :: rest ∧ value? code.toNat = none := by
  have hlead : ∀ n, 128 ≤ n → n < 256 → value? (UInt8.ofNat n).toNat = none := by
    intro n hn hlt
    have hcode : (UInt8.ofNat n).toNat = n := UInt8.toNat_ofNat_of_lt hlt
    rw [hcode, Option.eq_none_iff_forall_ne_some]
    intro v hv
    have := (lt_of_value? hv).1
    omega
  unfold String.utf8EncodeChar
  simp only []
  rw [if_neg (by change ¬ c.toNat ≤ 127; omega)]
  split
  · exact ⟨_, _, rfl, hlead _ (by omega) (by omega)⟩
  · split
    · exact ⟨_, _, rfl, hlead _ (by omega) (by omega)⟩
    · exact ⟨_, _, rfl, hlead _ (by omega) (by omega)⟩

/-- The bytes of a text are the codes of digits when its characters are digits. -/
theorem forall₂_ofText_iff :
    List.Forall₂ (fun (code : UInt8) v => value? code.toNat = some v)
      (Bytes.ofText (String.ofList cs)) vs ↔ Values cs vs := by
  unfold Values
  rw [ofText_ofList]
  induction cs generalizing vs with
  | nil => simp
  | cons c cs ih =>
    rw [List.flatMap_cons]
    by_cases hcode : c.toNat < 128
    · have hc : (UInt8.ofNat c.toNat).toNat = c.toNat :=
        UInt8.toNat_ofNat_of_lt (Nat.lt_trans hcode (by decide))
      rw [utf8EncodeChar_of_lt hcode, List.singleton_append]
      simp only [List.forall₂_cons_left_iff, hc, ih]
    · obtain ⟨code, rest, hencode, hnone⟩ := exists_utf8EncodeChar_of_le (Nat.le_of_not_lt hcode)
      rw [hencode, List.cons_append]
      have hc : ∀ v, value? c.toNat ≠ some v := fun v hv => hcode (lt_of_value? hv).1
      simp [List.forall₂_cons_left_iff, hnone, hc]

theorem decode_eq_ok_iff : decode (Bytes.ofText (String.ofList cs)) = .ok bs ↔ Spells cs bs := by
  rw [spells_iff_values, ← forall₂_ofText_iff, decode]
  split
  case isTrue hodd =>
    simp only [reduceCtorEq, false_iff]
    intro h
    have hlen := h.length_eq
    rw [length_nibbles] at hlen
    omega
  case isFalse => exact decodePairs_eq_ok_iff

/-! ## Reading numbers -/

theorem value?_toLower (c : Char) : value? c.toLower.toNat = value? c.toNat := by
  by_cases hcode : c.toNat < 128
  · exact forall_ascii (P := fun c => value? c.toLower.toNat = value? c.toNat)
      (by decide +kernel) c hcode
  · rw [toLower_of_le (Nat.le_of_not_lt hcode)]

theorem toLower_eq_underscore_iff : c.toLower = '_' ↔ c = '_' := by
  by_cases hcode : c.toNat < 128
  · exact forall_ascii (P := fun c => c.toLower = '_' ↔ c = '_') (by decide +kernel) c hcode
  · rw [toLower_of_le (Nat.le_of_not_lt hcode)]

theorem stepDigit_toLower (base : Nat) (n : Option Nat) (c : Char) :
    stepDigit base n c.toLower = stepDigit base n c := by
  unfold stepDigit
  simp only [value?_toLower, toLower_eq_underscore_iff]

theorem number?_map_toLower (base : Nat) (cs : List Char) :
    number? base (cs.map Char.toLower) = number? base cs := by
  simp only [number?, List.foldl_map, stepDigit_toLower]

theorem number?_zeros_append (zeros : Nat) (cs : List Char) :
    number? 16 (List.replicate zeros '0' ++ cs) = number? 16 cs := by
  induction zeros with
  | zero => rfl
  | succ zeros ih => exact ih

/-- Zeros in front and the case of letters make no difference. -/
theorem number?_of_map_toLower {zeros n : Nat}
    (h : cs.map Char.toLower = List.replicate zeros '0' ++ Nat.toDigits 16 n) :
    number? 16 cs = some n := by
  rw [← number?_map_toLower, h, number?_zeros_append,
    number?_toDigits (by decide) (Nat.le_refl _)]

/-- By induction from the end: the last character is a digit or counts for nothing. -/
theorem forall_of_number? {base n : Nat} (h : number? base cs = some n) :
    ∀ c ∈ cs, IsDigit c ∨ c = '_' := by
  induction cs using List.reverseRecOn generalizing n with
  | nil => nofun
  | append_singleton cs c ih =>
    rw [number?_concat, stepDigit] at h
    split at h
    case isTrue hc =>
      exact List.forall_mem_append.2 ⟨ih h, List.forall_mem_singleton.2 (.inr hc)⟩
    case isFalse =>
      obtain ⟨v, hv, hrest⟩ := Option.bind_eq_some_iff.1 h
      split at hrest
      case isTrue =>
        obtain ⟨m, hm, -⟩ := Option.bind_eq_some_iff.1 hrest
        exact List.forall_mem_append.2
          ⟨ih hm, List.forall_mem_singleton.2 (.inl (isDigit_iff.2 ⟨v, hv⟩))⟩
      case isFalse => cases hrest

end Hex

end StakingSnapshot
