import StakingSnapshot.Proofs.Abi.RoundTrip
import StakingSnapshot.Proofs.Text.Digits
import StakingSnapshot.Text.Scalar

/-!
# Addresses in text

An address is read from 40 digits behind at most one mark, with blanks around them. The case of
the letters may carry a checksum, which nobody looks at.

* `Address.Shown`: the characters that show an address; `Address.formed_iff`: any 40 digits do.
* `Address.shown_display`, `Address.shown_hex`: what is written shows the address.
* `Address.Accepts`: what is read from a text, when certain marks are allowed.
* `Address.accepts_forms`: a mark is `0x` or `0X`, and every form of an address is read back.
-/

namespace StakingSnapshot

namespace Hex

variable {cs : List Char} {vs : List Nat}

theorem mapM_value?_eq_some_iff :
    (cs.mapM fun c => value? c.toNat) = some vs ↔ Values cs vs := by
  unfold Values
  induction cs generalizing vs with
  | nil => cases vs <;> simp
  | cons c cs ih =>
    rw [List.mapM_cons, List.forall₂_cons_left_iff]
    simp only [Option.bind_eq_bind, Option.bind_eq_some_iff]
    constructor
    · rintro ⟨v, hv, rest, hrest, heq⟩
      cases heq
      exact ⟨v, rest, hv, ih.1 hrest, rfl⟩
    · rintro ⟨v, rest, hv, hrest, rfl⟩
      exact ⟨v, hv, rest, ih.2 hrest, rfl⟩

/-- The digits of bytes spell the number that the bytes do. -/
theorem foldl_nibbles (bs : Bytes) :
    (nibbles bs).foldl (fun n v => 16 * n + v) 0 = Bytes.toNat bs := by
  rw [nibbles, List.foldl_flatMap, Bytes.toNat]
  congr 1
  funext n b
  simp only [List.foldl_cons, List.foldl_nil]
  omega

end Hex

namespace Keccak

theorem length_digest (message : Bytes) : (digest message).length = 32 := by
  have hlane : ∀ lane, (littleEndian lane).length = 8 := fun lane => by simp [littleEndian]
  rw [digest, List.length_flatMap, List.map_congr_left fun lane _ => hlane lane]
  simp

end Keccak

namespace Address

variable {a : Address} {bs : Bytes} {cs ds : List Char}

theorem toBytes_ofBytes (h : bs.length = 20) : (ofBytes bs).toBytes = bs := by
  have hlt : Bytes.toNat bs < Nat.pow 256 20 := h ▸ Bytes.toNat_lt bs
  have hbits : (ofBytes bs).bits.toNat = Bytes.toNat bs := Nat.mod_eq_of_lt hlt
  rw [toBytes, hbits, ← h, Bytes.ofNat_toNat]

theorem ofBytes_toBytes (a : Address) : ofBytes a.toBytes = a := by
  have hlt : a.bits.toNat < Nat.pow 256 20 := a.bits.isLt
  rw [ofBytes, toBytes, Bytes.toNat_ofNat, Nat.mod_eq_of_lt hlt, BitVec.ofNat_toNat,
    BitVec.setWidth_eq]

theorem length_toBytes (a : Address) : a.toBytes.length = 20 := Bytes.length_ofNat ..

/-! ## Forms of an address -/

/-- What may stand in front of the digits. -/
def marks : List (List Char) := [[], ['0', 'x'], ['0', 'X']]

/-- The characters are 40 digits behind one of the marks. -/
def Formed (marks : List (List Char)) (cs : List Char) : Prop :=
  ∃ mark ∈ marks, ∃ ds, cs = mark ++ ds ∧ ds.length = 40 ∧ ∀ c ∈ ds, Hex.IsDigit c

/-- Behind one of the marks, the characters spell the bytes of the address. -/
def Shown (marks : List (List Char)) (cs : List Char) (a : Address) : Prop :=
  ∃ mark ∈ marks, ∃ ds, cs = mark ++ ds ∧ Hex.Spells ds a.toBytes

/-- All forms are the form of some address. -/
theorem formed_iff {marks : List (List Char)} : Formed marks cs ↔ ∃ a, Shown marks cs a := by
  constructor
  · rintro ⟨mark, hmark, ds, rfl, hlen, hdigits⟩
    obtain ⟨bs, hbs⟩ := Hex.exists_spells_iff.2 ⟨by omega, hdigits⟩
    have hlength : bs.length = 20 := by
      have := hbs.length_eq
      omega
    exact ⟨ofBytes bs, mark, hmark, ds, rfl, by rwa [toBytes_ofBytes hlength]⟩
  · rintro ⟨a, mark, hmark, ds, rfl, hspells⟩
    refine ⟨mark, hmark, ds, rfl, ?_, hspells.isDigit⟩
    rw [hspells.length_eq, length_toBytes]

theorem Formed.noneBlank {marks : List (List Char)} (hmarks : ∀ mark ∈ marks, Text.NoneBlank mark)
    (h : Formed marks cs) : Text.NoneBlank cs := by
  obtain ⟨mark, hmark, ds, rfl, -, hdigits⟩ := h
  exact List.forall_mem_append.2
    ⟨hmarks mark hmark, fun c hc => Hex.isBlank_of_isDigit (hdigits c hc)⟩

theorem formed_iff_drop {marks : List (List Char)} :
    Formed marks cs ↔ ∃ mark ∈ marks, mark <+: cs ∧ (cs.drop mark.length).length = 40 ∧
      ∀ c ∈ cs.drop mark.length, Hex.IsDigit c := by
  refine exists_congr fun mark => and_congr_right fun _ => ?_
  constructor
  · rintro ⟨ds, rfl, h⟩
    rw [List.drop_left]
    exact ⟨List.prefix_append .., h⟩
  · rintro ⟨⟨ds, rfl⟩, h⟩
    rw [List.drop_left] at h
    exact ⟨ds, rfl, h⟩

instance (marks : List (List Char)) (cs : List Char) : Decidable (Formed marks cs) :=
  decidable_of_iff _ formed_iff_drop.symm

theorem dropMark_eq_iff (h : ∀ c ∈ ds, Hex.IsDigit c) :
    dropMark cs = ds ↔ ∃ mark ∈ marks, cs = mark ++ ds := by
  have hx : ¬ Hex.IsDigit 'x' ∧ ¬ Hex.IsDigit 'X' := by decide
  constructor
  · rintro rfl
    unfold dropMark
    split
    · exact ⟨['0', 'x'], by decide, rfl⟩
    · exact ⟨['0', 'X'], by decide, rfl⟩
    · exact ⟨[], by decide, rfl⟩
  · rintro ⟨mark, hmark, rfl⟩
    simp only [marks, List.mem_cons, List.not_mem_nil, or_false] at hmark
    rcases hmark with rfl | rfl | rfl
    · rw [List.nil_append, dropMark]
      · rintro rest rfl
        exact hx.1 (h 'x' (by simp))
      · rintro rest rfl
        exact hx.2 (h 'X' (by simp))
    · rfl
    · rfl

theorem ofDigits?_eq_some_iff :
    ofDigits? cs = some a ↔ Hex.Spells (dropMark cs) a.toBytes := by
  simp only [ofDigits?]
  split
  case isTrue hlen =>
    rw [Option.map_eq_some_iff]
    constructor
    · rintro ⟨vs, hvs, rfl⟩
      have hvalues := Hex.mapM_value?_eq_some_iff.1 hvs
      have hvlen := hvalues.length_eq
      obtain ⟨bs, rfl⟩ := Hex.exists_nibbles (by omega) hvalues.lt
      rw [Hex.length_nibbles] at hvlen
      rw [Hex.foldl_nibbles, Hex.spells_iff_values]
      change Hex.Values _ (Hex.nibbles (ofBytes bs).toBytes)
      rwa [toBytes_ofBytes (by omega)]
    · intro h
      refine ⟨_, Hex.mapM_value?_eq_some_iff.2 (Hex.spells_iff_values.1 h), ?_⟩
      rw [Hex.foldl_nibbles]
      exact ofBytes_toBytes a
  case isFalse hlen =>
    simp only [reduceCtorEq, false_iff]
    intro h
    rw [h.length_eq, length_toBytes] at hlen
    exact hlen rfl

theorem ofDigits?_eq_some_iff_shown : ofDigits? cs = some a ↔ Shown marks cs a := by
  rw [ofDigits?_eq_some_iff]
  constructor
  · intro h
    obtain ⟨mark, hmark, hcs⟩ := (dropMark_eq_iff h.isDigit).1 rfl
    exact ⟨mark, hmark, _, hcs, h⟩
  · rintro ⟨mark, hmark, ds, hcs, h⟩
    rwa [(dropMark_eq_iff h.isDigit).2 ⟨mark, hmark, hcs⟩]

/-! ## What is written -/

/-- The checksum is in the case of the letters only. -/
theorem map_toLower_capitalise {nibbles : List Char} (hds : ∀ c ∈ ds, Hex.IsDigit c)
    (hlen : ds.length ≤ nibbles.length) :
    (capitalise ds nibbles).map Char.toLower = ds.map Char.toLower := by
  have hcase : ∀ c ∈ Hex.alphabet, c.toUpper.toLower = c.toLower := by decide
  unfold capitalise
  induction ds generalizing nibbles with
  | nil => rfl
  | cons d ds ih =>
    cases nibbles with
    | nil => exact absurd hlen (by simp)
    | cons n nibbles =>
      obtain ⟨hd, hds⟩ := List.forall_mem_cons.1 hds
      rw [List.zipWith_cons_cons, List.map_cons, List.map_cons,
        ih hds (Nat.le_of_succ_le_succ hlen)]
      split
      · rw [hcase d hd]
      · rfl

theorem shown_hex (a : Address) : Shown marks a.hex.toList a := by
  refine ⟨['0', 'x'], by decide, a.digits, ?_, Hex.spells_encode a.toBytes⟩
  simp only [hex, Hex.text, String.toList_append, String.toList_ofList]
  rfl

theorem shown_display (a : Address) : Shown marks a.display.toList a := by
  have hspells : Hex.Spells a.digits a.toBytes := Hex.spells_encode a.toBytes
  refine ⟨['0', 'x'], by decide,
    capitalise a.digits (Hex.encode (Keccak.digest (Bytes.ofText (String.ofList a.digits)))),
    ?_, ?_⟩
  · simp only [display, String.toList_append, String.toList_ofList]
    rfl
  · rw [Hex.Spells, map_toLower_capitalise hspells.isDigit]
    · exact hspells
    · rw [Hex.length_encode, Keccak.length_digest, digits, Hex.length_encode, length_toBytes]
      decide

/-! ## What is read -/

variable {s : String}

/-- The text, but for blanks around it, shows the address behind one of the marks. -/
def ShownIn (marks : List (List Char)) (s : String) (a : Address) : Prop :=
  ∃ core, Text.Padded s.toList core ∧ Shown marks core a

/-- The text, but for blanks around it, is 40 digits behind one of the marks. -/
def FormedIn (marks : List (List Char)) (s : String) : Prop :=
  ∃ core, Text.Padded s.toList core ∧ Formed marks core

theorem formedIn_iff {marks : List (List Char)} :
    FormedIn marks s ↔ ∃ a, ShownIn marks s a := by
  simp only [FormedIn, ShownIn, formed_iff]
  constructor
  · rintro ⟨core, hpadded, a, h⟩
    exact ⟨a, core, hpadded, h⟩
  · rintro ⟨a, core, hpadded, h⟩
    exact ⟨core, hpadded, a, h⟩

/-- An address is read from the text if it is shown behind one of the marks, which it is by any 40
digits. Any other text is refused as one that shows no address. -/
structure Accepts (marks : List (List Char)) (s : String) : Prop where
  read : ∀ a, parse s = .ok a ↔ ShownIn marks s a
  formed : (∃ a, parse s = .ok a) ↔ FormedIn marks s
  refused : ¬ FormedIn marks s →
    ∃ f, parse s = .error f ∧ f = .invalidAddress (Text.trimString s) ∧ f.kind = .config

theorem formedIn_iff_trim {marks : List (List Char)}
    (hmarks : ∀ mark ∈ marks, Text.NoneBlank mark) :
    FormedIn marks s ↔ Formed marks (Text.trim s.toList) :=
  Text.exists_padded_iff fun _ => Formed.noneBlank hmarks

theorem noneBlank_of_mem_marks : ∀ mark ∈ marks, Text.NoneBlank mark := by decide

theorem parse_eq_ok_iff : parse s = .ok a ↔ ShownIn marks s a := by
  have hblank : ∀ core, Shown marks core a → Text.NoneBlank core := fun core hshown =>
    (formed_iff.2 ⟨a, hshown⟩).noneBlank noneBlank_of_mem_marks
  rw [ShownIn, Text.exists_padded_iff hblank, ← ofDigits?_eq_some_iff_shown, parse]
  cases ofDigits? (Text.trim s.toList) <;> simp

theorem parse_eq_ok_or (s : String) :
    (∃ a, parse s = .ok a) ∨ parse s = .error (.invalidAddress (Text.trimString s)) := by
  rw [parse]
  cases ofDigits? (Text.trim s.toList) with
  | some a => exact .inl ⟨a, rfl⟩
  | none => exact .inr rfl

theorem accepts (s : String) : Accepts marks s where
  read _ := parse_eq_ok_iff
  formed := by
    rw [formedIn_iff]
    exact exists_congr fun _ => parse_eq_ok_iff
  refused hformed := by
    rcases parse_eq_ok_or s with ⟨a, ha⟩ | hrefused
    · exact absurd (formedIn_iff.2 ⟨a, parse_eq_ok_iff.1 ha⟩) hformed
    · exact ⟨_, hrefused, rfl, rfl⟩

/-- **Addresses in text.** An address is read from 40 digits of either case behind at most one mark
`0x` or `0X`, with any blanks around them, and every other text is refused with the text between
the blanks. Whatever is written of an address is read back: the text with the checksum, the text
in small letters, and its digits in any mix of cases behind any of the marks. -/
theorem accepts_forms :
    (∀ s, Accepts marks s) ∧
    ∀ (a : Address) (s : String),
      (Text.Padded s.toList a.display.toList → parse s = .ok a) ∧
      (Text.Padded s.toList a.hex.toList → parse s = .ok a) ∧
      ∀ mark ∈ marks, ∀ ds, Hex.Spells ds a.toBytes → Text.Padded s.toList (mark ++ ds) →
        parse s = .ok a := by
  refine ⟨accepts, fun a s => ⟨fun hpadded => ?_, fun hpadded => ?_, ?_⟩⟩
  · exact parse_eq_ok_iff.2 ⟨_, hpadded, shown_display a⟩
  · exact parse_eq_ok_iff.2 ⟨_, hpadded, shown_hex a⟩
  · intro mark hmark ds hspells hpadded
    exact parse_eq_ok_iff.2 ⟨_, hpadded, mark, hmark, ds, rfl, hspells⟩

/-- Letters of either case behind a capital mark are read between a tab and a wide blank, and so is
the text with the checksum. A second mark is refused. -/
theorem accepts_forms_mixed :
    let a : Address := ⟨0x1d8f8f00cfa6758d7be78336684788fb0ee0fa46⟩
    parse "\t0X1D8F8F00CFA6758d7be78336684788fb0ee0fa46\u3000" = .ok a ∧
      parse (" " ++ a.display) = .ok a ∧
      parse " 0x0x1d8f8f00cfa6758d7be78336684788fb0ee0fa46" =
        .error (.invalidAddress "0x0x1d8f8f00cfa6758d7be78336684788fb0ee0fa46") := by
  intro a
  obtain ⟨haccepts, hforms⟩ := accepts_forms
  refine ⟨?_, ?_, ?_⟩
  · refine (hforms a _).2.2 ['0', 'X'] (by decide)
      "1D8F8F00CFA6758d7be78336684788fb0ee0fa46".toList (by decide +kernel) ?_
    exact ⟨['\t'], ['\u3000'], by decide, by decide, by decide +kernel⟩
  · refine (hforms a _).1 ⟨[' '], [], by decide, nofun, ?_⟩
    rw [String.toList_append, List.append_nil]
    rfl
  · have hnot : ¬ Formed marks
        (Text.trim " 0x0x1d8f8f00cfa6758d7be78336684788fb0ee0fa46".toList) := by decide +kernel
    obtain ⟨f, hf, rfl, -⟩ :=
      (haccepts _).refused fun h => hnot ((formedIn_iff_trim noneBlank_of_mem_marks).1 h)
    rw [hf]
    decide +kernel

/-- A capital mark is not `0x`, and yet there may be one. -/
theorem capital_mark_accepted :
    parse "0X1d8f8f00cfa6758d7bE78336684788Fb0ee0Fa46" =
        .ok ⟨0x1d8f8f00cfa6758d7be78336684788fb0ee0fa46⟩ ∧
      ¬ Accepts [[], ['0', 'x']] "0X1d8f8f00cfa6758d7bE78336684788Fb0ee0Fa46" := by
  have hread : parse "0X1d8f8f00cfa6758d7bE78336684788Fb0ee0Fa46" =
      .ok ⟨0x1d8f8f00cfa6758d7be78336684788fb0ee0fa46⟩ := by decide +kernel
  have hmarks : ∀ mark ∈ [[], ['0', 'x']], Text.NoneBlank mark := by decide
  refine ⟨hread, fun h => ?_⟩
  have hformed := (formedIn_iff_trim hmarks).1 (h.formed.1 ⟨_, hread⟩)
  revert hformed
  decide +kernel

end Address

end StakingSnapshot
