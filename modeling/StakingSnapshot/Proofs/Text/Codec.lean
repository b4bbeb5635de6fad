import StakingSnapshot.Text.Scalar
import StakingSnapshot.Proofs.Parameter.Integral
import StakingSnapshot.Proofs.Text.Marks

/-!
# Hexadecimal text, written and read

* `Bytes.parse_eq_ok_iff`: the bytes that are read from a text are those whose own text is the same
  in small letters, but for marks and blanks.
* `Hex.Numeral`: the digits of a number, of either case and with zeros in front.
  `Word.parse_numeral`: it is read if it fits a word.
* `BlockRef.parse_tag_pinned`, `BlockRef.tag_injective`: a block is told by its tag.
* `Hex.codecs_roundTrip`: all of these.
-/

namespace StakingSnapshot

namespace Hex

variable {cs : List Char} {bs : Bytes} {n : Nat}

theorem text_eq_iff : text bs = "0x" ++ String.ofList (cs.map Char.toLower) ↔ Spells cs bs := by
  rw [text, Spells, ← String.toList_inj]
  simp only [String.toList_append, String.toList_ofList, List.append_cancel_left_eq]
  exact eq_comm

/-- The digits of a number. The letters are of either case, and there may be zeros in front. -/
def Numeral (cs : List Char) (n : Nat) : Prop :=
  ∃ zeros, cs.map Char.toLower = List.replicate zeros '0' ++ Nat.toDigits 16 n

theorem Numeral.number? (h : Numeral cs n) : number? 16 cs = some n := by
  obtain ⟨zeros, hcs⟩ := h
  exact number?_of_map_toLower hcs

/-- By induction on the number: its last digit is in small letters, and so are those in front. -/
theorem map_toLower_toDigits (n : Nat) :
    (Nat.toDigits 16 n).map Char.toLower = Nat.toDigits 16 n := by
  have hsmall : ∀ d < 16, (Nat.digitChar d).toLower = Nat.digitChar d := by decide
  induction n using Nat.strongRecOn with
  | ind n ih =>
    rw [Nat.toDigits_eq_if (by decide)]
    split
    case isTrue hlt => rw [List.map_singleton, hsmall n hlt]
    case isFalse hge =>
      rw [List.map_append, ih (n / 16) (by omega), List.map_singleton,
        hsmall (n % 16) (Nat.mod_lt _ (by decide))]

theorem numeral_toDigits (n : Nat) : Numeral (Nat.toDigits 16 n) n :=
  ⟨0, map_toLower_toDigits n⟩

end Hex

variable {s : String}

/-! ## Bytes -/

theorem Bytes.parse_eq_ok_iff {bs : Bytes} :
    Bytes.parse s = .ok bs ↔
      ∃ n rest, Text.Padded s.toList (Hex.marks n ++ rest) ∧ Hex.Spells rest bs := by
  have hstrewn : ∀ rest, Hex.Spells rest bs → Hex.Strewn rest :=
    fun _ hspells c hc => .inl (hspells.isDigit c hc)
  rw [Bytes.parse_eq_ok_iff_dropMarks]
  constructor
  · intro hspells
    obtain ⟨n, hn⟩ := Hex.exists_marks (Text.trim s.toList)
    exact ⟨n, _, hn ▸ Text.padded_trim s.toList, hspells⟩
  · rintro ⟨n, rest, hpadded, hspells⟩
    rwa [Hex.dropMarks_trim (hstrewn rest hspells) hpadded]

theorem Bytes.parse_text (bs : Bytes) : Bytes.parse (Hex.text bs) = .ok bs := by
  refine Bytes.parse_eq_ok_iff.2 ⟨1, Hex.encode bs, ?_, Hex.spells_encode bs⟩
  simp only [Hex.text, String.toList_append, String.toList_ofList]
  exact Text.Padded.refl _

/-! ## Words -/

namespace Word

variable {mark ds : List Char} {n : Nat}

/-- What a text says that shows a number. -/
theorem parse_numeral (hmark : mark ∈ [[], ['0', 'x']]) (hds : Hex.Numeral ds n)
    (hpadded : Text.Padded s.toList (mark ++ ds)) :
    Word.parse s = match Word.ofNat? n with
      | some w => .ok w
      | none => .error (.encoding s!"Invalid hex U256: {s}") := by
  obtain ⟨k, rfl⟩ : ∃ k, mark = Hex.marks k := by
    simp only [List.mem_cons, List.not_mem_nil, or_false] at hmark
    rcases hmark with rfl | rfl
    · exact ⟨0, rfl⟩
    · exact ⟨1, rfl⟩
  have hnumber := hds.number?
  rw [Word.parse, Hex.dropMarks_trim (Hex.forall_of_number? hnumber) hpadded, hnumber]
  rfl

theorem parse_word {w : Word} (hmark : mark ∈ [[], ['0', 'x']]) (hds : Hex.Numeral ds w.toNat)
    (hpadded : Text.Padded s.toList (mark ++ ds)) : Word.parse s = .ok w := by
  rw [parse_numeral hmark hds hpadded, Word.ofNat?_toNat]

theorem parse_of_lt (hn : maxNat < n) (hmark : mark ∈ [[], ['0', 'x']]) (hds : Hex.Numeral ds n)
    (hpadded : Text.Padded s.toList (mark ++ ds)) :
    Word.parse s = .error (.encoding s!"Invalid hex U256: {s}") := by
  rw [parse_numeral hmark hds hpadded, Word.ofNat?, if_neg (Nat.not_le_of_lt hn)]

end Word

/-! ## Tags of blocks -/

namespace BlockRef

theorem parse_tag_pinned (n : BlockNumber) :
    Word.parse (pinned n).tag = .ok (BitVec.ofNat 256 n.toNat) := by
  have hvalue : (BitVec.ofNat 256 n.toNat).toNat = n.toNat :=
    Format.toNat_ofNat_of_le (Format.toNat_le_maxNat64 n)
  have hdigits : Hex.Numeral (Nat.toDigits 16 n.toNat) (BitVec.ofNat 256 n.toNat).toNat := by
    rw [hvalue]
    exact Hex.numeral_toDigits n.toNat
  have htag : (pinned n).tag.toList = ['0', 'x'] ++ Nat.toDigits 16 n.toNat := by
    simp only [tag, pinned, String.toList_append, String.toList_ofList]
    rfl
  have hmark : ['0', 'x'] ∈ [[], ['0', 'x']] := by decide
  exact Word.parse_word hmark hdigits (htag ▸ Text.Padded.refl _)

theorem parse_tag_latest :
    Word.parse latest.tag = .error (.encoding "Invalid hex U256: latest") := by decide +kernel

/-- A pinned block is told by the number that is read from its tag. From the tag of the latest block
no number is read. -/
theorem tag_injective : Function.Injective tag := by
  have hlatest : ∀ n, latest.tag ≠ (pinned n).tag := fun n h => by
    have hparse := parse_tag_latest
    rw [h, parse_tag_pinned] at hparse
    cases hparse
  rintro ⟨_ | m⟩ ⟨_ | n⟩ h
  · rfl
  · exact absurd h (hlatest n)
  · exact absurd h.symm (hlatest m)
  · have hparse : Word.parse (pinned m).tag = Word.parse (pinned n).tag := congrArg Word.parse h
    rw [parse_tag_pinned, parse_tag_pinned] at hparse
    have hwords := congrArg BitVec.toNat (Except.ok.inj hparse)
    rw [Format.toNat_ofNat_of_le (Format.toNat_le_maxNat64 m),
      Format.toNat_ofNat_of_le (Format.toNat_le_maxNat64 n)] at hwords
    rw [UInt64.toNat_inj.1 hwords]

end BlockRef

/-! ## Round trips -/

namespace Hex

/-- **Round trips.** Bytes are read from their own text, and what is read from any text are the
bytes whose own text is that text in small letters, without blanks around it and without its marks.
A number is read from its digits, of either case and with zeros in front, if a word holds it, and
refused otherwise. The number of a block is read from its tag, so that the tag tells the block; the
tag of the latest block shows no number. -/
theorem codecs_roundTrip :
    (∀ bs, Bytes.parse (text bs) = .ok bs) ∧
    (∀ s bs, Bytes.parse s = .ok bs ↔ ∃ n rest, Text.Padded s.toList (marks n ++ rest) ∧
      ¬ ['0', 'x'] <+: rest ∧ text bs = "0x" ++ String.ofList (rest.map Char.toLower)) ∧
    (∀ mark ∈ [[], ['0', 'x']], ∀ ds n s, Numeral ds n → Text.Padded s.toList (mark ++ ds) →
      (∀ w : Word, w.toNat = n → Word.parse s = .ok w) ∧
      (Word.maxNat < n → Word.parse s = .error (.encoding s!"Invalid hex U256: {s}"))) ∧
    (∀ n, Word.parse (BlockRef.pinned n).tag = .ok (BitVec.ofNat 256 n.toNat)) ∧
    Function.Injective BlockRef.tag ∧
    Word.parse BlockRef.latest.tag = .error (.encoding "Invalid hex U256: latest") := by
  refine ⟨Bytes.parse_text, fun s bs => ?_, ?_, BlockRef.parse_tag_pinned, BlockRef.tag_injective,
    BlockRef.parse_tag_latest⟩
  · rw [Bytes.parse_eq_ok_iff]
    refine exists_congr fun n => exists_congr fun rest => and_congr_right fun _ => ?_
    rw [text_eq_iff]
    refine ⟨fun hspells => ⟨?_, hspells⟩, And.right⟩
    rintro ⟨behind, rfl⟩
    exact isDigit_ne_x (hspells.isDigit 'x' (by simp)) rfl
  · intro mark hmark ds n s hds hpadded
    constructor
    · rintro w rfl
      exact Word.parse_word hmark hds hpadded
    · intro hn
      exact Word.parse_of_lt hn hmark hds hpadded

/-- Zeros stand in front of the largest byte, and the first number that no word holds is refused. -/
theorem codecs_roundTrip_edges :
    Word.parse "0x00fF " = .ok 255 ∧
      Word.parse "10000000000000000000000000000000000000000000000000000000000000000" =
        .error (.encoding
          "Invalid hex U256: 10000000000000000000000000000000000000000000000000000000000000000") ∧
      Bytes.parse "0xfF" = .ok [255] := by
  obtain ⟨-, hbytes, hwords, -⟩ := codecs_roundTrip
  refine ⟨?_, ?_, ?_⟩
  · refine (hwords ['0', 'x'] (by decide) ['0', '0', 'f', 'F'] 255 _ ⟨2, by decide⟩ ?_).1 255 rfl
    exact ⟨[], [' '], nofun, by decide, by decide +kernel⟩
  · refine (hwords [] (by decide) ('1' :: List.replicate 64 '0') (Word.maxNat + 1) _
      ⟨0, by decide +kernel⟩ ?_).2 (by decide)
    exact ⟨[], [], nofun, nofun, by decide +kernel⟩
  · refine (hbytes _ _).2 ⟨1, ['f', 'F'], ?_, by decide, by decide +kernel⟩
    exact ⟨[], [], nofun, nofun, by decide +kernel⟩

end Hex

end StakingSnapshot
