import Mathlib.Data.List.DropRight
import StakingSnapshot.Text

/-!
# Blanks around a text

* `Text.Padded cs core`: `cs` is `core` with blanks around it.
* `Text.padded_trim` and `Text.Padded.trim_eq`: what `trim` leaves is padded by what it takes away,
  and padding a text does not change what `trim` leaves of it.
* `Text.exists_padded_iff`: to be some text without blanks, but for padding, is to be it after
  `trim`.
* `Text.isBlankText_iff`: nothing is left of a text if all of it is blank.
-/

namespace StakingSnapshot

namespace Text

variable {cs core left right : List Char}

/-- What all of some characters have in common is decided by looking at these. There are only so
many characters at all, but to go through them takes too long. -/
instance decidableForallMem {P : Char → Prop} [DecidablePred P] (cs : List Char) :
    Decidable (∀ c ∈ cs, P c) :=
  List.decidableBAll P cs

/-- Every character is blank. -/
def AllBlank (cs : List Char) : Prop := ∀ c ∈ cs, isBlank c = true

/-- No character is blank. -/
def NoneBlank (cs : List Char) : Prop := ∀ c ∈ cs, isBlank c = false

instance (cs : List Char) : Decidable (AllBlank cs) :=
  inferInstanceAs (Decidable (∀ c ∈ cs, isBlank c = true))

instance (cs : List Char) : Decidable (NoneBlank cs) :=
  inferInstanceAs (Decidable (∀ c ∈ cs, isBlank c = false))

/-- The characters of `core`, with blanks in front of them and behind them. -/
def Padded (cs core : List Char) : Prop :=
  ∃ left right, AllBlank left ∧ AllBlank right ∧ cs = left ++ core ++ right

theorem Padded.refl (cs : List Char) : Padded cs cs :=
  ⟨[], [], nofun, nofun, (List.append_nil cs).symm⟩

theorem trim_eq (cs : List Char) : trim cs = (cs.dropWhile isBlank).rdropWhile isBlank := rfl

theorem padded_trim (cs : List Char) : Padded cs (trim cs) := by
  refine ⟨cs.takeWhile isBlank, (cs.dropWhile isBlank).rtakeWhile isBlank,
    fun c hc => List.mem_takeWhile_imp hc, fun c hc => List.mem_rtakeWhile_imp hc, ?_⟩
  rw [trim_eq, List.append_assoc, List.rdropWhile_append_rtakeWhile,
    List.takeWhile_append_dropWhile]

theorem rdropWhile_append_blank (hright : AllBlank right) :
    (cs ++ right).rdropWhile isBlank = cs.rdropWhile isBlank := by
  unfold List.rdropWhile
  rw [List.reverse_append, List.dropWhile_append_of_pos]
  intro c hc
  exact hright c (List.mem_reverse.1 hc)

/-- By cases on whether anything but blanks is in the middle: if not, the blanks behind it are
taken from the front. -/
theorem trim_append (hleft : AllBlank left) (hright : AllBlank right) :
    trim (left ++ cs ++ right) = trim cs := by
  rw [trim_eq, trim_eq, List.append_assoc, List.dropWhile_append_of_pos hleft,
    List.dropWhile_append]
  split
  case isTrue hempty =>
    rw [List.isEmpty_iff.1 hempty, List.dropWhile_eq_nil_iff.2 hright]
  case isFalse => exact rdropWhile_append_blank hright

theorem Padded.trim_eq (h : Padded cs core) : trim cs = trim core := by
  obtain ⟨left, right, hleft, hright, rfl⟩ := h
  exact trim_append hleft hright

theorem trim_of_noneBlank (h : NoneBlank cs) : trim cs = cs := by
  have hfront : cs.dropWhile isBlank = cs := by
    rw [List.dropWhile_eq_self_iff]
    intro hpos
    simp [h _ (List.getElem_mem hpos)]
  rw [Text.trim_eq, hfront, List.rdropWhile_eq_self_iff]
  intro hne
  simp [h _ (List.getLast_mem hne)]

theorem exists_padded_iff {P : List Char → Prop} (hP : ∀ core, P core → NoneBlank core) :
    (∃ core, Padded cs core ∧ P core) ↔ P (trim cs) := by
  constructor
  · rintro ⟨core, hpadded, hcore⟩
    rwa [hpadded.trim_eq, trim_of_noneBlank (hP core hcore)]
  · intro h
    exact ⟨_, padded_trim cs, h⟩

theorem trim_eq_nil_iff : trim cs = [] ↔ AllBlank cs := by
  constructor
  · intro h
    obtain ⟨left, right, hleft, hright, hcs⟩ := padded_trim cs
    rw [h, List.append_nil] at hcs
    rw [hcs]
    exact List.forall_mem_append.2 ⟨hleft, hright⟩
  · intro h
    have hpadded : Padded cs [] := ⟨cs, [], h, nofun, by simp⟩
    exact hpadded.trim_eq

theorem isBlankText_iff {s : String} : isBlankText s = true ↔ AllBlank s.toList :=
  List.isEmpty_iff.trans trim_eq_nil_iff

end Text

end StakingSnapshot
