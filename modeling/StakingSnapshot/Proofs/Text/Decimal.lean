import StakingSnapshot.Proofs.Text.Blank
import StakingSnapshot.Text

/-!
# Decimal numbers in text

A number is read from decimal digits behind at most one `+`.

* `Decimal.Shows`: the characters that show a number; `Decimal.number?_eq_some_iff`: it is read from
  these and from no others.
* `Decimal.ShownIn`: a text that shows a number but for blanks around it.
* `Decimal.toDigits_append_inj`: a number can be told from what stands behind it, unless that begins
  with a digit.
-/

namespace StakingSnapshot

namespace Decimal

variable {cs ds rest rest' : List Char} {m n : Nat}

/-- The characters are decimal digits, behind at most one `+`, and the number is their value. -/
def Shows (cs : List Char) (n : Nat) : Prop :=
  ∃ ds, (cs = ds ∨ cs = '+' :: ds) ∧ ds ≠ [] ∧ (∀ c ∈ ds, c.isDigit = true) ∧
    Nat.ofDigitChars 10 ds 0 = n

theorem dropPlus_eq_iff (h : ∀ c ∈ ds, c.isDigit = true) :
    dropPlus cs = ds ↔ cs = ds ∨ cs = '+' :: ds := by
  have hplus : ¬ '+'.isDigit = true := by decide
  unfold dropPlus
  split
  case h_1 tail =>
    constructor
    · rintro rfl
      exact .inr rfl
    · rintro (rfl | heq)
      · exact absurd (h '+' (by simp)) hplus
      · exact (List.cons.inj heq).2
  case h_2 hno =>
    constructor
    · exact .inl
    · rintro (rfl | rfl)
      · rfl
      · exact absurd rfl (hno ds)

theorem number?_eq_some_iff : number? cs = some n ↔ Shows cs n := by
  have hread : number? cs = some n ↔ dropPlus cs ≠ [] ∧
      (∀ c ∈ dropPlus cs, c.isDigit = true) ∧ Nat.ofDigitChars 10 (dropPlus cs) 0 = n := by
    simp only [number?]
    split
    case isTrue hempty => simp [List.isEmpty_iff.1 hempty]
    case isFalse hempty =>
      rw [Option.ite_none_right_eq_some, List.all_eq_true, Option.some_inj]
      exact (and_iff_right fun h => hempty (List.isEmpty_iff.2 h)).symm
  rw [hread]
  constructor
  · rintro ⟨hne, hdigits, hvalue⟩
    exact ⟨_, (dropPlus_eq_iff hdigits).1 rfl, hne, hdigits, hvalue⟩
  · rintro ⟨ds, hcs, hne, hdigits, hvalue⟩
    rw [(dropPlus_eq_iff hdigits).2 hcs]
    exact ⟨hne, hdigits, hvalue⟩

/-! ## Blanks -/

variable {s : String}

/-- The text, but for blanks around it, shows the number. -/
def ShownIn (s : String) (n : Nat) : Prop := ∃ core, Text.Padded s.toList core ∧ Shows core n

theorem not_isBlank_of_isDigit {c : Char} (h : c.isDigit = true) : Text.isBlank c = false := by
  obtain ⟨hlow, hhigh⟩ := Char.isDigit_iff_toNat.1 h
  have hcodes : ∀ code < 58, 48 ≤ code → Text.isBlank (Char.ofNat code) = false := by decide
  have hc := hcodes c.toNat (Nat.lt_succ_of_le hhigh) hlow
  rwa [Char.ofNat_toNat] at hc

theorem Shows.noneBlank (h : Shows cs n) : Text.NoneBlank cs := by
  obtain ⟨ds, hcs, -, hdigits, -⟩ := h
  have hds : Text.NoneBlank ds := fun c hc => not_isBlank_of_isDigit (hdigits c hc)
  rcases hcs with rfl | rfl
  · exact hds
  · exact List.forall_mem_cons.2 ⟨by decide, hds⟩

theorem shownIn_iff : ShownIn s n ↔ number? (Text.trim s.toList) = some n := by
  rw [number?_eq_some_iff]
  exact Text.exists_padded_iff fun _ => Shows.noneBlank

theorem ShownIn.unique (hm : ShownIn s m) (hn : ShownIn s n) : m = n :=
  Option.some.inj ((shownIn_iff.1 hm).symm.trans (shownIn_iff.1 hn))

/-! ## What is written -/

theorem takeWhile_toDigits_append (h : ∀ c ∈ rest.head?, c.isDigit = false) (n : Nat) :
    (Nat.toDigits 10 n ++ rest).takeWhile Char.isDigit = Nat.toDigits 10 n := by
  have hdigits : ∀ c ∈ Nat.toDigits 10 n, c.isDigit = true := fun c hc =>
    Nat.isDigit_of_mem_toDigits (by decide) (by decide) hc
  rw [List.takeWhile_append_of_pos hdigits]
  cases rest with
  | nil => simp
  | cons c rest => simp [h c rfl]

theorem toDigits_append_inj (h : ∀ c ∈ rest.head?, c.isDigit = false)
    (h' : ∀ c ∈ rest'.head?, c.isDigit = false)
    (heq : Nat.toDigits 10 m ++ rest = Nat.toDigits 10 n ++ rest') : m = n ∧ rest = rest' := by
  have hdigits : Nat.toDigits 10 m = Nat.toDigits 10 n := by
    rw [← takeWhile_toDigits_append h m, heq, takeWhile_toDigits_append h' n]
  have hmn : m = n := by
    rw [← Nat.ofDigitChars_ten_toDigits (n := m), hdigits, Nat.ofDigitChars_ten_toDigits]
  subst hmn
  exact ⟨rfl, List.append_cancel_left heq⟩

end Decimal

end StakingSnapshot
