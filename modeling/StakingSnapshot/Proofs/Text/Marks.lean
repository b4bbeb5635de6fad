import StakingSnapshot.Proofs.Text.Digits
import StakingSnapshot.Text.Scalar

/-!
# Marks in front of hexadecimal text

Bytes and words are read from digits with marks `0x` in front of them. How many marks there are is
not looked at, so that a text is read whose mark somebody has put there twice.

* `Hex.marks`, `Hex.exists_marks`: marks, and what is left without them.
* `Hex.Shows`: a text is a body behind an allowed number of marks, with blanks around it.
* `Hex.ReadsOnly`: something is read from texts that show a body, and from no others.
* `Bytes.parse_eq_ok_iff_dropMarks`, `Word.parse_eq_ok_iff`: what is read.
* `Hex.marks_unlimited`: bytes and words are read behind any number of marks. At most one is there,
  except in those texts that are read in spite of a second mark.
-/

namespace StakingSnapshot

namespace Hex

variable {cs ds : List Char}

/-! ## Marks -/

/-- The mark `0x` for `n` times. -/
def marks (n : Nat) : List Char := (List.replicate n ['0', 'x']).flatten

theorem marks_succ (n : Nat) : marks (n + 1) = '0' :: 'x' :: marks n := rfl

theorem marks_add (m n : Nat) : marks (m + n) = marks m ++ marks n := by
  rw [marks, List.replicate_add, List.flatten_append]
  rfl

@[simp] theorem count_marks (n : Nat) : (marks n).count 'x' = n := by
  induction n with
  | zero => rfl
  | succ n ih => simp [marks_succ, ih]

/-- No character is the `x` of a mark. -/
def Unmarked (cs : List Char) : Prop := ∀ c ∈ cs, c ≠ 'x'

theorem dropMarks_append (n : Nat) (cs : List Char) : dropMarks (marks n ++ cs) = dropMarks cs := by
  induction n with
  | zero => rfl
  | succ n ih => exact ih

theorem dropMarks_of_unmarked (h : Unmarked cs) : dropMarks cs = cs := by
  unfold dropMarks
  split
  · exact absurd rfl (h 'x' (by simp))
  · rfl

theorem exists_marks (cs : List Char) : ∃ n, cs = marks n ++ dropMarks cs := by
  fun_induction dropMarks cs with
  | case1 rest ih =>
    obtain ⟨n, hn⟩ := ih
    exact ⟨n + 1, congrArg (fun cs => '0' :: 'x' :: cs) hn⟩
  | case2 cs => exact ⟨0, rfl⟩

theorem noneBlank_marks (n : Nat) : Text.NoneBlank (marks n) := by
  induction n with
  | zero => nofun
  | succ n ih =>
    exact List.forall_mem_cons.2 ⟨by decide, List.forall_mem_cons.2 ⟨by decide, ih⟩⟩

/-- Marks, of which there is an allowed number, and a body behind them. -/
def Marked (allowed : Nat → Prop) (body : List Char → Prop) (cs : List Char) : Prop :=
  ∃ n ds, allowed n ∧ body ds ∧ cs = marks n ++ ds

/-- Digits, in pairs. -/
def Paired (ds : List Char) : Prop := ds.length % 2 = 0 ∧ ∀ c ∈ ds, IsDigit c

/-- Digits, with `_` among them. -/
def Strewn (ds : List Char) : Prop := ∀ c ∈ ds, IsDigit c ∨ c = '_'

theorem Paired.strewn (h : Paired ds) : Strewn ds := fun c hc => .inl (h.2 c hc)

theorem Strewn.unmarked (h : Strewn ds) : Unmarked ds := by
  intro c hc
  rcases h c hc with hdigit | rfl
  · exact isDigit_ne_x hdigit
  · decide

theorem Strewn.noneBlank (h : Strewn ds) : Text.NoneBlank ds := by
  intro c hc
  rcases h c hc with hdigit | rfl
  · exact isBlank_of_isDigit hdigit
  · decide

section Marked

variable {allowed : Nat → Prop} {body : List Char → Prop} (hbody : ∀ ds, body ds → Strewn ds)

include hbody

/-- A body of digits is what is left without the marks. -/
theorem marked_iff_dropMarks : Marked (fun _ => True) body cs ↔ body (dropMarks cs) := by
  constructor
  · rintro ⟨n, ds, -, hds, rfl⟩
    rwa [dropMarks_append, dropMarks_of_unmarked (hbody ds hds).unmarked]
  · intro h
    obtain ⟨n, hn⟩ := exists_marks cs
    exact ⟨n, _, trivial, h, hn⟩

theorem Marked.noneBlank (h : Marked allowed body cs) : Text.NoneBlank cs := by
  obtain ⟨n, ds, -, hds, rfl⟩ := h
  exact List.forall_mem_append.2 ⟨noneBlank_marks n, (hbody ds hds).noneBlank⟩

/-- The number of marks is that of their `x`, which is no digit. -/
theorem marked_le_one_iff :
    Marked (· ≤ 1) body cs ↔ Marked (fun _ => True) body cs ∧ ¬ marks 2 <+: cs := by
  constructor
  · rintro ⟨n, ds, hn, hds, rfl⟩
    refine ⟨⟨n, ds, trivial, hds, rfl⟩, ?_⟩
    rintro ⟨rest, hrest⟩
    have hcount := congrArg (List.count 'x') hrest
    have hnone : ds.count 'x' = 0 :=
      List.count_eq_zero.2 fun hx => (hbody ds hds).unmarked 'x' hx rfl
    rw [List.count_append, List.count_append, count_marks, count_marks, hnone] at hcount
    omega
  · rintro ⟨⟨n, ds, -, hds, rfl⟩, htwo⟩
    refine ⟨n, ds, Nat.le_of_not_lt fun hn => htwo ?_, hds, rfl⟩
    obtain ⟨k, rfl⟩ := Nat.exists_eq_add_of_le hn
    rw [marks_add, List.append_assoc]
    exact List.prefix_append ..

end Marked

/-- The digits are left when blanks and marks are taken away. -/
theorem dropMarks_trim {n : Nat} (hds : Strewn ds) (hpadded : Text.Padded cs (marks n ++ ds)) :
    dropMarks (Text.trim cs) = ds := by
  have hblank : Text.NoneBlank (marks n ++ ds) :=
    List.forall_mem_append.2 ⟨noneBlank_marks n, hds.noneBlank⟩
  rw [hpadded.trim_eq, Text.trim_of_noneBlank hblank, dropMarks_append,
    dropMarks_of_unmarked hds.unmarked]

/-! ## Readers -/

/-- The text, but for blanks around it, is marks with a body behind them. -/
def Shows (allowed : Nat → Prop) (body : List Char → Prop) (s : String) : Prop :=
  ∃ core, Text.Padded s.toList core ∧ Marked allowed body core

/-- If something is read from the text, it shows a body behind an allowed number of marks. Any other
text is refused as one that cannot be read. -/
structure ReadsOnly {α : Type} (allowed : Nat → Prop) (body : List Char → Prop) (s : String)
    (result : Except Fault α) : Prop where
  shows : ∀ a, result = .ok a → Shows allowed body s
  refused : ¬ Shows allowed body s → ∃ text, result = .error (.encoding text)

section Readers

variable {α : Type} {allowed : Nat → Prop} {body : List Char → Prop} {s : String}
  {result : Except Fault α}

theorem readsOnly_of_shows (hrefused : ∀ f, result = .error f → ∃ text, f = .encoding text)
    (h : ∀ a, result = .ok a → Shows allowed body s) : ReadsOnly allowed body s result where
  shows := h
  refused hnot := by
    cases hresult : result with
    | ok a => exact absurd (h a hresult) hnot
    | error f =>
      obtain ⟨text, rfl⟩ := hrefused f hresult
      exact ⟨text, rfl⟩

variable (hbody : ∀ ds, body ds → Strewn ds)

include hbody

theorem shows_iff : Shows allowed body s ↔ Marked allowed body (Text.trim s.toList) :=
  Text.exists_padded_iff fun _ => Marked.noneBlank hbody

theorem shows_le_one_iff :
    Shows (· ≤ 1) body s ↔ Shows (fun _ => True) body s ∧ ¬ marks 2 <+: Text.trim s.toList := by
  rw [shows_iff hbody, shows_iff hbody]
  exact marked_le_one_iff hbody

/-- Behind a second mark nothing may be read, if there may be at most one. -/
theorem ReadsOnly.not_read (h : ReadsOnly (· ≤ 1) body s result)
    (hmarks : marks 2 <+: Text.trim s.toList) (a : α) : result ≠ .ok a := fun hread =>
  ((shows_le_one_iff hbody).1 (h.shows a hread)).2 hmarks

/-- What is read from a text without its marks is read behind any number of them. -/
theorem readsOnly_of_dropMarks (hrefused : ∀ f, result = .error f → ∃ text, f = .encoding text)
    (hread : ∀ a, result = .ok a → body (dropMarks (Text.trim s.toList))) :
    ReadsOnly (fun _ => True) body s result ∧
      (ReadsOnly (· ≤ 1) body s result ↔
        ¬ (marks 2 <+: Text.trim s.toList ∧ ∃ a, result = .ok a)) := by
  have hall : ∀ a, result = .ok a → Shows (fun _ => True) body s := fun a ha =>
    (shows_iff hbody).2 ((marked_iff_dropMarks hbody).2 (hread a ha))
  refine ⟨readsOnly_of_shows hrefused hall, ?_, fun hnot => ?_⟩
  · rintro h ⟨hmarks, a, ha⟩
    exact h.not_read hbody hmarks a ha
  · refine readsOnly_of_shows hrefused fun a ha => ?_
    exact (shows_le_one_iff hbody).2 ⟨hall a ha, fun hmarks => hnot ⟨hmarks, a, ha⟩⟩

end Readers

end Hex

/-! ## Bytes and words -/

theorem Bytes.parse_eq_ok_iff_dropMarks {s : String} {bs : Bytes} :
    Bytes.parse s = .ok bs ↔ Hex.Spells (Hex.dropMarks (Text.trim s.toList)) bs := by
  rw [← Hex.decode_eq_ok_iff, Bytes.parse]
  cases Hex.decode _ <;> simp [Except.mapError]

theorem Bytes.exists_encoding {s : String} {f : Fault} (h : Bytes.parse s = .error f) :
    ∃ text, f = .encoding text := by
  rw [Bytes.parse] at h
  cases hdecode : Hex.decode _ with
  | ok =>
    rw [hdecode] at h
    cases h
  | error =>
    rw [hdecode] at h
    cases h
    exact ⟨_, rfl⟩

theorem Word.parse_eq_ok_iff {s : String} {w : Word} :
    Word.parse s = .ok w ↔
      (Hex.number? 16 (Hex.dropMarks (Text.trim s.toList))).bind Word.ofNat? = some w := by
  rw [Word.parse]
  cases (Hex.number? 16 _).bind Word.ofNat? <;> simp

theorem Word.exists_encoding {s : String} {f : Fault} (h : Word.parse s = .error f) :
    ∃ text, f = .encoding text := by
  rw [Word.parse] at h
  split at h
  · cases h
  · cases h
    exact ⟨_, rfl⟩

namespace Hex

theorem paired_of_parse {s : String} {bs : Bytes} (h : Bytes.parse s = .ok bs) :
    Paired (dropMarks (Text.trim s.toList)) :=
  exists_spells_iff.1 ⟨bs, Bytes.parse_eq_ok_iff_dropMarks.1 h⟩

theorem strewn_of_parse {s : String} {w : Word} (h : Word.parse s = .ok w) :
    Strewn (dropMarks (Text.trim s.toList)) := by
  obtain ⟨n, hn, -⟩ := Option.bind_eq_some_iff.1 (Word.parse_eq_ok_iff.1 h)
  exact forall_of_number? hn

/-- **Marks.** The texts from which bytes and words are read are digits with marks in front of them,
in any number, and every other text is refused. There is at most one mark, as there should be,
unless something is read in spite of a second one. -/
theorem marks_unlimited (s : String) :
    (ReadsOnly (fun _ => True) Paired s (Bytes.parse s) ∧
      (ReadsOnly (· ≤ 1) Paired s (Bytes.parse s) ↔
        ¬ (marks 2 <+: Text.trim s.toList ∧ ∃ bs, Bytes.parse s = .ok bs))) ∧
    (ReadsOnly (fun _ => True) Strewn s (Word.parse s) ∧
      (ReadsOnly (· ≤ 1) Strewn s (Word.parse s) ↔
        ¬ (marks 2 <+: Text.trim s.toList ∧ ∃ w, Word.parse s = .ok w))) := by
  constructor
  · exact readsOnly_of_dropMarks (fun _ => Paired.strewn) (fun _ => Bytes.exists_encoding)
      fun _ => paired_of_parse
  · exact readsOnly_of_dropMarks (fun _ => id) (fun _ => Word.exists_encoding)
      fun _ => strewn_of_parse

/-- Two bytes and a word are read from behind a second mark. -/
theorem second_mark_read :
    Bytes.parse "0x0x0102" = .ok [1, 2] ∧ Word.parse "0x0x2a" = .ok 42 ∧
      ¬ ReadsOnly (· ≤ 1) Paired "0x0x0102" (Bytes.parse "0x0x0102") ∧
      ¬ ReadsOnly (· ≤ 1) Strewn "0x0x2a" (Word.parse "0x0x2a") := by
  have hbytes : Bytes.parse "0x0x0102" = .ok [1, 2] := by decide +kernel
  have hword : Word.parse "0x0x2a" = .ok 42 := by decide +kernel
  refine ⟨hbytes, hword, fun h => ?_, fun h => ?_⟩
  · exact h.not_read (fun _ => Paired.strewn) (by decide +kernel) _ hbytes
  · exact h.not_read (fun _ => id) (by decide +kernel) _ hword

end Hex

end StakingSnapshot
