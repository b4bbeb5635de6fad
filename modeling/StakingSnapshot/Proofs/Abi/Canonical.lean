import Mathlib.Data.List.Forall2
import StakingSnapshot.Proofs.Abi.RoundTrip

/-!
# Readers take layouts and nothing else

`r.Takes L` says of a reader what `Reads` says of its layouts, the other way round: whatever `r`
takes off the front of some data is in the relation `L` with the value that it finds, and it would
take the same bytes whatever follows them. It is closed under the ways in which readers are put
together (`Takes.bind`), so each reader is described once: `takes_word`, `takes_blob`,
`takes_records`.

* `Takes.of_exactly`: data that holds nothing but a value is a layout of it.
* `Takes.exactly_append_eq_none`, `Takes.exactly_eq_none_of_append`: accepted data is accepted
  neither with more behind it nor without its end.
-/

namespace StakingSnapshot

namespace Abi

/-! ## Flags -/

/-- A flag, read as a number, tells what it stands for. -/
theorem decide_flag {b : Bool} {flag : UInt8} (h : b = true ↔ flag ≠ 0) :
    decide (flag.toNat ≠ 0) = b := by
  have hzero : flag.toNat ≠ 0 ↔ flag ≠ 0 := not_congr (UInt8.toNat_inj (b := 0))
  rw [Bool.eq_iff_iff, decide_eq_true_iff, hzero, h]

/-- A number that fits into a byte is a flag. -/
theorem exists_flag {n : Nat} (h : n < 256) :
    ∃ flag : UInt8, (decide (n ≠ 0) = true ↔ flag ≠ 0) ∧ flag.toNat = n := by
  have hn : (UInt8.ofNat n).toNat = n := by
    rw [UInt8.toNat_ofNat', Nat.mod_eq_of_lt h]
  have hzero : (UInt8.ofNat n).toNat ≠ 0 ↔ UInt8.ofNat n ≠ 0 :=
    not_congr (UInt8.toNat_inj (b := 0))
  rw [hn] at hzero
  exact ⟨UInt8.ofNat n, decide_eq_true_iff.trans hzero, hn⟩

namespace Reader

variable {α β : Type}

/-- What the reader takes off the front of any data, `L` relates to the value that it finds, and it
takes these bytes off the front of any other data too. -/
def Takes (r : Reader α) (L : α → Bytes → Prop) : Prop :=
  ∀ bs v rest, r bs = some (v, rest) → ∃ used, bs = used ++ rest ∧ L v used ∧ r.Reads used v

theorem Takes.mono {r : Reader α} {L M : α → Bytes → Prop} (hr : r.Takes L)
    (h : ∀ v used, L v used → M v used) : r.Takes M := by
  intro bs v rest hread
  obtain ⟨used, rfl, hlayout, hreads⟩ := hr bs v rest hread
  exact ⟨used, rfl, h v used hlayout, hreads⟩

theorem takes_pure (v : α) : (pure v : Reader α).Takes fun w used => w = v ∧ used = [] := by
  intro bs w rest h
  cases h
  exact ⟨[], rfl, ⟨rfl, rfl⟩, reads_pure v⟩

theorem takes_failure : (failure : Reader α).Takes fun _ _ => False := by
  intro bs v rest h
  cases h

/-- One reader after another takes one layout after another. -/
theorem Takes.bind {r : Reader α} {f : α → Reader β} {L : α → Bytes → Prop}
    {M : α → β → Bytes → Prop} (hr : r.Takes L) (hf : ∀ v, (f v).Takes (M v)) :
    (r >>= f).Takes fun w used => ∃ v front back, L v front ∧ M v w back ∧ used = front ++ back := by
  intro bs w rest h
  obtain ⟨⟨v, between⟩, hfirst, hsecond⟩ := Option.bind_eq_some_iff.1 h
  obtain ⟨front, rfl, hL, hfront⟩ := hr bs v between hfirst
  obtain ⟨back, rfl, hM, hback⟩ := hf v between w rest hsecond
  exact ⟨front ++ back, (List.append_assoc _ _ _).symm, ⟨v, front, back, hL, hM, rfl⟩,
    hfront.bind hback⟩

/-- A reader that only reshapes what another one found. -/
theorem Takes.map {r : Reader α} {L : α → Bytes → Prop} (hr : r.Takes L) (g : α → β) :
    (do return g (← r) : Reader β).Takes fun w used => ∃ v, L v used ∧ w = g v := by
  refine (hr.bind fun v => takes_pure (g v)).mono ?_
  rintro w used ⟨v, front, back, hL, ⟨rfl, rfl⟩, rfl⟩
  exact ⟨v, by rwa [List.append_nil], rfl⟩

/-- A reader that goes on only if a test is passed. -/
theorem takes_ite {p : Prop} [Decidable p] {r : Reader α} {L : α → Bytes → Prop}
    (hr : p → r.Takes L) : (if p then r else failure).Takes fun v used => p ∧ L v used := by
  by_cases h : p
  · rw [if_pos h]
    exact (hr h).mono fun v used hL => ⟨h, hL⟩
  · rw [if_neg h]
    exact takes_failure.mono fun v used hL => hL.elim

/-! ## The parts of a layout -/

theorem takes_take (n : Nat) : (take n).Takes fun v used => used = v ∧ v.length = n := by
  intro bs v rest h
  obtain ⟨hlen, rfl⟩ := Bytes.of_split? h
  exact ⟨v, rfl, ⟨rfl, hlen⟩, reads_take hlen⟩

/-- A word has 32 bytes, so the number in it is not too large for one. -/
theorem toNat_le_of_length {bs : Bytes} (h : bs.length = 32) : Bytes.toNat bs ≤ Word.maxNat := by
  have hback := Bytes.ofNat_toNat bs
  have hread := Bytes.toNat_ofNat bs.length (Bytes.toNat bs)
  rw [hback, h] at hread
  have hlt : Bytes.toNat bs % Nat.pow 256 32 < Nat.pow 256 32 := Nat.mod_lt _ (by decide)
  rw [← hread] at hlt
  exact Nat.le_of_lt_succ hlt

theorem takes_word : word.Takes fun n used => n ≤ Word.maxNat ∧ used = Abi.word n := by
  refine ((takes_take 32).map Bytes.toNat).mono ?_
  rintro n used ⟨v, ⟨rfl, hlen⟩, rfl⟩
  refine ⟨toNat_le_of_length hlen, ?_⟩
  rw [Abi.word, ← hlen, Bytes.ofNat_toNat]

theorem takes_expect (n : Nat) : (expect n).Takes fun _ used => used = Abi.word n := by
  refine (takes_word.bind fun w => takes_ite fun _ => takes_pure ()).mono ?_
  rintro _ used ⟨w, front, back, ⟨-, rfl⟩, ⟨rfl, -, rfl⟩, rfl⟩
  rw [List.append_nil]

theorem takes_below (bound : Nat) :
    (below bound).Takes fun n used => n < bound ∧ used = Abi.word n := by
  refine (takes_word.bind fun w => takes_ite fun _ => takes_pure w).mono ?_
  rintro n used ⟨w, front, back, ⟨-, rfl⟩, ⟨hlt, rfl, rfl⟩, rfl⟩
  exact ⟨hlt, by rw [List.append_nil]⟩

theorem takes_blob : blob.Takes fun bs used => used = Abi.blob bs := by
  have hfill : ∀ n bs, (do
      let fill ← take (Bytes.padding n)
      if fill = List.replicate (Bytes.padding n) 0 then pure bs else failure : Reader Bytes).Takes
        fun v used => v = bs ∧ used = List.replicate (Bytes.padding n) 0 := by
    intro n bs
    refine ((takes_take _).bind fun fill => takes_ite fun _ => takes_pure bs).mono ?_
    rintro v used ⟨fill, front, back, ⟨rfl, -⟩, ⟨hzero, rfl, rfl⟩, rfl⟩
    exact ⟨rfl, by rw [List.append_nil, hzero]⟩
  refine (takes_word.bind fun n => (takes_take n).bind fun bs => hfill n bs).mono ?_
  rintro v used ⟨n, _, _, ⟨-, rfl⟩, ⟨bs, _, _, ⟨rfl, rfl⟩, ⟨rfl, rfl⟩, rfl⟩, rfl⟩
  rfl

theorem takes_words (n : Nat) :
    (words n).Takes fun ns used => ns.length = n ∧ used = (ns.map Abi.word).flatten := by
  induction n with
  | zero =>
    refine (takes_pure []).mono ?_
    rintro ns used ⟨rfl, rfl⟩
    exact ⟨rfl, rfl⟩
  | succ n ih =>
    refine (takes_word.bind fun w => ih.map (w :: ·)).mono ?_
    rintro ns used ⟨w, _, _, ⟨-, rfl⟩, ⟨ws, ⟨hlen, rfl⟩, rfl⟩, rfl⟩
    exact ⟨congrArg Nat.succ hlen, rfl⟩

/-- A number below a bound that fits into a word. -/
theorem reads_small {n bound : Nat} (h : n < bound) (hbound : bound ≤ Word.maxNat) :
    (below bound).Reads (Abi.word n) n :=
  reads_below (by omega) h

/-! ## Records -/

theorem length_places (place : Nat) (ls : List Bytes) : (places place ls).length = ls.length := by
  induction ls generalizing place with
  | nil => rfl
  | cons l ls ih => rw [places, List.length_cons, List.length_cons, ih]

/-- The offsets of records are the words of the places where these begin. -/
theorem offsets_eq (place : Nat) (ls : List Bytes) :
    offsets place ls = ((places place ls).map Abi.word).flatten := by
  induction ls generalizing place with
  | nil => rfl
  | cons l ls ih => rw [offsets, places, List.map_cons, List.flatten_cons, ih]

theorem takes_recordsAt {record : Reader α} {size : α → Nat} {L : α → Bytes → Prop}
    (hrecord : record.Takes L) (hsize : ∀ v used, L v used → size v = used.length) (place : Nat)
    (os : List Nat) :
    (recordsAt record size place os).Takes fun vs used =>
      ∃ ls, List.Forall₂ L vs ls ∧ os = places place ls ∧ used = ls.flatten := by
  induction os generalizing place with
  | nil =>
    refine (takes_pure []).mono ?_
    rintro vs used ⟨rfl, rfl⟩
    exact ⟨[], .nil, rfl, rfl⟩
  | cons o os ih =>
    refine (takes_ite fun _ =>
      hrecord.bind fun v => (ih (place + size v)).map (v :: ·)).mono ?_
    rintro vs used ⟨rfl, v, front, _, hv, ⟨ws, ⟨ls, hls, rfl, rfl⟩, rfl⟩, rfl⟩
    refine ⟨front :: ls, .cons hv hls, ?_, rfl⟩
    rw [places, hsize v front hv]

/-- Records are taken only if each is where the one before it ends. -/
theorem takes_records {record : Reader α} {size : α → Nat} {L : α → Bytes → Prop}
    (hrecord : record.Takes L) (hsize : ∀ v used, L v used → size v = used.length) :
    (records record size).Takes fun vs used =>
      ∃ ls, List.Forall₂ L vs ls ∧ used = Abi.records ls := by
  refine (takes_word.bind fun n => (takes_words n).bind fun os =>
    takes_recordsAt hrecord hsize (32 * n) os).mono ?_
  rintro vs used
    ⟨n, _, _, ⟨-, rfl⟩, ⟨os, _, _, ⟨hlen, rfl⟩, ⟨ls, hls, rfl, rfl⟩, rfl⟩, rfl⟩
  have hcount : ls.length = n := by
    rw [← hlen, length_places]
  subst hcount
  exact ⟨ls, hls, by rw [Abi.records, offsets_eq]⟩

/-! ## All of the data -/

variable {r : Reader α} {L : α → Bytes → Prop} {data : Bytes} {v : α}

/-- Data that holds nothing but a value is a layout of the value. -/
theorem Takes.of_exactly (hr : r.Takes L) (h : r.exactly data = some v) : L v data := by
  obtain ⟨used, hdata, hL, -⟩ := hr data v [] (exactly_eq_some_iff.1 h)
  rw [List.append_nil] at hdata
  rwa [hdata]

/-- Data that is accepted is not accepted with more behind it. -/
theorem Takes.exactly_append_eq_none (hr : r.Takes L) (h : r.exactly data = some v) {more : Bytes}
    (hmore : more ≠ []) : r.exactly (data ++ more) = none := by
  obtain ⟨used, hdata, -, hreads⟩ := hr data v [] (exactly_eq_some_iff.1 h)
  rw [List.append_nil] at hdata
  rw [Reader.exactly, hdata, hreads more]
  cases more with
  | nil => exact absurd rfl hmore
  | cons b more => rfl

/-- Data that is accepted is not accepted without its end. -/
theorem Takes.exactly_eq_none_of_append (hr : r.Takes L) {more : Bytes}
    (h : r.exactly (data ++ more) = some v) (hmore : more ≠ []) : r.exactly data = none := by
  cases hdata : r.exactly data with
  | none => rfl
  | some w =>
    rw [hr.exactly_append_eq_none hdata hmore] at h
    cases h

end Reader

end Abi

end StakingSnapshot
