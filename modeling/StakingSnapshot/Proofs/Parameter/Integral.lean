import Mathlib.Data.Nat.Basic
import StakingSnapshot.Parameter.Formats

/-!
# Parameters of whole numbers

Durations, times and counts are kept as whole numbers. A raw scalar has four times as many bits as
the value that is read from it, and a value may have fractions that the raw scalar does not keep.

* `Format.Saturates`: reading stops at the largest value; `Format.saturates_of_embed`: a format
  that reads through 64 bits does so if what it does with these numbers does.
* `Instant.ofSecond?`: the instants that can be told; `Format.timestamp_toValue_eq`: how a raw
  scalar is narrowed to one of them.
* `Format.integral_conversions`: what reading and writing do to whole numbers, at every raw scalar
  and every value.
-/

namespace StakingSnapshot

/-! ## Durations -/

namespace Duration

/-- Durations are in the order of their seconds, and then of what is left. -/
instance : LE Duration :=
  ⟨fun a b => a.seconds < b.seconds ∨ a.seconds = b.seconds ∧ a.nanos ≤ b.nanos⟩

/-- The duration without what is left behind its last whole second. -/
def whole (d : Duration) : Duration := .ofSeconds d.seconds

theorem ofSeconds_le_ofSeconds {m n : UInt64} (h : m ≤ n) : ofSeconds m ≤ ofSeconds n := by
  rcases Nat.lt_or_eq_of_le (UInt64.le_iff_toNat_le.1 h) with hlt | heq
  · exact .inl (UInt64.lt_iff_toNat_lt.2 hlt)
  · exact .inr ⟨UInt64.toNat_inj.1 heq, Nat.le_refl 0⟩

end Duration

/-! ## Instants -/

namespace Instant

/-- Instants are in the order of their seconds, and then of what is left. -/
instance : LE Instant :=
  ⟨fun a b => a.seconds < b.seconds ∨ a.seconds = b.seconds ∧ a.nanos ≤ b.nanos⟩

theorem no_nanos_lt : 0 < 1000000000 := by decide

/-- The start of a second. -/
def startOf (s : Int) : Instant := ⟨s, 0, no_nanos_lt⟩

/-- The start of 1970. -/
def epoch : Instant := startOf 0

/-- The start of the second that the instant is in. -/
def whole (t : Instant) : Instant := startOf t.seconds

/-- The second of the first instant that can be told, which is in the year 262144 before the
common era. -/
def firstSecond : Int := -8334601228800

/-- The instant can be told. -/
def Told (t : Instant) : Prop := firstSecond ≤ t.seconds ∧ t.seconds ≤ lastSecond

/-- The start of a second, if it can be told. -/
def ofSecond? (s : Int) : Option Instant :=
  if firstSecond ≤ s ∧ s ≤ lastSecond then some (startOf s) else none

theorem epoch_le_iff {t : Instant} : epoch ≤ t ↔ 0 ≤ t.seconds := by
  change (0 < t.seconds ∨ 0 = t.seconds ∧ 0 ≤ t.nanos) ↔ 0 ≤ t.seconds
  omega

theorem ofSeconds_of_le {n : Nat} (h : n ≤ lastSecond) : ofSeconds n = startOf n :=
  if_pos h

theorem ofSeconds_of_lt {n : Nat} (h : lastSecond < n) : ofSeconds n = last :=
  if_neg (Nat.not_le_of_lt h)

/-- The start of the last second is before the last instant. -/
theorem ofSeconds_le_ofSeconds {m n : Nat} (h : m ≤ n) : ofSeconds m ≤ ofSeconds n := by
  by_cases hn : n ≤ lastSecond
  · rw [ofSeconds_of_le hn, ofSeconds_of_le (Nat.le_trans h hn)]
    change (m : Int) < n ∨ (m : Int) = n ∧ 0 ≤ 0
    omega
  · rw [ofSeconds_of_lt (Nat.lt_of_not_le hn)]
    by_cases hm : m ≤ lastSecond
    · rw [ofSeconds_of_le hm]
      change (m : Int) < lastSecond ∨ (m : Int) = lastSecond ∧ 0 ≤ 999999999
      omega
    · rw [ofSeconds_of_lt (Nat.lt_of_not_le hm)]
      exact .inr ⟨rfl, Nat.le_refl _⟩

theorem told_ofSeconds (n : Nat) : (ofSeconds n).Told := by
  by_cases hn : n ≤ lastSecond
  · rw [ofSeconds_of_le hn]
    change firstSecond ≤ (n : Int) ∧ (n : Int) ≤ lastSecond
    unfold firstSecond
    omega
  · rw [ofSeconds_of_lt (Nat.lt_of_not_le hn)]
    exact ⟨by decide, by decide⟩

end Instant

/-- The number of 64 bits as one with a sign, if it is not too large. -/
def signed? (n : UInt64) : Option Int := if n.toNat < 0x8000000000000000 then some n.toNat else none

namespace Format

variable {V : Type} {F : Format Word V} {cap : Nat}

/-- Raw scalars are read up to a number, and larger ones as that number is. -/
structure Saturates [LE V] (F : Format Word V) (cap : Nat) : Prop where
  toRaw_toValue : ∀ raw, (F.toRaw (F.toValue raw)).toNat = min raw.toNat cap
  mono : ∀ a b : Word, a.toNat ≤ b.toNat → F.toValue a ≤ F.toValue b

/-- A format that reads through 64 bits. -/
theorem saturates_of_embed [LE V] {embed : UInt64 → V} (hcap : cap ≤ Word.maxNat64)
    (hvalue : ∀ raw, F.toValue raw = embed raw.toUInt64Sat)
    (hraw : ∀ n, (F.toRaw (embed n)).toNat = min n.toNat cap)
    (hmono : ∀ m n, m ≤ n → embed m ≤ embed n) : F.Saturates cap where
  toRaw_toValue raw := by
    rw [hvalue, hraw, Word.toNat_toUInt64Sat, Nat.min_assoc, Nat.min_eq_right hcap]
  mono a b h := by
    rw [hvalue, hvalue]
    refine hmono _ _ (UInt64.le_iff_toNat_le.2 ?_)
    rw [Word.toNat_toUInt64Sat, Word.toNat_toUInt64Sat]
    omega

/-- A number of 64 bits keeps its value as a word. -/
theorem toNat_ofNat_of_le {n : Nat} (h : n ≤ Word.maxNat64) : (BitVec.ofNat 256 n).toNat = n := by
  rw [BitVec.toNat_ofNat, Nat.mod_eq_of_lt (Nat.lt_of_le_of_lt h (by decide))]

theorem toNat_le_maxNat64 (n : UInt64) : n.toNat ≤ Word.maxNat64 := Nat.le_of_lt_succ n.toNat_lt

theorem toUInt64Sat_ofNat (n : UInt64) : Word.toUInt64Sat (BitVec.ofNat 256 n.toNat) = n := by
  have hle := toNat_le_maxNat64 n
  refine UInt64.toNat_inj.1 ?_
  rw [Word.toNat_toUInt64Sat, toNat_ofNat_of_le hle, Nat.min_eq_left hle]

/-! ## The three formats -/

theorem toNat_seconds_toRaw (d : Duration) : (seconds.toRaw d).toNat = d.seconds.toNat :=
  toNat_ofNat_of_le (toNat_le_maxNat64 d.seconds)

theorem toNat_count_toRaw (n : UInt64) : (count.toRaw n).toNat = n.toNat :=
  toNat_ofNat_of_le (toNat_le_maxNat64 n)

theorem toNat_timestamp_toRaw {t : Instant} (h : t.Told) :
    (timestamp.toRaw t).toNat = t.seconds.toNat := by
  refine toNat_ofNat_of_le ?_
  have hmax : Instant.lastSecond ≤ Word.maxNat64 := by decide
  have := h.2
  omega

/-- A number of seconds that is too large is read as the last instant, whose fraction is lost on the
way back. -/
theorem toNat_timestamp_toRaw_ofSeconds (n : Nat) :
    (timestamp.toRaw (.ofSeconds n)).toNat = min n Instant.lastSecond := by
  rw [toNat_timestamp_toRaw (Instant.told_ofSeconds n)]
  by_cases hn : n ≤ Instant.lastSecond
  · rw [Instant.ofSeconds_of_le hn, Nat.min_eq_left hn]
    rfl
  · rw [Instant.ofSeconds_of_lt (Nat.lt_of_not_le hn), Nat.min_eq_right (by omega)]
    rfl

theorem saturates_seconds : seconds.Saturates Word.maxNat64 := by
  refine saturates_of_embed (Nat.le_refl _) (fun _ => rfl) (fun n => ?_)
    fun m n => Duration.ofSeconds_le_ofSeconds
  rw [toNat_seconds_toRaw, Nat.min_eq_left (toNat_le_maxNat64 n)]
  rfl

theorem saturates_timestamp : timestamp.Saturates Instant.lastSecond :=
  saturates_of_embed (by decide) (fun _ => rfl) (fun n => toNat_timestamp_toRaw_ofSeconds n.toNat)
    fun _ _ h => Instant.ofSeconds_le_ofSeconds (UInt64.le_iff_toNat_le.1 h)

theorem saturates_count : count.Saturates Word.maxNat64 := by
  refine saturates_of_embed (Nat.le_refl _) (fun _ => rfl) (fun n => ?_) fun _ _ h => h
  rw [toNat_count_toRaw, Nat.min_eq_left (toNat_le_maxNat64 n)]

/-- A raw scalar is narrowed to an instant in three steps, the first of which saturates and the
others of which fail beyond their range. -/
theorem timestamp_toValue_eq (raw : Word) :
    timestamp.toValue raw = ((signed? raw.toUInt64Sat).bind Instant.ofSecond?).getD .last := by
  change Instant.ofSeconds raw.toUInt64Sat.toNat = _
  generalize raw.toUInt64Sat = n
  unfold signed?
  by_cases hn : n.toNat ≤ Instant.lastSecond
  · have hsmall : n.toNat < 0x8000000000000000 := Nat.lt_of_le_of_lt hn (by decide)
    have htold : Instant.firstSecond ≤ n.toNat ∧ (n.toNat : Int) ≤ Instant.lastSecond := by
      unfold Instant.firstSecond
      omega
    rw [Instant.ofSeconds_of_le hn, if_pos hsmall, Option.bind_some, Instant.ofSecond?,
      if_pos htold, Option.getD_some]
  · rw [Instant.ofSeconds_of_lt (Nat.lt_of_not_le hn)]
    split
    · rw [Option.bind_some, Instant.ofSecond?, if_neg (by omega), Option.getD_none]
    · rfl

/-- An instant is written as the seconds since the start of 1970, and one before that as none. -/
theorem timestamp_toValue_toRaw {t : Instant} (h : t.Told) :
    timestamp.toValue (timestamp.toRaw t) = .startOf t.seconds.toNat := by
  have hle : t.seconds.toNat ≤ Instant.lastSecond := by
    have := h.2
    omega
  change Instant.ofSeconds (timestamp.toRaw t).toUInt64Sat.toNat = _
  rw [Word.toNat_toUInt64Sat, toNat_timestamp_toRaw h,
    Nat.min_eq_left (Nat.le_trans hle (by decide)), Instant.ofSeconds_of_le hle]

/-- **Whole numbers.** Reading a duration, a time or a count stops at the largest value and is
monotone. Writing a value and reading it again drops the fraction of a second, and puts an instant
before 1970 at the start of 1970. No step loses anything else: the raw scalar of a value is its
number of seconds, and a time is narrowed to an instant that can be told. -/
theorem integral_conversions :
    (seconds.Saturates Word.maxNat64 ∧ timestamp.Saturates Instant.lastSecond ∧
      count.Saturates Word.maxNat64) ∧
    (∀ d, seconds.toValue (seconds.toRaw d) = d.whole ∧
      (seconds.toRaw d).toNat = d.seconds.toNat) ∧
    (∀ t : Instant, t.Told →
      (Instant.epoch ≤ t → timestamp.toValue (timestamp.toRaw t) = t.whole) ∧
      (¬ Instant.epoch ≤ t → timestamp.toValue (timestamp.toRaw t) = .epoch) ∧
      ((timestamp.toRaw t).toNat : Int) = max t.seconds 0) ∧
    (∀ n, count.toValue (count.toRaw n) = n ∧ (count.toRaw n).toNat = n.toNat) ∧
    ∀ raw, (timestamp.toValue raw).Told ∧
      timestamp.toValue raw =
        ((signed? raw.toUInt64Sat).bind Instant.ofSecond?).getD .last := by
  refine ⟨⟨saturates_seconds, saturates_timestamp, saturates_count⟩, fun d => ⟨?_, ?_⟩,
    fun t ht => ⟨fun hepoch => ?_, fun hepoch => ?_, ?_⟩, fun n => ⟨?_, ?_⟩, fun raw => ⟨?_, ?_⟩⟩
  · exact congrArg Duration.ofSeconds (toUInt64Sat_ofNat d.seconds)
  · exact toNat_seconds_toRaw d
  · rw [timestamp_toValue_toRaw ht]
    exact congrArg Instant.startOf (Int.toNat_of_nonneg (Instant.epoch_le_iff.1 hepoch))
  · rw [timestamp_toValue_toRaw ht]
    rw [Instant.epoch_le_iff] at hepoch
    exact congrArg Instant.startOf (by omega)
  · rw [toNat_timestamp_toRaw ht]
    omega
  · exact toUInt64Sat_ofNat n
  · exact toNat_count_toRaw n
  · exact Instant.told_ofSeconds _
  · exact timestamp_toValue_eq raw

/-- The last instant before 1970 is written as the start of 1970, and the last instant of all
without its fraction. The second behind the last one is too late, and so is every raw scalar that
64 bits with a sign do not hold. -/
theorem integral_conversions_edges :
    timestamp.toValue (timestamp.toRaw ⟨-1, 999999999, by decide⟩) = .epoch ∧
      timestamp.toValue (timestamp.toRaw .last) = .startOf 8210266876799 ∧
      timestamp.toValue 8210266876800 = .last ∧ timestamp.toValue 0x8000000000000000 = .last ∧
      (timestamp.toRaw (timestamp.toValue 0x8000000000000000)).toNat = 8210266876799 := by
  obtain ⟨⟨-, hsaturates, -⟩, -, hwrite, -, hread⟩ := integral_conversions
  obtain ⟨-, hbefore, -⟩ := hwrite ⟨-1, 999999999, by decide⟩ ⟨by decide, by decide⟩
  obtain ⟨hafter, -, -⟩ := hwrite .last ⟨by decide, by decide⟩
  refine ⟨hbefore ?_, hafter (Instant.epoch_le_iff.2 (by decide)), ?_, ?_, ?_⟩
  · rw [Instant.epoch_le_iff]
    decide
  · rw [(hread _).2]
    decide
  · rw [(hread _).2]
    decide
  · rw [hsaturates.toRaw_toValue]
    decide

end Format

end StakingSnapshot
