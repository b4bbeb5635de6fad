import StakingSnapshot.Amount
import StakingSnapshot.Parameter
import StakingSnapshot.Status

/-!
# The formats of parameters

Durations and times in whole seconds, ratios in ether, counts, and the codes of states. What is too
large for a value's type becomes the largest value, and fractions of seconds are dropped on the way
back.
-/

namespace StakingSnapshot

/-- A span of time. -/
structure Duration where
  /-- The whole seconds. -/
  seconds : UInt64
  /-- The rest, in billionths of a second. -/
  nanos : Nat
  nanos_lt : nanos < 1000000000 := by omega
  deriving DecidableEq

/-- A span of whole seconds. -/
def Duration.ofSeconds (n : UInt64) : Duration := ⟨n, 0, by decide⟩

/-- A point in time, in universal time. -/
structure Instant where
  /-- The seconds since the start of 1970, rounded down. -/
  seconds : Int
  /-- What was cut off, in billionths of a second. -/
  nanos : Nat
  nanos_lt : nanos < 1000000000 := by omega
  deriving DecidableEq

namespace Instant

/-- The second of the last instant that can be told, which is late in the year 262142. -/
def lastSecond : Nat := 8210266876799

/-- The last instant that can be told. -/
def last : Instant := ⟨lastSecond, 999999999, by decide⟩

/-- The start of a second, or the last instant if the second is too late. -/
def ofSeconds (n : Nat) : Instant := if n ≤ lastSecond then ⟨n, 0, by decide⟩ else last

end Instant

namespace Format

/-- Whole seconds of a duration. -/
def seconds : Format Word Duration where
  toValue raw := .ofSeconds raw.toUInt64Sat
  toRaw d := BitVec.ofNat 256 d.seconds.toNat

/-- Seconds since the start of 1970; what lies before counts as the start. -/
def timestamp : Format Word Instant where
  toValue raw := .ofSeconds raw.toUInt64Sat.toNat
  toRaw t := BitVec.ofNat 256 t.seconds.toNat

/-- A fixed-point number with 18 places. -/
def ratio : Format Word Binary64 where
  toValue := Amount.toEther
  toRaw := Amount.ofEther

/-- A number of things. -/
def count : Format Word UInt64 where
  toValue := Word.toUInt64Sat
  toRaw n := BitVec.ofNat 256 n.toNat

/-- The code of a minipool's status. -/
def status : Format UInt8 MinipoolStatus where
  toValue := .ofCode
  toRaw := MinipoolStatus.code

/-- The code of a deposit's kind. -/
def deposit : Format UInt8 DepositType where
  toValue := .ofCode
  toRaw := DepositType.code

/-- The code of a proposal's state. -/
def proposal : Format UInt8 ProposalState where
  toValue := .ofCode
  toRaw := ProposalState.code

end Format

/-- A duration kept in seconds. -/
abbrev DurationParameter : Type := Parameter Format.seconds

/-- A time kept in seconds. -/
abbrev TimestampParameter : Type := Parameter Format.timestamp

/-- A ratio kept as a fixed-point number. -/
abbrev RatioParameter : Type := Parameter Format.ratio

/-- A count. -/
abbrev CountParameter : Type := Parameter Format.count

/-- A minipool's status kept as its code. -/
abbrev StatusParameter : Type := Parameter Format.status

/-- A deposit's kind kept as its code. -/
abbrev DepositParameter : Type := Parameter Format.deposit

/-- A proposal's state kept as its code. -/
abbrev ProposalStateParameter : Type := Parameter Format.proposal

end StakingSnapshot
