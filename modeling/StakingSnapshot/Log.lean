import StakingSnapshot.Text.Scalar
import StakingSnapshot.Json

/-!
# The log of snapshots

Every bulk snapshot ends with one event. Whoever writes it down stamps it with an identity and
times (`Log.Stamp`), and `Log.Event.line` is the line that then appears.
-/

namespace StakingSnapshot

namespace Log

/-- How a snapshot ended. -/
inductive Level where
  | info
  | error
  deriving DecidableEq, Inhabited

/-- The level in small letters. -/
def Level.name : Level → String
  | .info => "info"
  | .error => "error"

/-- The level in capitals, as it stands in front of a line. -/
def Level.label : Level → String
  | .info => "INFO"
  | .error => "ERROR"

/-- What happened. -/
structure Event where
  level : Level
  message : String
  entity : Option String := none
  block : Option BlockNumber := none
  itemCount : Option Nat := none
  errorMessage : Option String := none
  deriving DecidableEq, Inhabited

/-- When it happened, in which run, and how long that took. -/
structure Stamp where
  snapshotId : String
  timestampMs : Int
  latencyMs : Option Int := none
  deriving DecidableEq, Inhabited

namespace Event

/-- A member that is written only if there is a value. -/
def optional (name : String) (value : Option Json) : List (String × Json) :=
  match value with
  | some j => [(name, j)]
  | none => []

/-- The members of an event, with those of its stamp between them. -/
def members (e : Event) (stamp : Option Stamp) : List (String × Json) :=
  [("level", .str e.level.name)] ++
  optional "snapshot_id" (stamp.map fun s => .str s.snapshotId) ++
  [("message", .str e.message)] ++
  optional "entity" (e.entity.map .str) ++
  optional "block_number" (e.block.map fun b => .ofNat b.toNat) ++
  optional "item_count" (e.itemCount.map .ofNat) ++
  optional "latency_ms" (stamp.bind fun s => s.latencyMs.map .int) ++
  optional "error_message" (e.errorMessage.map .str) ++
  optional "timestamp_ms" (stamp.map fun s => .int s.timestampMs)

/-- The event without a stamp. -/
def toJson (e : Event) : Json := .obj (e.members none)

/-- The stamped event in one line. -/
def line (e : Event) (stamp : Stamp) : String := (Json.obj (e.members (some stamp))).write

/-- The line with the level in front. -/
def emitted (e : Event) (stamp : Stamp) : String := e.level.label ++ " " ++ e.line stamp

end Event

end Log

end StakingSnapshot
