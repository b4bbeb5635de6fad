import StakingSnapshot.Json
import StakingSnapshot.Text.Scalar

/-!
# Configuration

What snapshots need to know about the network and about how hard they may push the chain.

* `Config.initial` is what holds where nothing is set; it depends on the machine.
* `Config.ofLookup` reads settings by name, as from an environment. A number that is missing, zero
  or no number counts as its default; an address that is none is a fault.
* `Config.ofJson?` reads the written form, in which every field may be missing.
* `Config.validate` accepts a configuration with which reads can be scheduled.
-/

namespace StakingSnapshot

/-- How many items each kind of read puts into one aggregate. -/
structure BatchSizes where
  addresses : Nat := 1000
  versions : Nat := 500
  balances : Nat := 1000
  nodeDetails : Nat := 100
  minipoolDetails : Nat := 100
  completeShares : Nat := 500
  effectiveStake : Nat := 250
  proposalDetails : Nat := 50
  deriving DecidableEq, Inhabited

namespace BatchSizes

/-- The names of the sizes in their written form. -/
def names : List String :=
  ["addresses", "versions", "balances", "node_details", "minipool_details", "complete_shares",
    "effective_stake", "proposal_details"]

/-- The sizes in the order of their names. -/
def toList (b : BatchSizes) : List Nat :=
  [b.addresses, b.versions, b.balances, b.nodeDetails, b.minipoolDetails, b.completeShares,
    b.effectiveStake, b.proposalDetails]

/-- The name of the first size that is zero. -/
def firstZero? (b : BatchSizes) : Option String :=
  ((names.zip b.toList).find? fun (_, size) => size = 0).map Prod.fst

end BatchSizes

/-- The settings. -/
structure Config where
  /-- Where the node that answers is reached. -/
  rpcUrl : Option String := none
  /-- How long it may take to answer, in milliseconds. -/
  timeoutMs : Nat := 10000
  /-- The contract that knows all others. -/
  storage : Option Address := none
  /-- The contract that makes the calls of an aggregate. -/
  hub : Address := ⟨0xcA11bde05977b3631167028862bE2a173976CA11⟩
  /-- The most aggregates that may be open at once. -/
  concurrency : Nat := 1
  /-- The version of a contract that does not tell one. -/
  fallbackVersion : UInt8 := 1
  /-- How many items go into one aggregate. -/
  batchSizes : BatchSizes := {}
  deriving DecidableEq, Inhabited

namespace Config

/-- The most aggregates that may be set by name to be open at once. -/
def maxConcurrency : Nat := 64

/-- The most aggregates that may be open at once where nothing is set: half the number of the
machine's processors, if it tells, and at least one. -/
def initialConcurrency (processors : Option Nat) : Nat :=
  max ((processors.map (· / 2)).getD 1) 1

/-- The configuration where nothing is set. -/
def initial (processors : Option Nat) : Config where
  concurrency := initialConcurrency processors

/-- The names of the settings. -/
def urlName : String := "ROCKETPOOL_RPC_URL"

@[inherit_doc urlName] def timeoutName : String := "ROCKETPOOL_RPC_TIMEOUT_MS"

@[inherit_doc urlName] def storageName : String := "ROCKETPOOL_STORAGE_ADDRESS"

@[inherit_doc urlName] def hubName : String := "ROCKETPOOL_MULTICALL_ADDRESS"

@[inherit_doc urlName] def concurrencyName : String := "ROCKETPOOL_CONCURRENCY"

@[inherit_doc urlName] def fallbackName : String := "ROCKETPOOL_FALLBACK_VERSION"

/-- The setting with a name. A blank one counts as missing. -/
def setting (lookup : String → Option String) (name : String) : Option String :=
  (lookup name).filter fun s => !Text.isBlankText s

/-- The positive number up to `max` that a text shows. -/
def positive? (max : Nat) (s : String) : Option Nat :=
  (Decimal.number? (Text.trim s.toList)).filter fun n => 0 < n && n ≤ max

/-- The address that the setting with a name shows, if there is such a setting. -/
def addressSetting (lookup : String → Option String) (name : String) :
    Except Fault (Option Address) :=
  match setting lookup name with
  | none => .ok none
  | some s =>
    match Address.parse s with
    | .ok a => .ok (some a)
    | .error e => .error (.config s!"{name}: {e.message}")

/-- The configuration by settings that are looked up by name. -/
def ofLookup (lookup : String → Option String) (processors : Option Nat := none) :
    Except Fault Config := do
  let number name max := (setting lookup name).bind (positive? max)
  let defaults := initial processors
  let storage ← addressSetting lookup storageName
  let hub ← addressSetting lookup hubName
  return {
    rpcUrl := setting lookup urlName
    timeoutMs := (number timeoutName Word.maxNat64).getD defaults.timeoutMs
    storage := storage
    hub := hub.getD defaults.hub
    concurrency :=
      ((number concurrencyName Word.maxNat64).map (min · maxConcurrency)).getD defaults.concurrency
    fallbackVersion :=
      ((number fallbackName 255).map UInt8.ofNat).getD defaults.fallbackVersion
    batchSizes := defaults.batchSizes }

/-- Refuses a configuration with which no read could be scheduled. -/
def validate (c : Config) : Except Fault Unit :=
  if c.concurrency = 0 then .error (.config "concurrency_limit must be at least 1")
  else
    match c.batchSizes.firstZero? with
    | some name => .error (.config s!"batch_sizes.{name} must be at least 1")
    | none => .ok ()

/-- The storage contract, which a registry cannot do without. -/
def storageAddress (c : Config) : Except Fault Address :=
  match c.storage with
  | some a => .ok a
  | none => .error (.config s!"Missing env var: {storageName}")

end Config

/-! ## The written form -/

/-- The address that a JSON value shows: a text of 40 digits after at most one mark, or 20 numbers
below 256, behind which one item may follow that is no such number. -/
def Json.address? : Json → Option Address
  | .str s => Address.ofDigits? s.toList
  | .arr items => do
    let bytes ← (items.take 20).mapM (natUpTo? 255)
    if bytes.length < 20 then none
    else
      match items.drop 20 with
      | [] => some (.ofBytes (bytes.map UInt8.ofNat))
      | [j] => if (j.natUpTo? 255).isSome then none else some (.ofBytes (bytes.map UInt8.ofNat))
      | _ => none
  | _ => none

/-- The value of a field, where `null` means that there is none. -/
def Json.orNull {α : Type} (read : Json → Option α) : Json → Option (Option α)
  | .null => some none
  | j => (read j).map some

/-- The value of a field, which is the given one if the field is missing. -/
def Json.orDefault {α : Type} (initial : α) (read : Json → Option α) : Option Json → Option α
  | none => some initial
  | some j => read j

/-- The sizes of a written form. -/
def BatchSizes.ofJson? (j : Json) : Option BatchSizes := do
  let fields ← j.fields? names
  let read := Json.natUpTo? Word.maxNat64
  let sizes ← (fields.zip ({} : BatchSizes).toList).mapM fun (f, initial) =>
    Json.orDefault initial read f
  match sizes with
  | [a, b, c, d, e, f, g, h] => some ⟨a, b, c, d, e, f, g, h⟩
  | _ => none

namespace Config

/-- The names of the fields in the written form. -/
def fieldNames : List String :=
  ["rpc_url", "rpc_timeout_ms", "storage_address", "multicall_address", "concurrency_limit",
    "fallback_version", "batch_sizes"]

/-- The configuration of a written form. -/
def ofJson? (j : Json) (processors : Option Nat := none) : Option Config := do
  match ← j.fields? fieldNames with
  | [url, timeout, storage, hub, concurrency, fallback, sizes] =>
    let defaults := initial processors
    return {
      rpcUrl := ← Json.orDefault none (Json.orNull Json.text?) url
      timeoutMs := ← Json.orDefault defaults.timeoutMs (Json.natUpTo? Word.maxNat64) timeout
      storage := ← Json.orDefault none (Json.orNull Json.address?) storage
      hub := ← Json.orDefault defaults.hub Json.address? hub
      concurrency := ← Json.orDefault defaults.concurrency (Json.natUpTo? Word.maxNat64) concurrency
      fallbackVersion :=
        ← Json.orDefault defaults.fallbackVersion
          (fun j => (j.natUpTo? 255).map UInt8.ofNat) fallback
      batchSizes := ← Json.orDefault {} BatchSizes.ofJson? sizes }
  | _ => none

/-- The written form. -/
def toJson (c : Config) : Json :=
  .obj [
    ("rpc_url", (c.rpcUrl.map Json.str).getD .null),
    ("rpc_timeout_ms", .ofNat c.timeoutMs),
    ("storage_address", (c.storage.map Json.ofAddress).getD .null),
    ("multicall_address", .ofAddress c.hub),
    ("concurrency_limit", .ofNat c.concurrency),
    ("fallback_version", .ofNat c.fallbackVersion.toNat),
    ("batch_sizes", .obj (BatchSizes.names.zip (c.batchSizes.toList.map Json.ofNat)))]

end Config

end StakingSnapshot
