import StakingSnapshot.Address

/-!
# Faults

Why a read failed. A fault is a cause, and each layer that passes it on may put a context in front
of it (`Fault.context`). `Fault.message` is the whole text, `Fault.root` the cause, and
`Fault.kind` the coarse class by which a caller decides whether a later attempt may succeed.
-/

namespace StakingSnapshot

/-- Why a read failed. -/
inductive Fault where
  /-- The chain could not be asked, or its answer has the wrong form. -/
  | transport (text : String)
  /-- A value given by the caller cannot be written or read. -/
  | encoding (text : String)
  /-- Some of `total` calls that all had to succeed did not. -/
  | callsFailed (indices : List Nat) (total : Nat)
  /-- The data that `method` returned is not what it should return. -/
  | decode (target : Address) (method : String) (text : String)
  /-- The contract's version is none that can be read. -/
  | unsupportedVersion (address : Address) (version : UInt8)
  /-- The configuration or the call of an operation makes no sense. -/
  | config (text : String)
  /-- The text is no address. -/
  | invalidAddress (text : String)
  /-- A fault together with what was being done. -/
  | context (text : String) (source : Fault)
  deriving DecidableEq, Inhabited

/-- The classes of faults. -/
inductive FaultKind where
  | transport
  | encoding
  | callFailure
  | decode
  | config
  deriving DecidableEq

namespace Fault

/-- The numbers in brackets, separated by commas. -/
def indexText (indices : List Nat) : String :=
  "[" ++ ", ".intercalate (indices.map fun i => toString i) ++ "]"

/-- The whole text: the contexts from outside in, then the cause. -/
def message : Fault → String
  | transport text => s!"Transport error: {text}"
  | encoding text => s!"Encoding error: {text}"
  | callsFailed indices total =>
    s!"{indices.length} of {total} calls failed at indices {indexText indices}"
  | decode target method text => s!"Decode error for {method} on {target}: {text}"
  | unsupportedVersion address version =>
    s!"Unsupported contract version {version.toNat} at {address}"
  | config text => s!"Configuration error: {text}"
  | invalidAddress text => s!"Invalid address: {text}"
  | context text source => s!"{text}: {source.message}"

/-- The class of the cause. -/
def kind : Fault → FaultKind
  | transport _ => .transport
  | encoding _ => .encoding
  | callsFailed _ _ => .callFailure
  | decode _ _ _ => .decode
  | unsupportedVersion _ _ => .decode
  | config _ => .config
  | invalidAddress _ => .config
  | context _ source => source.kind

/-- Only the way to the chain gets better by itself. -/
def isRetryable (f : Fault) : Bool := f.kind = .transport

/-- The cause, without any context. -/
def root : Fault → Fault
  | context _ source => source.root
  | f => f

/-- The faults inside a fault, from outside in; the last one is the cause. A cause has none. -/
def sources : Fault → List Fault
  | context _ source => source :: source.sources
  | _ => []

@[simp] theorem kind_root (f : Fault) : f.root.kind = f.kind := by
  induction f with
  | context _ _ ih => simpa [root, kind] using ih
  | _ => rfl

end Fault

/-- The result with `text` in front of its fault, if it has one. -/
def withContext {α : Type} (text : String) (result : Except Fault α) : Except Fault α :=
  result.mapError (.context text)

end StakingSnapshot
