import StakingSnapshot.Json
import StakingSnapshot.Session
import StakingSnapshot.Text.Scalar

/-!
# Nodes behind a URL

A remote call is an object that names a method and its parameters. Its answer is an object with a
member `result`; one with a member `error` says that the call failed (`Rpc.extractResult`).

An endpoint is a node that answers remote calls. How a payload gets there and back is up to an
exchange; `Endpoint.client` makes a client of the two.
-/

namespace StakingSnapshot

namespace Rpc

/-- The object that calls a method. -/
def payload (method : String) (params : Json) : Json :=
  .obj [("jsonrpc", .str "2.0"), ("id", .int 1), ("method", .str method), ("params", params)]

/-- What a member `error` says. -/
def errorText (e : Json) : String :=
  let text := ((e.member? "message").bind Json.text?).getD "Unknown RPC error"
  match (e.member? "code").bind Json.int64? with
  | some code => s!"{text} (code {code})"
  | none => text

/-- The result inside an answer. -/
def extractResult (answer : Json) : Except Fault Json :=
  match answer.member? "error" with
  | some e => .error (.transport (errorText e))
  | none =>
    match answer.member? "result" with
    | some r => .ok r
    | none => .error (.transport "Missing RPC result")

end Rpc

/-- A node that is reached at a URL. -/
structure Endpoint where
  url : String
  /-- How long an answer may take, in milliseconds. -/
  timeoutMs : Nat
  deriving DecidableEq, Inhabited

/-- Brings a payload to an endpoint and the answer back. -/
abbrev Exchange : Type := Endpoint → Json → Except Fault Json

namespace Endpoint

/-- How long an answer may take if nothing is said about it, in milliseconds. -/
def defaultTimeoutMs : Nat := 10000

/-- The endpoint at a URL, which must not be blank. -/
def open? (url : String) (timeoutMs : Nat) : Except Fault Endpoint :=
  if Text.isBlankText url then .error (.config "RPC url is empty")
  else .ok ⟨url, if timeoutMs = 0 then defaultTimeoutMs else timeoutMs⟩

/-- The result of a remote call. -/
def call (exchange : Exchange) (e : Endpoint) (method : String) (params : Json) :
    Except Fault Json := do
  Rpc.extractResult (← exchange e (Rpc.payload method params))

/-- What a contract returns for call data at a block. -/
def callContract (exchange : Exchange) (e : Endpoint) (target : Address) (data : Bytes)
    (block : BlockRef) : Except Fault Bytes := do
  let request := .obj [("to", .ofAddress target), ("data", .ofBytes data)]
  match ← e.call exchange "eth_call" (.arr [request, .str block.tag]) with
  | .str s =>
    (Bytes.parse s).mapError fun f => .transport s!"eth_call returned bad hex: {f.message}"
  | _ => .error (.transport "eth_call result is not a string")

/-- The number that a quantity shows. -/
def blockNumberOf : Json → Except Fault BlockNumber
  | .str s =>
    match Word.parse s with
    | .error f => .error (.transport s!"bad quantity: {f.message}")
    | .ok w =>
      if w.toNat ≤ Word.maxNat64 then .ok (UInt64.ofNat w.toNat)
      else .error (.transport s!"quantity overflows u64: {s}")
  | _ => .error (.transport "quantity is not a string")

/-- The number of the latest block. -/
def latestBlock (exchange : Exchange) (e : Endpoint) : Except Fault BlockNumber := do
  blockNumberOf (← e.call exchange "eth_blockNumber" (.arr []))

/-- The client that asks an endpoint. -/
def client (exchange : Exchange) (e : Endpoint) : Client Unit where
  call target data block s := (e.callContract exchange target data block, s)
  head s := (e.latestBlock exchange, s)

end Endpoint

end StakingSnapshot
