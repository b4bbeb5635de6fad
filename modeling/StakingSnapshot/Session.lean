import StakingSnapshot.Aggregate
import StakingSnapshot.Fault
import StakingSnapshot.Log

/-!
# Sessions with a chain

A session is a computation that asks a chain. What it did is part of its outcome: the value, what
it asked in order, and what it logged. All of this is there also when the value is a fault.

* `Client σ`: who answers; `σ` is whatever the answers depend on besides the question.
* `Session σ α`: a computation with a value in `α`; `Session.ask` and `Session.askHead` put a
  question, `Session.emit` logs.
* `Read σ α`: a session that may fail.
-/

namespace StakingSnapshot

/-- A question put to a chain. -/
inductive Request where
  /-- The number of the latest block. -/
  | head
  /-- An aggregate, sent to a contract and evaluated at a block. -/
  | aggregate (target : Address) (body : Aggregate) (block : BlockRef)
  deriving DecidableEq, Inhabited

/-- Who answers for a chain. An answer may depend on a state of the client's own, which each
question may change. -/
structure Client (σ : Type) where
  /-- What a contract returns for call data at a block. -/
  call : Address → Bytes → BlockRef → σ → Except Fault Bytes × σ
  /-- The number of the latest block. -/
  head : σ → Except Fault BlockNumber × σ

/-- What a session did, and the client's state after it. -/
structure Outcome (σ α : Type) where
  /-- What the session computed. -/
  value : α
  /-- The client's state in the end. -/
  chain : σ
  /-- The questions, in order. -/
  sent : List Request
  /-- The events, in order. -/
  log : List Log.Event

/-- A computation that asks a chain. -/
def Session (σ α : Type) : Type := σ → Outcome σ α

namespace Session

variable {σ α β : Type}

instance : Monad (Session σ) where
  pure a := fun s => ⟨a, s, [], []⟩
  bind m f := fun s =>
    let x := m s
    let y := f x.value x.chain
    ⟨y.value, y.chain, x.sent ++ y.sent, x.log ++ y.log⟩

@[simp] theorem pure_apply (a : α) (s : σ) : (pure a : Session σ α) s = ⟨a, s, [], []⟩ := rfl

@[simp] theorem bind_apply (m : Session σ α) (f : α → Session σ β) (s : σ) :
    (m >>= f) s =
      ⟨(f (m s).value (m s).chain).value, (f (m s).value (m s).chain).chain,
        (m s).sent ++ (f (m s).value (m s).chain).sent,
        (m s).log ++ (f (m s).value (m s).chain).log⟩ := rfl

/-- Nesting does not show in what a session does. -/
instance : LawfulMonad (Session σ) :=
  LawfulMonad.mk' _
    (fun m => by
      funext s
      change (m >>= pure ∘ id) s = m s
      simp)
    (fun a f => by funext s; simp)
    (fun m f g => by funext s; simp [List.append_assoc])

/-- Sends an aggregate and returns the raw answer. -/
def ask (client : Client σ) (target : Address) (body : Aggregate) (block : BlockRef) :
    Session σ (Except Fault Bytes) := fun s =>
  let (answer, s') := client.call target body.encode block s
  ⟨answer, s', [.aggregate target body block], []⟩

/-- Asks for the number of the latest block. -/
def askHead (client : Client σ) : Session σ (Except Fault BlockNumber) := fun s =>
  let (answer, s') := client.head s
  ⟨answer, s', [.head], []⟩

/-- Logs an event. -/
def emit (e : Log.Event) : Session σ Unit := fun s => ⟨(), s, [], [e]⟩

end Session

/-- A session that may fail. -/
abbrev Read (σ α : Type) : Type := ExceptT Fault (Session σ) α

namespace Read

variable {σ α : Type}

/-- A computation that does not ask anything. -/
def ofExcept (r : Except Fault α) : Read σ α := ExceptT.mk (pure r)

/-- The read with `text` in front of its fault, if it fails. -/
def context (text : String) (m : Read σ α) : Read σ α := ExceptT.mk do
  return withContext text (← m.run)

end Read

end StakingSnapshot
