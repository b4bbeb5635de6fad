import StakingSnapshot.Session

/-!
# What was asked, and what was answered

A session records its questions only. Together with a client and the state that it was in, these
tell the answers as well.

* `Answered`: a question with its answer; `Client.answer` answers one.
* `Client.replay`, `Client.after`: the answers to questions in a row, and the state in the end;
  `Client.replay_append`, `Client.after_append`.
-/

namespace StakingSnapshot

/-- A question with the answer that it got. -/
inductive Answered where
  /-- The number of the latest block. -/
  | head (answer : Except Fault BlockNumber)
  /-- What a contract returned for an aggregate at a block. -/
  | aggregate (target : Address) (body : Aggregate) (block : BlockRef)
    (answer : Except Fault Bytes)

namespace Client

variable {σ : Type} (client : Client σ)

/-- Puts one question. -/
def answer : Request → σ → Answered × σ
  | .head, s => (.head (client.head s).1, (client.head s).2)
  | .aggregate target body block, s =>
    (.aggregate target body block (client.call target body.encode block s).1,
      (client.call target body.encode block s).2)

/-- The answers to questions in a row. -/
def replay : List Request → σ → List Answered
  | [], _ => []
  | request :: requests, s =>
    (client.answer request s).1 :: replay requests (client.answer request s).2

/-- The state of the client after questions in a row. -/
def after : List Request → σ → σ
  | [], s => s
  | request :: requests, s => after requests (client.answer request s).2

theorem after_append (before rest : List Request) (s : σ) :
    client.after (before ++ rest) s = client.after rest (client.after before s) := by
  induction before generalizing s with
  | nil => rfl
  | cons request before ih => exact ih _

theorem replay_append (before rest : List Request) (s : σ) :
    client.replay (before ++ rest) s =
      client.replay before s ++ client.replay rest (client.after before s) := by
  induction before generalizing s with
  | nil => rfl
  | cons request before ih => exact congrArg (List.cons _) (ih _)

end Client

end StakingSnapshot
