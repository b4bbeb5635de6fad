import StakingSnapshot.Session

/-!
# Calls and their settlement

A call is what is sent for it and what its answer does to a state of slots. `Call.typed` is the call
of a method: its answer must be in the strict layout of the method's kind and is then stored.

* `settle` goes through calls and results in order and stops at the first answer that cannot be
  read.
* `conclude` draws the consequences of a raw answer: no slot changes unless the answer has one
  result for each call and, where all must succeed, all did.
* `execute` sends calls as one aggregate; without calls it asks nothing.
* `Queue` gathers calls until they are executed, which empties it in any case.
-/

namespace StakingSnapshot

/-- A call whose answer acts on a state of slots `S`. -/
structure Call (S : Type) where
  /-- The contract that is called. -/
  target : Address
  /-- What is sent to it. -/
  data : Bytes
  /-- What the returned data does to the slots. A call without it leaves them alone. -/
  decoder : Option (Bytes → Except Fault (S → S))

namespace Call

variable {S T : Type} {α : Type} [Abi.Arguments α] {k : Abi.Kind}

/-- Reads the data that a method returned and stores the value. -/
def decoderOf (m : Abi.Method α k) (target : Address) (store : k.Value → S → S) :
    Bytes → Except Fault (S → S) := fun data =>
  match k.decode data with
  | some v => .ok (store v)
  | none => .error (.decode target m.signature Abi.malformedText)

/-- The call of a method with call data that is already there. -/
def encoded (m : Abi.Method α k) (target : Address) (data : Bytes) (store : k.Value → S → S) :
    Call S := ⟨target, data, some (decoderOf m target store)⟩

/-- The call of a method. -/
def typed (m : Abi.Method α k) (target : Address) (args : α) (store : k.Value → S → S) : Call S :=
  encoded m target (m.callData args) store

/-- The call of a method whose value takes the place of the only slot. -/
def value (m : Abi.Method α k) (target : Address) (args : α) : Call k.Value :=
  typed m target args fun v _ => v

/-- A call whose result the caller looks at. It must at least name a method. -/
def raw? (target : Address) (data : Bytes) : Except Fault (Call S) :=
  if data.length < 4 then
    .error (.encoding s!"calldata for {target} is missing a function selector")
  else .ok ⟨target, data, none⟩

/-- The call with its answer acting on a part of other slots. -/
def within (update : (S → S) → T → T) (c : Call S) : Call T :=
  ⟨c.target, c.data, c.decoder.map fun d => fun data => (d data).map update⟩

/-- The call with its answer acting on one item of a list. -/
def onItem (i : Nat) (c : Call S) : Call (List S) := c.within fun f items => items.modify i f

/-- What is sent. -/
def sub (c : Call S) : SubCall := ⟨c.target, c.data⟩

end Call

/-- The positions of the calls that failed. -/
def failedIndices (results : List CallResult) : List Nat :=
  (results.zipIdx.filter fun (r, _) => !r.success).map Prod.snd

variable {σ S : Type}

/-- Lets the successful calls' answers act on the slots, in order, up to the first that cannot be
read. -/
def settle : List (Call S × CallResult) → S → S × Except Fault Unit
  | [], slots => (slots, .ok ())
  | (c, r) :: rest, slots =>
    match c.decoder, r.success with
    | some d, true =>
      match d r.data with
      | .ok f => settle rest (f slots)
      | .error e => (slots, .error e)
    | _, _ => settle rest slots

/-- The results that a raw answer to `total` calls reports. -/
def resultsOf (total : Nat) (strict : Bool) (answer : Except Fault Bytes) :
    Except Fault (List CallResult) := do
  let data ← answer
  match Reply.decode? data with
  | none => .error (.transport s!"malformed aggregate response: {Abi.malformedText}")
  | some results =>
    if results.length ≠ total then
      .error (.transport s!"aggregate returned {results.length} results for {total} calls")
    else
      let failed := failedIndices results
      if strict && !failed.isEmpty then .error (.callsFailed failed total) else .ok results

/-- What a raw answer means for the slots and for the caller. -/
def conclude (strict : Bool) (calls : List (Call S)) (slots : S) (answer : Except Fault Bytes) :
    S × Except Fault (List CallResult) :=
  match resultsOf calls.length strict answer with
  | .error e => (slots, .error e)
  | .ok results =>
    let (slots', ending) := settle (calls.zip results) slots
    (slots', ending.map fun _ => results)

/-- The aggregate of calls. That one of them fails never makes the others fail on the chain. -/
def aggregateOf (calls : List (Call S)) : Aggregate := ⟨false, calls.map Call.sub⟩

/-- Sends the calls as one aggregate. With `strict`, each must succeed. -/
def execute (client : Client σ) (hub : Address) (strict : Bool) (block : BlockRef)
    (calls : List (Call S)) (slots : S) : Session σ (S × Except Fault (List CallResult)) :=
  if calls.isEmpty then pure (slots, .ok [])
  else do
    let answer ← Session.ask client hub (aggregateOf calls) block
    return conclude strict calls slots answer

/-- Calls that wait to be executed together. -/
structure Queue (S : Type) where
  /-- The calls, in the order in which they came. -/
  pending : List (Call S) := []

namespace Queue

/-- The number of waiting calls. -/
def length (q : Queue S) : Nat := q.pending.length

/-- No call waits. -/
def isEmpty (q : Queue S) : Bool := q.pending.isEmpty

/-- One more call. -/
def add (q : Queue S) (c : Call S) : Queue S := ⟨q.pending ++ [c]⟩

/-- One more call whose result the caller looks at. -/
def addRaw (q : Queue S) (target : Address) (data : Bytes) : Except Fault (Queue S) :=
  (Call.raw? target data).map q.add

/-- Executes the waiting calls. Afterwards none waits, whatever became of them. -/
def execute (client : Client σ) (hub : Address) (strict : Bool) (block : BlockRef) (q : Queue S)
    (slots : S) : Session σ (Queue S × S × Except Fault (List CallResult)) := do
  let r ← StakingSnapshot.execute client hub strict block q.pending slots
  return (⟨[]⟩, r)

end Queue

end StakingSnapshot
