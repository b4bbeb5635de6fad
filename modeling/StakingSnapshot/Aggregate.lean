import StakingSnapshot.Abi.Method

/-!
# Aggregates

An aggregate asks one contract to make many calls and to report on each: `tryAggregate` takes a
flag and a list of calls, and returns for each call whether it succeeded and what it returned.

* `Aggregate.encode`, `Aggregate.decode?`: the request.
* `Reply.encode`, `Reply.decode?`: the answer, which is read as strictly as any returned data.
-/

namespace StakingSnapshot

/-- One call of an aggregate. -/
structure SubCall where
  /-- The contract that is called. -/
  target : Address
  /-- What is sent to it. -/
  data : Bytes
  deriving DecidableEq, Hashable, Inhabited

/-- What became of one call. -/
structure CallResult where
  /-- The call did not revert. -/
  success : Bool
  /-- What it returned. -/
  data : Bytes
  deriving DecidableEq, Inhabited

/-- Calls that are made together. -/
structure Aggregate where
  /-- One call that fails makes the whole request fail. -/
  requireSuccess : Bool
  /-- The calls, in order. -/
  calls : List SubCall
  deriving DecidableEq, Inhabited

namespace SubCall

/-- The layout of one call. -/
def encode (c : SubCall) : Bytes :=
  Abi.word c.target.bits.toNat ++ (Abi.word 64 ++ Abi.blob c.data)

/-- The number of bytes of the layout. -/
def size (c : SubCall) : Nat := 64 + Abi.blobSize c.data

/-- Takes one call off the front of the data. -/
def reader : Abi.Reader SubCall := do
  let target ← Abi.Reader.below Address.count
  Abi.Reader.expect 64
  return ⟨⟨BitVec.ofNat 160 target⟩, ← Abi.Reader.blob⟩

end SubCall

namespace CallResult

/-- The layout of one result. -/
def encode (r : CallResult) : Bytes :=
  Abi.word r.success.toNat ++ (Abi.word 64 ++ Abi.blob r.data)

/-- The number of bytes of the layout. -/
def size (r : CallResult) : Nat := 64 + Abi.blobSize r.data

/-- Takes one result off the front of the data. Any last byte but zero means success. -/
def reader : Abi.Reader CallResult := do
  let flag ← Abi.Reader.below 256
  Abi.Reader.expect 64
  return ⟨decide (flag ≠ 0), ← Abi.Reader.blob⟩

end CallResult

namespace Aggregate

/-- The four bytes of `tryAggregate(bool,(address,bytes)[])`. -/
def selector : UInt32 := 0xbce38bd7

/-- The data that makes the request. -/
def encode (a : Aggregate) : Bytes :=
  Bytes.ofNat 4 selector.toNat ++
    (Abi.word a.requireSuccess.toNat ++
      (Abi.word 64 ++ Abi.records (a.calls.map SubCall.encode)))

/-- Takes a request off the front of the data. -/
def reader : Abi.Reader Aggregate := do
  let front ← Abi.Reader.take 4
  if front = Bytes.ofNat 4 selector.toNat then do
    let flag ← Abi.Reader.below 2
    Abi.Reader.expect 64
    return ⟨decide (flag ≠ 0), ← Abi.Reader.records SubCall.reader SubCall.size⟩
  else failure

/-- The request that the data makes. -/
def decode? (data : Bytes) : Option Aggregate := reader.exactly data

end Aggregate

namespace Reply

/-- The layout of the results. -/
def encode (results : List CallResult) : Bytes :=
  Abi.word 32 ++ Abi.records (results.map CallResult.encode)

/-- Takes the results off the front of the data. -/
def reader : Abi.Reader (List CallResult) := do
  Abi.Reader.expect 32
  Abi.Reader.records CallResult.reader CallResult.size

/-- The results that the data reports. -/
def decode? (data : Bytes) : Option (List CallResult) := reader.exactly data

end Reply

end StakingSnapshot
