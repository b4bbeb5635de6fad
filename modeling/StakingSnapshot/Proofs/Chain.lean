import StakingSnapshot.Proofs.Abi.RoundTrip
import StakingSnapshot.Session

/-!
# Chains that answer by a fixed function

A `Chain` says what each call returns at each block. A client answers for a chain through a hub
(`Client.AnswersFor`) if every aggregate that it is sent comes back with the chain's result for each
of its calls, in order, whatever state the client is in.

* `Sized`: the calls and their answers fit into a machine whose lengths have 64 bits, as all that
  is in memory does. A client is only asked to answer such aggregates: a reply to more calls than a
  word can count has no layout.
* `Chain.client_answersFor`: every chain has a client that answers for it.
-/

namespace StakingSnapshot

/-- What a chain answers to a call at a block. -/
abbrev Chain : Type := BlockRef → SubCall → CallResult

/-- The number of calls, and the number of bytes of each of them and of its answer, have 64
bits. -/
structure Sized (answer : SubCall → CallResult) (calls : List SubCall) : Prop where
  count : calls.length ≤ Word.maxNat64
  data : ∀ c ∈ calls, c.data.length ≤ Word.maxNat64
  answers : ∀ c ∈ calls, (answer c).data.length ≤ Word.maxNat64

/-- Some of the calls fit if all do. -/
theorem Sized.of_sublist {answer : SubCall → CallResult} {calls calls' : List SubCall}
    (h : Sized answer calls) (hs : calls'.Sublist calls) : Sized answer calls' :=
  ⟨Nat.le_trans hs.length_le h.count, fun c hc => h.data c (hs.subset hc),
    fun c hc => h.answers c (hs.subset hc)⟩

/-- The client, asked through the hub, answers every aggregate with the chain's results. -/
def Client.AnswersFor {σ : Type} (client : Client σ) (hub : Address) (chain : Chain) : Prop :=
  ∀ block calls s, Sized (chain block) calls →
    ∃ data, (client.call hub (Aggregate.encode ⟨false, calls⟩) block s).1 = .ok data ∧
      Reply.decode? data = some (calls.map (chain block))

namespace Chain

/-- The chain on which a call returns what was sent, unless nothing was: then it fails. -/
def echo : Chain := fun _ c => ⟨!c.data.isEmpty, c.data⟩

/-- The client of a chain. It reads an aggregate sent to the hub and writes the results. -/
def client (chain : Chain) (hub : Address) : Client Unit where
  call target data block _ :=
    match Aggregate.decode? data with
    | some body =>
      if target = hub then (.ok (Reply.encode (body.calls.map (chain block))), ())
      else (.error (.transport "no contract"), ())
    | none => (.error (.transport "no aggregate"), ())
  head _ := (.ok 0, ())

/-- Layouts of bounded length, one after another. -/
theorem length_flatten_le {ls : List Bytes} {bound : Nat} (h : ∀ l ∈ ls, l.length ≤ bound) :
    ls.flatten.length ≤ ls.length * bound := by
  induction ls with
  | nil => exact Nat.zero_le _
  | cons l ls ih =>
    have hl := h l (.head _)
    have hls := ih fun k hk => h k (.tail _ hk)
    rw [List.flatten_cons, List.length_append, List.length_cons, Nat.succ_mul]
    omega

/-- So many records of so many bytes fit into the length that a word can say. -/
theorem records_le {α : Type} {layout : α → Bytes} {vs : List α}
    (hcount : vs.length ≤ Word.maxNat64)
    (h : ∀ v ∈ vs, (layout v).length ≤ Word.maxNat64 + 127) :
    32 * vs.length + (vs.map layout).flatten.length ≤ Word.maxNat := by
  have hflat : (vs.map layout).flatten.length ≤ vs.length * (Word.maxNat64 + 127) := by
    have := length_flatten_le fun l hl => by
      obtain ⟨v, hv, rfl⟩ := List.mem_map.1 hl
      exact h v hv
    rwa [List.length_map] at this
  have hmul := Nat.mul_le_mul_right (Word.maxNat64 + 127) hcount
  have hmax : 32 * Word.maxNat64 + Word.maxNat64 * (Word.maxNat64 + 127) ≤ Word.maxNat := by decide
  omega

/-- Every chain has a client that answers for it. -/
theorem client_answersFor (chain : Chain) (hub : Address) :
    (chain.client hub).AnswersFor hub chain := by
  intro block calls s hsized
  have hask : Aggregate.decode? (Aggregate.encode ⟨false, calls⟩) = some ⟨false, calls⟩ := by
    refine Aggregate.decode?_encode (records_le hsized.count fun c hc => ?_)
    have hdata := hsized.data c hc
    have hpad := Abi.padding_le c.data.length
    rw [c.length_encode, SubCall.size, Abi.blobSize]
    omega
  refine ⟨Reply.encode (calls.map (chain block)), ?_, Reply.decode?_encode (records_le ?_ ?_)⟩
  · simp only [client, hask, if_pos]
  · rw [List.length_map]
    exact hsized.count
  · intro r hr
    obtain ⟨c, hc, rfl⟩ := List.mem_map.1 hr
    have hdata := hsized.answers c hc
    have hpad := Abi.padding_le (chain block c).data.length
    rw [CallResult.length_encode, CallResult.size, Abi.blobSize]
    omega

end Chain

end StakingSnapshot
