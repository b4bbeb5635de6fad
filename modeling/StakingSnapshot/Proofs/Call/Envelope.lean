import StakingSnapshot.Proofs.Abi.Canonical
import StakingSnapshot.Proofs.Call.Conclusion

/-!
# What goes into an aggregate comes out of it

* `CallResult.Written`, `Reply.Written`: the layouts of results. A result has one for each byte that
  may tell a success.
* `Reply.decode?_eq_some_of_written`, `Reply.written_of_decode?`: these layouts are read as the
  results, and nothing else is.
* `Aggregate.Envelope`: what the codec promises; `Aggregate.envelope`: it keeps that with every
  client.
-/

namespace StakingSnapshot

open Abi

variable {σ S : Type}

/-- The data is a layout of the result: the word of some last byte, which is zero exactly for a
failure, and what was returned. -/
def CallResult.Written (r : CallResult) (data : Bytes) : Prop :=
  ∃ flag : UInt8, (r.success = true ↔ flag ≠ 0) ∧
    data = word flag.toNat ++ (word 64 ++ blob r.data)

/-- The data is a layout of the results: the one layout of a list of their layouts. -/
def Reply.Written (rs : List CallResult) (data : Bytes) : Prop :=
  ∃ ls, List.Forall₂ CallResult.Written rs ls ∧ data = word 32 ++ records ls

namespace CallResult

variable {r : CallResult} {data : Bytes}

/-- The layout that is written has 1 for a success. -/
theorem written_encode (r : CallResult) : r.Written r.encode := by
  obtain ⟨success, bs⟩ := r
  cases success with
  | false => exact ⟨0, by simp, rfl⟩
  | true => exact ⟨1, by simp, rfl⟩

theorem Written.length_eq (h : r.Written data) : data.length = r.size := by
  obtain ⟨flag, -, rfl⟩ := h
  rw [List.length_append, List.length_append, length_word, length_word, length_blob, size]
  omega

theorem Written.reads (h : r.Written data) (hfits : data.length ≤ Word.maxNat) :
    CallResult.reader.Reads data r := by
  rw [h.length_eq, size, blobSize] at hfits
  obtain ⟨flag, hflag, rfl⟩ := h
  have hlt : flag.toNat < 256 := flag.toNat_lt
  refine (Reader.reads_small hlt (by decide)).bind ((Reader.reads_expect (by decide)).bind ?_)
  have hblob : Reader.blob.Reads (blob r.data) r.data := Reader.reads_blob (by omega)
  rw [decide_flag hflag]
  exact hblob.map fun bs => (⟨r.success, bs⟩ : CallResult)

theorem takes_reader : CallResult.reader.Takes Written := by
  refine ((Reader.takes_below 256).bind fun flag => (Reader.takes_expect 64).bind fun _ =>
    Reader.takes_blob.map fun bs => (⟨decide (flag ≠ 0), bs⟩ : CallResult)).mono ?_
  rintro r used ⟨n, _, _, ⟨hlt, rfl⟩, ⟨_, _, _, rfl, ⟨bs, rfl, rfl⟩, rfl⟩, rfl⟩
  obtain ⟨flag, hflag, rfl⟩ := exists_flag hlt
  exact ⟨flag, hflag, rfl⟩

end CallResult

namespace Reply

variable {rs : List CallResult} {data : Bytes}

/-- What is written is one of the layouts. -/
theorem written_encode (rs : List CallResult) : Written rs (encode rs) :=
  ⟨_, List.forall₂_map_right_iff.2 (List.forall₂_same.2 fun r _ => r.written_encode), rfl⟩

theorem length_records (ls : List Bytes) :
    (records ls).length = 32 + (32 * ls.length + ls.flatten.length) := by
  have hoffsets : ∀ place, (offsets place ls).length = 32 * ls.length := by
    induction ls with
    | nil => exact fun _ => rfl
    | cons l ls ih =>
      intro place
      rw [offsets, List.length_append, length_word, ih, List.length_cons]
      omega
  rw [records, List.length_append, List.length_append, length_word, hoffsets]

/-- Every layout of results is read as these, if its length fits into a word. -/
theorem decode?_eq_some_of_written (h : Written rs data) (hfits : data.length ≤ Word.maxNat) :
    decode? data = some rs := by
  obtain ⟨ls, hls, rfl⟩ := h
  rw [List.length_append, length_word, length_records] at hfits
  have hread : List.Forall₂ (fun r l => CallResult.reader.Reads l r ∧ r.size = l.length) rs ls := by
    refine List.forall₂_iff_get.2 ⟨hls.length_eq, fun i hi hi' => ?_⟩
    have hwritten := hls.get hi hi'
    have hle := length_le_flatten id (List.get_mem ls ⟨i, hi'⟩)
    rw [List.map_id] at hle
    simp only [id] at hle
    exact ⟨hwritten.reads (by omega), hwritten.length_eq.symm⟩
  exact ((Reader.reads_expect (by decide)).bind (Reader.reads_records hread (by omega))).exactly

theorem takes_reader : reader.Takes Written := by
  refine ((Reader.takes_expect 32).bind fun _ => Reader.takes_records CallResult.takes_reader
    fun r used h => h.length_eq.symm).mono ?_
  rintro rs used ⟨_, _, _, rfl, ⟨ls, hls, rfl⟩, rfl⟩
  exact ⟨ls, hls, rfl⟩

/-- Nothing but a layout of the results is read as these. -/
theorem written_of_decode? (h : decode? data = some rs) : Written rs data :=
  takes_reader.of_exactly h

end Reply

namespace Aggregate

theorem length_encode (a : Aggregate) :
    a.encode.length =
      100 + (32 * a.calls.length + (a.calls.map SubCall.encode).flatten.length) := by
  rw [encode, List.length_append, List.length_append, List.length_append, Bytes.length_ofNat,
    length_word, length_word, Reply.length_records, List.length_map]
  omega

/-- A request whose length fits into a word is read back as it was made. -/
theorem decode?_encode_of_fits {a : Aggregate} (h : a.encode.length ≤ Word.maxNat) :
    decode? a.encode = some a := by
  rw [length_encode] at h
  exact decode?_encode (by omega)

/-- What a queue, a client and the codec between them make of calls and of results. Requests and
replies may be as long as a word can say. -/
structure Envelope (client : Client σ) (hub : Address) (S : Type) : Prop where
  /-- An execution of calls puts one question, and concludes from the answer. -/
  asks : ∀ (q : Queue S) strict block slots s, q.isEmpty = false →
    let payload := (aggregateOf q.pending).encode
    let o := q.execute client hub strict block slots s
    o.value.2 = conclude strict q.pending slots (client.call hub payload block s).1 ∧
      o.chain = (client.call hub payload block s).2 ∧
      o.sent = [.aggregate hub (aggregateOf q.pending) block]
  /-- The question is read as the calls in the order of their registration, without the demand that
  all of them succeed. -/
  request : ∀ calls : List (Call S), (aggregateOf calls).encode.length ≤ Word.maxNat →
    decode? (aggregateOf calls).encode = some ⟨false, calls.map Call.sub⟩
  /-- Different calls make different questions. -/
  request_injective : ∀ calls calls' : List (Call S),
    (aggregateOf calls).encode.length ≤ Word.maxNat →
    (aggregateOf calls).encode = (aggregateOf calls').encode →
      calls.map Call.sub = calls'.map Call.sub
  /-- Results that are written are read as they are, -/
  reply : ∀ rs, (Reply.encode rs).length ≤ Word.maxNat → Reply.decode? (Reply.encode rs) = some rs
  /-- also where another byte than 1 stands for a success. -/
  reply_written : ∀ rs data, Reply.Written rs data → data.length ≤ Word.maxNat →
    Reply.decode? data = some rs
  /-- What is read as results is a layout of these. -/
  canonical : ∀ data rs, Reply.decode? data = some rs → Reply.Written rs data
  /-- An accepted reply is not accepted with more behind it, -/
  extended : ∀ data rs more, Reply.decode? data = some rs → more ≠ [] →
    Reply.decode? (data ++ more) = none
  /-- nor without its end. -/
  truncated : ∀ data rs more, Reply.decode? (data ++ more) = some rs → more ≠ [] →
    Reply.decode? data = none
  /-- A reply that is not accepted fails the execution and leaves the slots alone. -/
  rejected : ∀ (q : Queue S) strict block slots s data, q.isEmpty = false →
    (client.call hub (aggregateOf q.pending).encode block s).1 = .ok data →
    Reply.decode? data = none →
      (q.execute client hub strict block slots s).value.2 =
        (slots, .error (.transport s!"malformed aggregate response: {malformedText}"))

/-- **Fidelity of aggregates.** With every client, the question says which calls were registered, and
the answer says what became of them or is refused. -/
theorem envelope (client : Client σ) (hub : Address) : Envelope client hub S := by
  have hasks : ∀ (q : Queue S) strict block slots s, q.isEmpty = false →
      let payload := (aggregateOf q.pending).encode
      let o := q.execute client hub strict block slots s
      o.value.2 = conclude strict q.pending slots (client.call hub payload block s).1 ∧
        o.chain = (client.call hub payload block s).2 ∧
        o.sent = [.aggregate hub (aggregateOf q.pending) block] := by
    intro q strict block slots s hq
    have hne : ¬ q.pending.isEmpty = true := by
      rw [Queue.isEmpty] at hq
      rw [hq]
      exact Bool.false_ne_true
    simp only [Queue.execute, Session.bind_apply, Session.pure_apply, execute, if_neg hne,
      Session.ask, List.append_nil, and_self]
  constructor
  case asks => exact hasks
  case request => exact fun calls h => decode?_encode_of_fits h
  case request_injective =>
    intro calls calls' hfits heq
    have hread := decode?_encode_of_fits hfits
    rw [heq, decode?_encode_of_fits (heq ▸ hfits)] at hread
    exact (congrArg Aggregate.calls (Option.some.inj hread)).symm
  case reply => exact fun rs h => Reply.decode?_eq_some_of_written (Reply.written_encode rs) h
  case reply_written => exact fun rs data h hfits => Reply.decode?_eq_some_of_written h hfits
  case canonical => exact fun data rs h => Reply.written_of_decode? h
  case extended => exact fun data rs more h hmore => Reply.takes_reader.exactly_append_eq_none h hmore
  case truncated =>
    exact fun data rs more h hmore => Reply.takes_reader.exactly_eq_none_of_append h hmore
  case rejected =>
    intro q strict block slots s data hq hanswer hd
    rw [(hasks q strict block slots s hq).1, hanswer]
    exact conclude_of_error (by simp only [resultsOf, bind, Except.bind, hd])

/-- Two calls are read back. A reply that has 2 for a success is accepted, and refused without its
last byte. -/
theorem envelope_twoCalls :
    let calls : List (Call Bytes) := [Call.keep ⟨1⟩ [7], Call.keep ⟨2⟩ []]
    let front := word 32 ++ (word 1 ++ (word 32 ++ (word 2 ++ (word 64 ++ (word 1 ++
      (7 :: List.replicate 30 0))))))
    decode? (aggregateOf calls).encode = some ⟨false, [⟨⟨1⟩, [7]⟩, ⟨⟨2⟩, []⟩]⟩ ∧
      Reply.decode? (front ++ [0]) = some [⟨true, [7]⟩] ∧ Reply.decode? front = none := by
  intro calls front
  have h : Envelope (Chain.echo.client ⟨0⟩) ⟨0⟩ Bytes := envelope _ _
  have hwritten : Reply.Written [⟨true, [7]⟩] (front ++ [0]) :=
    ⟨[word 2 ++ (word 64 ++ blob [7])], .cons ⟨2, by decide, rfl⟩ .nil, rfl⟩
  have hread := h.reply_written _ _ hwritten (by decide +kernel)
  exact ⟨h.request calls (by decide +kernel), hread, h.truncated _ _ _ hread (by decide)⟩

end Aggregate

end StakingSnapshot
