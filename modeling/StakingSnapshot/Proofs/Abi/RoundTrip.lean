import Mathlib.Data.List.Forall2
import Mathlib.Data.List.Induction
import StakingSnapshot.Aggregate
import StakingSnapshot.Word

/-!
# What the writers write, the readers read

`r.Reads bs v` says that the reader `r` takes exactly the bytes `bs` off the front of any data and
finds `v` in them. Readers compose as the layouts do (`Reads.bind`), so each writer of the layout
has its reader (`reads_word`, `reads_blob`, `reads_records`), as long as all lengths fit into a
word.

The other way round, a word is read from no other data than its layout (`of_word`).

* `Bytes.ofNat_toNat`, `Bytes.toText?_eq_some_iff`: numbers and texts are told by their bytes.
* `Aggregate.decode?_encode`: a request is read back as it was made.
* `Reply.decode?_encode`: so are the results.
-/

namespace StakingSnapshot

/-- Writing what was read gives the bytes back. -/
theorem Bytes.ofNat_toNat (bs : Bytes) : Bytes.ofNat bs.length (Bytes.toNat bs) = bs := by
  induction bs using List.reverseRecOn with
  | nil => rfl
  | append_singleton bs b ih =>
    have hb := b.toNat_lt
    have hquot : (256 * toNat bs + b.toNat) / 256 = toNat bs := by omega
    have hlow : UInt8.ofNat (256 * toNat bs + b.toNat) = b := by
      apply UInt8.toNat.inj
      simp only [UInt8.toNat_ofNat']
      omega
    rw [List.length_append, List.length_singleton, toNat_append_singleton, ofNat_succ, hquot, ih,
      hlow]

theorem Bytes.toNat_lt (bs : Bytes) : Bytes.toNat bs < Nat.pow 256 bs.length := by
  have hread := Bytes.toNat_ofNat bs.length (Bytes.toNat bs)
  rw [Bytes.ofNat_toNat] at hread
  rw [hread]
  exact Nat.mod_lt _ (Nat.pow_pos (by decide))

/-- Bytes are read as a text exactly if they are the bytes of the text. -/
theorem Bytes.toText?_eq_some_iff {bs : Bytes} {s : String} :
    toText? bs = some s ↔ bs = ofText s := by
  have htext : s.toByteArray = (ofText s).toByteArray := by
    have h := @String.toByteArray_ofList s.toList
    rwa [String.ofList_toList] at h
  rw [toText?, String.fromUTF8?]
  constructor
  · intro h
    split at h
    case isTrue hvalid =>
      obtain rfl := Option.some.inj h
      exact List.toByteArray_inj.1 htext
    case isFalse => cases h
  · rintro rfl
    rw [← htext, dif_pos s.isValidUTF8]
    rfl

theorem Bytes.ofText_injective : Function.Injective Bytes.ofText := by
  intro s t h
  have ht : Bytes.toText? (Bytes.ofText t) = some s := Bytes.toText?_eq_some_iff.2 h.symm
  exact Option.some.inj (ht.symm.trans (Bytes.toText?_eq_some_iff.2 rfl))

namespace Abi

theorem length_word (n : Nat) : (word n).length = 32 := Bytes.length_ofNat 32 n

/-- A word holds every number up to the largest. -/
theorem toNat_word {n : Nat} (h : n ≤ Word.maxNat) : Bytes.toNat (word n) = n := by
  rw [word, Bytes.toNat_ofNat]
  exact Nat.mod_eq_of_lt (Nat.lt_of_le_of_lt h (by decide))

theorem length_pad32 (bs : Bytes) :
    (Bytes.pad32 bs).length = bs.length + Bytes.padding bs.length := by
  simp [Bytes.pad32]

theorem length_blob (bs : Bytes) : (blob bs).length = blobSize bs := by
  rw [blob, List.length_append, length_word, length_pad32, blobSize, Nat.add_assoc]

theorem padding_le (n : Nat) : Bytes.padding n ≤ 31 := by
  unfold Bytes.padding
  omega

namespace Reader

variable {α β : Type}

/-- The reader takes the bytes `bs` off the front of any data and finds `v` in them. -/
def Reads (r : Reader α) (bs : Bytes) (v : α) : Prop := ∀ rest, r (bs ++ rest) = some (v, rest)

theorem Reads.bind {r : Reader α} {f : α → Reader β} {as bs : Bytes} {v : α} {w : β}
    (hr : r.Reads as v) (hf : (f v).Reads bs w) : (r >>= f).Reads (as ++ bs) w := by
  intro rest
  have h : (r >>= f) (as ++ bs ++ rest) = (r (as ++ (bs ++ rest))).bind fun x => f x.1 x.2 := by
    rw [List.append_assoc]
    rfl
  rw [h, hr]
  exact hf rest

theorem reads_pure (v : α) : (pure v : Reader α).Reads [] v := fun _ => rfl

/-- A reader that looks at what another one found and takes nothing itself. -/
theorem Reads.bind_nil {r : Reader α} {f : α → Reader β} {bs : Bytes} {v : α} {w : β}
    (hr : r.Reads bs v) (hf : (f v).Reads [] w) : (r >>= f).Reads bs w := by
  have h := hr.bind hf
  rwa [List.append_nil] at h

/-- A reader that only reshapes what another one found. -/
theorem Reads.map {r : Reader α} {bs : Bytes} {v : α} (hr : r.Reads bs v) (g : α → β) :
    (do return g (← r) : Reader β).Reads bs (g v) :=
  hr.bind_nil (reads_pure (g v))

/-- A reader that has found all of the data. -/
theorem Reads.exactly {r : Reader α} {bs : Bytes} {v : α} (hr : r.Reads bs v) :
    r.exactly bs = some v := by
  have h := hr []
  rw [List.append_nil] at h
  rw [Reader.exactly, h]

theorem reads_take {n : Nat} {bs : Bytes} (h : bs.length = n) : (take n).Reads bs bs := by
  subst h
  exact fun rest => Bytes.split?_append bs rest

theorem reads_word {n : Nat} (h : n ≤ Word.maxNat) : word.Reads (Abi.word n) n := by
  have hr := (reads_take (length_word n)).map Bytes.toNat
  rwa [toNat_word h] at hr

theorem reads_expect {n : Nat} (h : n ≤ Word.maxNat) : (expect n).Reads (Abi.word n) () := by
  refine (reads_word h).bind_nil ?_
  rw [if_pos rfl]
  exact reads_pure ()

theorem reads_below {n bound : Nat} (h : n ≤ Word.maxNat) (hb : n < bound) :
    (below bound).Reads (Abi.word n) n := by
  refine (reads_word h).bind_nil ?_
  rw [if_pos hb]
  exact reads_pure n

theorem reads_blob {bs : Bytes} (h : bs.length ≤ Word.maxNat) : blob.Reads (Abi.blob bs) bs := by
  have hfill : (take (Bytes.padding bs.length)).Reads
      (List.replicate (Bytes.padding bs.length) 0)
      (List.replicate (Bytes.padding bs.length) 0) := reads_take List.length_replicate
  refine (reads_word h).bind ((reads_take rfl).bind (hfill.bind_nil ?_))
  rw [if_pos rfl]
  exact reads_pure bs

/-! ## Records -/

/-- Where records that follow each other from `place` on begin. -/
def places : Nat → List Bytes → List Nat
  | _, [] => []
  | place, r :: rs => place :: places (place + r.length) rs

theorem reads_words {place : Nat} {rs : List Bytes}
    (h : place + rs.flatten.length ≤ Word.maxNat) :
    (words rs.length).Reads (offsets place rs) (places place rs) := by
  induction rs generalizing place with
  | nil => exact reads_pure []
  | cons r rs ih =>
    rw [List.flatten_cons, List.length_append] at h
    exact (reads_word (by omega)).bind ((ih (by omega)).map (place :: ·))

theorem reads_recordsAt {record : Reader α} {size : α → Nat} {vs : List α} {ls : List Bytes}
    (h : List.Forall₂ (fun v l => record.Reads l v ∧ size v = l.length) vs ls) (place : Nat) :
    (recordsAt record size place (places place ls)).Reads ls.flatten vs := by
  induction h generalizing place with
  | nil => exact reads_pure []
  | @cons v l vs ls hv _ ih =>
    rw [places, List.flatten_cons, recordsAt, if_pos rfl]
    refine hv.1.bind ?_
    rw [hv.2]
    exact (ih (place + l.length)).map (v :: ·)

/-- Records are read back if the places of all of them fit into a word. -/
theorem reads_records {record : Reader α} {size : α → Nat} {vs : List α} {ls : List Bytes}
    (h : List.Forall₂ (fun v l => record.Reads l v ∧ size v = l.length) vs ls)
    (hfits : 32 * ls.length + ls.flatten.length ≤ Word.maxNat) :
    (records record size).Reads (Abi.records ls) vs :=
  (reads_word (by omega)).bind ((reads_words hfits).bind (reads_recordsAt h _))

/-! ## The other way round -/

/-- What a word is read from is the layout of the number that it holds. -/
theorem of_word {bs rest : Bytes} {n : Nat} (h : word bs = some (n, rest)) :
    bs = Abi.word n ++ rest := by
  obtain ⟨⟨front, rest'⟩, htake, heq⟩ := Option.bind_eq_some_iff.1 h
  cases heq
  obtain ⟨hlen, rfl⟩ := Bytes.of_split? htake
  rw [Abi.word, ← hlen, Bytes.ofNat_toNat]

theorem of_below {bs rest : Bytes} {n bound : Nat} (h : below bound bs = some (n, rest)) :
    n < bound ∧ bs = Abi.word n ++ rest := by
  obtain ⟨⟨w, rest'⟩, hword, heq⟩ := Option.bind_eq_some_iff.1 h
  by_cases hw : w < bound
  · simp only [hw, if_true] at heq
    cases heq
    exact ⟨hw, of_word hword⟩
  · simp only [hw, if_false] at heq
    cases heq

theorem exactly_eq_some_iff {r : Reader α} {bs : Bytes} {v : α} :
    r.exactly bs = some v ↔ r bs = some (v, []) := by
  unfold Reader.exactly
  split
  case h_1 w hw => simp [hw]
  case h_2 hnone =>
    refine ⟨nofun, fun h => ?_⟩
    cases hnone v h

end Reader

/-- The data from which a small number is read is its layout, and no other data. -/
theorem Kind.decode_uint8_eq_some_iff {data : Bytes} {v : UInt8} :
    Kind.uint8.decode data = some v ↔ data = Kind.uint8.encode v := by
  rw [decode, Reader.exactly_eq_some_iff]
  constructor
  · intro h
    obtain ⟨⟨n, rest⟩, hn, heq⟩ := Option.bind_eq_some_iff.1 h
    cases heq
    obtain ⟨hlt, rfl⟩ := Reader.of_below hn
    rw [List.append_nil, encode, UInt8.toNat_ofNat', Nat.mod_eq_of_lt hlt]
  · rintro rfl
    have hv := v.toNat_lt
    have hread := (Reader.reads_below (Nat.le_trans (Nat.le_of_lt hv) (by decide)) hv).map
      UInt8.ofNat
    rw [UInt8.ofNat_toNat] at hread
    have hall := hread []
    rwa [List.append_nil] at hall

end Abi

/-! ## Requests and results -/

open Abi

theorem SubCall.length_encode (c : SubCall) : c.encode.length = c.size := by
  rw [encode, List.length_append, List.length_append, length_word, length_word, length_blob, size]
  omega

theorem CallResult.length_encode (r : CallResult) : r.encode.length = r.size := by
  rw [encode, List.length_append, List.length_append, length_word, length_word, length_blob, size]
  omega

theorem SubCall.reads_encode {c : SubCall} (h : c.data.length ≤ Word.maxNat) :
    SubCall.reader.Reads c.encode c := by
  have hbits : c.target.bits.toNat < Address.count := c.target.bits.isLt
  have hc : (⟨⟨BitVec.ofNat 160 c.target.bits.toNat⟩, c.data⟩ : SubCall) = c := by
    rw [BitVec.ofNat_toNat, BitVec.setWidth_eq]
  refine (Reader.reads_below (Nat.le_trans (Nat.le_of_lt hbits) (by decide)) hbits).bind
    ((Reader.reads_expect (by decide)).bind ?_)
  have hb := (Reader.reads_blob h).map fun data =>
    (⟨⟨BitVec.ofNat 160 c.target.bits.toNat⟩, data⟩ : SubCall)
  rwa [hc] at hb

theorem CallResult.reads_encode {r : CallResult} (h : r.data.length ≤ Word.maxNat) :
    CallResult.reader.Reads r.encode r := by
  have hflag : r.success.toNat < 256 := Nat.lt_of_le_of_lt r.success.toNat_le (by decide)
  have hr : (⟨decide (r.success.toNat ≠ 0), r.data⟩ : CallResult) = r := by
    obtain ⟨success, data⟩ := r
    cases success <;> rfl
  refine (Reader.reads_below (Nat.le_trans (Nat.le_of_lt hflag) (by decide)) hflag).bind
    ((Reader.reads_expect (by decide)).bind ?_)
  have hb := (Reader.reads_blob h).map fun data =>
    (⟨decide (r.success.toNat ≠ 0), data⟩ : CallResult)
  rwa [hr] at hb

/-- The layout of one of many is no longer than that of all. -/
theorem length_le_flatten {α : Type} (layout : α → Bytes) {vs : List α} {v : α} (h : v ∈ vs) :
    (layout v).length ≤ (vs.map layout).flatten.length := by
  obtain ⟨front, back, rfl⟩ := List.append_of_mem h
  simp only [List.map_append, List.map_cons, List.flatten_append, List.flatten_cons,
    List.length_append]
  omega

/-- A request that is no longer than a word can say is read back as it was made. -/
theorem Aggregate.decode?_encode {a : Aggregate}
    (h : 32 * a.calls.length + (a.calls.map SubCall.encode).flatten.length ≤ Word.maxNat) :
    Aggregate.decode? a.encode = some a := by
  have hdata : ∀ c ∈ a.calls, c.data.length ≤ Word.maxNat := by
    intro c hc
    have hl := length_le_flatten SubCall.encode hc
    rw [c.length_encode, SubCall.size, blobSize] at hl
    omega
  have hlayouts : List.Forall₂ (fun c l => SubCall.reader.Reads l c ∧ c.size = l.length) a.calls
      (a.calls.map SubCall.encode) :=
    List.forall₂_map_right_iff.2 (List.forall₂_same.2 fun c hc =>
      ⟨SubCall.reads_encode (hdata c hc), c.length_encode.symm⟩)
  have hrecords := Reader.reads_records hlayouts (by rwa [List.length_map])
  have hflag : a.requireSuccess.toNat < 2 :=
    Nat.lt_of_le_of_lt a.requireSuccess.toNat_le (by decide)
  have ha : (⟨decide (a.requireSuccess.toNat ≠ 0), a.calls⟩ : Aggregate) = a := by
    obtain ⟨requireSuccess, calls⟩ := a
    cases requireSuccess <;> rfl
  have hcalls := hrecords.map fun calls =>
    (⟨decide (a.requireSuccess.toNat ≠ 0), calls⟩ : Aggregate)
  rw [ha] at hcalls
  refine Reader.Reads.exactly ((Reader.reads_take (Bytes.length_ofNat 4 _)).bind ?_)
  rw [if_pos rfl]
  exact (Reader.reads_below (Nat.le_trans (Nat.le_of_lt hflag) (by decide)) hflag).bind
    ((Reader.reads_expect (by decide)).bind hcalls)

/-- Results that are no longer than a word can say are read back as they were reported. -/
theorem Reply.decode?_encode {rs : List CallResult}
    (h : 32 * rs.length + (rs.map CallResult.encode).flatten.length ≤ Word.maxNat) :
    Reply.decode? (Reply.encode rs) = some rs := by
  have hdata : ∀ r ∈ rs, r.data.length ≤ Word.maxNat := by
    intro r hr
    have hl := length_le_flatten CallResult.encode hr
    rw [r.length_encode, CallResult.size, blobSize] at hl
    omega
  have hlayouts : List.Forall₂ (fun r l => CallResult.reader.Reads l r ∧ r.size = l.length) rs
      (rs.map CallResult.encode) :=
    List.forall₂_map_right_iff.2 (List.forall₂_same.2 fun r hr =>
      ⟨CallResult.reads_encode (hdata r hr), r.length_encode.symm⟩)
  have hrecords := Reader.reads_records hlayouts (by rwa [List.length_map])
  exact Reader.Reads.exactly ((Reader.reads_expect (by decide)).bind hrecords)

end StakingSnapshot
