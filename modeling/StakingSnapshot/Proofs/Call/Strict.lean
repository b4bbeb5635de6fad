import Mathlib.Data.Nat.ModEq
import StakingSnapshot.Call
import StakingSnapshot.Contract.Node
import StakingSnapshot.Proofs.Abi.Canonical

/-!
# What a method returned is read strictly

* `Abi.Kind.Written`: the layouts of a value. Only a boolean has more than one.
* `Abi.Kind.decode_eq_some_of_written`, `Abi.Kind.takes_reader`: these layouts are read as the
  value, and nothing else is read at all.
* `Abi.blob_injective`: byte strings are told by their layouts.
* `Call.Refuses`: data that is refused, with the fault that says so.
* `Call.Strictness`: what the call of a method promises about its answer; `Call.strictness`: every
  call of every method keeps it.
-/

namespace StakingSnapshot

namespace Abi

/-- A length, a byte string and a filling are the layout of a byte string only if they are its own.
The length may even be one that no word can say. -/
theorem eq_of_eq_blob {as fill bs : Bytes} (hfill : fill.length = Bytes.padding as.length)
    (h : word as.length ++ (as ++ fill) = blob bs) :
    as = bs ∧ fill = List.replicate (Bytes.padding as.length) 0 := by
  have hsize := congrArg List.length h
  rw [length_blob, blobSize, List.length_append, List.length_append, length_word, hfill] at hsize
  have hpad := padding_le as.length
  have hpad' := padding_le bs.length
  obtain ⟨hword, hbytes⟩ := List.append_inj h ((length_word _).trans (length_word _).symm)
  -- The lengths differ by less than 32, and their words are the same.
  have hmod := congrArg Bytes.toNat hword
  rw [word, word, Bytes.toNat_ofNat, Bytes.toNat_ofNat] at hmod
  have hlarge : 32 ≤ Nat.pow 256 32 := by decide
  have hlength : as.length = bs.length :=
    Nat.ModEq.eq_of_abs_lt hmod (abs_lt.2 ⟨by omega, by omega⟩)
  obtain ⟨rfl, hzero⟩ := List.append_inj hbytes hlength
  exact ⟨rfl, hzero⟩

/-- Byte strings have different layouts. -/
theorem blob_injective {as bs : Bytes} (h : blob as = blob bs) : as = bs :=
  (eq_of_eq_blob List.length_replicate h).1

/-- Different numbers that fit into a word have different words. -/
theorem word_injective {m n : Nat} (hm : m ≤ Word.maxNat) (hn : n ≤ Word.maxNat)
    (h : word m = word n) : m = n := by
  rw [← toNat_word hm, h, toNat_word hn]

namespace Reader

variable {β : Type} {r : Reader Nat} (ofNat : Nat → β) (toNat : β → Nat)

/-- A value that is a number is read from the word of the number. -/
theorem reads_number {v : β} (hr : r.Reads (Abi.word (toNat v)) (toNat v))
    (h : ofNat (toNat v) = v) :
    (do return ofNat (← r) : Reader β).Reads (Abi.word (toNat v)) v := by
  have hread := hr.map ofNat
  rwa [h] at hread

/-- Values that are numbers below a bound are taken from the words of these numbers. -/
theorem takes_number {bound : Nat} (hr : r.Takes fun n used => n < bound ∧ used = Abi.word n)
    (h : ∀ n < bound, toNat (ofNat n) = n) :
    (do return ofNat (← r) : Reader β).Takes fun v used => used = Abi.word (toNat v) := by
  refine (hr.map ofNat).mono ?_
  rintro _ _ ⟨n, ⟨hn, rfl⟩, rfl⟩
  rw [h n hn]

end Reader

namespace Kind

/-- The data is a layout of the value: the one that is written, except that any byte but zero may
stand for true. -/
def Written : (k : Kind) → k.Value → Bytes → Prop
  | bool, b, data => ∃ flag : UInt8, (b = true ↔ flag ≠ 0) ∧ data = word flag.toNat
  | uint256, w, data => data = encode uint256 w
  | int256, i, data => data = encode int256 i
  | uint8, n, data => data = encode uint8 n
  | address, a, data => data = encode address a
  | string, s, data => data = encode string s
  | bytes, bs, data => data = encode bytes bs

theorem written_encode (k : Kind) (v : k.Value) : k.Written v (k.encode v) := by
  cases k with
  | bool =>
    cases v with
    | false => exact ⟨0, by simp, rfl⟩
    | true => exact ⟨1, by simp, rfl⟩
  | _ => rfl

variable {k : Kind} {v : k.Value} {data : Bytes}

/-- Every layout of a value is read as the value, if its length fits into a word. -/
theorem decode_eq_some_of_written (h : k.Written v data) (hfits : data.length ≤ Word.maxNat) :
    k.decode data = some v := by
  refine Reader.Reads.exactly ?_
  have hback : ∀ {w : Nat} (x : BitVec w), BitVec.ofNat w x.toNat = x := fun x => by
    rw [BitVec.ofNat_toNat, BitVec.setWidth_eq]
  cases k with
  | uint256 =>
    obtain rfl : data = word (BitVec.toNat v) := h
    exact Reader.reads_number (BitVec.ofNat 256) BitVec.toNat
      (Reader.reads_word (Nat.le_of_lt_succ v.isLt)) (hback v)
  | int256 =>
    obtain rfl : data = word v.bits.toNat := h
    refine Reader.reads_number (fun n => (⟨BitVec.ofNat 256 n⟩ : SignedWord)) (fun i => i.bits.toNat)
      (Reader.reads_word (Nat.le_of_lt_succ v.bits.isLt)) ?_
    exact congrArg SignedWord.mk (hback v.bits)
  | uint8 =>
    obtain rfl : data = word (UInt8.toNat v) := h
    exact Reader.reads_number UInt8.ofNat UInt8.toNat
      (Reader.reads_small (UInt8.toNat_lt v) (by decide)) UInt8.ofNat_toNat
  | bool =>
    obtain ⟨flag, hflag, rfl⟩ := h
    have hlt : flag.toNat < 256 := flag.toNat_lt
    have hread := (Reader.reads_small hlt (by decide)).map fun n => decide (n ≠ 0)
    rwa [decide_flag hflag] at hread
  | address =>
    obtain rfl : data = word v.bits.toNat := h
    have hlt : v.bits.toNat < Address.count := v.bits.isLt
    refine Reader.reads_number (fun n => (⟨BitVec.ofNat 160 n⟩ : Address)) (fun a => a.bits.toNat)
      (Reader.reads_small hlt (by decide)) ?_
    exact congrArg Address.mk (hback v.bits)
  | string =>
    obtain rfl : data = word 32 ++ blob (Bytes.ofText v) := h
    rw [List.length_append, length_word, length_blob, blobSize] at hfits
    refine (Reader.reads_expect (by decide)).bind ((Reader.reads_blob (by omega)).bind_nil ?_)
    rw [Bytes.toText?_eq_some_iff.2 rfl]
    exact Reader.reads_pure v
  | bytes =>
    obtain rfl : data = word 32 ++ blob v := h
    rw [List.length_append, length_word, length_blob, blobSize] at hfits
    exact (Reader.reads_expect (by decide)).bind (Reader.reads_blob (by omega))

/-- The layout of a signed number is its two's complement. -/
theorem decode_twosComplement (z : Int) :
    int256.decode (word (z % 2 ^ 256).toNat) = some ⟨BitVec.ofInt 256 z⟩ := by
  have hbits : (z % 2 ^ 256).toNat = (BitVec.ofInt 256 z).toNat := by
    rw [BitVec.toNat_ofInt, Int.natCast_pow, Int.cast_ofNat_Int]
  rw [hbits]
  refine decode_eq_some_of_written (written_encode int256 ⟨BitVec.ofInt 256 z⟩) ?_
  rw [length_word]
  decide

/-- Nothing but a layout of a value is read as the value. -/
theorem takes_reader (k : Kind) : k.reader.Takes k.Written := by
  have hword : Reader.word.Takes fun n used => n < 2 ^ 256 ∧ used = Abi.word n :=
    Reader.takes_word.mono fun n used h => ⟨Nat.lt_succ_of_le h.1, h.2⟩
  have hbits : ∀ {w n : Nat}, n < 2 ^ w → (BitVec.ofNat w n).toNat = n := fun h =>
    (BitVec.toNat_ofNat _ _).trans (Nat.mod_eq_of_lt h)
  cases k with
  | uint256 =>
    exact Reader.takes_number (BitVec.ofNat 256) BitVec.toNat hword fun n hn => hbits hn
  | int256 =>
    exact Reader.takes_number (fun n => (⟨BitVec.ofNat 256 n⟩ : SignedWord))
      (fun i => i.bits.toNat) hword fun n hn => hbits hn
  | uint8 =>
    refine Reader.takes_number UInt8.ofNat UInt8.toNat (Reader.takes_below 256) fun n hn => ?_
    rw [UInt8.toNat_ofNat', Nat.mod_eq_of_lt hn]
  | bool =>
    refine ((Reader.takes_below 256).map fun n => decide (n ≠ 0)).mono ?_
    rintro _ _ ⟨n, ⟨hn, rfl⟩, rfl⟩
    obtain ⟨flag, hflag, rfl⟩ := exists_flag hn
    exact ⟨flag, hflag, rfl⟩
  | address =>
    exact Reader.takes_number (fun n => (⟨BitVec.ofNat 160 n⟩ : Address)) (fun a => a.bits.toNat)
      (Reader.takes_below Address.count) fun n hn => hbits hn
  | string =>
    refine ((Reader.takes_expect 32).bind fun _ => Reader.takes_blob.bind fun bs =>
      show Reader.Takes _ fun s used => bs = Bytes.ofText s ∧ used = [] from ?text).mono ?layout
    case text =>
      cases hs : Bytes.toText? bs with
      | none => exact Reader.takes_failure.mono fun _ _ h => h.elim
      | some s =>
        refine (Reader.takes_pure s).mono ?_
        rintro _ _ ⟨rfl, rfl⟩
        exact ⟨Bytes.toText?_eq_some_iff.1 hs, rfl⟩
    case layout =>
      rintro s _ ⟨_, _, _, rfl, ⟨_, _, _, rfl, ⟨rfl, rfl⟩, rfl⟩, rfl⟩
      rw [List.append_nil]
      rfl
  | bytes =>
    refine ((Reader.takes_expect 32).bind fun _ => Reader.takes_blob).mono ?_
    rintro _ _ ⟨_, _, _, rfl, rfl, rfl⟩
    rfl

/-- The numbers that do not fit into a value of the kind begin here. -/
def bound? : Kind → Option Nat
  | uint8 => some 256
  | bool => some 256
  | address => some Address.count
  | _ => none

/-- The values of the kind have layouts of different lengths. -/
def isDynamic : Kind → Bool
  | string => true
  | bytes => true
  | _ => false

/-- A value of a kind with a bound is a number below it, in one word. -/
theorem exists_word_of_written {bound : Nat} (hk : k.bound? = some bound) (h : k.Written v data) :
    ∃ n < bound, data = word n := by
  cases k with
  | uint8 =>
    cases hk
    exact ⟨UInt8.toNat v, UInt8.toNat_lt v, h⟩
  | bool =>
    cases hk
    obtain ⟨flag, -, rfl⟩ := h
    exact ⟨flag.toNat, flag.toNat_lt, rfl⟩
  | address =>
    cases hk
    obtain ⟨bits⟩ := v
    exact ⟨bits.toNat, bits.isLt, h⟩
  | _ => cases hk

/-- A value of a kind without a fixed length is a byte string behind one word. -/
theorem exists_blob_of_written (hk : k.isDynamic = true) (h : k.Written v data) :
    ∃ bs, data = word 32 ++ blob bs := by
  cases k with
  | string => exact ⟨_, h⟩
  | bytes => exact ⟨_, h⟩
  | _ => cases hk

end Kind

end Abi

namespace Call

open Abi

variable {S α : Type} [Arguments α] {k : Kind}

/-- The call refuses the data: its fault names the contract and the method, and no slot changes. -/
def Refuses (m : Method α k) (target : Address) (store : k.Value → S → S) (data : Bytes) : Prop :=
  decoderOf m target store data = .error (.decode target m.signature malformedText) ∧
    ∀ callData rest slots, settle ((encoded m target callData store, ⟨true, data⟩) :: rest) slots =
      (slots, .error (.decode target m.signature malformedText))

/-- What the call of a method promises about the data that it is answered with. -/
structure Strictness (m : Method α k) (target : Address) (store : k.Value → S → S) : Prop where
  /-- A value is read back from the data that is written for it, if its length fits into a word, -/
  encoded : ∀ v, (k.encode v).length ≤ Word.maxNat →
    decoderOf m target store (k.encode v) = .ok (store v)
  /-- and from any other of its layouts. -/
  written : ∀ v data, k.Written v data → data.length ≤ Word.maxNat →
    decoderOf m target store data = .ok (store v)
  /-- What is read is a layout of the value that is stored. -/
  canonical : ∀ data f, decoderOf m target store data = .ok f →
    ∃ v, k.Written v data ∧ f = store v
  /-- All other data is refused: -/
  refused : ∀ data, (∀ v, ¬ k.Written v data) → Refuses m target store data
  /-- data that ends too early, -/
  truncated : ∀ data more f, decoderOf m target store (data ++ more) = .ok f → more ≠ [] →
    Refuses m target store data
  /-- data that goes on too long, -/
  extended : ∀ data more f, decoderOf m target store data = .ok f → more ≠ [] →
    Refuses m target store (data ++ more)
  /-- a number that is too large for the kind, -/
  overflowing : ∀ bound n, k.bound? = some bound → bound ≤ n → n ≤ Word.maxNat →
    Refuses m target store (word n)
  /-- a byte string at another offset, -/
  misplaced : ∀ n rest, k.isDynamic = true → n ≠ 32 → n ≤ Word.maxNat →
    Refuses m target store (word n ++ rest)
  /-- padding that is not zero, -/
  padded : ∀ bs fill, k.isDynamic = true → fill.length = Bytes.padding bs.length →
    fill ≠ List.replicate (Bytes.padding bs.length) 0 →
    Refuses m target store (word 32 ++ (word bs.length ++ (bs ++ fill)))
  /-- and a text that is no UTF-8. -/
  garbled : ∀ bs, k = .string → (∀ s, bs ≠ Bytes.ofText s) →
    Refuses m target store (word 32 ++ blob bs)

section Decoder

variable {m : Method α k} {target : Address} {store : k.Value → S → S} {data : Bytes}

theorem decoderOf_eq_ok_iff {f : S → S} :
    decoderOf m target store data = .ok f ↔ ∃ v, k.decode data = some v ∧ f = store v := by
  unfold decoderOf
  cases k.decode data with
  | none => simp
  | some v => simp [eq_comm]

/-- Data that is not read is refused. -/
theorem refuses_of_decode_eq_none (h : k.decode data = none) : Refuses m target store data := by
  have hdecoder : decoderOf m target store data =
      .error (.decode target m.signature malformedText) := by
    rw [decoderOf, h]
  refine ⟨hdecoder, fun callData rest slots => ?_⟩
  simp only [settle, encoded, hdecoder]

theorem refuses_of_not_written (h : ∀ v, ¬ k.Written v data) : Refuses m target store data := by
  apply refuses_of_decode_eq_none
  cases hd : k.decode data with
  | none => rfl
  | some v => exact absurd ((Kind.takes_reader k).of_exactly hd) (h v)

end Decoder

/-- **Strict reading.** Every call of a method stores the values whose layouts it is answered with
and refuses all other data; the layout of a signed number is its two's complement. -/
theorem strictness (m : Method α k) (target : Address) (store : k.Value → S → S) :
    Strictness m target store ∧
      ∀ z : Int, -2 ^ 255 ≤ z → z < 2 ^ 255 →
        ∃ i : SignedWord, i.toInt = z ∧
          Kind.int256.decode (word (z % 2 ^ 256).toNat) = some i := by
  constructor
  · constructor
    case encoded =>
      intro v hfits
      exact decoderOf_eq_ok_iff.2
        ⟨v, Kind.decode_eq_some_of_written (k.written_encode v) hfits, rfl⟩
    case written =>
      intro v data h hfits
      exact decoderOf_eq_ok_iff.2 ⟨v, Kind.decode_eq_some_of_written h hfits, rfl⟩
    case canonical =>
      intro data f h
      obtain ⟨v, hv, rfl⟩ := decoderOf_eq_ok_iff.1 h
      exact ⟨v, (Kind.takes_reader k).of_exactly hv, rfl⟩
    case refused => exact fun data h => refuses_of_not_written h
    case truncated =>
      intro data more f h hmore
      obtain ⟨v, hv, rfl⟩ := decoderOf_eq_ok_iff.1 h
      exact refuses_of_decode_eq_none
        ((Kind.takes_reader k).exactly_eq_none_of_append hv hmore)
    case extended =>
      intro data more f h hmore
      obtain ⟨v, hv, rfl⟩ := decoderOf_eq_ok_iff.1 h
      exact refuses_of_decode_eq_none ((Kind.takes_reader k).exactly_append_eq_none hv hmore)
    case overflowing =>
      intro bound n hbound hle hn
      refine refuses_of_not_written fun v hwritten => ?_
      obtain ⟨n', hlt, hword⟩ := Kind.exists_word_of_written hbound hwritten
      have := word_injective hn (by omega) hword
      omega
    case misplaced =>
      intro n rest hdynamic hne hn
      refine refuses_of_not_written fun v hwritten => ?_
      obtain ⟨bs, hblob⟩ := Kind.exists_blob_of_written hdynamic hwritten
      have hword := (List.append_inj hblob ((length_word _).trans (length_word _).symm)).1
      exact hne (word_injective hn (by decide) hword)
    case padded =>
      intro bs fill hdynamic hlength hne
      refine refuses_of_not_written fun v hwritten => ?_
      obtain ⟨bs', hblob⟩ := Kind.exists_blob_of_written hdynamic hwritten
      exact hne (eq_of_eq_blob hlength (List.append_cancel_left hblob)).2
    case garbled =>
      intro bs hk htext
      subst hk
      refine refuses_of_not_written fun s hwritten => ?_
      exact htext s (blob_injective (List.append_cancel_left hwritten))
  · intro z hlow hhigh
    refine ⟨⟨BitVec.ofInt 256 z⟩, BitVec.toInt_ofInt_eq_self (by decide) hlow hhigh, ?_⟩
    exact Kind.decode_twosComplement z

/-- A flag whose word holds 2 is set, and is refused with a byte behind it. A word one too large is
refused for an address. Minus one is the word of all ones. -/
theorem strictness_flagAndAddress :
    let flag : Bool → Bool → Bool := fun b _ => b
    let address : Address → Address → Address := fun a _ => a
    decoderOf Contract.NodeManager.getNodeExists ⟨1⟩ flag (word 2) = .ok (flag true) ∧
      Refuses Contract.NodeManager.getNodeExists ⟨1⟩ flag (word 2 ++ [0]) ∧
      Refuses Contract.NodeManager.getNodeAt ⟨1⟩ address (word Address.count) ∧
      ∃ i : SignedWord, i.toInt = -1 ∧ Kind.int256.decode (word Word.maxNat) = some i := by
  intro flag address
  have hflag := (strictness Contract.NodeManager.getNodeExists ⟨1⟩ flag).1
  have hread := hflag.written true (word 2) ⟨2, by decide, rfl⟩ (by decide +kernel)
  obtain ⟨haddress, hsigned⟩ := strictness Contract.NodeManager.getNodeAt ⟨1⟩ address
  exact ⟨hread, hflag.extended _ _ _ hread (by decide),
    haddress.overflowing Address.count Address.count rfl Nat.le.refl (by decide),
    hsigned (-1) (by decide) (by decide)⟩

end Call

end StakingSnapshot
