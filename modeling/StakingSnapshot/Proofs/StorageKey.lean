import Mathlib.Data.Set.Function
import StakingSnapshot.Proofs.Text.Address
import StakingSnapshot.StorageKey

/-!
# Keys of the storage contract do not collide

A key is the digest of a namespace with a suffix behind it. Nothing stands between them, but no
namespace begins with another one, so that whatever the suffixes are, what is digested for two
entries is different.

* `StorageKey.Entry`: what is read of the storage contract, and under which key.
* `StorageKey.eq_of_preimage_eq`: namespace and suffix can be told from what is digested.
* `StorageKey.keys_apart`: two entries have one key only if what is digested for them collides.
-/

namespace StakingSnapshot

theorem Abi.Key.toBytes_ofBytes {bs : Bytes} (h : bs.length = 32) :
    (Abi.Key.ofBytes bs).toBytes = bs := by
  have hlt : Bytes.toNat bs < Nat.pow 256 32 := h ▸ Bytes.toNat_lt bs
  have hbits : (Abi.Key.ofBytes bs).bits.toNat = Bytes.toNat bs := Nat.mod_eq_of_lt hlt
  rw [Abi.Key.toBytes, hbits, ← h, Bytes.ofNat_toNat]

theorem Address.toBytes_injective : Function.Injective Address.toBytes :=
  Function.LeftInverse.injective Address.ofBytes_toBytes

namespace StorageKey

/-! ## Namespaces -/

/-- The namespaces of the keys. -/
def spaces : List String := [addressSpace, abiSpace, penaltyCountSpace, penaltyRateSpace]

/-- No namespace begins with another one. -/
theorem eq_of_isPrefix : ∀ space ∈ spaces, ∀ space' ∈ spaces,
    Bytes.ofText space <+: Bytes.ofText space' → space = space' := by
  decide +kernel

theorem eq_of_preimage_eq {space space' : String} {suffix suffix' : Bytes} (hspace : space ∈ spaces)
    (hspace' : space' ∈ spaces) (h : preimage space suffix = preimage space' suffix') :
    space = space' ∧ suffix = suffix' := by
  have hfront : Bytes.ofText space <+: preimage space' suffix' := h ▸ List.prefix_append ..
  have hsame : space = space' := by
    rcases List.prefix_or_prefix_of_prefix hfront (List.prefix_append ..) with hprefix | hprefix
    · exact eq_of_isPrefix space hspace space' hspace' hprefix
    · exact (eq_of_isPrefix space' hspace' space hspace hprefix).symm
  subst hsame
  exact ⟨rfl, List.append_cancel_left h⟩

/-! ## Entries -/

/-- What the storage contract keeps. -/
inductive Entry where
  /-- Where the contract with a name is. -/
  | address (name : String)
  /-- The interface of the contract with a name. -/
  | abi (name : String)
  /-- The number of penalties of a minipool. -/
  | penaltyCount (minipool : Address)
  /-- The rate at which a minipool is penalised. -/
  | penaltyRate (minipool : Address)

namespace Entry

/-- The key under which the entry is kept. -/
def key : Entry → Abi.Key
  | address name => contractAddress name
  | abi name => contractAbi name
  | penaltyCount minipool => StorageKey.penaltyCount minipool
  | penaltyRate minipool => StorageKey.penaltyRate minipool

/-- The namespace of the entry. -/
def space : Entry → String
  | address _ => addressSpace
  | abi _ => abiSpace
  | penaltyCount _ => penaltyCountSpace
  | penaltyRate _ => penaltyRateSpace

/-- What tells the entry from the others in its namespace. -/
def suffix : Entry → Bytes
  | address name => Bytes.ofText name
  | abi name => Bytes.ofText name
  | penaltyCount minipool => minipool.toBytes
  | penaltyRate minipool => minipool.toBytes

/-- What is digested for the key of the entry. -/
def preimage (k : Entry) : Bytes := StorageKey.preimage k.space k.suffix

variable {k l : Entry}

theorem key_eq (k : Entry) : k.key = .ofBytes (Keccak.digest k.preimage) := by
  cases k <;> rfl

theorem space_mem (k : Entry) : k.space ∈ spaces := by
  cases k <;> simp [space, spaces]

theorem eq_of_suffix_eq (hspace : k.space = l.space) (hsuffix : k.suffix = l.suffix) : k = l := by
  cases k <;> cases l
  case address.address => exact congrArg address (Bytes.ofText_injective hsuffix)
  case abi.abi => exact congrArg abi (Bytes.ofText_injective hsuffix)
  case penaltyCount.penaltyCount => exact congrArg penaltyCount (Address.toBytes_injective hsuffix)
  case penaltyRate.penaltyRate => exact congrArg penaltyRate (Address.toBytes_injective hsuffix)
  all_goals
    simp [space, addressSpace, abiSpace, penaltyCountSpace, penaltyRateSpace] at hspace

theorem preimage_injective : Function.Injective preimage := by
  intro k l h
  obtain ⟨hspace, hsuffix⟩ := eq_of_preimage_eq k.space_mem l.space_mem h
  exact eq_of_suffix_eq hspace hsuffix

end Entry

/-- **Keys do not collide.** Where the digest is injective on what is digested for two entries, they
have one key only if they are the same entry: a name or a minipool can be told from the key in any
one namespace, and no key belongs to two namespaces. -/
theorem keys_apart (k l : Entry) :
    k.key = l.key ↔ k = l ∨ ¬ Set.InjOn Keccak.digest {k.preimage, l.preimage} := by
  have hkey : k.key = l.key ↔ Keccak.digest k.preimage = Keccak.digest l.preimage := by
    rw [Entry.key_eq, Entry.key_eq]
    constructor
    · intro h
      have hbytes := congrArg Abi.Key.toBytes h
      rwa [Abi.Key.toBytes_ofBytes (Keccak.length_digest _),
        Abi.Key.toBytes_ofBytes (Keccak.length_digest _)] at hbytes
    · exact congrArg Abi.Key.ofBytes
  rw [hkey, Set.injOn_pair]
  constructor
  · intro hdigest
    by_cases h : k = l
    · exact .inl h
    · exact .inr fun hinj => h (Entry.preimage_injective (hinj hdigest))
  · rintro (rfl | hcollide)
    · rfl
    · exact (Classical.not_imp.1 hcollide).1

end StorageKey

end StakingSnapshot
