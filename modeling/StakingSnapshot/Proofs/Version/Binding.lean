import StakingSnapshot.Version

/-!
# Which versions can be read

* `Binding.ofVersion_eq_legacy_iff`, `Binding.ofVersion_eq_atlas_iff`: the versions of each binding.
* `Binding.Supports`: the versions that have one; `Binding.ofVersion_of_not_supports`: the fault of
  the others.
-/

namespace StakingSnapshot

namespace Binding

variable {a : Address} {v : UInt8}

theorem ofVersion_eq_legacy_iff : ofVersion a v = .ok legacy ↔ v = 1 ∨ v = 2 := by
  rw [← UInt8.toNat_inj, ← UInt8.toNat_inj]
  unfold ofVersion
  split
  case h_1 h => simp [h]
  case h_2 h => simp [h]
  case h_3 h => simp [h]
  case h_4 hone htwo _ => simpa using And.intro hone htwo

theorem ofVersion_eq_atlas_iff : ofVersion a v = .ok atlas ↔ v = 3 := by
  rw [← UInt8.toNat_inj]
  unfold ofVersion
  split
  case h_1 h => simp [h]
  case h_2 h => simp [h]
  case h_3 h => simp [h]
  case h_4 hthree => simpa using hthree

/-- Minipools of the version can be read. -/
def Supports (v : UInt8) : Prop := v = 1 ∨ v = 2 ∨ v = 3

instance : Decidable (Supports v) := inferInstanceAs (Decidable (_ ∨ _ ∨ _))

theorem exists_ofVersion_iff : (∃ b, ofVersion a v = .ok b) ↔ Supports v := by
  constructor
  · rintro ⟨b, hb⟩
    cases b with
    | legacy => exact (ofVersion_eq_legacy_iff.1 hb).imp_right .inl
    | atlas => exact .inr (.inr (ofVersion_eq_atlas_iff.1 hb))
  · rintro (h | h | h)
    · exact ⟨legacy, ofVersion_eq_legacy_iff.2 (.inl h)⟩
    · exact ⟨legacy, ofVersion_eq_legacy_iff.2 (.inr h)⟩
    · exact ⟨atlas, ofVersion_eq_atlas_iff.2 h⟩

/-- A version that cannot be read is a fault, which names the minipool and the version. -/
theorem ofVersion_of_not_supports (h : ¬ Supports v) :
    ofVersion a v = .error (.unsupportedVersion a v) := by
  have hnone : ∀ b, ofVersion a v ≠ .ok b := fun b hb => h (exists_ofVersion_iff.1 ⟨b, hb⟩)
  unfold ofVersion at hnone ⊢
  split at hnone
  case h_1 => exact absurd rfl (hnone legacy)
  case h_2 => exact absurd rfl (hnone legacy)
  case h_3 => exact absurd rfl (hnone atlas)
  case h_4 => rfl

end Binding

end StakingSnapshot
