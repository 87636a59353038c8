import LineageLoad.Random.Draw

/-!
Counts stay within the range that they are drawn from, whatever words a source gives.
-/

namespace LineageLoad
namespace Sampler

variable {γ : Type} [WordSource γ]

/-- An offset that is drawn is below the size, by induction on the budget. -/
theorem offset_lt {size : Nat} (positive : 0 < size) (threshold budget : Nat) (g : γ)
    : (offset size threshold budget g).1 < size := by
  induction budget generalizing g with
  | zero => exact positive
  | succ budget ih =>
      unfold offset
      dsimp only
      split
      · exact ih _
      · exact Nat.div_lt_of_lt_mul
          (Nat.mul_lt_mul_of_pos_right (WordSource.next g).1.toNat_lt positive)

theorem sample_bounds (range : Sampler) (g : γ)
    : range.minimum ≤ (range.sample g).1 ∧ (range.sample g).1 ≤ range.maximum := by
  have ordered := range.minimum_le_maximum
  have positive : 0 < range.size := Nat.succ_pos _
  unfold sample
  split
  · have below := offset_lt positive ((UInt64.size - range.size) % range.size) rejectionBudget g
    unfold size at below ⊢
    dsimp only
    omega
  -- A range of at least as many counts as there are words admits every word.
  · next large =>
      have word : (WordSource.next g).1.toNat < UInt64.size := (WordSource.next g).1.toNat_lt
      unfold size at large
      dsimp only
      omega

/-- A count that is drawn from a range, and so within it. -/
structure IsSample (range : Sampler) (γ : Type) [WordSource γ] (count : Nat) : Prop where
  drawn : ∃ g : γ, (range.sample g).1 = count
  minimum_le : range.minimum ≤ count
  le_maximum : count ≤ range.maximum

theorem isSample (range : Sampler) (g : γ)
    : range.IsSample γ (range.sample g).1 :=
  ⟨⟨g, rfl⟩, (range.sample_bounds g).1, (range.sample_bounds g).2⟩

/-- Counts that are drawn one after the other, and the source after them. -/
def samples (range : Sampler) : (count : Nat) → γ → List Nat × γ
  | 0, g => ([], g)
  | count + 1, g =>
    let (first, g) := range.sample g
    let (rest, g) := samples range count g
    (first :: rest, g)

theorem length_samples (range : Sampler) (count : Nat) (g : γ)
    : (range.samples count g).1.length = count := by
  induction count generalizing g with
  | zero => rfl
  | succ count ih => exact congrArg Nat.succ (ih (range.sample g).2)

theorem samples_bounds (range : Sampler) (count : Nat) (g : γ)
    : ∀ sampled ∈ (range.samples count g).1,
        range.minimum ≤ sampled ∧ sampled ≤ range.maximum := by
  induction count generalizing g with
  | zero => exact List.forall_mem_nil _
  | succ count ih => exact List.forall_mem_cons.mpr ⟨range.sample_bounds g, ih _⟩

end Sampler
end LineageLoad
