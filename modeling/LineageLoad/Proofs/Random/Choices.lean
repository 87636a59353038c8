import LineageLoad.Random.Draw
import Mathlib.Data.List.Perm.Basic

/-!
Choices stay within what there is to choose from, whatever words a source gives.
-/

namespace LineageLoad
namespace Draw

variable {γ α : Type}

/-- A number drawn from words below a modulus is below its bound. If the low part of the product
leaves the choice open, then the high part is not the last number yet, so the carry keeps it below.
-/
theorem widened_lt {modulus n : Nat} {word : γ → Nat × γ} (bounded : ∀ g, (word g).1 < modulus)
    (positive : 0 < n) (g : γ)
    : (widened modulus n word g).1 < n := by
  have product : (word g).1 * n + n ≤ modulus * n := by
    rw [← Nat.succ_mul]
    exact Nat.mul_le_mul_right n (bounded g)
  have split := Nat.div_add_mod ((word g).1 * n) modulus
  have high : (word g).1 * n / modulus < n := Nat.div_lt_of_lt_mul (by omega)
  unfold widened
  dsimp only
  split
  · next isOpen =>
      have carried : (word g).1 * n / modulus + 1 < n := by
        refine Nat.lt_of_not_le fun last => ?_
        have most : modulus * n ≤ modulus * ((word g).1 * n / modulus) + modulus := by
          rw [← Nat.mul_succ]
          exact Nat.mul_le_mul_left modulus last
        omega
      dsimp only
      split
      · exact carried
      · exact high
  · exact high

variable [WordSource γ]

/-- A number below a positive bound can be drawn. -/
theorem below_lt {n : Nat} (positive : 0 < n) (g : γ)
    : ∃ k, (below n g).1 = some k ∧ k < n := by
  have short (g : γ) : (word32 g).1 < UInt32.size := by
    change (((WordSource.next g).1 >>> 32).toNat) < _
    rw [UInt64.toNat_shiftRight, Nat.shiftRight_eq_div_pow]
    have word := (WordSource.next g).1.toNat_lt
    exact Nat.div_lt_of_lt_mul word
  have long (g : γ) : (word64 g).1 < UInt64.size := (WordSource.next g).1.toNat_lt
  unfold below
  rw [if_neg (Nat.ne_of_gt positive)]
  by_cases small : n ≤ UInt32.size
  · rw [if_pos small]
    exact ⟨_, rfl, widened_lt short positive g⟩
  · rw [if_neg small]
    exact ⟨_, rfl, widened_lt long positive g⟩

theorem element_mem {items : List α} (held : items ≠ []) (g : γ)
    : ∃ item ∈ items, (element items g).1 = some item := by
  obtain ⟨position, drawn, inside⟩ := below_lt (List.length_pos_iff.mpr held) g
  refine ⟨items[position], List.getElem_mem inside, ?_⟩
  change (below items.length g).1.bind (items[·]?) = _
  rw [drawn]
  exact List.getElem?_eq_getElem inside

/-- Taking an element away leaves the others: the last one of them changes its place. -/
theorem cons_swapRemove_perm {items : List α} {position : Nat} (inside : position < items.length)
    : (items[position] :: swapRemove items position).Perm items := by
  have held : items ≠ [] := List.length_pos_iff.mp (Nat.zero_lt_of_lt inside)
  obtain ⟨rest, last, rfl⟩ : ∃ rest last, items = rest ++ [last] :=
    ⟨_, _, (List.dropLast_concat_getLast held).symm⟩
  have swapped : swapRemove (rest ++ [last]) position
      = ((rest ++ [last]).set position last).dropLast := by
    unfold swapRemove
    rw [List.getLast?_concat]
  rw [swapped, List.set_append]
  by_cases early : position < rest.length
  · rw [if_pos early, List.dropLast_concat, List.getElem_append_left early]
    have put := (List.set_perm_cons_eraseIdx early last).cons rest[position]
    have others := (List.getElem_cons_eraseIdx_perm early).cons last
    exact (put.trans (.swap _ _ _)).trans (others.trans (List.perm_append_singleton last rest).symm)
  · have final : position = rest.length := by
      rw [List.length_append, List.length_singleton] at inside
      omega
    subst final
    simpa using (List.perm_append_singleton last rest).symm

/-- An element can be drawn and taken away from a list that is not empty. -/
theorem removed_perm {items : List α} (held : items ≠ []) (g : γ)
    : ∃ item rest, (removed items g).1 = some (item, rest) ∧ (item :: rest).Perm items := by
  obtain ⟨position, drawn, inside⟩ := below_lt (List.length_pos_iff.mpr held) g
  refine ⟨items[position], swapRemove items position, ?_, cons_swapRemove_perm inside⟩
  change ((below items.length g).1.bind fun position =>
    items[position]?.map (·, swapRemove items position)) = _
  rw [drawn, Option.bind_some, List.getElem?_eq_getElem inside, Option.map_some]

end Draw
end LineageLoad
