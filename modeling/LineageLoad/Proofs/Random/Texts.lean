import LineageLoad.Proofs.Random.Counts

/-!
Texts have the length that is asked for, in characters and in bytes, whatever words a source gives.
-/

namespace LineageLoad

variable {γ : Type} [WordSource γ]

namespace Draw

/-- A character that is drawn is a letter or a digit, by induction on the budget. -/
theorem alphanumeric_mem (budget : Nat) (g : γ)
    : (alphanumeric budget g).1 ∈ alphanumerics := by
  induction budget generalizing g with
  | zero =>
      have first : 'A' ∈ alphanumerics := by decide +kernel
      exact first
  | succ budget ih =>
      unfold alphanumeric
      dsimp only
      split
      · next found => exact List.mem_of_getElem? found
      · exact ih _

/-- Letters and digits take one byte each. -/
theorem utf8Size_of_mem {character : Char} (member : character ∈ alphanumerics)
    : character.utf8Size = 1 := by
  -- The letters and digits are listed, so that not all characters there are get tried.
  have all : (alphanumerics.all fun character => character.utf8Size = 1) = true := by decide +kernel
  exact of_decide_eq_true (List.all_eq_true.mp all character member)

theorem length_characters (length : Nat) (g : γ)
    : (characters length g).1.length = length := by
  induction length generalizing g with
  | zero => rfl
  | succ length ih =>
      unfold characters
      dsimp only
      rw [List.length_cons, ih]

/-- Characters that are drawn take one byte each, by induction on their number. -/
theorem utf8ByteSize_characters (length : Nat) (g : γ)
    : (String.ofList (characters length g).1).utf8ByteSize = length := by
  induction length generalizing g with
  | zero => rfl
  | succ length ih =>
      have first := utf8Size_of_mem (alphanumeric_mem rejectionBudget g)
      have rest := ih (alphanumeric rejectionBudget g).2
      unfold characters
      dsimp only
      rw [String.ofList_cons, String.utf8ByteSize_append, String.utf8ByteSize_singleton, first,
        rest, Nat.add_comm]

end Draw

/-- A text that is generated: its length was drawn, and each of its characters takes one byte. -/
structure Sampler.IsText (range : Sampler) (γ : Type) [WordSource γ] (text : String) : Prop where
  length : range.IsSample γ text.length
  bytes : text.utf8ByteSize = text.length

theorem Sampler.isText (range : Sampler) (g : γ)
    : let drawn := range.sample g
      range.IsText γ (Draw.text drawn.1 drawn.2).1 := by
  intro drawn
  have length : (Draw.text drawn.1 drawn.2).1.length = drawn.1 := by
    unfold Draw.text
    rw [String.length_ofList, Draw.length_characters]
  constructor
  · rw [length]
    exact range.isSample g
  · rw [length]
    exact Draw.utf8ByteSize_characters drawn.1 drawn.2

end LineageLoad
