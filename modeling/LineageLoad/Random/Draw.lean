import LineageLoad.Double
import LineageLoad.Random.Source

/-!
Draws of numbers, choices and text from a source of words. Draws that reject words have a budget
for rejections that is never used up in practice; past it they still answer a value in range.
-/

namespace LineageLoad

/-- How many words a rejecting draw tries: each one is accepted with a chance above one half. -/
def rejectionBudget : Nat := 1024

/-- A range of counts with both ends, not empty. -/
structure Sampler where
  minimum : Nat
  maximum : Nat
  minimum_le_maximum : minimum ≤ maximum := by omega

namespace Sampler

def size (range : Sampler) : Nat := range.maximum - range.minimum + 1

variable {γ : Type} [WordSource γ]

/-- Draws an offset below (size): the high half of the product with a word, unless the low half
lies below (threshold), where some offsets would be too frequent.
-/
def offset (size threshold : Nat) : (budget : Nat) → γ → Nat × γ
  | 0, g => (0, g)
  | budget + 1, g =>
    let (word, g) := WordSource.next g
    let product := word.toNat * size
    if product % UInt64.size < threshold then offset size threshold budget g
    else (product / UInt64.size, g)

/-- Draws a count, each one of the range with the same chance. -/
def sample (range : Sampler) (g : γ) : Nat × γ :=
  if range.size < UInt64.size then
    let (k, g) := offset range.size ((UInt64.size - range.size) % range.size) rejectionBudget g
    (range.minimum + k, g)
  else
    let (word, g) := WordSource.next g
    (range.minimum + word.toNat, g)

end Sampler

namespace Draw

variable {γ : Type} [WordSource γ]

/-- A word of 32 bits: the high half of a word. -/
def word32 (g : γ) : Nat × γ :=
  let (word, g) := WordSource.next g
  ((word >>> 32).toNat, g)

def word64 (g : γ) : Nat × γ :=
  let (word, g) := WordSource.next g
  (word.toNat, g)

/-- Draws a number below (n) from words below (modulus): the high part of the product with a word,
corrected by the carry of a second word if the low part leaves the choice open.
-/
def widened (modulus n : Nat) (word : γ → Nat × γ) (g : γ) : Nat × γ :=
  let (x, g) := word g
  let product := x * n
  let high := product / modulus
  let low := product % modulus
  if modulus - n < low then
    let (y, g) := word g
    (if modulus ≤ low + y * n / modulus then high + 1 else high, g)
  else (high, g)

/-- Draws a number below (n); there is none below 0, and then nothing is drawn. -/
def below (n : Nat) (g : γ) : Option Nat × γ :=
  if n = 0 then (none, g)
  else
    let (k, g) :=
      if n ≤ UInt32.size then widened UInt32.size n word32 g
      else widened UInt64.size n word64 g
    (some k, g)

def element {α : Type} (items : List α) (g : γ) : Option α × γ :=
  let (position, g) := below items.length g
  (position.bind (items[·]?), g)

/-- The list without the element at a position, whose place the last one takes. -/
def swapRemove {α : Type} (items : List α) (position : Nat) : List α :=
  match items.getLast? with
  | none => []
  | some last => (items.set position last).dropLast

/-- Draws an element of a list and takes it away. -/
def removed {α : Type} (items : List α) (g : γ) : Option (α × List α) × γ :=
  let (position, g) := below items.length g
  (position.bind fun position => items[position]?.map (·, swapRemove items position), g)

def int64 (g : γ) : Int64 × γ :=
  let (word, g) := WordSource.next g
  (word.toInt64, g)

/-- Draws a number of at least 0 and below 1 with 53 random bits. -/
def unitDouble (g : γ) : Double × γ :=
  let (word, g) := WordSource.next g
  (Double.ofRatio (word >>> 11).toNat (1 <<< 53), g)

def alphanumerics : List Char :=
  "ABCDEFGHIJKLMNOPQRSTUVWXYZabcdefghijklmnopqrstuvwxyz0123456789".toList

/-- Draws a character: six bits of a word, drawn anew while they name none. -/
def alphanumeric : (budget : Nat) → γ → Char × γ
  | 0, g => ('A', g)
  | budget + 1, g =>
    let (word, g) := word32 g
    match alphanumerics[word >>> 26]? with
    | some character => (character, g)
    | none => alphanumeric budget g

/-- Draws characters for a text of a given length. -/
def characters : (length : Nat) → γ → List Char × γ
  | 0, g => ([], g)
  | length + 1, g =>
    let (first, g) := alphanumeric rejectionBudget g
    let (rest, g) := characters length g
    (first :: rest, g)

def text (length : Nat) (g : γ) : String × γ :=
  let (characters, g) := characters length g
  (String.ofList characters, g)

end Draw

end LineageLoad
