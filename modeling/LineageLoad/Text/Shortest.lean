import LineageLoad.Text.Decimal

/-!
The shortest decimal text of numbers: the fewest digits that read back, and of those with as many
digits the nearest ones, all written in places without an exponent.
-/

namespace LineageLoad
namespace Text

/-- A decimal number: (units * 10 ^ exponent). -/
structure Scaled where
  units : Nat
  exponent : Int
  deriving DecidableEq, Repr, Inhabited

namespace Scaled

/-- The value as a quotient of natural numbers. -/
def toRatio (number : Scaled) : Nat × Nat :=
  if 0 ≤ number.exponent then (number.units * Nat.pow 10 number.exponent.toNat, 1)
  else (number.units, Nat.pow 10 (-number.exponent).toNat)

/-- Whether a number is the one that is read from the decimal number. -/
def readsBack (number : Scaled) (x : Double) : Bool :=
  let (num, den) := number.toRatio
  Double.ofRatio num den = x

/-- The same number without a zero as its last digit. -/
def withoutZero (number : Scaled) : Scaled :=
  if number.units ≠ 0 ∧ number.units % 10 = 0 then ⟨number.units / 10, number.exponent + 1⟩
  else number

def text (number : Scaled) : String :=
  if 0 ≤ number.exponent then
    toString number.units ++ "".pushn '0' number.exponent.toNat
  else scaled (-number.exponent).toNat number.units

end Scaled

/-- The exponent of the first digit of a positive quotient. -/
def leadingExponent (num den : Nat) : Int :=
  if den ≤ num then (toString (num / den)).length - 1
  else
    let places := (List.range 400).find? fun places => den ≤ num * Nat.pow 10 places
    Int.negOfNat (places.getD 0)

/-- The decimal numbers with an exponent next to a quotient, the nearer one first; of two as near
the greater one comes first.
-/
def neighbours (num den : Nat) (exponent : Int) : List Scaled :=
  let (n, d) := if 0 ≤ exponent then (num, den * Nat.pow 10 exponent.toNat)
    else (num * Nat.pow 10 (-exponent).toNat, den)
  let below : Scaled := ⟨n / d, exponent⟩
  let above : Scaled := ⟨n / d + 1, exponent⟩
  if d ≤ 2 * (n % d) then [above, below] else [below, above]

/-- The shortest decimal number that reads back as a positive finite number. Every number has one of
at most seventeen digits. Only ten times a single digit can end in a zero, as fewer digits are tried
first.
-/
def shortest (x : Double) : Scaled :=
  let (num, den) := x.toRatio
  let first := leadingExponent num den
  let candidates := (List.range 17).flatMap fun (k : Nat) => neighbours num den (first - k)
  ((candidates.find? (·.readsBack x)).getD ⟨0, 0⟩).withoutZero

/-- The text of a number that may be infinite, with its sign. -/
def shortestText (x : Double) : String :=
  let magnitude : Double := if x.bits.toNat < Double.signBit then x else x.negate
  let digits :=
    if magnitude.bits = 0 then "0"
    else if magnitude.isSpecial then "inf"
    else (shortest magnitude).text
  if x.bits.toNat < Double.signBit then digits else "-" ++ digits

end Text
end LineageLoad
