import LineageLoad.Json.Number

/-!
Decimal numbers with a point or an exponent, read as the nearest floating-point number.
-/

namespace LineageLoad
namespace Text

/-- The natural number that digits below ten write. -/
def ofDigits (digits : List Nat) : Nat := digits.foldl (fun n d => n * 10 + d) 0

/-- The number nearest to (digits * 10 ^ exponent). An exponent that is out of all proportion gives
infinity or zero at once.
-/
def scientific (digits : List Nat) (exponent : Int) : Double :=
  let significand := ofDigits digits
  if significand = 0 then ⟨0⟩
  else if 310 < exponent then ⟨Double.infinityBits.toUInt64⟩
  else if exponent + digits.length < -330 then ⟨0⟩
  else if 0 ≤ exponent then .ofNat (significand * Nat.pow 10 exponent.toNat)
  else .ofRatio significand (Nat.pow 10 (-exponent).toNat)

/-- The digits after a point, if there is one. -/
def afterPoint : List Char → List Nat × List Char
  | '.' :: rest => NumberLiteral.digits rest
  | rest => ([], rest)

/-- Reads a decimal number: a sign, digits with a point among them or without one, and an exponent,
of which only a digit must be there.
-/
def decimal? (text : List Char) : Option Double := do
  let (negative, text) := NumberLiteral.sign text
  let (whole, text) := NumberLiteral.digits text
  let (fraction, text) := afterPoint text
  guard (whole ++ fraction ≠ [])
  let (exponent, text) ← NumberLiteral.exponent? text
  guard (text = [])
  let power : Int := match exponent with
    | none => 0
    | some (true, digits) => -ofDigits digits
    | some (false, digits) => ofDigits digits
  let number := scientific (whole ++ fraction) (power - fraction.length)
  return if negative then number.negate else number

end Text
end LineageLoad
