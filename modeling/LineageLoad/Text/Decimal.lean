import LineageLoad.Double

/-!
Decimal text of numbers with a fixed number of places. A half goes to the even neighbour.
-/

namespace LineageLoad
namespace Text

def zeroPadded (width number : Nat) : String :=
  let digits := toString number
  "".pushn '0' (width - digits.length) ++ digits

def rightAligned (width : Nat) (text : String) : String :=
  "".pushn ' ' (width - text.length) ++ text

/-- A count of units, each one (10 ^ places)-th, as a decimal; at least one place is written. -/
def scaled (places units : Nat) : String :=
  toString (units / Nat.pow 10 places) ++ "." ++ zeroPadded places (units % Nat.pow 10 places)

/-- The quotient of natural numbers with a fixed number of places. -/
def fixedQuotient (places num den : Nat) : String :=
  scaled places (Double.roundQuotient (num * Nat.pow 10 places) den)

/-- A number that is not negative with a fixed number of places, by its exact value. -/
def fixed (places : Nat) (number : Double) : String :=
  if number.isSpecial then "inf"
  else
    let (num, den) := number.toRatio
    fixedQuotient places num den

end Text
end LineageLoad
