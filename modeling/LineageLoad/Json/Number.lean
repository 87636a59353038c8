import LineageLoad.Json.Basic

/-!
Number literals. The digits that fit 64 bits make a significand; it is turned into a binary number
first and scaled by a power of ten afterwards, so the last bit may differ from the nearest number.
-/

namespace LineageLoad

/-- The parts of a number literal; digits are numbers below ten. -/
structure NumberLiteral where
  negative : Bool
  whole : List Nat
  fraction : List Nat
  /-- Whether the exponent is negative, and its digits. -/
  exponent : Option (Bool × List Nat)
  deriving Repr, Inhabited

namespace NumberLiteral

/-- The digits at the front of a text, and the rest. -/
def digits : List Char → List Nat × List Char
  | [] => ([], [])
  | c :: rest =>
    if c.isDigit then
      let (found, rest) := digits rest
      ((c.toNat - '0'.toNat) :: found, rest)
    else ([], c :: rest)

/-- The fraction at the front of a text: a point needs a digit after it. -/
def fraction? : List Char → Option (List Nat × List Char)
  | '.' :: rest =>
    match digits rest with
    | ([], _) => none
    | found => some found
  | rest => some ([], rest)

/-- The sign at the front of a text: whether it is a minus. -/
def sign : List Char → Bool × List Char
  | '-' :: rest => (true, rest)
  | '+' :: rest => (false, rest)
  | rest => (false, rest)

/-- The exponent at the front of a text: its mark needs a digit after it. -/
def exponent? : List Char → Option (Option (Bool × List Nat) × List Char)
  | [] => some (none, [])
  | c :: rest =>
    if c = 'e' ∨ c = 'E' then
      let (negative, rest) := sign rest
      match digits rest with
      | ([], _) => none
      | (found, rest) => some (some (negative, found), rest)
    else some (none, c :: rest)

/-- Reads a literal; a zero in front stands alone. -/
def scan? (text : List Char) : Option (NumberLiteral × List Char) := do
  let (negative, text) := match text with
    | '-' :: rest => (true, rest)
    | rest => (false, rest)
  let (whole, text) := digits text
  guard (whole ≠ [])
  guard (whole.length = 1 ∨ whole.head? ≠ some 0)
  let (fraction, text) ← fraction? text
  let (exponent, text) ← exponent? text
  return (⟨negative, whole, fraction, exponent⟩, text)

/-- Appends digits to a number while it stays within a limit; answers what is left over too. -/
def gather (limit : Nat) (number : Nat) : List Nat → Nat × List Nat
  | [] => (number, [])
  | d :: rest =>
    if number * 10 + d ≤ limit then gather limit (number * 10 + d) rest else (number, d :: rest)

/-- The number times a power of ten, by one multiplication, or by divisions of at most 308 places;
none if it grows out of range.
-/
def scale (number : Double) (exponent : Int) : Option Double :=
  if number.bits = 0 then some number
  else if 308 < exponent then none
  else if 0 ≤ exponent then
    let scaled := number.mul (.ofNat (Nat.pow 10 exponent.toNat))
    if scaled.isSpecial then none else some scaled
  else if -308 ≤ exponent then some (number.div (.ofNat (Nat.pow 10 (-exponent).toNat)))
  else scale (number.div (.ofNat (Nat.pow 10 308))) (exponent + 308)
termination_by (-exponent).toNat

def value (literal : NumberLiteral) : Json :=
  let limit := UInt64.size - 1
  let (significand, beyond) := gather limit 0 literal.whole
  let signed (x : Double) : Json := .float (if literal.negative then x.negate else x)
  if beyond = [] ∧ literal.fraction = [] ∧ literal.exponent = none then
    if !literal.negative then .integer significand
    else if 0 < significand ∧ significand ≤ 1 <<< 63 then .integer (-significand)
    else signed (.ofNat significand)
  else
    let (significand, rest) := gather limit significand literal.fraction
    let places : Int := beyond.length - (literal.fraction.length - rest.length : Nat)
    let scaled (exponent : Int) : Json :=
      ((scale (.ofNat significand) exponent).map signed).getD .unreadable
    match literal.exponent with
    | none => scaled places
    | some (negative, digits) =>
      match gather 2147483647 0 digits with
      | (exponent, []) => scaled (if negative then places - exponent else places + exponent)
      | (_, _ :: _) => if significand ≠ 0 ∧ !negative then .unreadable else signed (.ofNat 0)

end NumberLiteral

end LineageLoad
