/-!
Binary floating-point numbers of 64 bits, kept as their bits, with arithmetic that rounds the exact
result to the nearest number and ties to the even one. Only non-negative operands are needed here.
-/

namespace LineageLoad

/-- A binary64 number. Two numbers are equal when their bits are. -/
structure Double where
  bits : UInt64
  deriving DecidableEq, Repr, Inhabited

namespace Double

/-- The quotient of (num) and (den) rounded to the nearest integer, ties to the even one. -/
def roundQuotient (num den : Nat) : Nat :=
  let quotient := num / den
  let rest := num % den
  if 2 * rest < den then quotient
  else if den < 2 * rest then quotient + 1
  else if quotient % 2 = 0 then quotient
  else quotient + 1

def infinityBits : Nat := 0x7ff0000000000000

/-- The number with the bit of the sign alone. -/
def signBit : Nat := 0x8000000000000000

/-- The bit in front of the 52 bits of a fraction, which normal numbers do not store. -/
def hiddenBit : Nat := 0x10000000000000

/-- The number nearest to (num / den), which is not negative; (den) is positive. A value too large
for a finite number becomes infinity.

The number is (m * 2 ^ e) with (e) at least -1074 and (m) below 2 ^ 53; its bits then are
(m + (e + 1074) * 2 ^ 52), as a carry of the rounding runs into the exponent.
-/
def ofRatio (num den : Nat) : Double :=
  if num = 0 then ⟨0⟩ else
    -- The exponent that leaves 53 bits of quotient, by the lengths of both numbers.
    let guess : Int := (num.log2 : Int) - (den.log2 : Int) - 52
    let scaled (e : Int) : Nat × Nat :=
      if 0 ≤ e then (num, den <<< e.toNat) else (num <<< (-e).toNat, den)
    let fits (e : Int) : Bool :=
      let (n, d) := scaled e
      decide (n / d < 2 * hiddenBit ∧ hiddenBit ≤ n / d)
    let exponent := if fits guess then guess else guess - 1
    let exponent := max exponent (-1074)
    let (n, d) := scaled exponent
    let significand := roundQuotient n d
    let bits := significand + (exponent + 1074).toNat * hiddenBit
    ⟨(min bits infinityBits).toUInt64⟩

def ofNat (n : Nat) : Double := ofRatio n 1

def negate (x : Double) : Double := ⟨x.bits ^^^ 0x8000000000000000⟩

/-- Whether the number is infinite or not a number. -/
def isSpecial (x : Double) : Bool := infinityBits ≤ x.bits.toNat % signBit

/-- The magnitude of a finite number as a quotient of natural numbers. -/
def toRatio (x : Double) : Nat × Nat :=
  let magnitude := x.bits.toNat % signBit
  let field := magnitude / hiddenBit
  let fraction := magnitude % hiddenBit
  if field = 0 then (fraction, 1 <<< 1074)
  else if 1075 ≤ field then ((fraction + hiddenBit) <<< (field - 1075), 1)
  else (fraction + hiddenBit, 1 <<< (1075 - field))

/-- The sum of two numbers that are not negative. -/
def add (x y : Double) : Double :=
  if x.isSpecial then x else if y.isSpecial then y else
    let (a, b) := x.toRatio
    let (c, d) := y.toRatio
    ofRatio (a * d + c * b) (b * d)

/-- The product of two numbers that are not negative. -/
def mul (x y : Double) : Double :=
  if x.isSpecial then x else if y.isSpecial then y else
    let (a, b) := x.toRatio
    let (c, d) := y.toRatio
    ofRatio (a * c) (b * d)

/-- The quotient of two numbers that are not negative, the second one positive and finite. -/
def div (x y : Double) : Double :=
  if x.isSpecial then x else
    let (a, b) := x.toRatio
    let (c, d) := y.toRatio
    ofRatio (a * d) (b * c)

def isPositive (x : Double) : Bool := 0 < x.bits.toNat && x.bits.toNat ≤ infinityBits

/-- The integer part of a number that is not negative; an infinite number has (limit). -/
def truncate (x : Double) (limit : Nat) : Nat :=
  if x.isSpecial then limit else
    let (a, b) := x.toRatio
    min (a / b) limit

end Double

end LineageLoad
