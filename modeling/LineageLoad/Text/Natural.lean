/-!
Natural numbers written in digits of some base.
-/

namespace LineageLoad
namespace Text

def hexDigit? (c : Char) : Option Nat :=
  if '0' ≤ c ∧ c ≤ '9' then some (c.toNat - '0'.toNat)
  else if 'a' ≤ c ∧ c ≤ 'f' then some (c.toNat - 'a'.toNat + 10)
  else if 'A' ≤ c ∧ c ≤ 'F' then some (c.toNat - 'A'.toNat + 10)
  else none

/-- The number that digits write in a base of at most 16; there must be a digit. -/
def natural? (base : Nat) (digits : List Char) : Option Nat :=
  if digits = [] then none
  else digits.foldlM (fun n c => do
    let digit ← hexDigit? c
    guard (digit < base)
    return n * base + digit) 0

/-- The character whose code hexadecimal digits write. -/
def codePoint? (digits : List Char) : Option Char := do
  let code ← natural? 16 digits
  guard code.isValidChar
  return Char.ofNat code

/-- The text after a plus sign that a number may begin with. -/
def afterPlus : List Char → List Char
  | '+' :: rest => rest
  | text => text

/-- The decimal number that a text writes, which may have a plus sign. -/
def decimalNatural? (text : String) : Option Nat := natural? 10 (afterPlus text.toList)

end Text
end LineageLoad
