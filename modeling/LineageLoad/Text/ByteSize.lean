import LineageLoad.Text.Decimal

/-!
Sizes in bytes as text, with binary units.
-/

namespace LineageLoad
namespace Text

/-- The names of the powers of 1024, from the first one on. -/
def byteUnits : List String := ["KiB", "MiB", "GiB", "TiB", "PiB", "EiB"]

/-- A size with a number of places, in the largest unit that does not exceed it as a floating-point
number; below the first unit it is exact.
-/
def byteSize (places size : Nat) : String :=
  if size < 1024 then toString size ++ " B"
  else
    let (num, den) := (Double.ofNat size).toRatio
    let power := min ((num / den).log2 / 10) byteUnits.length
    fixedQuotient places num (den <<< (10 * power)) ++ " " ++ byteUnits.getD (power - 1) ""

end Text
end LineageLoad
