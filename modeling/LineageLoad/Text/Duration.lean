import LineageLoad.Text.Decimal

/-!
Durations, which are counts of nanoseconds: as seconds in floating point, and as text.
-/

namespace LineageLoad
namespace Duration

/-- The number of nanoseconds of a second. -/
def second : Nat := 1000000000

/-- The duration in seconds: the whole seconds and the fraction are rounded on their own. -/
def toSeconds (nanos : Nat) : Double :=
  (Double.ofNat (nanos / second)).add ((Double.ofNat (nanos % second)).div (.ofNat second))

/-- The duration of a number of seconds, to the nearest nanosecond. -/
def ofSeconds (seconds : Double) : Nat :=
  let (num, den) := seconds.toRatio
  Double.roundQuotient (num * second) den

/-- The largest unit that is not longer than the duration: its length, the places of a nanosecond
in it, and its name.
-/
def unit (nanos : Nat) : Nat × Nat × String :=
  if second ≤ nanos then (second, 9, "s")
  else if 1000000 ≤ nanos then (1000000, 6, "ms")
  else if 1000 ≤ nanos then (1000, 3, "µs")
  else (1, 0, "ns")

/-- The duration in its unit with two places. -/
def short (nanos : Nat) : String :=
  let (length, _, name) := unit nanos
  Text.fixedQuotient 2 nanos length ++ name

/-- The duration in its unit, exactly and without needless places. -/
def exact (nanos : Nat) : String :=
  let (length, places, name) := unit nanos
  let digits := (Text.zeroPadded places (nanos % length)).toList
  let kept := (digits.reverse.dropWhile (· = '0')).reverse
  let fraction := if nanos % length = 0 then "" else "." ++ String.ofList kept
  toString (nanos / length) ++ fraction ++ name

end Duration
end LineageLoad
