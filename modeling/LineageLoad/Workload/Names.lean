/-!
Numbered names, and the search for the first number whose name is free.
-/

namespace LineageLoad

/-- The name with a number. -/
def numbered (stem : String) (number : Nat) : String := stem ++ toString number

/-- The first number from (next) on that is not taken. A budget above the count of taken numbers
never runs out.
-/
def firstFree (taken : Nat → Bool) : (budget next : Nat) → Nat
  | 0, next => next
  | budget + 1, next => if taken next then firstFree taken budget (next + 1) else next

end LineageLoad
