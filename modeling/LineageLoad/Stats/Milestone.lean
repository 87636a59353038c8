/-!
The counts of completed operations at which progress is reported. They get sparser as the count
grows.
-/

namespace LineageLoad
namespace Milestone

def first : Nat := 100

/-- The distance from a milestone to the next one. -/
def interval (milestone : Nat) : Nat :=
  if milestone < 1000 then 100
  else if milestone < 5000 then 500
  else if milestone < 10000 then 1000
  else if milestone < 50000 then 5000
  else if milestone < 100000 then 10000
  else if milestone < 500000 then 50000
  else 100000

/-- Milestones move on, by cases on the band. -/
theorem interval_pos (milestone : Nat)
    : 0 < interval milestone := by
  unfold interval
  repeat' split
  all_goals omega

/-- The first milestone from the given one on that lies above a count. -/
def after (milestone count : Nat) : Nat :=
  if milestone ≤ count then after (milestone + interval milestone) count else milestone
termination_by count + 1 - milestone
decreasing_by
  have := interval_pos milestone
  omega

end Milestone
end LineageLoad
