/-!
What one successful operation contributes to the statistics.
-/

namespace LineageLoad

/-- The time that an operation took, in nanoseconds, and the size that it moved, in bytes. -/
structure OpStats where
  elapsed : Nat
  bytes : Nat
  deriving DecidableEq, Repr, Inhabited

end LineageLoad
