/-!
How deeply the parts of a regular expression stand inside each other. A single character has no
depth. A repetition, a group, a class and an operation on classes are one level deeper than what
they hold, and so are two or more parts side by side, compared with the deepest of them.
-/

namespace LineageLoad
namespace Pattern

/-- Parts of a pattern side by side. -/
structure Parts where
  count : Nat := 0
  /-- The depth of the deepest one. -/
  depth : Nat := 0
  deriving DecidableEq, Repr, Inhabited

namespace Parts

/-- The parts with a further one of some depth. -/
def push (parts : Parts) (depth : Nat) : Parts := ⟨parts.count + 1, max parts.depth depth⟩

/-- The depth of the parts as a whole. -/
def wholeDepth (parts : Parts) : Nat :=
  if parts.count ≤ 1 then parts.depth else parts.depth + 1

end Parts

/-- What has been read of a group: its branches, the last of which is not finished. -/
structure Branches where
  earlier : Parts := {}
  current : Parts := {}
  /-- The depth of the part that was read last, if it can be repeated. -/
  last : Option Nat := none
  deriving DecidableEq, Repr, Inhabited

namespace Branches

/-- The branches with a further part that can be repeated. -/
def push (branches : Branches) (depth : Nat) : Branches :=
  { branches with current := branches.current.push depth, last := some depth }

/-- The branches with a further part that sets flags and cannot be repeated. -/
def pushSetting (branches : Branches) : Branches :=
  { branches with current := branches.current.push 0, last := none }

/-- The branches when the last part is repeated, which makes it one level deeper. -/
def repeated? (branches : Branches) : Option Branches :=
  branches.last.map fun depth =>
    { branches with
      current := ⟨branches.current.count, max branches.current.depth (depth + 1)⟩
      last := some (depth + 1) }

def next (branches : Branches) : Branches :=
  { earlier := branches.earlier.push branches.current.wholeDepth }

/-- The depth of the branches as a whole. -/
def wholeDepth (branches : Branches) : Nat :=
  (branches.earlier.push branches.current.wholeDepth).wholeDepth

end Branches

/-- What has been read of a class: its members after the last operator. -/
structure Members where
  current : Parts := {}
  /-- The depth of what stands on the left of the last operator. -/
  left : Option Nat := none
  deriving DecidableEq, Repr, Inhabited

namespace Members

def push (members : Members) (depth : Nat) : Members :=
  { members with current := members.current.push depth }

/-- The depth of the members as a whole; an operator has what stands on both sides below it. -/
def wholeDepth (members : Members) : Nat :=
  match members.left with
  | none => members.current.wholeDepth
  | some depth => max depth members.current.wholeDepth + 1

/-- The members after an operator, which has all of those before on its left. -/
def operated (members : Members) : Members := { left := some members.wholeDepth }

end Members

end Pattern
end LineageLoad
