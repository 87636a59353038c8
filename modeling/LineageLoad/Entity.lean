import LineageLoad.Kind
import LineageLoad.Value
import Std.Data.ExtTreeMap
import Std.Data.ExtTreeSet

/-!
What a lineage store keeps: types, nodes, events between artifacts and executions, and links of
nodes to contexts. Properties are maps in ascending order of their names.
-/

namespace LineageLoad

/-- The number under which a store keeps a type or a node. -/
abbrev EntityId := Int

/-- Properties by name, listed in ascending order of the names' code points. -/
abbrev PropertyMap (α : Type) := Std.ExtTreeMap String α compare

/-- The schema of nodes of one kind. A type that is not stored yet has no id. -/
structure EntityType where
  id : Option EntityId
  name : String
  properties : PropertyMap PropertyType
  deriving DecidableEq, Inhabited

/-- An artifact, an execution or a context. The name of its type is filled in by the store. -/
structure Node where
  id : Option EntityId
  typeId : EntityId
  typeName : String
  name : Option String
  properties : PropertyMap Value
  customProperties : PropertyMap Value
  deriving DecidableEq, Inhabited

def Node.numProperties (node : Node) : Nat :=
  node.properties.size + node.customProperties.size

/-- Whether an execution consumed an artifact or produced it. -/
inductive Direction where
  | input
  | output
  deriving DecidableEq, Repr, Inhabited

namespace Direction

/-- Both directions, in the order of their declaration. -/
def all : List Direction := [input, output]

/-- The name of the direction. -/
def label : Direction → String
  | input => "input"
  | output => "output"

end Direction

/-- An edge between an artifact and an execution. -/
structure Event where
  artifact : EntityId
  execution : EntityId
  direction : Direction
  deriving DecidableEq, Repr, Inhabited

/-- A link of a node to a context: an attribution if the node is an artifact, an association if it
is an execution.
-/
structure Link where
  node : EntityId
  context : EntityId
  deriving DecidableEq, Repr, Inhabited

end LineageLoad
