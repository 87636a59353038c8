import LineageLoad.Store.Call

/-!
Estimated sizes of what is written to a store and read from it, in bytes. Text counts in UTF-8.
-/

namespace LineageLoad

/-- The sum of a measure of all items. -/
def sumOf {α : Type} (measure : α → Nat) : List α → Nat
  | [] => 0
  | item :: rest => measure item + sumOf measure rest

/-- The size of the ids that every node carries. -/
def Node.baseBytes : Nat := 16

def Value.numberBytes : Nat := 8

/-- The size of an event, which is the ids of its ends. -/
def Event.bytes : Nat := 16

/-- The size of a link, which is the ids of its ends. -/
def Link.bytes : Nat := 8

/-- The size of a type that is written: its name and the names of its properties. -/
def EntityType.bytes (type : EntityType) : Nat :=
  type.name.utf8ByteSize + sumOf (·.1.utf8ByteSize) type.properties.toList

/-- The size of a type that is read: as written, with one byte more for each property. -/
def EntityType.readBytes (type : EntityType) : Nat :=
  type.name.utf8ByteSize + sumOf (·.1.utf8ByteSize + 1) type.properties.toList

def Value.bytes : Value → Nat
  | .int _ => Value.numberBytes
  | .double _ => Value.numberBytes
  | .string text => text.utf8ByteSize

/-- The size of properties: their names and values. -/
def propertyBytes (properties : PropertyMap Value) : Nat :=
  sumOf (fun (name, value) => name.utf8ByteSize + value.bytes) properties.toList

/-- The size of a node: ids, names and properties. -/
def Node.bytes (node : Node) : Nat :=
  Node.baseBytes + (node.name.elim 0 (·.utf8ByteSize)) + node.typeName.utf8ByteSize
    + (propertyBytes node.properties + propertyBytes node.customProperties)

/-- The size of what a call reads; writes read nothing that counts. -/
def Call.replyBytes : (call : Call) → call.Reply → Nat
  | .getTypes _, types => sumOf (·.readBytes) types
  | .getTypesById .., types => sumOf (·.readBytes) types
  | .getType .., type => type.elim 0 (·.readBytes)
  | .getNodes _, nodes => sumOf (·.bytes) nodes
  | .getNodesById .., nodes => sumOf (·.bytes) nodes
  | .getNodesByType .., nodes => sumOf (·.bytes) nodes
  | .getNodeByTypeAndName .., node => node.elim 0 (·.bytes)
  | .getEventsByArtifactIds _, events => events.length * Event.bytes
  | .getEventsByExecutionIds _, events => events.length * Event.bytes
  | .getArtifactsByContext _, nodes => sumOf (·.bytes) nodes
  | .getExecutionsByContext _, nodes => sumOf (·.bytes) nodes
  | .getContextsByArtifact _, nodes => sumOf (·.bytes) nodes
  | .getContextsByExecution _, nodes => sumOf (·.bytes) nodes
  | .putType .., _ => 0
  | .putNodes .., _ => 0
  | .putEvents _, _ => 0
  | .putLinks .., _ => 0

end LineageLoad
