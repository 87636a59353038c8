import LineageLoad.Workload.Existing
import LineageLoad.Workload.Names

/-!
Filling a store with types and nodes that workloads can start from.
-/

namespace LineageLoad
namespace Store

variable {σ : Type}

/-- Creates types with the given numbers, each with one property. -/
def seedTypesOf (store : Store σ) (kind : Kind) : (numbers : List Nat) → BenchM σ Unit
  | [] => return
  | number :: rest => do
    let name := numbered s!"pre_insert_{kind.typeLabel}-" number
    let type : EntityType :=
      { id := none, name, properties := (∅ : PropertyMap PropertyType).insert "property" .string }
    let _ ← store.request (.putType kind type false)
    seedTypesOf store kind rest

/-- Creates a number of types for each kind, numbered from the count of those that exist. -/
def seedTypes (store : Store σ) (counts : PerKind Nat) : BenchM σ Unit :=
  Kind.all.forM fun kind => do
    let existing ← store.existingTypes kind
    seedTypesOf store kind (List.range' existing.length (counts.get kind))

/-- The value with a number for a declared property. -/
def seedValue (number : Nat) : PropertyType → Value
  | .int => .int (Int64.ofNat number)
  | .double => .double (Double.ofNat number)
  | .string => .string (numbered "value-" number)

/-- The node with a number, which has all properties that its type declares. -/
def seedNode (kind : Kind) (typeId : EntityId) (type : EntityType) (number : Nat) : Node where
  id := none
  typeId := typeId
  typeName := ""
  name := some (numbered s!"pre_insert_{kind.label}-" number)
  properties := type.properties.map fun _ declared => seedValue number declared
  customProperties := ∅

/-- Creates nodes of a kind with its first type. -/
def seedNodesOf (store : Store σ) (kind : Kind) (count : Nat) : BenchM σ Unit := do
  let types ← store.existingTypes kind
  let some type := types.head? | throw (.noTypeToInsertWith kind)
  let some typeId := type.id | throw (.typeWithoutId kind type.name)
  let existing ← store.existingNodes kind
  let nodes := (List.range' existing.length count).map (seedNode kind typeId type)
  let _ ← store.request (.putNodes kind nodes)

/-- Creates a number of nodes for each kind; a kind without nodes to create is passed over. -/
def seedNodes (store : Store σ) (counts : PerKind Nat) : BenchM σ Unit :=
  Kind.all.forM fun kind =>
    if counts.get kind = 0 then return else seedNodesOf store kind (counts.get kind)

end Store
end LineageLoad
