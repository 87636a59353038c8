import LineageLoad.Workload.Existing
import LineageLoad.Workload.Load

/-!
Load that reads all types of a kind, or one of them by id or by name.
-/

namespace LineageLoad
namespace ReadTypes

variable {σ γ : Type} [WordSource γ]

/-- The item that reads a type, or all of them, which take (allBytes). -/
def item (kind : Kind) (read : TypeRead) (allBytes : Nat) (type : EntityType)
    : Except BenchError WorkItem :=
  match read with
  | .all => .ok ⟨.getTypes kind, allBytes⟩
  | .byId =>
    match type.id with
    | some id => .ok ⟨.getTypesById kind [id], type.readBytes⟩
    | none => .error (.typeWithoutId kind type.name)
  | .byName => .ok ⟨.getType kind type.name, type.readBytes⟩

/-- Items that read one of the given types each. -/
def items (kind : Kind) (read : TypeRead) (allBytes : Nat) (types : List EntityType)
    : (count : Nat) → DrawM γ (List WorkItem)
  | 0 => return []
  | count + 1 => do
    let type ← DrawM.choose types
    let first ← item kind read allBytes type
    let rest ← items kind read allBytes types count
    return first :: rest

def reads (kind : Kind) (read : TypeRead) (store : Store σ) (count : Nat)
    : PrepareM σ γ (List WorkItem) := do
  let types ← PrepareM.onStore (store.existingTypes kind)
  if types.isEmpty then throw (.noTypesToRead kind)
  let allBytes := sumOf (·.readBytes) types
  PrepareM.onSource (items kind read allBytes types count)

end ReadTypes
end LineageLoad
