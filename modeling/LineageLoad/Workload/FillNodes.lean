import LineageLoad.Workload.Existing
import LineageLoad.Workload.Names

/-!
Load that creates nodes, or adds properties to nodes that exist.
-/

namespace LineageLoad
namespace FillNodes

variable {σ γ : Type} [WordSource γ]

/-- Draws a text whose length is drawn first. -/
def drawText (stringBytes : Sampler) (g : γ) : Value × γ :=
  let (length, g) := stringBytes.sample g
  let (text, g) := Draw.text length g
  (.string text, g)

def drawValue (stringBytes : Sampler) : PropertyType → γ → Value × γ
  | .int, g => let (value, g) := Draw.int64 g; (.int value, g)
  | .double, g => let (value, g) := Draw.unitDouble g; (.double value, g)
  | .string, g => drawText stringBytes g

/-- Draws values for properties of the given names and types, in order. -/
def drawProperties (stringBytes : Sampler)
    : List (String × PropertyType) → γ → List (String × Value) × γ
  | [], g => ([], g)
  | (name, type) :: rest, g =>
    let (value, g) := drawValue stringBytes type g
    let (rest, g) := drawProperties stringBytes rest g
    ((name, value) :: rest, g)

def item (kind : Kind) (node : Node) : WorkItem := ⟨.putNodes kind [node], node.bytes⟩

/-- The names and types of the custom properties of a new node, numbered from (start) to (stop). -/
def customNames (start stop : Nat) : List (String × PropertyType) :=
  (List.range' start (stop - start)).map fun i => (numbered "custom_p-" i, PropertyType.string)

/-- Items that create nodes of the given types under the first free numbers from (next) on; (taken)
holds the names in use, each with the id of its type. Declared properties come first.
-/
def insertItems (kind : Kind) (numProperties stringBytes : Sampler)
    (types : List (EntityId × EntityType))
    : (count next : Nat) → (taken : List (EntityId × String)) → DrawM γ (List WorkItem)
  | 0, _, _ => return []
  | count + 1, next, taken => do
    let (typeId, type) ← DrawM.choose types
    let number := firstFree (fun k => taken.contains (typeId, numbered "node_" k))
      (taken.length + 1) next
    let name := numbered "node_" number
    let wanted ← DrawM.draw numProperties.sample
    let declared := type.properties.toList.take wanted
    let properties ← DrawM.draw (drawProperties stringBytes declared)
    let custom ← DrawM.draw (drawProperties stringBytes (customNames declared.length wanted))
    let node : Node := {
      id := none, typeId, typeName := type.name, name := some name
      properties := .ofList properties, customProperties := .ofList custom }
    let rest ← insertItems kind numProperties stringBytes types count (number + 1)
      ((typeId, name) :: taken)
    return item kind node :: rest

/-- Adds custom properties under the first free numbers from (next) on. -/
def addProperties (stringBytes : Sampler)
    : (count next : Nat) → PropertyMap Value → γ → PropertyMap Value × γ
  | 0, _, properties, g => (properties, g)
  | count + 1, next, properties, g =>
    let number := firstFree (fun k => properties.contains (numbered "update_p-" k))
      (properties.size + 1) next
    let (value, g) := drawText stringBytes g
    addProperties stringBytes count (number + 1)
      (properties.insert (numbered "update_p-" number) value) g

/-- Items that add at least one custom property to each of the given nodes. -/
def updateItems (kind : Kind) (numProperties stringBytes : Sampler)
    : List Node → DrawM γ (List WorkItem)
  | [] => return []
  | node :: rest => do
    let sampled ← DrawM.draw numProperties.sample
    let customProperties ← DrawM.draw
      (addProperties stringBytes (max sampled 1) node.numProperties node.customProperties)
    let rest ← updateItems kind numProperties stringBytes rest
    return item kind { node with customProperties } :: rest

def inserts (kind : Kind) (numProperties stringBytes : Sampler) (store : Store σ) (count : Nat)
    : PrepareM σ γ (List WorkItem) := do
  let types ← PrepareM.onStore (store.existingTypes kind)
  let types := types.filterMap fun type => type.id.map (·, type)
  if types.isEmpty then throw (.noTypeToCreateOf kind)
  let existing ← PrepareM.onStore (store.existingNodes kind)
  let taken := existing.filterMap fun node => node.name.map (node.typeId, ·)
  PrepareM.onSource
    (insertItems kind numProperties stringBytes types count existing.length taken)

/-- Creates nodes that are missing for updates; one that the store refuses is passed over. -/
def makeUp (kind : Kind) (numProperties stringBytes : Sampler) (store : Store σ) (missing : Nat)
    : PrepareM σ γ Unit := do
  PrepareM.note (.makingUpNodes kind missing)
  let items ← inserts kind numProperties stringBytes store missing
  items.forM fun item => PrepareM.issue store (.failedNode kind) item.call

/-- Synthesizes updates of the first nodes, after creating those that are missing. -/
def updates (kind : Kind) (numProperties stringBytes : Sampler) (store : Store σ) (count : Nat)
    : PrepareM σ γ (List WorkItem) := do
  let mut existing ← PrepareM.onStore (store.existingNodes kind)
  if existing.length < count then
    makeUp kind numProperties stringBytes store (count - existing.length)
    existing ← PrepareM.onStore (store.existingNodes kind)
  if existing.length < count then throw (.tooFewNodes kind existing.length count)
  PrepareM.onSource (updateItems kind numProperties stringBytes (existing.take count))

end FillNodes
end LineageLoad
