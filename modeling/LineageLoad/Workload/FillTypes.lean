import LineageLoad.Workload.Existing
import LineageLoad.Workload.Names

/-!
Load that creates types, or adds properties to types that exist.
-/

namespace LineageLoad

namespace FillTypes

variable {σ γ : Type} [WordSource γ]

/-- The properties of a new type: numbered from 0, all of them texts. -/
def newProperties (count : Nat) : PropertyMap PropertyType :=
  .ofList ((List.range count).map fun i => (numbered "p-" i, PropertyType.string))

def item (kind : Kind) (type : EntityType) (canAddFields : Bool) : WorkItem :=
  ⟨.putType kind type canAddFields, type.bytes⟩

/-- Items that create types under the first free numbers from (next) on; (taken) holds the names of
the kind that are in use.
-/
def insertItems (kind : Kind) (numProperties : Sampler)
    : (count next : Nat) → (taken : List String) → DrawM γ (List WorkItem)
  | 0, _, _ => return []
  | count + 1, next, taken => do
    let number := firstFree (fun k => taken.contains (numbered "type_" k)) (taken.length + 1) next
    let name := numbered "type_" number
    let properties ← DrawM.draw numProperties.sample
    let type : EntityType := { id := none, name, properties := newProperties properties }
    let rest ← insertItems kind numProperties count (number + 1) (name :: taken)
    return item kind type false :: rest

/-- Adds properties under the first free numbers from (next) on. -/
def addProperties : (count next : Nat) → PropertyMap PropertyType → PropertyMap PropertyType
  | 0, _, properties => properties
  | count + 1, next, properties =>
    let number := firstFree (fun k => properties.contains (numbered "add_p-" k))
      (properties.size + 1) next
    addProperties count (number + 1) (properties.insert (numbered "add_p-" number) .string)

/-- Items that add at least one property to each of the given types. -/
def updateItems (kind : Kind) (numProperties : Sampler)
    : List EntityType → DrawM γ (List WorkItem)
  | [] => return []
  | type :: rest => do
    let sampled ← DrawM.draw numProperties.sample
    let properties := addProperties (max sampled 1) type.properties.size type.properties
    let rest ← updateItems kind numProperties rest
    return item kind { type with properties } true :: rest

def inserts (kind : Kind) (numProperties : Sampler) (store : Store σ) (count : Nat)
    : PrepareM σ γ (List WorkItem) := do
  let existing ← PrepareM.onStore (store.existingTypes kind)
  let total ← PrepareM.onStore store.totalTypes
  PrepareM.onSource (insertItems kind numProperties count total (existing.map (·.name)))

/-- Creates types that are missing for updates; one that the store refuses is passed over. -/
def makeUp (kind : Kind) (numProperties : Sampler) (store : Store σ) (missing : Nat)
    : PrepareM σ γ Unit := do
  PrepareM.note (.makingUpTypes kind missing)
  let items ← inserts kind numProperties store missing
  items.forM fun item =>
    let name := match item.call with
      | .putType _ type _ => type.name
      | _ => ""
    PrepareM.issue store (.failedType name) item.call

/-- Synthesizes updates of the first types, after creating those that are missing. -/
def updates (kind : Kind) (numProperties : Sampler) (store : Store σ) (count : Nat)
    : PrepareM σ γ (List WorkItem) := do
  let mut existing ← PrepareM.onStore (store.existingTypes kind)
  if existing.length < count then
    makeUp kind numProperties store (count - existing.length)
    existing ← PrepareM.onStore (store.existingTypes kind)
  if existing.length < count then throw (.tooFewTypes kind existing.length count)
  PrepareM.onSource (updateItems kind numProperties (existing.take count))

end FillTypes

end LineageLoad
