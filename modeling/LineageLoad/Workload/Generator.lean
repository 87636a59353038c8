import LineageLoad.Workload.FillEvents
import LineageLoad.Workload.FillLinks
import LineageLoad.Workload.FillNodes
import LineageLoad.Workload.FillTypes
import LineageLoad.Workload.ReadLinked
import LineageLoad.Workload.ReadNodes
import LineageLoad.Workload.ReadTypes

/-!
Generators of work items, and the generator that each kind of load is.
-/

namespace LineageLoad

/-- Anything that synthesizes a number of work items from what a store shows and from draws. It has
neither requests of a type of its own nor a way of its own to execute them: the request of an item
is one call, and to execute the item is to ask the store that call. All kinds of load are of this
form.
-/
class Generator (κ : Type) where
  /-- The name under which the load is reported. -/
  name : κ → String
  /-- Synthesizes (count) work items. -/
  generate {σ γ : Type} [WordSource γ] (load : κ) (store : Store σ) (count : Nat)
    : PrepareM σ γ (List WorkItem)

/-- Synthesizes the work items of a kind of load. -/
def Load.generate {σ γ : Type} [WordSource γ] (load : Load Sampler) (store : Store σ)
    (count : Nat) : PrepareM σ γ (List WorkItem) :=
  match load with
  | fillTypes kind false numProperties => FillTypes.inserts kind numProperties store count
  | fillTypes kind true numProperties => FillTypes.updates kind numProperties store count
  | fillNodes kind false numProperties stringBytes =>
    FillNodes.inserts kind numProperties stringBytes store count
  | fillNodes kind true numProperties stringBytes =>
    FillNodes.updates kind numProperties stringBytes store count
  | fillLinks link => FillLinks.inserts link store count
  | fillEvents direction => FillEvents.inserts direction store count
  | readTypes kind read => ReadTypes.reads kind read store count
  | readNodes kind read => ReadNodes.reads kind read store count
  | readLinked read =>
    ReadLinked.reads read.sourceKind (.noNodesToReadFrom read.sourceKind)
      (ReadLinked.linkCall read) store count
  | readEvents read =>
    ReadLinked.reads read.sourceKind (.noNodesToReadEventsOf read.sourceKind)
      (ReadLinked.eventCall read) store count

instance : Generator (Load Sampler) := ⟨Load.name, Load.generate⟩

end LineageLoad
