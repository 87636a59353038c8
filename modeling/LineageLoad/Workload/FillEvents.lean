import LineageLoad.Workload.Existing

/-!
Load that links artifacts and executions by events. An artifact is the output of one execution at
most, so output events use up the artifacts that have none yet.
-/

namespace LineageLoad
namespace FillEvents

variable {σ γ : Type} [WordSource γ]

def item (event : Event) : WorkItem := ⟨.putEvents [event], Event.bytes⟩

/-- Items for input events between any of the given nodes. -/
def inputItems (artifacts executions : List EntityId) : (count : Nat) → DrawM γ (List WorkItem)
  | 0 => return []
  | count + 1 => do
    let artifact ← DrawM.choose artifacts
    let execution ← DrawM.choose executions
    let rest ← inputItems artifacts executions count
    return item ⟨artifact, execution, .input⟩ :: rest

/-- Items for output events, each of which takes its artifact from the given ones. -/
def outputItems (executions : List EntityId)
    : (count : Nat) → (artifacts : List EntityId) → DrawM γ (List WorkItem)
  | 0, _ => return []
  | count + 1, artifacts => do
    let (artifact, artifacts) ← DrawM.chooseAndRemove artifacts
    let execution ← DrawM.choose executions
    let rest ← outputItems executions count artifacts
    return item ⟨artifact, execution, .output⟩ :: rest

/-- The artifacts among (ids) that none of the events produces. -/
def withoutOutput (ids : List EntityId) (events : List Event) : List EntityId :=
  let outputs := (events.filter (·.direction = .output)).map (·.artifact)
  ids.filter (!outputs.contains ·)

def inserts (direction : Direction) (store : Store σ) (count : Nat)
    : PrepareM σ γ (List WorkItem) := do
  let artifacts ← PrepareM.onStore (store.existingNodes .artifact)
  let executions ← PrepareM.onStore (store.existingNodes .execution)
  let artifacts := artifacts.filterMap (·.id)
  let executions := executions.filterMap (·.id)
  if artifacts.isEmpty || executions.isEmpty then throw .noEventEnds
  match direction with
  | .input => PrepareM.onSource (inputItems artifacts executions count)
  | .output =>
    let events ← PrepareM.request store (.getEventsByArtifactIds artifacts)
    let free := withoutOutput artifacts events
    if free.length < count then throw (.tooFewArtifactsWithoutOutput free.length count)
    PrepareM.onSource (outputItems executions count free)

end FillEvents
end LineageLoad
