import LineageLoad.Stats.OpStats
import LineageLoad.Workload.Generator

/-!
The life of a workload: it is prepared, its items are executed by index, and it is torn down.
Workloads of a generator own their items and their source of words.
-/

namespace LineageLoad

/-- How an attempt to execute an operation ends. -/
inductive Outcome where
  | succeeded (op : OpStats)
  | failed (error : BenchError)
  | panicked
  deriving DecidableEq, Inhabited

/-- One runnable unit of load. Stores and workloads answer with what they have become. -/
class Workload (ω : Type) where
  /-- The name under which the workload is reported. -/
  name : ω → String
  /-- The number of operations that a preparation provides. -/
  numOperations : ω → Nat
  /-- The number of work items that are held now. -/
  numItems : ω → Nat
  /-- Synthesizes all work items. -/
  prepare {σ : Type} (workload : ω) (store : Store σ) (state : σ)
    : (Except BenchError Unit × List Note) × ω × σ
  /-- Makes one attempt at the operation with an index; (elapsed) is the time that the store takes,
  in nanoseconds. -/
  execute {σ : Type} (workload : ω) (index elapsed : Nat) (store : Store σ) (state : σ)
    : Outcome × ω × σ
  /-- Lets go of all work items. -/
  teardown : ω → ω

/-- A workload that issues the calls of a generator. -/
structure GeneratedWorkload (κ γ : Type) where
  generator : κ
  numOperations : Nat
  source : γ
  items : List WorkItem := []
  isPrepared : Bool := false
  deriving Inhabited

namespace GeneratedWorkload

variable {κ γ σ : Type} [Generator κ] [WordSource γ]

def name (workload : GeneratedWorkload κ γ) : String := Generator.name workload.generator

/-- Prepares a workload. Without operations the store is not asked; a preparation that fails keeps
the items of the one before, but not its draws.
-/
def prepare (workload : GeneratedWorkload κ γ) (store : Store σ) (state : σ)
    : (Except BenchError Unit × List Note) × GeneratedWorkload κ γ × σ :=
  if workload.numOperations = 0 then
    ((.ok (), []), { workload with items := [], isPrepared := true }, state)
  else
    let (result, p) := (Generator.generate workload.generator store workload.numOperations).run
      { store := state, source := workload.source, notes := [] : Preparation σ γ }
    let drawn := { workload with source := p.source }
    match result with
    | .error error => ((.error error, p.notes), drawn, p.store)
    | .ok items =>
      if items.length = workload.numOperations then
        ((.ok (), p.notes), { drawn with items, isPrepared := true }, p.store)
      else
        ((.error (.wrongItemCount workload.name items.length workload.numOperations), p.notes),
          drawn, p.store)

/-- Issues the call of the item with an index and answers the size that the item moves. -/
def execute (workload : GeneratedWorkload κ γ) (index : Nat) (store : Store σ) (state : σ)
    : Except BenchError Nat × σ :=
  if !workload.isPrepared then (.error (.notSetUp workload.name), state)
  else match workload.items[index]? with
    | none => (.error (.indexOutOfRange workload.name index workload.items.length), state)
    | some item =>
      let (reply, state) := (store.request item.call).run state
      (reply.map fun _ => item.bytes, state)

def teardown (workload : GeneratedWorkload κ γ) : GeneratedWorkload κ γ :=
  { workload with items := [], isPrepared := false }

instance : Workload (GeneratedWorkload κ γ) where
  name := name
  numOperations := numOperations
  numItems workload := workload.items.length
  prepare := prepare
  execute workload index elapsed store state :=
    let (result, state) := workload.execute index store state
    let outcome := match result with
      | .ok bytes => .succeeded ⟨elapsed, bytes⟩
      | .error error => .failed error
    (outcome, workload, state)
  teardown := teardown

end GeneratedWorkload

end LineageLoad
