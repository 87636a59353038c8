import LineageLoad.Store.Error

/-!
Why a workload cannot be created, prepared or run: one constructor for each cause, with the category
and the text that a user sees.
-/

namespace LineageLoad

/-- The categories of failures of a benchmark. -/
inductive BenchError.Category where
  | store
  | invalidArgument
  | failedPrecondition
  | invalidConfig
  | notSetUp
  | retriesExhausted
  | workerPanicked
  /-- A step that has no answer, such as a draw from nothing. -/
  | defect
  deriving DecidableEq, Repr, Inhabited

/-- The cause of a failure. -/
inductive BenchError where
  /-- The store refused a call. -/
  | store (error : StoreError)
  | noTypeToInsertWith (kind : Kind)
  | noTypeToCreateOf (kind : Kind)
  | tooFewTypes (kind : Kind) (found needed : Nat)
  | tooFewNodes (kind : Kind) (found needed : Nat)
  | tooFewFreePairs (kind : Kind) (free needed : Nat)
  /-- Pairs are drawn until one is not linked, but not without end: so many draws in a row found
  none, although one is left. It counts as a missing precondition.
  -/
  | noFreePairDrawn (kind : Kind) (draws : Nat)
  | noEventEnds
  | tooFewArtifactsWithoutOutput (found needed : Nat)
  | noTypesToRead (kind : Kind)
  | noNodesToRead (kind : Kind)
  | noTypesToReadNodesOf (kind : Kind)
  | noNodesToReadFrom (kind : Kind)
  | noNodesToReadEventsOf (kind : Kind)
  /-- A generator answered another number of work items than it was asked for. -/
  | wrongItemCount (name : String) (found needed : Nat)
  /-- A scripted preparation fails with this text. -/
  | refusedPreparation (reason : String)
  /-- A scripted attempt fails. -/
  | failedAttempt (attempt index : Nat)
  | typeWithoutId (kind : Kind) (name : String)
  | nodeWithoutId (kind : Kind)
  | indexOutOfRange (name : String) (index held : Nat)
  | emptyRange (minimum maximum : Nat)
  | noThreads
  | noAttempts
  /-- A workload is executed that is not prepared. -/
  | notSetUp (name : String)
  /-- An operation failed as often as the limit allows, the last time with (source). -/
  | retriesExhausted (workload : String) (index attempts : Nat) (source : BenchError)
  | workerPanicked (workload : String)
  /-- A choice from nothing. -/
  | nothingToDraw
  deriving DecidableEq, Repr, Inhabited

namespace BenchError

/-- The category of a cause. -/
def category : BenchError → Category
  | store _ => .store
  | noTypeToInsertWith _ => .failedPrecondition
  | noTypeToCreateOf _ => .failedPrecondition
  | tooFewTypes .. => .failedPrecondition
  | tooFewNodes .. => .failedPrecondition
  | tooFewFreePairs .. => .failedPrecondition
  | noFreePairDrawn .. => .failedPrecondition
  | noEventEnds => .failedPrecondition
  | tooFewArtifactsWithoutOutput .. => .failedPrecondition
  | noTypesToRead _ => .failedPrecondition
  | noNodesToRead _ => .failedPrecondition
  | noTypesToReadNodesOf _ => .failedPrecondition
  | noNodesToReadFrom _ => .failedPrecondition
  | noNodesToReadEventsOf _ => .failedPrecondition
  | wrongItemCount .. => .failedPrecondition
  | refusedPreparation _ => .failedPrecondition
  | failedAttempt .. => .invalidArgument
  | typeWithoutId .. => .invalidArgument
  | nodeWithoutId _ => .invalidArgument
  | indexOutOfRange .. => .invalidArgument
  | emptyRange .. => .invalidConfig
  | noThreads => .invalidConfig
  | noAttempts => .invalidConfig
  | notSetUp _ => .notSetUp
  | retriesExhausted .. => .retriesExhausted
  | workerPanicked _ => .workerPanicked
  | nothingToDraw => .defect

/-- The words that the texts of a category begin with. -/
def Category.heading : Category → String
  | store => "store error: "
  | invalidArgument => "invalid argument: "
  | failedPrecondition => "failed precondition: "
  | invalidConfig => "invalid configuration: "
  | notSetUp => ""
  | retriesExhausted => ""
  | workerPanicked => ""
  | defect => ""

/-- The text of a cause after its heading. -/
def detail : BenchError → String
  | store error => error.message
  | noTypeToInsertWith kind => s!"no {kind.typeLabel} to insert {kind.label}s with"
  | noTypeToCreateOf kind => s!"no {kind.typeLabel} to create {kind.label}s of"
  | tooFewTypes kind found needed =>
    s!"{found} {kind.typeLabel}s exist, {needed} needed for updates"
  | tooFewNodes kind found needed => s!"{found} {kind.label}s exist, {needed} needed for updates"
  | tooFewFreePairs kind free needed =>
    s!"{free} unlinked pairs of {kind.label} and context, {needed} needed"
  | noFreePairDrawn kind draws =>
    s!"no unlinked pair of {kind.label} and context in {draws} draws"
  | noEventEnds => "events need at least one artifact and one execution"
  | tooFewArtifactsWithoutOutput found needed =>
    s!"{found} artifacts without an output event, {needed} needed"
  | noTypesToRead kind => s!"no {kind.typeLabel}s to read"
  | noNodesToRead kind => s!"no {kind.label}s to read"
  | noTypesToReadNodesOf kind => s!"no {kind.typeLabel}s to read {kind.label}s of"
  | noNodesToReadFrom kind => s!"no {kind.label}s to read from"
  | noNodesToReadEventsOf kind => s!"no {kind.label}s to read events of"
  | wrongItemCount name found needed => s!"`{name}` prepared {found} of {needed} work items"
  | refusedPreparation reason => reason
  | failedAttempt attempt index => s!"attempt {attempt} of {index}"
  | typeWithoutId kind name => s!"{kind.typeLabel} `{name}` has no id"
  | nodeWithoutId kind => s!"{kind.label} without id"
  | indexOutOfRange name index held =>
    s!"index {index} out of range for `{name}` with {held} work items"
  | emptyRange minimum maximum =>
    s!"empty range: minimum {minimum} is larger than maximum {maximum}"
  | noThreads => "num_threads must be at least 1"
  | noAttempts => "max_attempts must be at least 1"
  | notSetUp name => s!"workload `{name}` is not set up"
  | retriesExhausted workload index attempts _ =>
    s!"operation {index} of `{workload}` failed after {attempts} attempts"
  | workerPanicked workload => s!"a worker thread of `{workload}` panicked"
  | nothingToDraw => "nothing to draw from"

def message (error : BenchError) : String := error.category.heading ++ error.detail

end BenchError

end LineageLoad
