import LineageLoad.Random.Draw
import LineageLoad.Workload.Error

/-!
The kinds of load and their parameters, with the names they have in configurations and reports.
-/

namespace LineageLoad

/-- A range of counts as it is configured; it may be empty. -/
structure CountRange where
  minimum : Nat
  maximum : Nat
  deriving DecidableEq, Repr, Inhabited

/-- The range as one to draw from, if it is not empty. -/
def CountRange.sampler? (range : CountRange) : Except BenchError Sampler :=
  if h : range.minimum ≤ range.maximum then .ok ⟨range.minimum, range.maximum, h⟩
  else .error (.emptyRange range.minimum range.maximum)

/-- The two kinds of links. -/
inductive LinkKind where
  | attribution
  | association
  deriving DecidableEq, Repr, Inhabited

/-- The kind of node that a link joins to a context. -/
def LinkKind.nodeKind : LinkKind → Kind
  | attribution => .artifact
  | association => .execution

/-- How types are read. -/
inductive TypeRead where
  | all
  | byId
  | byName
  deriving DecidableEq, Repr, Inhabited

/-- How nodes are read. -/
inductive NodeRead where
  | byId
  | byType
  | byTypeAndName
  deriving DecidableEq, Repr, Inhabited

/-- Along which links nodes are read. -/
inductive LinkRead where
  | artifactsByContext
  | executionsByContext
  | contextsByArtifact
  | contextsByExecution
  deriving DecidableEq, Repr, Inhabited

/-- The kind of node that a read along links starts from. -/
def LinkRead.sourceKind : LinkRead → Kind
  | artifactsByContext => .context
  | executionsByContext => .context
  | contextsByArtifact => .artifact
  | contextsByExecution => .execution

/-- The end of the events that are read. -/
inductive EventRead where
  | byArtifact
  | byExecution
  deriving DecidableEq, Repr, Inhabited

/-- The kind of node whose events are read. -/
def EventRead.sourceKind : EventRead → Kind
  | byArtifact => .artifact
  | byExecution => .execution

/-- One kind of load; counts are drawn from ranges of type (ρ). -/
inductive Load (ρ : Type) where
  | fillTypes (kind : Kind) (update : Bool) (numProperties : ρ)
  | fillNodes (kind : Kind) (update : Bool) (numProperties stringBytes : ρ)
  | fillLinks (link : LinkKind)
  | fillEvents (direction : Direction)
  | readTypes (kind : Kind) (read : TypeRead)
  | readNodes (kind : Kind) (read : NodeRead)
  | readLinked (read : LinkRead)
  | readEvents (read : EventRead)
  deriving DecidableEq, Inhabited

namespace Load

/-- Checks the ranges of a load, in the order of their parameters. -/
def validate : Load CountRange → Except BenchError (Load Sampler)
  | fillTypes kind update numProperties =>
    numProperties.sampler?.map (fillTypes kind update ·)
  | fillNodes kind update numProperties stringBytes => do
    let numProperties ← numProperties.sampler?
    let stringBytes ← stringBytes.sampler?
    return fillNodes kind update numProperties stringBytes
  | fillLinks link => .ok (fillLinks link)
  | fillEvents direction => .ok (fillEvents direction)
  | readTypes kind read => .ok (readTypes kind read)
  | readNodes kind read => .ok (readNodes kind read)
  | readLinked read => .ok (readLinked read)
  | readEvents read => .ok (readEvents read)

variable {ρ : Type}

/-- The name of what a load targets, in its configuration. -/
def specification : Load ρ → String
  | fillTypes kind .. => kind.typeLabel
  | fillNodes kind .. => kind.label
  | fillLinks .attribution => "attribution"
  | fillLinks .association => "association"
  | fillEvents direction => direction.label
  | readTypes kind .all => "all_" ++ kind.label ++ "_types"
  | readTypes kind .byId => kind.label ++ "_types_by_id"
  | readTypes kind .byName => kind.label ++ "_type_by_name"
  | readNodes kind .byId => kind.label ++ "s_by_id"
  | readNodes kind .byType => kind.label ++ "s_by_type"
  | readNodes kind .byTypeAndName => kind.label ++ "_by_type_and_name"
  | readLinked .artifactsByContext => "artifacts_by_context"
  | readLinked .executionsByContext => "executions_by_context"
  | readLinked .contextsByArtifact => "contexts_by_artifact"
  | readLinked .contextsByExecution => "contexts_by_execution"
  | readEvents .byArtifact => "events_by_artifact_ids"
  | readEvents .byExecution => "events_by_execution_ids"

/-- The mark of a load that updates what is there. -/
def updateMark (update : Bool) : String := if update then "(update)" else ""

/-- The name under which a load is reported. -/
def name : Load ρ → String
  | fillTypes kind update _ => "fill_" ++ kind.typeLabel ++ updateMark update
  | fillNodes kind update .. => "fill_" ++ kind.label ++ updateMark update
  | fillLinks .attribution => "fill_attribution"
  | fillLinks .association => "fill_association"
  | fillEvents direction => "fill_" ++ direction.label ++ "_event"
  | load => "read_" ++ load.specification

end Load

end LineageLoad
