import LineageLoad.Workload.Error

/-!
What preparations and runs report while they go on: one constructor for each occasion, with the
level, the text and the fields of its log line.
-/

namespace LineageLoad

/-- An occasion that is logged. -/
inductive Note where
  | runningWorkload (workload : String) (operations threads : Nat)
  | skippingRemainder (workload : String) (skipped : Nat)
  | workloadFinished (workload : String) (operations failures : Nat)
  /-- Types are missing that shall be updated. -/
  | makingUpTypes (kind : Kind) (missing : Nat)
  /-- Nodes are missing that shall be updated. -/
  | makingUpNodes (kind : Kind) (missing : Nat)
  | failedType (name : String) (error : BenchError)
  | failedNode (kind : Kind) (error : BenchError)
  | noWorkloads
  deriving DecidableEq, Repr, Inhabited

namespace Note

/-- Whether the note warns; the others inform. -/
def isWarning : Note → Bool
  | runningWorkload .. => false
  | skippingRemainder .. => true
  | workloadFinished .. => false
  | makingUpTypes .. => false
  | makingUpNodes .. => false
  | failedType .. => true
  | failedNode .. => true
  | noWorkloads => true

def message : Note → String
  | runningWorkload .. => "running workload"
  | skippingRemainder .. =>
    "operations are not divisible by the number of threads, skipping the remainder"
  | workloadFinished .. => "workload finished"
  | makingUpTypes .. => "inserting types to update"
  | makingUpNodes .. => "inserting nodes to update"
  | failedType .. => "failed to insert type"
  | failedNode kind _ => "failed to insert " ++ kind.label
  | noWorkloads => "no workloads configured"

/-- The fields of the log line, in order. -/
def fields : Note → List (String × String)
  | runningWorkload workload operations threads =>
    [("workload", workload), ("num_operations", toString operations),
      ("num_threads", toString threads)]
  | skippingRemainder workload skipped => [("workload", workload), ("skipped", toString skipped)]
  | workloadFinished workload operations failures =>
    [("workload", workload), ("operations", toString operations), ("failures", toString failures)]
  | makingUpTypes kind missing => [("kind", kind.typeLabel), ("missing", toString missing)]
  | makingUpNodes kind missing => [("kind", kind.label), ("missing", toString missing)]
  | failedType name error => [("error", error.message), ("name", name)]
  | failedNode _ error => [("error", error.message)]
  | noWorkloads => []

/-- The names of all fields, of which the text is one. Times are logged but not kept. -/
def fieldNames (note : Note) : List String :=
  let names := "message" :: note.fields.map (·.1)
  match note with
  | workloadFinished .. => names ++ ["elapsed"]
  | _ => names

/-- The part of the program that logs the note. -/
def target : Note → String
  | runningWorkload .. => "mlmd_bench::runner"
  | skippingRemainder .. => "mlmd_bench::runner"
  | workloadFinished .. => "mlmd_bench::runner"
  | makingUpTypes .. => "mlmd_bench::workloads::fill_types"
  | makingUpNodes .. => "mlmd_bench::workloads::fill_nodes"
  | failedType .. => "mlmd_bench::workloads::fill_types"
  | failedNode .. => "mlmd_bench::workloads::fill_nodes"
  | noWorkloads => "mlmd_bench::cli"

def line (note : Note) : String :=
  note.target ++ ": " ++ note.message
    ++ String.join (note.fields.map fun (name, value) => " " ++ name ++ "=" ++ value)

end Note

end LineageLoad
