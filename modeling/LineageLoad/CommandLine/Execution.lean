import LineageLoad.Benchmark
import LineageLoad.CommandLine.Arguments
import LineageLoad.Config.Load
import LineageLoad.Log.Filter

/-!
What the program does: it loads its settings, makes the workloads and the runner, and runs them. It
hands on reports, log lines and the reason why it fails.
-/

namespace LineageLoad

/-- Why the program fails. -/
inductive ProgramError where
  | settings (error : DecodeError)
  | workloads (error : BenchError)
  | threads (error : BenchError)
  | run (error : BenchError)
  deriving DecidableEq, Inhabited

namespace ProgramError

def message : ProgramError → String
  | settings _ => "failed to load config"
  | workloads _ => "invalid workload configuration"
  | threads _ => "invalid thread configuration"
  | run error => error.message

/-- The texts of an error and of those that it comes from. -/
def chain : BenchError → List String
  | .store error => [(BenchError.store error).message, error.message]
  | .retriesExhausted workload index attempts source =>
    (BenchError.retriesExhausted workload index attempts source).message :: chain source
  | error => [error.message]

/-- The texts of the causes, the first one closest to the failure. -/
def causes : ProgramError → List String
  | settings error => ["at " ++ ".".intercalate error.path]
  | workloads error => chain error
  | threads error => chain error
  | run error => (chain error).tail

def text (error : ProgramError) : String :=
  "Error: " ++ error.message ++ match error.causes with
    | [] => ""
    | causes => "\n\nCaused by:\n    " ++ "\n    ".intercalate causes

end ProgramError

/-- What a run has shown when it is over. -/
structure Execution where
  reports : List Report := []
  /-- The notes that are logged. -/
  log : List Note := []
  failure : Option ProgramError := none
  deriving Inhabited

namespace Execution

def failed (error : ProgramError) : Execution := { failure := some error }

/-- The number with which the program ends. -/
def exitCode (execution : Execution) : UInt8 := if execution.failure.isSome then 1 else 0

end Execution

def Note.level (note : Note) : LogLevel := if note.isWarning then .warn else .info

namespace Settings

/-- The settings of a run; arguments come before settings. -/
def forRun (arguments : Arguments) (file : Option String) (environment : List (String × String))
    : Except ProgramError Settings := do
  let settings ← (load file environment).mapError .settings
  return { settings with
    threads := { settings.threads with
      numThreads := arguments.threads.getD settings.threads.numThreads } }

/-- The workloads and the runner that settings describe. -/
def plan (settings : Settings) (freshSeed : Nat → UInt64)
    : Except ProgramError (Benchmark × ThreadRunner) := do
  let benchmark ← (Benchmark.new? freshSeed settings.workloads).mapError .workloads
  let runner ← (ThreadRunner.new? settings.connection settings.threads).mapError .threads
  return (benchmark, runner)

/-- The filter of the log lines of a run. -/
def logFilter (settings : Settings) (environment : List (String × String)) : LogFilter :=
  .ofVariable settings.logging.level (environment.lookup "RUST_LOG")

end Settings

/-- Runs what settings describe. (drive) takes the pool of each workload to its end, and
(onReport) gets each report as soon as it is there.
-/
def Execution.ofSettings {m : Type → Type} [Monad m]
    (drive : ThreadRunner → Nat → Pool LoadWorkload → m (Pool LoadWorkload))
    (onReport : Report → m Unit) (settings : Settings) (freshSeed : Nat → UInt64)
    (filter : LogFilter) : m Execution := do
  match settings.plan freshSeed with
  | .error error => return .failed error
  | .ok (benchmark, runner) =>
    let numOperations (position : Nat) : Nat := (benchmark[position]?.map (·.2)).getD 0
    let ((reports, ending), _, state) ← runner.runAll
      (fun position => drive runner (numOperations position)) onReport 0 benchmark
      { server := .empty }
    let failure := match ending with
      | some (.error error) => some (.run error)
      | _ => none
    let notes := if failure.isNone && reports.isEmpty then state.notes ++ [.noWorkloads]
      else state.notes
    let log := notes.filter fun note => filter.admits note.target note.fieldNames note.level
    return { reports, log, failure }

end LineageLoad
