import LineageLoad.CommandLine.Execution
import Std.Internal.UV.System

/-!
The program: it reads its arguments, the file of settings and the environment, runs the workloads
against the clock and prints a report for each of them. The log is written when the run is over, so
that it does not disturb what is measured.
-/

namespace LineageLoad

/-- The text of a file, if it can be read. -/
def readText? (path : String) : IO (Option String) := do
  try return some (← IO.FS.readFile path) catch _ => return none

/-- A seed that differs from run to run. -/
def drawSeed : IO UInt64 := do
  let bytes ← IO.getRandomBytes 8
  return bytes.foldl (fun seed byte => seed * 256 + byte.toUInt64) 0

/-- Lets all workers of a pool take steps in rotation until they have ended. Every step is taken
once to see how long it takes, and once more with that time.
-/
def driveTimed (runner : ThreadRunner) (pool : Pool LoadWorkload) : IO (Pool LoadWorkload) := do
  let mut pool := pool
  let mut worker := 0
  while !pool.hasEnded do
    let current := pool
    let now ← IO.monoNanosNow
    let trial ← IO.lazyPure fun _ => current.step runner ⟨worker, now, 0⟩
    let later ← IO.monoNanosNow
    let elapsed := if current.totalDone < trial.totalDone then later - now else 0
    pool := current.step runner ⟨worker, later, elapsed⟩
    worker := (worker + 1) % pool.workers.length
  return pool

/-- Prints the log and the failure of an execution and answers its exit code. -/
def finish (execution : Execution) : IO UInt32 := do
  for note in execution.log do
    IO.eprintln ((if note.isWarning then " WARN " else " INFO ") ++ note.line)
  if let some error := execution.failure then IO.eprintln error.text
  return execution.exitCode.toUInt32

/-- Runs the workloads that arguments, file and environment describe. -/
def runProgram (arguments : Arguments) : IO UInt32 := do
  let environment := (← Std.Internal.UV.System.osEnviron).toList
  let file ← match arguments.config with
    | some path => readText? path
    | none => pure none
  match Settings.forRun arguments file environment with
  | .error error => finish (.failed error)
  | .ok settings =>
    let seed ← drawSeed
    let execution ← Execution.ofSettings (fun runner _ => driveTimed runner)
      (fun report => IO.println ("\n" ++ report.text)) settings
      (fun position => seed + position.toUInt64) (settings.logFilter environment)
    finish execution

end LineageLoad

open LineageLoad in
def main (arguments : List String) : IO UInt32 := do
  match Arguments.parse arguments with
  | .ok (.run arguments) => runProgram arguments
  | .ok .help =>
    IO.println Arguments.usage
    return 0
  | .error error =>
    IO.eprintln (error.message ++ "\n\nRun mlmd-bench --help for more information.")
    return 1
