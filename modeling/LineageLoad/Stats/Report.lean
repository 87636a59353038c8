import LineageLoad.Text.ByteSize
import LineageLoad.Text.Duration
import LineageLoad.Text.Style

/-!
The merged result of one workload, the rates that follow from it, and its text.
-/

namespace LineageLoad

/-- The result of a workload. Durations are in nanoseconds. -/
structure Report where
  name : String
  operations : Nat
  failures : Nat
  bytes : Nat
  /-- The time from the first start of a worker to the last finish. -/
  elapsed : Nat
  /-- The sum of the times of all operations. -/
  totalLatency : Nat
  p50 : Option Nat
  p90 : Option Nat
  p99 : Option Nat
  deriving DecidableEq, Repr, Inhabited

namespace Report

/-- A count per second of a duration, and zero if no time went by. -/
def perSecond (count elapsed : Nat) : Double :=
  let seconds := Duration.toSeconds elapsed
  if seconds.isPositive then (Double.ofNat count).div seconds else ⟨0⟩

def opsPerSecond (report : Report) : Double := perSecond report.operations report.elapsed

def bytesPerSecond (report : Report) : Double := perSecond report.bytes report.elapsed

/-- The average time of an operation, if there was any. -/
def averageLatency (report : Report) : Option Nat :=
  if report.operations = 0 then none
  else some (Duration.ofSeconds
    ((Duration.toSeconds report.totalLatency).div (.ofNat report.operations)))

/-- The average time of an operation in microseconds, and zero without operations. -/
def microsPerOp (report : Report) : Double :=
  if report.operations = 0 then ⟨0⟩
  else
    ((Duration.toSeconds report.totalLatency).mul (.ofNat 1000000)).div (.ofNat report.operations)

/-- The first line: name, counts and duration. -/
def headline (report : Report) : String :=
  let failures := if report.failures = 0 then ""
    else ", " ++ Text.boldRed s!"{report.failures} FAILURES"
  Text.bold "## Workload" ++ " " ++ Text.boldBlue report.name
    ++ " (" ++ Text.bold (toString report.operations) ++ " ops" ++ failures
    ++ ", " ++ Duration.short report.elapsed ++ ")\n"

/-- The second line: time per operation and rates. -/
def rateLine (report : Report) : String :=
  let throughput := report.bytesPerSecond.truncate (UInt64.size - 1)
  "  " ++ Text.bold (Text.rightAligned 11 (Text.fixed 3 report.microsPerOp)) ++ " micros/op; "
    ++ Text.bold (Text.fixed 2 report.opsPerSecond) ++ " operations/s; "
    ++ Text.bold (Text.byteSize 2 throughput) ++ "/s ("
    ++ Text.byteSize 1 report.bytes ++ " total)\n"

/-- The third line: latencies, if all percentiles are known. -/
def latencyLine (report : Report) : String :=
  match report.p50, report.p90, report.p99 with
  | some p50, some p90, some p99 =>
    "  avg: " ++ Text.bold (Duration.short (report.averageLatency.getD 0))
      ++ "; p50: " ++ Duration.short p50
      ++ "; p90: " ++ Duration.short p90
      ++ "; p99: " ++ Duration.short p99
  | _, _, _ => ""

def text (report : Report) : String :=
  report.headline ++ report.rateLine ++ report.latencyLine

end Report
end LineageLoad
