import LineageLoad.Stats.Milestone
import LineageLoad.Stats.OpStats
import LineageLoad.Stats.Report
import LineageLoad.Stats.Sketch

/-!
What one worker counts, and the merging of the counts of all workers. Instants are nanoseconds from
a common origin.
-/

namespace LineageLoad

/-- A point in time. -/
abbrev Instant := Int

/-- The counts of a worker. Counts and sums are taken as not overflowing 64 bits. -/
structure ThreadStats where
  started : Option Instant := none
  finished : Option Instant := none
  /-- The number of successful operations. -/
  done : Nat := 0
  /-- The number of failed attempts. -/
  failures : Nat := 0
  bytes : Nat := 0
  latency : Nat := 0
  latencies : Sketch := {}
  /-- The milestone that is not reached yet. -/
  nextReport : Nat := Milestone.first
  deriving DecidableEq, Repr, Inhabited

namespace ThreadStats

def new : ThreadStats := {}

def startAt (stats : ThreadStats) (instant : Instant) : ThreadStats :=
  { stats with started := some instant }

def stopAt (stats : ThreadStats) (instant : Instant) : ThreadStats :=
  { stats with finished := some instant }

/-- Whether all workers together have come to the next milestone with (totalDone) operations. -/
def reachesMilestone (stats : ThreadStats) (totalDone : Nat) : Bool := stats.nextReport ≤ totalDone

/-- Counts a successful operation, after which all workers have completed (totalDone). Answers the
progress to report, which is this number if a milestone is reached.
-/
def updateReporting (stats : ThreadStats) (op : OpStats) (totalDone : Nat)
    : Option Nat × ThreadStats :=
  (if stats.reachesMilestone totalDone then some totalDone else none,
    { stats with
      done := stats.done + 1
      bytes := stats.bytes + op.bytes
      latency := stats.latency + op.elapsed
      latencies := stats.latencies.add (Duration.toSeconds op.elapsed)
      nextReport := Milestone.after stats.nextReport totalDone })

/-- The counts after a successful operation. -/
def update (stats : ThreadStats) (op : OpStats) (totalDone : Nat) : ThreadStats :=
  (stats.updateReporting op totalDone).2

@[simp] theorem update_done (stats : ThreadStats) (op : OpStats) (totalDone : Nat)
    : (stats.update op totalDone).done = stats.done + 1 :=
  rfl

@[simp] theorem update_failures (stats : ThreadStats) (op : OpStats) (totalDone : Nat)
    : (stats.update op totalDone).failures = stats.failures :=
  rfl

@[simp] theorem update_bytes (stats : ThreadStats) (op : OpStats) (totalDone : Nat)
    : (stats.update op totalDone).bytes = stats.bytes + op.bytes :=
  rfl

@[simp] theorem update_latency (stats : ThreadStats) (op : OpStats) (totalDone : Nat)
    : (stats.update op totalDone).latency = stats.latency + op.elapsed :=
  rfl

def recordFailure (stats : ThreadStats) : ThreadStats :=
  { stats with failures := stats.failures + 1 }

/-- The earlier of two instants; one that is missing gives way to the other. -/
def earliest : Option Instant → Option Instant → Option Instant
  | some a, some b => some (min a b)
  | a, b => a.or b

/-- The later of two instants; one that is missing gives way to the other. -/
def latest : Option Instant → Option Instant → Option Instant
  | some a, some b => some (max a b)
  | a, b => a.or b

/-- Adds the counts of another worker; the time span covers both. -/
def merge (stats other : ThreadStats) : ThreadStats :=
  { stats with
    started := earliest stats.started other.started
    finished := latest stats.finished other.finished
    done := stats.done + other.done
    failures := stats.failures + other.failures
    bytes := stats.bytes + other.bytes
    latency := stats.latency + other.latency
    latencies := stats.latencies.merge other.latencies }

/-- The time from start to finish, and none if one of them is missing or they are reversed. -/
def elapsed (stats : ThreadStats) : Nat :=
  match stats.started, stats.finished with
  | some started, some finished => (finished - started).toNat
  | _, _ => 0

/-- The report of the workload with a name. -/
def report (stats : ThreadStats) (name : String) : Report :=
  let quantile (num den : Nat) : Option Nat :=
    (stats.latencies.quantile? (.ofRatio num den)).map Duration.ofSeconds
  { name
    operations := stats.done
    failures := stats.failures
    bytes := stats.bytes
    elapsed := stats.elapsed
    totalLatency := stats.latency
    p50 := quantile 1 2
    p90 := quantile 9 10
    p99 := quantile 99 100 }

/-- The text of counts without a start and a finish. -/
def debugText (stats : ThreadStats) : String :=
  let instant (time : Option Instant) : String := time.elim "None" fun time => s!"Some({time})"
  "ThreadStats \x7b start: " ++ instant stats.started ++ ", finish: " ++ instant stats.finished
    ++ s!", done: {stats.done}, failures: {stats.failures}, bytes: {stats.bytes}, latency: "
    ++ Duration.exact stats.latency ++ ", .. \x7d"

end ThreadStats
end LineageLoad
