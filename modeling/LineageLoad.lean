import LineageLoad.Benchmark
import LineageLoad.CommandLine.Arguments
import LineageLoad.CommandLine.Execution
import LineageLoad.Config.Decode
import LineageLoad.Config.Entities
import LineageLoad.Config.Environment
import LineageLoad.Config.Layers
import LineageLoad.Config.Load
import LineageLoad.Config.Settings
import LineageLoad.Config.Workloads
import LineageLoad.Double
import LineageLoad.Entity
import LineageLoad.Json.Basic
import LineageLoad.Json.Number
import LineageLoad.Json.Parser
import LineageLoad.Json.Printer
import LineageLoad.Kind
import LineageLoad.Log.Directive
import LineageLoad.Log.Filter
import LineageLoad.Log.Level
import LineageLoad.Log.Nesting
import LineageLoad.Log.Outline
import LineageLoad.Log.Pattern
import LineageLoad.Main
import LineageLoad.Proofs.Config.Entries
import LineageLoad.Proofs.Random.Choices
import LineageLoad.Proofs.Random.Counts
import LineageLoad.Proofs.Random.Texts
import LineageLoad.Proofs.Runner.Benchmarks
import LineageLoad.Proofs.Runner.Courses
import LineageLoad.Proofs.Runner.Exactness
import LineageLoad.Proofs.Runner.Lifecycle
import LineageLoad.Proofs.Runner.Loads
import LineageLoad.Proofs.Runner.Order
import LineageLoad.Proofs.Runner.Replays
import LineageLoad.Proofs.Runner.Results
import LineageLoad.Proofs.Runner.Schedules
import LineageLoad.Proofs.Runner.Scripts
import LineageLoad.Proofs.Runner.Stages
import LineageLoad.Proofs.Runner.Steps
import LineageLoad.Proofs.Runner.Tallies
import LineageLoad.Proofs.Runner.Verdicts
import LineageLoad.Proofs.Stats.Merging
import LineageLoad.Proofs.Stats.Progress
import LineageLoad.Proofs.Store.Acceptance
import LineageLoad.Proofs.Store.Batches
import LineageLoad.Proofs.Store.Connection
import LineageLoad.Proofs.Store.Failures
import LineageLoad.Proofs.Store.Growth
import LineageLoad.Proofs.Store.HiddenIds
import LineageLoad.Proofs.Store.History
import LineageLoad.Proofs.Store.Identity
import LineageLoad.Proofs.Store.Instances
import LineageLoad.Proofs.Store.Invariant
import LineageLoad.Proofs.Store.Isolation
import LineageLoad.Proofs.Store.Linkage
import LineageLoad.Proofs.Store.Listings
import LineageLoad.Proofs.Store.Lookups
import LineageLoad.Proofs.Store.Numbering
import LineageLoad.Proofs.Store.Refusals
import LineageLoad.Proofs.Store.Relabeling
import LineageLoad.Proofs.Store.Rows
import LineageLoad.Proofs.Store.Schemas
import LineageLoad.Proofs.Store.Seeds
import LineageLoad.Proofs.Workload.Attempts
import LineageLoad.Proofs.Workload.Estimates
import LineageLoad.Proofs.Workload.Executions
import LineageLoad.Proofs.Workload.FillEvents
import LineageLoad.Proofs.Workload.FillLinks
import LineageLoad.Proofs.Workload.FillNodes
import LineageLoad.Proofs.Workload.FillTypes
import LineageLoad.Proofs.Workload.FreshPairs
import LineageLoad.Proofs.Workload.Guarantees
import LineageLoad.Proofs.Workload.HeldItems
import LineageLoad.Proofs.Workload.MakeUp
import LineageLoad.Proofs.Workload.Names
import LineageLoad.Proofs.Workload.NewLinks
import LineageLoad.Proofs.Workload.NewNodes
import LineageLoad.Proofs.Workload.NewTypes
import LineageLoad.Proofs.Workload.NodeUpdates
import LineageLoad.Proofs.Workload.Orders
import LineageLoad.Proofs.Workload.Outputs
import LineageLoad.Proofs.Workload.Preparation
import LineageLoad.Proofs.Workload.PropertyNames
import LineageLoad.Proofs.Workload.Reads
import LineageLoad.Proofs.Workload.Requests
import LineageLoad.Proofs.Workload.Resilience
import LineageLoad.Proofs.Workload.SafeFills
import LineageLoad.Proofs.Workload.SafeLoads
import LineageLoad.Proofs.Workload.Safety
import LineageLoad.Proofs.Workload.SeedHistory
import LineageLoad.Proofs.Workload.Seeding
import LineageLoad.Proofs.Workload.Successes
import LineageLoad.Proofs.Workload.Trials
import LineageLoad.Proofs.Workload.TypeUpdates
import LineageLoad.Proofs.Workload.WrittenSizes
import LineageLoad.Random.Draw
import LineageLoad.Random.Source
import LineageLoad.Runner.Pool
import LineageLoad.Runner.Run
import LineageLoad.Runner.Scripted
import LineageLoad.Runner.Watched
import LineageLoad.Seeding
import LineageLoad.Size
import LineageLoad.Stats.Milestone
import LineageLoad.Stats.OpStats
import LineageLoad.Stats.Report
import LineageLoad.Stats.Sketch
import LineageLoad.Stats.ThreadStats
import LineageLoad.Store.Call
import LineageLoad.Store.Database
import LineageLoad.Store.Error
import LineageLoad.Store.Fault
import LineageLoad.Store.InPlace
import LineageLoad.Store.Server
import LineageLoad.Store.Session
import LineageLoad.Store.Snapshot
import LineageLoad.Store.Write
import LineageLoad.Text.Alphanumeric
import LineageLoad.Text.ByteSize
import LineageLoad.Text.Bytes
import LineageLoad.Text.Decimal
import LineageLoad.Text.Duration
import LineageLoad.Text.Natural
import LineageLoad.Text.Scientific
import LineageLoad.Text.Shortest
import LineageLoad.Text.Style
import LineageLoad.Text.Whitespace
import LineageLoad.Value
import LineageLoad.Workload.Error
import LineageLoad.Workload.Existing
import LineageLoad.Workload.FillEvents
import LineageLoad.Workload.FillLinks
import LineageLoad.Workload.FillNodes
import LineageLoad.Workload.FillTypes
import LineageLoad.Workload.Generator
import LineageLoad.Workload.Lifecycle
import LineageLoad.Workload.Load
import LineageLoad.Workload.Names
import LineageLoad.Workload.Note
import LineageLoad.Workload.Prepare
import LineageLoad.Workload.ReadLinked
import LineageLoad.Workload.ReadNodes
import LineageLoad.Workload.ReadTypes
import LineageLoad.Yaml.Cursor
import LineageLoad.Yaml.Node
import LineageLoad.Yaml.Scalar
import LineageLoad.Yaml.Tag
import LineageLoad.Yaml.Token
import LineageLoad.Yaml.Value
