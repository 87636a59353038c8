import LineageLoad.Runner.Run
import LineageLoad.Workload.Load

/-!
The workloads of a run, made from their configuration.
-/

namespace LineageLoad

/-- The configuration of one workload. -/
structure WorkloadConfig where
  numOperations : Nat
  /-- The seed of the draws, which is chosen anew if it is missing. -/
  seed : Option UInt64
  load : Load CountRange
  deriving DecidableEq, Inhabited

/-- A workload of one of the kinds of load. -/
abbrev LoadWorkload := GeneratedWorkload (Load Sampler) Xoshiro

/-- Makes a workload; (freshSeed) is taken if the configuration has no seed. -/
def WorkloadConfig.workload? (config : WorkloadConfig) (freshSeed : UInt64)
    : Except BenchError LoadWorkload :=
  config.load.validate.map fun load =>
    { generator := load
      numOperations := config.numOperations
      source := .ofSeed (config.seed.getD freshSeed) }

/-- The workloads of a run, each with the number of operations to execute. -/
abbrev Benchmark := List (LoadWorkload × Nat)

/-- Makes the workloads in the order of their configurations; the first one that cannot be made
fails. (freshSeed) gives a seed to each position that has none.
-/
def Benchmark.new? (freshSeed : Nat → UInt64) (configs : List WorkloadConfig)
    : Except BenchError Benchmark :=
  configs.zipIdx.mapM fun (config, position) =>
    (config.workload? (freshSeed position)).map (·, config.numOperations)

end LineageLoad
