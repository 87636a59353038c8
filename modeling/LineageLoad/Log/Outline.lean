import LineageLoad.Config.Workloads
import LineageLoad.Json.Printer

/-!
Workloads in one line, for logs: what is generated, and how far the workload is.
-/

namespace LineageLoad

/-- A name of words joined by underscores as one of capitalised words without anything between. -/
def capitalizedWords (name : String) : String :=
  String.join ((name.splitToList (· = '_')).map String.capitalize)

namespace Load

/-- What a load generates: the part of the program that does it, with its kind of configuration and
the specification.
-/
def outline (load : Load Sampler) : String :=
  let config := capitalizedWords load.family.key
  let generator := (config.dropEnd "Config".length).toString
  generator ++ " \x7b config: " ++ config ++ " \x7b specification: "
    ++ capitalizedWords load.specification ++ " \x7d \x7d"

end Load

/-- The workload with its generator, its size and its state. -/
def LoadWorkload.outline (workload : LoadWorkload) : String :=
  "GeneratedWorkload \x7b name: " ++ Json.quote workload.name
    ++ ", generator: " ++ workload.generator.outline
    ++ s!", num_operations: {workload.numOperations}, work_items: {workload.items.length}"
    ++ s!", is_prepared: {workload.isPrepared} \x7d"

end LineageLoad
