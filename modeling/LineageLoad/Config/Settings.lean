import LineageLoad.Config.Workloads
import LineageLoad.Log.Level

/-!
All settings of a run and their JSON form. Every part has a default.
-/

namespace LineageLoad

namespace ThreadEnvConfig

/-- The limit to attempts has 32 bits. -/
def decodeAttempts : Json → Decoded (Option Nat) := Decode.nullable (Decode.nat (UInt32.size - 1))

def decode (rules : DecodeRules) (json : Json) : Decoded ThreadEnvConfig := do
  let default : ThreadEnvConfig := {}
  let found ← Decode.record rules [Decode.field "num_threads" .optional Decode.unsigned64,
    Decode.field "max_attempts" .optional decodeAttempts] json
  return {
    numThreads := ← Decode.valueOr default.numThreads Decode.unsigned64 (found[0]?.join)
    maxAttempts := ← Decode.valueOr default.maxAttempts decodeAttempts (found[1]?.join) }

/-- The JSON form of the settings of the worker threads. -/
def toJson (config : ThreadEnvConfig) : Json :=
  .object [("num_threads", .integer config.numThreads),
    ("max_attempts", .ofOption (.integer ·) config.maxAttempts)]

end ThreadEnvConfig

namespace Logging

def decodeLevel (json : Json) : Decoded LogLevel := do
  match LogLevel.parse? (← Decode.textOrCharacter json) with
  | some level => return level
  | none => .fail .message

def decode (rules : DecodeRules) (json : Json) : Decoded Logging := do
  let default : Logging := {}
  let format := Decode.choice rules (choicesOf LogFormat.label LogFormat.all)
  let found ← Decode.record rules [Decode.field "level" .optional decodeLevel,
    Decode.field "format" .optional format] json
  return {
    level := ← Decode.valueOr default.level decodeLevel (found[0]?.join)
    format := ← Decode.valueOr default.format format (found[1]?.join) }

/-- The JSON form of the settings of logging. -/
def toJson (logging : Logging) : Json :=
  .object [("level", .string logging.level.label), ("format", .string logging.format.label)]

end Logging

/-- All settings of a run. -/
structure Settings where
  /-- Where all connections lead to. -/
  connection : ConnectionConfig := .inMemory "mlmd-bench"
  threads : ThreadEnvConfig := {}
  logging : Logging := {}
  /-- The workloads in the order in which they run. -/
  workloads : List WorkloadConfig := []
  deriving DecidableEq, Inhabited

namespace Settings

def decode (rules : DecodeRules) (json : Json) : Decoded Settings := do
  let default : Settings := {}
  let connection := ConnectionConfig.decode rules
  let threads := ThreadEnvConfig.decode rules
  let logging := Logging.decode rules
  let workloads := Decode.list WorkloadConfig.decode
  let found ← Decode.record rules [Decode.field "mlmd_config" .optional connection,
    Decode.field "thread_env_config" .optional threads,
    Decode.field "logging" .optional logging,
    Decode.field "workload_configs" .optional workloads] json
  return {
    connection := ← Decode.valueOr default.connection connection (found[0]?.join)
    threads := ← Decode.valueOr default.threads threads (found[1]?.join)
    logging := ← Decode.valueOr default.logging logging (found[2]?.join)
    workloads := ← Decode.valueOr default.workloads workloads (found[3]?.join) }

def toJson (settings : Settings) : Json :=
  .object [("mlmd_config", settings.connection.toJson),
    ("thread_env_config", settings.threads.toJson),
    ("logging", settings.logging.toJson),
    ("workload_configs", .array (settings.workloads.map WorkloadConfig.toJson))]

end Settings

end LineageLoad
