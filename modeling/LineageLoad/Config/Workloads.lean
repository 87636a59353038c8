import LineageLoad.Benchmark
import LineageLoad.Config.Entities

/-!
The JSON form of workloads: an entry holds the number of operations, perhaps a seed, and the
parameters of one kind of load under a key that names the kind.
-/

namespace LineageLoad

namespace CountRange

def decode (json : Json) : Decoded CountRange := do
  let found ← Decode.record .strict [Decode.field "minimum" .required Decode.unsigned64,
    Decode.field "maximum" .required Decode.unsigned64] json
  return {
    minimum := ← Decode.value Decode.unsigned64 (found[0]?.join)
    maximum := ← Decode.value Decode.unsigned64 (found[1]?.join) }

def toJson (range : CountRange) : Json :=
  .object [("minimum", .integer range.minimum), ("maximum", .integer range.maximum)]

end CountRange

namespace Load

/-- The kinds of load, which are the keys of an entry. -/
inductive Family where
  | fillTypes
  | fillNodes
  | fillLinks
  | fillEvents
  | readTypes
  | readNodes
  | readLinked
  | readEvents
  deriving DecidableEq, Repr, Inhabited

def Family.all : List Family :=
  [fillTypes, fillNodes, fillLinks, fillEvents, readTypes, readNodes, readLinked, readEvents]

def Family.key : Family → String
  | fillTypes => "fill_types_config"
  | fillNodes => "fill_nodes_config"
  | fillLinks => "fill_context_edges_config"
  | fillEvents => "fill_events_config"
  | readTypes => "read_types_config"
  | readNodes => "read_nodes_by_properties_config"
  | readLinked => "read_nodes_via_context_edges_config"
  | readEvents => "read_events_config"

/-- The keys of all kinds of load. -/
def families : List (String × Family) := choicesOf Family.key Family.all

def family {ρ : Type} : Load ρ → Family
  | .fillTypes .. => .fillTypes
  | .fillNodes .. => .fillNodes
  | .fillLinks _ => .fillLinks
  | .fillEvents _ => .fillEvents
  | .readTypes .. => .readTypes
  | .readNodes .. => .readNodes
  | .readLinked _ => .readLinked
  | .readEvents _ => .readEvents

/-- The loads of a kind that is described by a specification alone. -/
def plain : Family → List (Load CountRange)
  | .fillLinks => [.fillLinks .attribution, .fillLinks .association]
  | .fillEvents => Direction.all.map .fillEvents
  | .readTypes => [.all, .byId, .byName].flatMap fun (read : TypeRead) =>
    Kind.all.map (.readTypes · read)
  | .readNodes => [.byId, .byType, .byTypeAndName].flatMap fun (read : NodeRead) =>
    Kind.all.map (.readNodes · read)
  | .readLinked => [.readLinked .artifactsByContext, .readLinked .executionsByContext,
    .readLinked .contextsByArtifact, .readLinked .contextsByExecution]
  | .readEvents => [.readEvents .byArtifact, .readEvents .byExecution]
  | .fillTypes => []
  | .fillNodes => []

/-- Reads the parameters of a load that creates or updates types. -/
def decodeFillTypes (rules : DecodeRules) (json : Json) : Decoded (Load CountRange) := do
  let specification := Decode.choice rules (choicesOf Kind.typeLabel Kind.all)
  let found ← Decode.record rules [Decode.field "specification" .required specification,
    Decode.field "update" .optional Decode.boolean,
    Decode.field "num_properties" .required CountRange.decode] json
  let kind ← Decode.value specification (found[0]?.join)
  let update ← Decode.valueOr false Decode.boolean (found[1]?.join)
  let numProperties ← Decode.value CountRange.decode (found[2]?.join)
  return .fillTypes kind update numProperties

/-- Reads the parameters of a load that creates or updates nodes. -/
def decodeFillNodes (rules : DecodeRules) (json : Json) : Decoded (Load CountRange) := do
  let specification := Kind.decode rules
  let found ← Decode.record rules [Decode.field "specification" .required specification,
    Decode.field "update" .optional Decode.boolean,
    Decode.field "num_properties" .required CountRange.decode,
    Decode.field "string_value_bytes" .required CountRange.decode] json
  let kind ← Decode.value specification (found[0]?.join)
  let update ← Decode.valueOr false Decode.boolean (found[1]?.join)
  let numProperties ← Decode.value CountRange.decode (found[2]?.join)
  let stringBytes ← Decode.value CountRange.decode (found[3]?.join)
  return .fillNodes kind update numProperties stringBytes

/-- Reads the parameters of a load that has no others than its specification. -/
def decodePlain (rules : DecodeRules) (family : Family) (json : Json)
    : Decoded (Load CountRange) := do
  let specification := Decode.choice rules (choicesOf specification (plain family))
  let found ← Decode.record rules [Decode.field "specification" .required specification] json
  Decode.value specification (found[0]?.join)

/-- Reads the parameters of a load of a kind. -/
def decodeFamily (rules : DecodeRules) (family : Family) (json : Json)
    : Decoded (Load CountRange) :=
  match family with
  | .fillTypes => decodeFillTypes rules json
  | .fillNodes => decodeFillNodes rules json
  | family => decodePlain rules family json

/-- Reads a load: an object with one field, named for the kind. -/
def decode : Json → Decoded (Load CountRange)
  | .object [(key, item)] => do
    let family ← Decode.named families key
    decodeFamily .strict family item
  | .string name => do
    let _ ← Decode.named families name
    .fail .invalidType
  | _ => .fail .invalidType

/-- The JSON form of the parameters of a load. -/
def parametersJson (load : Load CountRange) : Json :=
  let specification := ("specification", Json.string load.specification)
  match load with
  | .fillTypes _ update numProperties =>
    .object [specification, ("update", .bool update), ("num_properties", numProperties.toJson)]
  | .fillNodes _ update numProperties stringBytes =>
    .object [specification, ("update", .bool update), ("num_properties", numProperties.toJson),
      ("string_value_bytes", stringBytes.toJson)]
  | _ => .object [specification]

/-- The field of an entry that describes a load. -/
def toField (load : Load CountRange) : String × Json := (load.family.key, load.parametersJson)

end Load

namespace WorkloadConfig

/-- The fields of an entry beside the load. -/
def fields : List Decode.Field :=
  [Decode.field "num_operations" .required Decode.unsigned64,
    Decode.field "seed" .optional (Decode.nullable Decode.unsigned64)]

/-- The names of the fields beside the load. -/
def ownNames : List String := fields.map (·.name)

/-- Checks the fields of an entry in order: own ones by their rules, all others must be readable. -/
def checkEntries (seen : List String) : List (String × Json) → Decoded Unit
  | [] => .ok ()
  | (name, item) :: rest => do
    match fields.find? (·.name == name) with
    | none =>
      (Decode.readable item).under name
      checkEntries seen rest
    | some field =>
      if seen.contains name then .fail (.duplicateField name)
      (field.check item).under name
      checkEntries (name :: seen) rest

/-- The load of an entry: the first field whose name is the key of a kind. -/
def decodeLoad (found : List (String × Json)) : Decoded (Load CountRange) :=
  match found.find? fun (name, _) => (Load.families.lookup name).isSome with
  | none => .fail .message
  | some (name, item) => do
    let family ← Decode.named Load.families name
    (Load.decodeFamily .setAside family item).unlocated

def decode : Json → Decoded WorkloadConfig
  | .object found => do
    checkEntries [] found
    if (found.lookup "num_operations").isNone then .fail (.missingField "num_operations")
    let seed ← Decode.valueOr none (Decode.nullable Decode.unsigned64) (found.lookup "seed")
    return {
      numOperations := ← Decode.value Decode.unsigned64 (found.lookup "num_operations")
      seed := seed.map (·.toUInt64)
      load := ← decodeLoad found }
  | _ => .fail .invalidType

/-- The JSON form of an entry; a seed that is missing is left out. -/
def toJson (config : WorkloadConfig) : Json :=
  let seed := config.seed.toList.map fun seed => ("seed", Json.integer seed.toNat)
  .object (("num_operations", .integer config.numOperations) :: seed ++ [config.load.toField])

end WorkloadConfig

end LineageLoad
