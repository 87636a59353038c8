import LineageLoad.Config.Decode
import LineageLoad.Entity
import LineageLoad.Store.Server

/-!
The JSON form of what a store keeps and of connections to it.
-/

namespace LineageLoad

variable {α : Type}

/-- Choices by the names that a function gives them. -/
def choicesOf (label : α → String) (choices : List α) : List (String × α) :=
  choices.map fun choice => (label choice, choice)

def Kind.decode (rules : DecodeRules) : Json → Decoded Kind :=
  Decode.choice rules (choicesOf Kind.label Kind.all)

def PropertyType.decode (rules : DecodeRules) : Json → Decoded PropertyType :=
  Decode.choice rules (choicesOf PropertyType.label PropertyType.all)

def Direction.decode (rules : DecodeRules) : Json → Decoded Direction :=
  Decode.choice rules (choicesOf Direction.label Direction.all)

/-- Reads a value: an object with one field, named for the type of the value. -/
def Value.decode : Json → Decoded Value
  | .object [("int", item)] => (Decode.signed64 item).map fun n => .int (Int64.ofInt n)
  | .object [("double", item)] => (Decode.double item).map .double
  | .object [("string", item)] => (Decode.text item).map .string
  | .object [(name, _)] => .fail (.unknownVariant name)
  | _ => .fail .invalidType

def Value.toJson : Value → Json
  | .int value => .object [("int", .integer value.toInt)]
  | .double value => .object [("double", .float value)]
  | .string value => .object [("string", .string value)]

/-- Reads properties; of two with the same name the last one counts. -/
def PropertyMap.decode (decode : Json → Decoded α) (json : Json) : Decoded (PropertyMap α) :=
  (Decode.entries decode json).map fun entries => .ofList entries

/-- The JSON form of properties, in ascending order of the names. -/
def PropertyMap.toJson (form : α → Json) (properties : PropertyMap α) : Json :=
  .object (properties.toList.map fun (name, item) => (name, form item))

/-- The JSON form of what may be missing. -/
def Json.ofOption (form : α → Json) (item : Option α) : Json := item.elim .null form

def EntityType.decode (json : Json) : Decoded EntityType := do
  let id := Decode.nullable Decode.signed64
  let properties := PropertyMap.decode (PropertyType.decode .strict)
  let found ← Decode.record .strict [Decode.field "id" .nullable id,
    Decode.field "name" .required Decode.text,
    Decode.field "properties" .required properties] json
  return {
    id := ← Decode.valueOr none id (found[0]?.join)
    name := ← Decode.value Decode.text (found[1]?.join)
    properties := ← Decode.value properties (found[2]?.join) }

def EntityType.toJson (type : EntityType) : Json :=
  .object [("id", .ofOption .integer type.id), ("name", .string type.name),
    ("properties", PropertyMap.toJson (fun declared => .string declared.label) type.properties)]

def Node.decode (json : Json) : Decoded Node := do
  let id := Decode.nullable Decode.signed64
  let name := Decode.nullable Decode.text
  let properties := PropertyMap.decode Value.decode
  let found ← Decode.record .strict [Decode.field "id" .nullable id,
    Decode.field "type_id" .required Decode.signed64,
    Decode.field "type_name" .required Decode.text,
    Decode.field "name" .nullable name,
    Decode.field "properties" .required properties,
    Decode.field "custom_properties" .required properties] json
  return {
    id := ← Decode.valueOr none id (found[0]?.join)
    typeId := ← Decode.value Decode.signed64 (found[1]?.join)
    typeName := ← Decode.value Decode.text (found[2]?.join)
    name := ← Decode.valueOr none name (found[3]?.join)
    properties := ← Decode.value properties (found[4]?.join)
    customProperties := ← Decode.value properties (found[5]?.join) }

def Node.toJson (node : Node) : Json :=
  .object [("id", .ofOption .integer node.id), ("type_id", .integer node.typeId),
    ("type_name", .string node.typeName), ("name", .ofOption .string node.name),
    ("properties", PropertyMap.toJson Value.toJson node.properties),
    ("custom_properties", PropertyMap.toJson Value.toJson node.customProperties)]

def Event.decode (json : Json) : Decoded Event := do
  let found ← Decode.record .strict [Decode.field "artifact_id" .required Decode.signed64,
    Decode.field "execution_id" .required Decode.signed64,
    Decode.field "event_type" .required (Direction.decode .strict)] json
  return {
    artifact := ← Decode.value Decode.signed64 (found[0]?.join)
    execution := ← Decode.value Decode.signed64 (found[1]?.join)
    direction := ← Decode.value (Direction.decode .strict) (found[2]?.join) }

def Event.toJson (event : Event) : Json :=
  .object [("artifact_id", .integer event.artifact), ("execution_id", .integer event.execution),
    ("event_type", .string event.direction.label)]

/-- The name of the field that holds the node of a link. -/
def Link.nodeField (kind : Kind) : String := kind.label ++ "_id"

/-- Reads a link of a node of a kind. -/
def Link.decode (kind : Kind) (json : Json) : Decoded Link := do
  let found ← Decode.record .strict [Decode.field (nodeField kind) .required Decode.signed64,
    Decode.field "context_id" .required Decode.signed64] json
  return {
    node := ← Decode.value Decode.signed64 (found[0]?.join)
    context := ← Decode.value Decode.signed64 (found[1]?.join) }

/-- The JSON form of a link of a node of a kind. -/
def Link.toJson (kind : Kind) (link : Link) : Json :=
  .object [(nodeField kind, .integer link.node), ("context_id", .integer link.context)]

namespace ConnectionConfig

/-- The two ways of connecting. -/
inductive Way where
  | inMemory
  | fakeDatabase
  deriving DecidableEq, Repr, Inhabited

def ways : List (String × Way) := [("in_memory", .inMemory), ("fake_database", .fakeDatabase)]

/-- Reads the way of connecting and the fields beside it, all of which must be readable. -/
def decodeTag (rules : DecodeRules) (way : Option Way) (others : List (String × Json))
    : List (String × Json) → Decoded (Way × List (String × Json))
  | [] =>
    match way with
    | some way => .ok (way, others.reverse)
    | none => .fail (.missingField "type")
  | ("type", item) :: rest => do
    if way.isSome then .fail (.duplicateField "type")
    let way ← (Decode.tag rules ways item).under "type"
    decodeTag rules (some way) others rest
  | (name, item) :: rest => do
    (Decode.readable item).under name
    decodeTag rules way ((name, item) :: others) rest

/-- Reads the connection that goes a certain way from what is left beside it. -/
def ofRest (way : Way) (rest : Json) : Decoded ConnectionConfig :=
  match way with
  | .inMemory => do
    let found ← Decode.record .strict [Decode.field "name" .required Decode.text] rest
    return .inMemory (← Decode.value Decode.text (found[0]?.join))
  | .fakeDatabase =>
    match rest with
    | .array (_ :: _) => .fail .invalidLength
    | _ => .ok .fakeDatabase

/-- Reads a connection: an object that names the way, or an array that begins with it. -/
def decode (rules : DecodeRules) : Json → Decoded ConnectionConfig
  | .object fields => do
    let (way, others) ← decodeTag rules none [] fields
    (ofRest way (.object others)).unlocated
  | .array [] => .fail (.missingField "type")
  | .array (item :: rest) => do
    let way ← (Decode.tag rules ways item).under "0"
    Decode.readableItems 1 rest
    (ofRest way (.array rest)).unlocated
  | _ => .fail .invalidType

def toJson : ConnectionConfig → Json
  | .inMemory name => .object [("type", .string "in_memory"), ("name", .string name)]
  | .fakeDatabase => .object [("type", .string "fake_database")]

end ConnectionConfig

end LineageLoad
