import LineageLoad.Json.Basic

/-!
Reading typed values from JSON values. An error says what is wrong and where: the names and
positions that lead to the value.
-/

namespace LineageLoad

/-- What is wrong with a value. -/
inductive DecodeError.Kind where
  | message
  | invalidType
  | invalidValue
  | invalidLength
  | unknownVariant (name : String)
  | missingField (name : String)
  | duplicateField (name : String)
  deriving DecidableEq, Repr, Inhabited

/-- An error at the end of a path of names and positions. -/
structure DecodeError where
  kind : DecodeError.Kind
  path : List String := []
  deriving DecidableEq, Repr, Inhabited

/-- The result of reading a value. -/
abbrev Decoded (α : Type) := Except DecodeError α

/-- What the source of values leaves open. -/
structure DecodeRules where
  /-- A number stands for the tag at its position. -/
  numberedTags : Bool
  /-- Items that a record has no field for are passed over. -/
  extraItems : Bool
  /-- Fields after the first one that names a variant are passed over. -/
  extraVariants : Bool
  /-- An empty object under the name of a choice counts as null. -/
  emptyAsNull : Bool
  deriving DecidableEq, Repr, Inhabited

namespace DecodeRules

/-- JSON text is read strictly. -/
def strict : DecodeRules := ⟨false, false, false, false⟩

/-- What was set aside until the other fields of an object were read is read almost as strictly. -/
def setAside : DecodeRules := { strict with emptyAsNull := true }

/-- Merged sources of a configuration are read leniently. -/
def lenient : DecodeRules := ⟨true, true, true, false⟩

end DecodeRules

namespace Decoded

variable {α β : Type}

def fail (kind : DecodeError.Kind) : Decoded α := .error { kind }

/-- Puts a name in front of the path of an error. -/
def under (name : String) (result : Decoded α) : Decoded α :=
  result.mapError fun error => { error with path := name :: error.path }

/-- Forgets the path of an error. -/
def unlocated (result : Decoded α) : Decoded α :=
  result.mapError fun error => { error with path := [] }

end Decoded

namespace Decode

variable {α : Type}

-----------------------------------------------------------------------------------------
-- Single values
-----------------------------------------------------------------------------------------

def integer (least greatest : Int) : Json → Decoded Int
  | .integer value =>
    if least ≤ value ∧ value ≤ greatest then .ok value else .fail .invalidValue
  | .minusZero => .ok 0
  | _ => .fail .invalidType

/-- Reads a natural number up to a bound. -/
def nat (greatest : Nat) (json : Json) : Decoded Nat :=
  (integer 0 greatest json).map Int.toNat

/-- Reads an integer of 64 bits with a sign. -/
def signed64 (json : Json) : Decoded Int := integer Int64.minValue.toInt Int64.maxValue.toInt json

/-- Reads an integer of 64 bits without a sign. -/
def unsigned64 (json : Json) : Decoded Nat := nat (UInt64.size - 1) json

def boolean : Json → Decoded Bool
  | .bool value => .ok value
  | _ => .fail .invalidType

def text : Json → Decoded String
  | .string value => .ok value
  | _ => .fail .invalidType

/-- Reads a text that may be a single character. -/
def textOrCharacter : Json → Decoded String
  | .character value => .ok value.toString
  | json => text json

/-- Reads a number that need not be an integer. -/
def double : Json → Decoded Double
  | .float value => .ok value
  | .integer value =>
    let magnitude := Double.ofNat value.natAbs
    .ok (if value < 0 then magnitude.negate else magnitude)
  | _ => .fail .invalidType

/-- Reads a value that may be null. -/
def nullable (decode : Json → Decoded α) : Json → Decoded (Option α)
  | .null => .ok none
  | json => (decode json).map some

def list (decode : Json → Decoded α) : Json → Decoded (List α)
  | .array items => items.zipIdx.mapM fun (item, position) =>
    (decode item).under (toString position)
  | _ => .fail .invalidType

/-- Reads all fields of an object, in order. -/
def entries (decode : Json → Decoded α) : Json → Decoded (List (String × α))
  | .object fields => fields.mapM fun (name, item) => (decode item).under name |>.map (name, ·)
  | _ => .fail .invalidType

-----------------------------------------------------------------------------------------
-- Choices
-----------------------------------------------------------------------------------------

def named (choices : List (String × α)) (name : String) : Decoded α :=
  match choices.lookup name with
  | some choice => .ok choice
  | none => .fail (.unknownVariant name)

/-- Whether a value under the name of a choice adds nothing to it. -/
def isNothing (rules : DecodeRules) : Json → Bool
  | .null => true
  | .object [] => rules.emptyAsNull
  | _ => false

/-- Reads a choice: its name, or an object with one field that has that name and holds nothing. -/
def choice (rules : DecodeRules) (choices : List (String × α)) : Json → Decoded α
  | .string name => named choices name
  | .object [] => .fail (if rules.extraVariants then .invalidType else .invalidValue)
  | .object ((name, item) :: rest) => do
    if !rest.isEmpty && !rules.extraVariants then .fail .invalidValue
    let choice ← (named choices name).under name
    if isNothing rules item then return choice else Decoded.under name (.fail .invalidType)
  | _ => .fail .invalidType

/-- Reads a tag: its name, or its position where the rules admit it. -/
def tag (rules : DecodeRules) (choices : List (String × α)) : Json → Decoded α
  | .string name => named choices name
  | .character name => named choices name.toString
  | .integer position =>
    if !rules.numberedTags || position < 0 then .fail .invalidType
    else match choices[position.toNat]? with
      | some (_, choice) => .ok choice
      | none => .fail .invalidValue
  | _ => .fail .invalidType

-----------------------------------------------------------------------------------------
-- Records
-----------------------------------------------------------------------------------------

/-- What becomes of a field that is missing. -/
inductive Presence where
  /-- It is an error. -/
  | required
  /-- An object may leave it out, which means null; a list of all fields may not. -/
  | nullable
  /-- It has a default. -/
  | optional
  deriving DecidableEq, Repr, Inhabited

/-- A field of a record. -/
structure Field where
  name : String
  presence : Presence
  /-- Tells whether a value can be read. -/
  check : Json → Decoded Unit

/-- The field that is read by a function. -/
def field (name : String) (presence : Presence) (decode : Json → Decoded α) : Field :=
  ⟨name, presence, fun json => (decode json).map fun _ => ()⟩

/-- Checks the fields of an object in the order in which they stand; (seen) are those before. -/
def checkEntries (fields : List Field) (seen : List String)
    : List (String × Json) → Decoded Unit
  | [] => .ok ()
  | (name, item) :: rest => do
    match fields.find? (·.name == name) with
    | none => checkEntries fields seen rest
    | some field =>
      if seen.contains name then .fail (.duplicateField name)
      (field.check item).under name
      checkEntries fields (name :: seen) rest

/-- Checks the items of an array, one for each field in order. -/
def checkItems (rules : DecodeRules) (position : Nat) : List Field → List Json → Decoded Unit
  | [], [] => .ok ()
  | [], _ :: _ => if rules.extraItems then .ok () else .fail .invalidLength
  | field :: fields, [] =>
    if field.presence = .optional then checkItems rules (position + 1) fields []
    else .fail .invalidLength
  | field :: fields, item :: rest => do
    (field.check item).under (toString position)
    checkItems rules (position + 1) fields rest

/-- The first required field that is not among the names. -/
def missing? (fields : List Field) (names : List String) : Option String :=
  (fields.find? fun field => field.presence = .required && !names.contains field.name).map (·.name)

/-- Reads a record, an object or an array, into the values of its fields in order; those that are
left out are missing.
-/
def record (rules : DecodeRules) (fields : List Field) : Json → Decoded (List (Option Json))
  | .object found => do
    checkEntries fields [] found
    match missing? fields (found.map (·.1)) with
    | some name => .fail (.missingField name)
    | none => return fields.map fun field => found.lookup field.name
  | .array items => do
    checkItems rules 0 fields items
    return (List.range fields.length).map (items[·]?)
  | _ => .fail .invalidType

/-- Reads a value of a record that was found to be readable. -/
def value (decode : Json → Decoded α) (found : Option Json) : Decoded α :=
  match found with
  | some json => decode json
  | none => .fail .message

/-- Reads a value of a record, or takes the default if it is left out. -/
def valueOr (default : α) (decode : Json → Decoded α) (found : Option Json) : Decoded α :=
  match found with
  | some json => decode json
  | none => .ok default

-----------------------------------------------------------------------------------------
-- Values that are kept for later
-----------------------------------------------------------------------------------------

mutual

/-- Fails if a value holds one that cannot be read. -/
def readable : Json → Decoded Unit
  | .unreadable => .fail .invalidType
  | .array items => readableItems 0 items
  | .object fields => readableFields fields
  | _ => .ok ()

/-- Fails if an item cannot be read. -/
def readableItems (position : Nat) : List Json → Decoded Unit
  | [] => .ok ()
  | item :: rest => do
    (readable item).under (toString position)
    readableItems (position + 1) rest

/-- Fails if a field cannot be read. -/
def readableFields : List (String × Json) → Decoded Unit
  | [] => .ok ()
  | (name, item) :: rest => do
    (readable item).under name
    readableFields rest

end

end Decode

end LineageLoad
