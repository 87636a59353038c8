import LineageLoad.Store.Database
import LineageLoad.Store.Error

/-!
The four writes of a store. Each one checks its whole request against the contents first and then
answers with the new contents, so a refused write has no effect.
-/

namespace LineageLoad

/-- Why a type that is stored under an id cannot be given with another one. -/
def EntityType.wrongIdError? (kind : Kind) (id : EntityId) (given : EntityType)
    : Option StoreError :=
  given.id.bind fun other =>
    if other = id then none else some (.wrongTypeId kind given.name id other)

/-- The first stored property, in order of the names, that a new version of a type omits or
declares differently.
-/
def EntityType.conflictError? (kind : Kind) (stored given : EntityType) : Option StoreError :=
  stored.properties.toList.findSome? fun (name, declared) =>
    match given.properties[name]? with
    | none => some (.omittedProperty kind given.name name)
    | some type =>
      if type = declared then none else some (.retypedProperty kind given.name name)

/-- Whether a new version of a type declares a property that the stored one lacks. -/
def EntityType.hasFurther (stored given : EntityType) : Bool :=
  given.properties.toList.any fun (name, _) => !stored.properties.contains name

/-- The first property of a node, in order of the names, that its type does not admit. -/
def EntityType.propertyError? (type : EntityType) (node : Node) : Option StoreError :=
  node.properties.toList.findSome? fun (name, value) =>
    match type.properties[name]? with
    | none => some (.undeclaredProperty name type.name)
    | some declared =>
      if declared = value.propertyType then none
      else some (.mismatchedValue name type.name declared)

/-- Stores a node under its own id or under the next one, and keeps the index of names in step. -/
def NodeTable.put (table : NodeTable) (node : Node) : EntityId × NodeTable :=
  let id := node.id.getD (table.lastId + 1)
  let released := match table.rows[id]?.bind (·.name) with
    | some name => table.names.erase (node.typeId, name)
    | none => table.names
  (id,
    { lastId := if node.id.isSome then table.lastId else id
      rows := table.rows.insert id { node with id := some id }
      names := match node.name with
        | some name => released.insert (node.typeId, name) id
        | none => released })

/-- Stores nodes one after another and answers their ids in the same order. -/
def NodeTable.putAll (table : NodeTable) : List Node → List EntityId × NodeTable
  | [] => ([], table)
  | node :: rest =>
    let (id, table) := table.put node
    let (ids, table) := table.putAll rest
    (id :: ids, table)

namespace Database

-----------------------------------------------------------------------------------------
-- Types
-----------------------------------------------------------------------------------------

def setType (db : Database) (kind : Kind) (id : EntityId) (type : EntityType) : Database :=
  { db with types := db.types.set kind ((db.types.get kind).insert id type) }

/-- Stores a new type under the next id of the sequence that all kinds share. -/
def addType (db : Database) (kind : Kind) (type : EntityType) : EntityId × Database :=
  let id := db.lastTypeId + 1
  (id, { db.setType kind id { type with id := some id } with lastTypeId := id })

/-- Creates the named type, or checks the given version against the stored one and adds its
further properties if (canAddFields) allows it.
-/
def putType (db : Database) (kind : Kind) (type : EntityType) (canAddFields : Bool)
    : Except StoreError (EntityId × Database) :=
  if type.name = "" then .error .emptyTypeName
  else match db.typeEntry? kind type.name with
    | none =>
      match type.id with
      | some id => .error (.unknownType kind id)
      | none => .ok (db.addType kind type)
    | some (id, stored) =>
      match (EntityType.wrongIdError? kind id type).or
        (EntityType.conflictError? kind stored type) with
      | some error => .error error
      | none =>
        if stored.hasFurther type then
          if canAddFields then
            .ok (id, db.setType kind id
              { stored with properties := stored.properties ∪ type.properties })
          else .error (.furtherProperties kind type.name)
        else .ok (id, db)

-----------------------------------------------------------------------------------------
-- Nodes
-----------------------------------------------------------------------------------------

/-- Why a node with an id cannot replace the stored one. -/
def updateError? (db : Database) (kind : Kind) (node : Node) : Option StoreError :=
  match node.id with
  | none => none
  | some id =>
    match db.nodeById? kind id with
    | none => some (.unknownNode kind id)
    | some stored => if stored.typeId = node.typeId then none else some (.changedType kind id)

/-- Why a node cannot have its name: a context needs one, and no other node of the type has it. -/
def nameError? (db : Database) (kind : Kind) (type : EntityType) (node : Node)
    : Option StoreError :=
  match node.name with
  | none => if kind = .context then some .unnamedContext else none
  | some name =>
    match (db.nodes.get kind).names[(node.typeId, name)]? with
    | none => none
    | some owner => if node.id = some owner then none else some (.takenName kind name type.name)

/-- Checks one node against its type and the stored nodes, and answers its type. -/
def checkNode (db : Database) (kind : Kind) (node : Node) : Except StoreError EntityType :=
  match db.typeById? kind node.typeId with
  | none => .error (.unknownType kind node.typeId)
  | some type =>
    match (db.updateError? kind node).or
      ((type.propertyError? node).or (db.nameError? kind type node)) with
    | some error => .error error
    | none => .ok type

/-- Why a node cannot follow others in a batch, which have the (names) and the (ids). -/
def repeatError? (kind : Kind) (names : List (EntityId × String)) (ids : List EntityId)
    (node : Node) : Option StoreError :=
  let repeatedName := node.name.bind fun name =>
    if (node.typeId, name) ∈ names then some (.repeatedName kind name) else none
  let repeatedId := node.id.bind fun id =>
    if id ∈ ids then some (.repeatedId kind id) else none
  repeatedName.or repeatedId

/-- Checks the nodes of a batch in order and answers them with the names of their types filled in.
(names) and (ids) are those of the nodes before.
-/
def checkBatch (db : Database) (kind : Kind) (names : List (EntityId × String))
    (ids : List EntityId) : List Node → Except StoreError (List Node)
  | [] => .ok []
  | node :: rest =>
    match db.checkNode kind node with
    | .error error => .error error
    | .ok type =>
      match repeatError? kind names ids node with
      | some error => .error error
      | none =>
        let names := (node.name.map (Prod.mk node.typeId)).toList ++ names
        let ids := node.id.toList ++ ids
        (db.checkBatch kind names ids rest).map ({ node with typeName := type.name } :: ·)

/-- Stores a batch of nodes: those without an id are new, the others replace the stored node. -/
def putNodes (db : Database) (kind : Kind) (nodes : List Node)
    : Except StoreError (List EntityId × Database) :=
  (db.checkBatch kind [] [] nodes).map fun nodes =>
    let (ids, table) := (db.nodes.get kind).putAll nodes
    (ids, { db with nodes := db.nodes.set kind table })

-----------------------------------------------------------------------------------------
-- Events and links
-----------------------------------------------------------------------------------------

/-- The first of the given nodes that is not stored. -/
def missing? (db : Database) (endpoints : List (Kind × EntityId)) : Option StoreError :=
  endpoints.findSome? fun (kind, id) =>
    if db.hasNode kind id then none else some (.unknownNode kind id)

def putEvents (db : Database) (events : List Event) : Except StoreError Database :=
  let endpoints := events.flatMap fun event =>
    [(.artifact, event.artifact), (.execution, event.execution)]
  match db.missing? endpoints with
  | some error => .error error
  | none => .ok { db with events := db.events ++ events }

/-- Links artifacts and executions to contexts; a link that is stored already stays as it is. -/
def putLinks (db : Database) (attributions associations : List Link)
    : Except StoreError Database :=
  let endpoints (kind : Kind) (links : List Link) := links.flatMap fun link =>
    [(kind, link.node), (.context, link.context)]
  let pairs (links : List Link) := links.map fun link => (link.context, link.node)
  match db.missing? (endpoints .artifact attributions ++ endpoints .execution associations) with
  | some error => .error error
  | none =>
    .ok { db with
      attributions := db.attributions.insertMany (pairs attributions)
      associations := db.associations.insertMany (pairs associations) }

end Database

end LineageLoad
