import LineageLoad.Entity

/-!
The contents of a store and everything that can be read from them. Types and nodes stand in tables
by ascending id; the names of nodes are indexed beside their table.
-/

namespace LineageLoad

/-- Pairs in ascending order of the first component, then of the second one. -/
abbrev pairOrder {α β : Type} [Ord α] [Ord β] : α × β → α × β → Ordering := lexOrd.compare

/-- Rows by ascending id. -/
abbrev Table (α : Type) := Std.ExtTreeMap EntityId α compare

/-- The rows of a table, in ascending order of their ids. -/
def Table.values {α : Type} (table : Table α) : List α := table.toList.map (·.2)

/-- Links as pairs of a context and a node, in ascending order. -/
abbrev LinkSet := Std.ExtTreeSet (EntityId × EntityId) pairOrder

/-- The nodes of one kind. -/
structure NodeTable where
  /-- The id given last. -/
  lastId : EntityId := 0
  rows : Table Node := ∅
  /-- The id of the node with a type and a name. -/
  names : Std.ExtTreeMap (EntityId × String) EntityId pairOrder := ∅
  deriving Inhabited

/-- The contents of a store. -/
structure Database where
  /-- The type id given last; the kinds share one sequence. -/
  lastTypeId : EntityId := 0
  types : PerKind (Table EntityType) := .const ∅
  nodes : PerKind NodeTable := .const {}
  /-- All events, in the order in which they were stored. -/
  events : List Event := []
  /-- Links of contexts and artifacts. -/
  attributions : LinkSet := ∅
  /-- Links of contexts and executions. -/
  associations : LinkSet := ∅
  deriving Inhabited

namespace Database

def empty : Database := {}

/-- The types of a kind, in ascending order of their ids. -/
def typesOf (db : Database) (kind : Kind) : List EntityType := (db.types.get kind).values

/-- The type of a kind with an id. -/
def typeById? (db : Database) (kind : Kind) (id : EntityId) : Option EntityType :=
  (db.types.get kind)[id]?

/-- The type of a kind with a name, and the id it stands under. -/
def typeEntry? (db : Database) (kind : Kind) (name : String) : Option (EntityId × EntityType) :=
  (db.types.get kind).toList.find? (·.2.name == name)

/-- The type of a kind with a name. -/
def typeByName? (db : Database) (kind : Kind) (name : String) : Option EntityType :=
  (db.typesOf kind).find? (·.name == name)

/-- The nodes of a kind, in ascending order of their ids. -/
def nodesOf (db : Database) (kind : Kind) : List Node := (db.nodes.get kind).rows.values

/-- The node of a kind with an id. -/
def nodeById? (db : Database) (kind : Kind) (id : EntityId) : Option Node :=
  (db.nodes.get kind).rows[id]?

/-- Whether a node of a kind has an id. -/
def hasNode (db : Database) (kind : Kind) (id : EntityId) : Bool := (db.nodeById? kind id).isSome

/-- The id of the type of a kind with a name. -/
def typeIdByName? (db : Database) (kind : Kind) (name : String) : Option EntityId :=
  (db.typeByName? kind name).bind (·.id)

/-- The nodes of a kind whose type has a name, in ascending order of their ids. -/
def nodesByType (db : Database) (kind : Kind) (typeName : String) : List Node :=
  match db.typeIdByName? kind typeName with
  | none => []
  | some typeId => (db.nodesOf kind).filter (·.typeId == typeId)

/-- The node of a kind with a type name and a name, found through the index of names. -/
def nodeByName? (db : Database) (kind : Kind) (typeName name : String) : Option Node :=
  match db.typeIdByName? kind typeName with
  | none => none
  | some typeId => (db.nodes.get kind).names[(typeId, name)]?.bind (db.nodeById? kind)

/-- The events of the given artifacts, in the order in which they were stored. -/
def eventsOfArtifacts (db : Database) (ids : List EntityId) : List Event :=
  db.events.filter (ids.contains ·.artifact)

/-- The events of the given executions, in the order in which they were stored. -/
def eventsOfExecutions (db : Database) (ids : List EntityId) : List Event :=
  db.events.filter (ids.contains ·.execution)

/-- The links of the nodes of a kind to contexts; contexts are not linked to each other. -/
def linksOf (db : Database) : Kind → LinkSet
  | .artifact => db.attributions
  | .execution => db.associations
  | .context => ∅

/-- The nodes of a kind that are linked to a context, in ascending order of their ids. -/
def nodesInContext (db : Database) (kind : Kind) (context : EntityId) : List Node :=
  ((db.linksOf kind).toList.filter (·.1 == context)).filterMap (db.nodeById? kind ·.2)

/-- The contexts that a node of a kind is linked to, in ascending order of their ids. -/
def contextsOf (db : Database) (kind : Kind) (node : EntityId) : List Node :=
  ((db.linksOf kind).toList.filter (·.2 == node)).filterMap (db.nodeById? .context ·.1)

end Database

end LineageLoad
