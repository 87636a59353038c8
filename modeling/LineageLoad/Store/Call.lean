import LineageLoad.Store.Write

/-!
The calls that a store serves, as data, and what serving means: for the contents themselves
(Database.serve), and for anything else that answers calls (Store).
-/

namespace LineageLoad

/-- One call to a store. -/
inductive Call where
  | getTypes (kind : Kind)
  | getTypesById (kind : Kind) (ids : List EntityId)
  | getType (kind : Kind) (name : String)
  | putType (kind : Kind) (type : EntityType) (canAddFields : Bool)
  | putNodes (kind : Kind) (nodes : List Node)
  | getNodes (kind : Kind)
  | getNodesById (kind : Kind) (ids : List EntityId)
  | getNodesByType (kind : Kind) (typeName : String)
  | getNodeByTypeAndName (kind : Kind) (typeName name : String)
  | putEvents (events : List Event)
  | getEventsByArtifactIds (ids : List EntityId)
  | getEventsByExecutionIds (ids : List EntityId)
  | putLinks (attributions associations : List Link)
  | getArtifactsByContext (context : EntityId)
  | getExecutionsByContext (context : EntityId)
  | getContextsByArtifact (artifact : EntityId)
  | getContextsByExecution (execution : EntityId)
  deriving DecidableEq, Inhabited

namespace Call

/-- What a served call answers. -/
abbrev Reply : Call → Type
  | getTypes _ => List EntityType
  | getTypesById .. => List EntityType
  | getType .. => Option EntityType
  | putType .. => EntityId
  | putNodes .. => List EntityId
  | getNodes _ => List Node
  | getNodesById .. => List Node
  | getNodesByType .. => List Node
  | getNodeByTypeAndName .. => Option Node
  | putEvents _ => Unit
  | getEventsByArtifactIds _ => List Event
  | getEventsByExecutionIds _ => List Event
  | putLinks .. => Unit
  | getArtifactsByContext _ => List Node
  | getExecutionsByContext _ => List Node
  | getContextsByArtifact _ => List Node
  | getContextsByExecution _ => List Node

/-- The name of the operation that a call asks for. -/
def method : Call → String
  | getTypes _ => "get_types"
  | getTypesById .. => "get_types_by_id"
  | getType .. => "get_type"
  | putType .. => "put_type"
  | putNodes .. => "put_nodes"
  | getNodes _ => "get_nodes"
  | getNodesById .. => "get_nodes_by_id"
  | getNodesByType .. => "get_nodes_by_type"
  | getNodeByTypeAndName .. => "get_node_by_type_and_name"
  | putEvents _ => "put_events"
  | getEventsByArtifactIds _ => "get_events_by_artifact_ids"
  | getEventsByExecutionIds _ => "get_events_by_execution_ids"
  | putLinks .. => "put_attributions_and_associations"
  | getArtifactsByContext _ => "get_artifacts_by_context"
  | getExecutionsByContext _ => "get_executions_by_context"
  | getContextsByArtifact _ => "get_contexts_by_artifact"
  | getContextsByExecution _ => "get_contexts_by_execution"

end Call

/-- Anything that answers calls: the state (σ) is all that the answers depend on. -/
structure Store (σ : Type) where
  serve (call : Call) (state : σ) : Except StoreError call.Reply × σ

/-- Asks a store one call; a refusal ends what follows. -/
def Store.ask {σ : Type} (store : Store σ) (call : Call)
    : ExceptT StoreError (StateM σ) call.Reply :=
  ExceptT.mk (store.serve call)

namespace Database

/-- Adopts the contents that a write answers, or keeps the old ones if it is refused. -/
def commit {α : Type} (db : Database)
    : Except StoreError (α × Database) → Except StoreError α × Database
  | .ok (reply, db) => (.ok reply, db)
  | .error error => (.error error, db)

def serve : (call : Call) → Database → Except StoreError call.Reply × Database
  | .getTypes kind, db => (.ok (db.typesOf kind), db)
  | .getTypesById kind ids, db => (.ok (ids.filterMap (db.typeById? kind)), db)
  | .getType kind name, db => (.ok (db.typeByName? kind name), db)
  | .putType kind type canAddFields, db => db.commit (db.putType kind type canAddFields)
  | .putNodes kind nodes, db => db.commit (db.putNodes kind nodes)
  | .getNodes kind, db => (.ok (db.nodesOf kind), db)
  | .getNodesById kind ids, db => (.ok (ids.filterMap (db.nodeById? kind)), db)
  | .getNodesByType kind typeName, db => (.ok (db.nodesByType kind typeName), db)
  | .getNodeByTypeAndName kind typeName name, db => (.ok (db.nodeByName? kind typeName name), db)
  | .putEvents events, db => db.commit ((db.putEvents events).map ((), ·))
  | .getEventsByArtifactIds ids, db => (.ok (db.eventsOfArtifacts ids), db)
  | .getEventsByExecutionIds ids, db => (.ok (db.eventsOfExecutions ids), db)
  | .putLinks attributions associations, db =>
    db.commit ((db.putLinks attributions associations).map ((), ·))
  | .getArtifactsByContext context, db => (.ok (db.nodesInContext .artifact context), db)
  | .getExecutionsByContext context, db => (.ok (db.nodesInContext .execution context), db)
  | .getContextsByArtifact artifact, db => (.ok (db.contextsOf .artifact artifact), db)
  | .getContextsByExecution execution, db => (.ok (db.contextsOf .execution execution), db)

/-- The store that serves every call from its contents. -/
def store : Store Database := ⟨serve⟩

end Database

end LineageLoad
